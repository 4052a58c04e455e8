/-
**Tools, and the approval level a call of one needs** (`tools/registry.py`, `tools/policy.py`,
`tools/capabilities.py`; `tasks/working_set.py`: `approval_level`).

A tool is declared by backend code; a declaration that would let it skip a check cannot be built.
-/

import PawBackend.Tasks.WorkingSet
import PawBackend.Tools.Scope

namespace PawBackend.Tools

open Lib Lib.Text
open Authz (Capability RepoPermission)
open Tasks (WorkingSetOperation)

/-! ### Classes and levels -/

inductive ToolCapability
  | read
  | write
  | execute
  | network
  | credentialUse
  | destructive
  deriving DecidableEq, Repr

inductive Environment
  | projectLocal
  | host
  deriving DecidableEq, Repr

namespace ApprovalLevel

def severity : ApprovalLevel → ℕ
  | .auto => 0
  | .scopedAuto => 1
  | .approval => 2
  | .strongApproval => 3
  | .deny => 4

def max (first second : ApprovalLevel) : ApprovalLevel :=
  if first.severity < second.severity then second else first

/-- `most_restrictive`: `deny` for none. -/
def mostRestrictive : List ApprovalLevel → ApprovalLevel
  | [] => .deny
  | level :: rest => rest.foldl max level

theorem deny_max (level : ApprovalLevel) : max .deny level = .deny := by cases level <;> rfl

theorem max_deny (level : ApprovalLevel) : max level .deny = .deny := by cases level <;> rfl

theorem foldl_max_deny (levels : List ApprovalLevel) : levels.foldl max .deny = .deny := by
  induction levels with
  | nil => rfl
  | cons level rest ih => rw [List.foldl_cons, deny_max, ih]

theorem mostRestrictive_of_mem {levels : List ApprovalLevel} (denied : .deny ∈ levels) :
    mostRestrictive levels = .deny := by
  have fold : ∀ (rest : List ApprovalLevel) (level : ApprovalLevel), .deny ∈ rest → rest.foldl max level = .deny := by
    intro rest
    induction rest with
    | nil => exact nofun
    | cons first rest ih =>
      intro level mem
      rw [List.foldl_cons]
      rcases List.mem_cons.mp mem with isFirst | mem
      · rw [← isFirst, max_deny, foldl_max_deny]
      · exact ih _ mem
  cases levels with
  | nil => rfl
  | cons level rest =>
    rcases List.mem_cons.mp denied with rfl | mem
    · exact foldl_max_deny rest
    · exact fold rest level mem

end ApprovalLevel

/-- `approval_level`: the least level of a change of the Working Set. -/
def approvalLevel (operation : WorkingSetOperation) : ApprovalLevel :=
  if operation = .addReferenced then .scopedAuto else .strongApproval

/-! ### The policy -/

structure ToolPolicy where
  table : ToolCapability → Environment → ScopeStatus → Option ApprovalLevel
  outOfScope_denied : ∀ capability environment level,
    table capability environment .outOfScope = some level → level = .deny

def ToolPolicy.levelFor (policy : ToolPolicy) (capabilities : List ToolCapability) (environment : Environment)
    (scope : ScopeStatus) : ApprovalLevel :=
  ApprovalLevel.mostRestrictive
    (capabilities.map fun capability => (policy.table capability environment scope).getD .deny)

theorem ToolPolicy.levelFor_outOfScope (policy : ToolPolicy) (capabilities : List ToolCapability)
    (environment : Environment) : policy.levelFor capabilities environment .outOfScope = .deny := by
  unfold levelFor
  cases capabilities with
  | nil => rfl
  | cons capability rest =>
    refine ApprovalLevel.mostRestrictive_of_mem (List.mem_cons.mpr (.inl ?_))
    dsimp only
    cases found : policy.table capability environment .outOfScope with
    | none => rfl
    | some level => exact (policy.outOfScope_denied _ _ _ found).symm

/-- `DEFAULT_TOOL_POLICY`. -/
def defaultTable : ToolCapability → Environment → ScopeStatus → Option ApprovalLevel
  | _, _, .outOfScope => some .deny
  | .read, _, .inScope => some .auto
  | .read, _, .hostOutOfScope => some .approval
  | .write, .projectLocal, .inScope => some .scopedAuto
  | .write, .projectLocal, .hostOutOfScope => some .approval
  | .write, .host, _ => some .approval
  | .execute, .projectLocal, .inScope => some .scopedAuto
  | .execute, .host, .inScope => some .approval
  | .execute, _, .hostOutOfScope => some .deny
  | .network, .projectLocal, .inScope => some .scopedAuto
  | .network, .projectLocal, .hostOutOfScope => some .approval
  | .network, .host, _ => some .approval
  | .credentialUse, .projectLocal, .inScope => some .scopedAuto
  | .credentialUse, .host, .inScope => some .strongApproval
  | .credentialUse, _, .hostOutOfScope => some .deny
  | .destructive, .projectLocal, .inScope => some .approval
  | .destructive, .host, .inScope => some .strongApproval
  | .destructive, _, .hostOutOfScope => some .deny

def defaultToolPolicy : ToolPolicy where
  table := defaultTable
  outOfScope_denied := by
    intro capability environment level found
    cases capability <;> cases environment <;> exact (Option.some.inj found).symm

/-! ### Declarations -/

inductive ArgumentKind
  | path
  | url
  | host
  | project
  | repository
  | credentialHandle
  | workingSetRepository
  | text
  | integer
  | boolean
  deriving DecidableEq, Repr

/-- The value of the enumeration, as an approver is shown it. -/
def ArgumentKind.value : ArgumentKind → Text
  | .path => lit "path"
  | .url => lit "url"
  | .host => lit "host"
  | .project => lit "project"
  | .repository => lit "repository"
  | .credentialHandle => lit "credential_handle"
  | .workingSetRepository => lit "working_set_repository"
  | .text => lit "text"
  | .integer => lit "integer"
  | .boolean => lit "boolean"

/-- `TARGET_KINDS`. -/
def ArgumentKind.isTarget (kind : ArgumentKind) : Bool :=
  decide (kind ∈ [.path, .url, .host, .project, .repository, .workingSetRepository])

/-- `_NAMING_KINDS`. -/
def ArgumentKind.isNaming (kind : ArgumentKind) : Bool := kind.isTarget || decide (kind = .credentialHandle)

def maxTextLength : ℕ := 65536

structure ArgumentSpec where
  kind : ArgumentKind
  required : Bool := true
  maxLength : ℕ := 4096
  minimum : ℤ := -2 ^ 31
  maximum : ℤ := 2 ^ 31 - 1
  maxLength_bound : 1 ≤ maxLength ∧ maxLength ≤ maxTextLength := by decide
  range_bound : -2 ^ 31 ≤ minimum ∧ minimum ≤ maximum ∧ maximum ≤ 2 ^ 31 - 1 := by decide

/-- `_ARGUMENT_NAME` and `_SUMMARY_NAME`: `[a-z][a-z0-9_]{0,31}`. -/
def isArgumentName (name : Text) : Bool :=
  match name with
  | [] => false
  | c :: rest => isLower c && decide (rest.length ≤ 31) && rest.all fun c => isLower c || isDigit c || decide (c = 95)

/-- `_TOOL_NAME`: words of lower-case letters, digits and underscores, joined by dots. -/
def isToolName (name : Text) : Bool :=
  (name.splitOn 46).all fun word =>
    match word with
    | [] => false
    | c :: rest => isLower c && rest.all fun c => isLower c || isDigit c || decide (c = 95)

structure SpecFields where
  name : String
  capabilities : List ToolCapability
  authzCapability : Capability
  arguments : List (Text × ArgumentSpec) := []
  environment : Environment := .projectLocal
  minLevel : ApprovalLevel := .auto
  requiresBudget : Bool := true
  returnsCredentialPlaintext : Bool := false
  workingSetOperation : Option WorkingSetOperation := none

namespace SpecFields

variable (spec : SpecFields)

def hasKind (kinds : List ArgumentKind) : Bool := spec.arguments.any fun argument => decide (argument.2.kind ∈ kinds)

def requiresKind (kinds : List ArgumentKind) : Bool :=
  spec.arguments.any fun argument => argument.2.required && decide (argument.2.kind ∈ kinds)

def has (capability : ToolCapability) : Bool := decide (capability ∈ spec.capabilities)

/-- It writes or deletes inside the project. -/
def changesLocally : Bool :=
  decide (spec.environment = .projectLocal) && (spec.has .write || spec.has .destructive)

def writesRepository : Bool := decide (spec.authzCapability.repoPermission = some .write)

/-- `_check_working_set`. -/
def workingSetRefusal : Option String :=
  let repositories := spec.arguments.filter fun argument => decide (argument.2.kind = .workingSetRepository)
  if spec.authzCapability ≠ .projectTaskWorkingSetManage then
    if spec.workingSetOperation.isSome || !repositories.isEmpty then
      some "only a working set tool changes or names a working set entry"
    else none
  else
    match spec.workingSetOperation with
    | none => some "a working set tool needs its working_set_operation"
    | some operation =>
      if !(decide (repositories.length = 1) && repositories.all fun argument => argument.2.required) then
        some "a working set tool requires exactly one repository"
      else if spec.arguments.any fun argument =>
          argument.2.kind.isNaming && decide (argument.2.kind ≠ .workingSetRepository) then
        some "a working set tool names nothing but its repository"
      else if spec.minLevel.severity < (approvalLevel operation).severity then
        some "a working set tool is below its operation's level"
      else none

/-- What `__post_init__` and `_check_consistency` look at, in order, and what they say. -/
def checks : List (Bool × String) :=
  [(decide (48 < spec.name.length) || !isToolName (lit spec.name) ||
      decide (((lit spec.name).splitOn 46).headD [] ∈ [lit "unknown", lit "approval"]), "tool name is not valid"),
    (decide (spec.capabilities = []), "a tool needs at least one ToolCapability"),
    (decide (16 < spec.arguments.length), "a tool takes at most 16 arguments"),
    (!(spec.arguments.all fun argument => isArgumentName argument.1), "an argument declaration is not valid"),
    (spec.hasKind [.url, .host] && !spec.has .network, "a tool with a host or URL argument is a network tool"),
    (spec.hasKind [.credentialHandle] && !spec.has .credentialUse, "a tool with a credential handle uses credentials"),
    (spec.has .network && !spec.requiresKind [.url, .host], "a network tool must require its host or URL"),
    (spec.has .credentialUse && !spec.requiresKind [.credentialHandle],
      "credentials are used by a required handle only"),
    (spec.changesLocally && !spec.requiresKind [.path, .url, .host, .project, .repository, .workingSetRepository],
      "a write tool must require what it touches"),
    (spec.writesRepository && !spec.requiresKind [.path, .repository],
      "a repository write must require its path or repository"),
    (spec.returnsCredentialPlaintext && !spec.has .credentialUse,
      "only a credential tool can return credential plaintext"),
    (spec.changesLocally && spec.hasKind [.path, .repository] && !spec.writesRepository,
      "a repository write must have a repository write capability")]

def refusal : Option String := ((spec.checks.find? Prod.fst).map Prod.snd).or spec.workingSetRefusal

end SpecFields

structure ToolSpec extends SpecFields where
  distinct : (arguments.map Prod.fst).Nodup
  accepted : toSpecFields.refusal = none

theorem ToolSpec.manages (spec : ToolSpec) {operation : WorkingSetOperation}
    (changes : spec.workingSetOperation = some operation) :
    spec.authzCapability = .projectTaskWorkingSetManage := by
  have accepted := (Option.or_eq_none_iff.mp spec.accepted).2
  unfold SpecFields.workingSetRefusal at accepted
  by_contra other
  rw [if_pos other, changes] at accepted
  cases accepted

theorem ToolSpec.isArgumentName (spec : ToolSpec) {argument : Text × ArgumentSpec}
    (declared : argument ∈ spec.arguments) : Tools.isArgumentName argument.1 = true := by
  have accepted := (Option.or_eq_none_iff.mp spec.accepted).1
  rw [Option.map_eq_none_iff, List.find?_eq_none] at accepted
  have names := accepted (!(spec.arguments.all fun argument => Tools.isArgumentName argument.1), _)
    (List.mem_cons_of_mem _ (List.mem_cons_of_mem _ (List.mem_cons_of_mem _ List.mem_cons_self)))
  rw [Bool.not_eq_true, Bool.not_eq_false', List.all_eq_true] at names
  exact names argument declared

structure ToolRegistry where
  specs : List ToolSpec
  distinct : (specs.map fun spec => spec.name).Nodup

/-- `get`; what is not a text names no tool. -/
def ToolRegistry.get (registry : ToolRegistry) (name : Option Text) : Option ToolSpec :=
  name.bind fun name => registry.specs.find? fun spec => decide (lit spec.name = name)

end PawBackend.Tools
