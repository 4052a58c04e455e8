/-
**What a task-scoped approval grant covers** (`tools/grant_pattern.py`; `tools/calls.py`:
`compute_call_hash`).

A grant lets the broker run later calls of the same tool whose scope and arguments are the same or narrower. What
cannot be compared is compared by its digest, of the JSON text of the value.
-/

import PawBackend.Tools.Arguments

namespace PawBackend.Tools

open Lib Lib.Text
open Authz (Capability)

variable (py : Platform)

/-! ### Digests -/

/-- One code unit as `\uXXXX`. -/
def unicodeEscape (unit : ℕ) : Text := lit "\\u" ++ hexDigits 4 unit

/-- `json.dumps` of a text, with `ensure_ascii`. -/
def jsonText (t : Text) : Text :=
  lit "\"" ++ (t.flatMap fun c =>
    if c = 34 then lit "\\\""
    else if c = 92 then lit "\\\\"
    else if c = 10 then lit "\\n"
    else if c = 13 then lit "\\r"
    else if c = 9 then lit "\\t"
    else if c = 12 then lit "\\f"
    else if c = 8 then lit "\\b"
    else if 32 ≤ c ∧ c ≤ 126 then [c]
    else if c < 0x10000 then unicodeEscape c
    else unicodeEscape (0xD800 + (c - 0x10000) / 0x400) ++ unicodeEscape (0xDC00 + (c - 0x10000) % 0x400)) ++
    lit "\""

def jsonValue : Value → Text
  | .text t => jsonText t
  | value => shown value

def jsonObject (members : List (Text × Text)) : Text :=
  lit "\x7b" ++ join 44 ((members.insertionSort fun a b => a.1 ≤ b.1).map fun member =>
    jsonText member.1 ++ lit ":" ++ member.2) ++ lit "\x7d"

def computeCallHash (tool : String) (values : List (Text × Value)) (context : TaskContext py) : CallHash :=
  py.sha256 (jsonObject
    [(lit "v", lit "1"), (lit "tool", jsonText (lit tool)),
      (lit "arguments", jsonObject (values.map fun value => (value.1, jsonValue value.2))),
      (lit "task", jsonText (uuidText context.taskId)), (lit "user", jsonText (uuidText context.delegatorId)),
      (lit "agent", jsonText (uuidText context.grant.agentId))])

def digest (value : Value) : Text := hexDigest (py.sha256 (jsonValue value))

/-! ### Patterns -/

inductive GrantMatch
  | under
  | equal
  | digest
  deriving DecidableEq, Repr

structure GrantArgument where
  name : Text
  kind : ArgumentKind
  matching : GrantMatch
  value : Text
  deriving DecidableEq, Repr

/-- `_NEVER_ARGUMENTS`. -/
def ArgumentKind.isNeverGranted (kind : ArgumentKind) : Bool :=
  decide (kind = .credentialHandle ∨ kind = .workingSetRepository)

def maxPatternValue : ℕ := 2048

namespace GrantArgument

/-- `GrantArgument.__post_init__`. -/
def make (name : Text) (kind : ArgumentKind) (matching : GrantMatch) (value : Text) :
    Except String GrantArgument := do
  if !isArgumentName name then throw "a grant argument needs a valid name"
  if !(decide (1 ≤ value.length) && decide (value.length ≤ maxPatternValue)) then
    throw "a grant argument needs a bounded value"
  if matching = .digest ∧
      !(decide (value.length = 64) && value.all fun c => isDigit c || decide (97 ≤ c ∧ c ≤ 102)) then
    throw "a digest must be a SHA-256 hex digest"
  if kind.isNeverGranted then throw "this argument kind is never granted"
  return ⟨name, kind, matching, value⟩

/-- Whether an argument of a later call is this one or narrower. -/
def covers (own other : GrantArgument) : Bool :=
  if (other.name, other.kind, other.matching) ≠ (own.name, own.kind, own.matching) then false
  else if own.matching ≠ .under then decide (other.value = own.value)
  else if own.kind = .path then
    decide (other.value = own.value) || decide (own.value = lit "/") || other.value.startsWith (own.value ++ lit "/")
  else !decide (63 ∈ other.value) && urlWithin other.value own.value

end GrantArgument

/-- `_SCOPE_RANK`. -/
def ScopeStatus.rank : ScopeStatus → Option ℕ
  | .inScope => some 0
  | .hostOutOfScope => some 1
  | .outOfScope => none

structure GrantPattern where
  scope : ScopeStatus
  arguments : List GrantArgument
  scope_ranked : scope.rank.isSome = true
  distinct : (arguments.map GrantArgument.name).Nodup

namespace GrantPattern

/-- `GrantPattern.__post_init__`. -/
def make (scope : ScopeStatus) (arguments : List GrantArgument) : Except String GrantPattern :=
  if ranked : scope.rank.isSome = true then
    if distinct : (arguments.map GrantArgument.name).Nodup then .ok ⟨scope, arguments, ranked, distinct⟩
    else .error "an argument is named twice"
  else .error "a call out of scope is never granted"

/-- Whether a later call is the same as this one or narrower. -/
def covers (own call : GrantPattern) : Bool :=
  decide (call.scope.rank.getD 0 ≤ own.scope.rank.getD 0) &&
    (call.arguments.all fun item => decide (item.name ∈ own.arguments.map GrantArgument.name)) &&
    own.arguments.all fun item =>
      (call.arguments.find? fun other => decide (other.name = item.name)).any item.covers

end GrantPattern

/-! ### The pattern of a call -/

/-- `_NEVER_CAPABILITIES` and `_NEVER_CAPABILITY_PREFIXES`: administration. -/
def isNeverGrantedFor : Capability → Bool
  | .projectSettingsManage | .projectMembersManage | .projectAgentPolicyManage | .projectLifecycleManage
  | .projectRepoAdd | .projectTaskWorkingSetManage | .accountManage | .sharedMemoryManage => true
  | .adminUsersManage | .adminUsageView | .adminQuotaManage | .adminAuditView | .adminSystemPromptManage
  | .adminModelsManage | .adminRoutingManage | .adminPermissionsManage | .adminConfigManage
  | .adminProjectsManage | .adminAuthPolicyView | .adminComputeFullGpu | .adminSystemHealthView => true
  | .ownerAdminsManage | .ownerOwnershipTransfer | .ownerRecoveryManage | .ownerUserRestore
  | .ownerBackupManage | .ownerAuthPolicyManage => true
  | _ => false

def grantable (spec : ToolSpec) (level : ApprovalLevel) : Bool :=
  decide (level = .approval) && spec.workingSetOperation.isNone &&
    !(spec.has .destructive || spec.has .credentialUse) && !(spec.has .network && spec.has .write) &&
    !isNeverGrantedFor spec.authzCapability && !(spec.arguments.any fun argument => argument.2.kind.isNeverGranted)

def urlPathIsSafe (url : Text) : Bool :=
  let rest := ((partition (lit "://") (url.before 63)).map Prod.snd).getD []
  safeTail (((partition (lit "/") rest).map Prod.snd).getD [])

def grantArgumentOf (name : Text) (kind : ArgumentKind) (value : Value) : Except String GrantArgument :=
  match kind with
  | .path => GrantArgument.make name kind .under (shown value)
  | .url =>
    if 63 ∈ shown value ∨ !urlPathIsSafe (shown value) then GrantArgument.make name kind .digest (digest py (.text (shown value)))
    else GrantArgument.make name kind .under ((shown value).rstrip (lit "/"))
  | .host | .project | .repository => GrantArgument.make name kind .equal (shown value)
  | _ => GrantArgument.make name kind .digest (digest py value)

/-- `grant_pattern_of`: `none` where the call can never be granted. -/
def grantPatternOf (spec : ToolSpec) (values : List (Text × Value)) (scope : ScopeStatus) (level : ApprovalLevel) :
    Except String (Option GrantPattern) :=
  if !grantable spec level || scope.rank.isNone then .ok none
  else do
    let items ← (spec.arguments.filterMap fun argument =>
      (values.lookup argument.1).map fun value => (argument.1, argument.2.kind, value)).mapM fun item =>
        grantArgumentOf py item.1 item.2.1 item.2.2
    let pattern ← GrantPattern.make scope items
    return some pattern

theorem level_of_grantPatternOf {spec : ToolSpec} {values : List (Text × Value)} {scope : ScopeStatus}
    {level : ApprovalLevel} {pattern : GrantPattern}
    (built : grantPatternOf py spec values scope level = .ok (some pattern)) : level = .approval := by
  unfold grantPatternOf at built
  by_cases never : (!grantable spec level || scope.rank.isNone) = true
  · rw [if_pos never] at built
    cases built
  · rw [Bool.not_eq_true, Bool.or_eq_false_iff, Bool.not_eq_false', grantable] at never
    simp only [Bool.and_eq_true, decide_eq_true_eq] at never
    exact never.1.1.1.1.1.1

end PawBackend.Tools
