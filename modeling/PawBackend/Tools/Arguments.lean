/-
**A tool call, and how its arguments are normalised** (`tools/calls.py`; `tools/approval_types.py`:
`SummaryItem`, `summary_value`; `tools/decisions.py`: `BrokerReason`).

Arguments are checked against the tool's declared schema in the declared order, and each accepted value is summarised
for an approver: redacted, escaped and cut.
-/

import Mathlib.Data.Nat.Digits.Lemmas
import PawBackend.Tasks.Queue
import PawBackend.Tools.Registry

namespace PawBackend.Tools

open Lib Lib.Text List
open Authz (AgentGrant)
open Tasks (QueueLease)

/-- The library, with `hashlib.sha256` of a list of bytes. -/
structure Platform extends Stdlib where
  sha256 : List ℕ → CallHash

variable (py : Platform)

/-! ### Reasons -/

inductive BrokerReason
  | auto
  | scopedAuto
  | approvalConsumed
  | taskGrantApplied
  | approvalRequired
  | strongApprovalRequired
  | approvalPending
  | invalidCall
  | unknownTool
  | invalidArguments
  | invalidTarget
  | credentialPlaintextDenied
  | credentialPlaintextInArguments
  | credentialHandleInvalid
  | pathOutOfScope
  | hostOutOfScope
  | projectOutOfScope
  | repositoryOutOfScope
  | credentialOutOfScope
  | pathResolutionUnavailable
  | repositoryNotIdentified
  | remoteNotInRepository
  | repositoryWriteCapabilityMismatch
  | repositoryRoleInsufficient
  | repositoryRoleUnresolved
  | workingSetChangeInvalid
  | workingSetRepositoryUnresolved
  | repositoryWriteUnrecorded
  | authzDenied
  | authzUnavailable
  | policyDenied
  | budgetExceeded
  | budgetUnknown
  | budgetUnavailable
  | taskNotActive
  | taskUnknown
  | taskSuperseded
  | taskStateUnavailable
  | leaseLost
  | leaseUnavailable
  | approvalNotFound
  | approvalMismatch
  | approvalExpired
  | approvalAlreadyUsed
  | approvalRejected
  | approvalRevoked
  | approvalSuperseded
  | approvalUnavailable
  | approvalLimitReached
  | approvalCooldown
  | approvalNotDisplayable
  | auditUnavailable
  deriving DecidableEq, Repr

/-! ### Calls -/

/-- What the backend knows about the task a call belongs to. -/
structure TaskContext where
  taskId : Uuid
  delegatorId : Uuid
  grant : AgentGrant
  scope : TaskScope py.toStdlib
  primaryProjectId : Uuid
  run : TaskRun
  lease : QueueLease
  primary_own : (scope.project primaryProjectId).isSome = true
  agent_not_user : grant.agentId ≠ delegatorId

/-- A value a model supplies: a text, a number, a flag, an id, or anything else. -/
inductive ArgumentValue
  | text (t : Text)
  | integer (n : ℤ)
  | boolean (b : Bool)
  | uuid (id : Uuid)
  | other

/-- The arguments of a call, where they are a mapping; a key that is not a text is `none`. -/
abbrev Supplied := Option (List (Option Text × ArgumentValue))

/-- A request to run a tool; a name that is not a text is `none`. -/
structure ToolCall where
  tool : Option Text
  arguments : Supplied
  context : TaskContext py
  correlationId : Option Uuid

inductive Value
  | text (t : Text)
  | integer (n : ℤ)
  | boolean (b : Bool)
  deriving DecidableEq, Repr

/-! ### What an approver is shown -/

def maxSummaryValueChars : ℕ := 256
def maxSummaryTextChars : ℕ := 320

def decimal (n : ℕ) : Text := if n = 0 then lit "0" else ((Nat.digits 10 n).map (48 + ·)).reverse

theorem length_decimal {n k : ℕ} (small : n < 10 ^ (k + 1)) : (decimal n).length ≤ k + 1 := by
  unfold decimal
  split_ifs
  · exact Nat.succ_le_succ (Nat.zero_le k)
  · rw [length_reverse, length_map]
    exact (Nat.digits_length_le_iff (by omega) n).mpr small

theorem isDigit_of_mem_decimal {n c : ℕ} (mem : c ∈ decimal n) : isDigit c = true := by
  unfold decimal at mem
  split_ifs at mem with zero
  · rw [mem_singleton.mp (show c ∈ [48] from mem)]
    rfl
  · rw [mem_reverse, mem_map] at mem
    obtain ⟨d, isDigit, rfl⟩ := mem
    have small : d < 10 := Nat.digits_lt_base (by omega) isDigit
    simp only [Text.isDigit, decide_eq_true_eq]
    omega

theorem decimal_ne_nil (n : ℕ) : decimal n ≠ [] := by
  unfold decimal
  split_ifs with zero
  · exact cons_ne_nil _ _
  · rw [Ne, reverse_eq_nil_iff, map_eq_nil_iff, Nat.digits_eq_nil_iff_eq_zero]
    exact zero

theorem toNat_decimal (n : ℕ) : toNat 10 (decimal n) = n := by
  unfold decimal
  split_ifs with zero
  · rw [zero]
    rfl
  · have value : ∀ digits : List ℕ, (∀ d ∈ digits, d < 10) →
        Text.toNat 10 (digits.map (48 + ·)).reverse = Nat.ofDigits 10 digits := by
      intro digits
      induction digits with
      | nil => exact fun _ => rfl
      | cons d rest ih =>
        intro small
        have first : digit (48 + d) = d := by
          have := small d mem_cons_self
          unfold digit Text.isDigit
          rw [if_pos (by simp; omega)]
          omega
        have step := ih fun e mem => small e (mem_cons_of_mem _ mem)
        unfold Text.toNat at step ⊢
        rw [map_cons, reverse_cons, foldl_append, step, Nat.ofDigits_cons]
        simp only [foldl_cons, foldl_nil, first]
        omega
    rw [value _ fun d mem => Nat.digits_lt_base (by omega) mem, Nat.ofDigits_digits]

def shown : Value → Text
  | .text t => t
  | .integer n => if n < 0 then lit "-" ++ decimal n.natAbs else decimal n.natAbs
  | .boolean b => if b then lit "true" else lit "false"

/-- `_UNSAFE_CATEGORIES`. -/
def isUnsafe (c : ℕ) : Bool :=
  match py.category c with
  | .cc | .cf | .cs | .co | .cn | .zl | .zp => true
  | _ => false

def hexadecimal (n : ℕ) : Text := hexDigits (max 4 (Nat.digits 16 n).length) n

def escape (t : Text) : Text := t.flatMap fun c => if isUnsafe py c then lit "\\u" ++ hexadecimal c else [c]

/-- `str.encode("utf-8", "replace")`: a lone surrogate is a question mark. -/
def utf8 (t : Text) : List ℕ :=
  t.flatMap fun c =>
    if c < 0x80 then [c]
    else if c < 0x800 then [0xC0 + c / 0x40, 0x80 + c % 0x40]
    else if 0xD800 ≤ c ∧ c < 0xE000 then [63]
    else if c < 0x10000 then [0xE0 + c / 0x1000, 0x80 + c / 0x40 % 0x40, 0x80 + c % 0x40]
    else [0xF0 + c / 0x40000, 0x80 + c / 0x1000 % 0x40, 0x80 + c / 0x40 % 0x40, 0x80 + c % 0x40]

/-- `hexdigest()`. -/
def hexDigest (hash : CallHash) : Text := hexDigits 64 hash.toNat

def summaryValue (t : Text) : Text :=
  let escaped := escape py (redactText py.toStdlib t).1
  if escaped.length ≤ maxSummaryValueChars then escaped
  else
    escaped.take maxSummaryValueChars ++ lit "...[" ++ decimal t.length ++ lit " chars, sha256:" ++
      (hexDigest (py.sha256 (utf8 t))).take 12 ++ lit "]"

/-- One argument as the approver sees it: it holds no credential plaintext. -/
structure SummaryItem where
  name : Text
  kind : Text
  value : Text
  name_valid : isArgumentName name = true
  kind_valid : isArgumentName kind = true
  value_short : value.length ≤ maxSummaryTextChars
  value_plain : containsCredentialPlaintext py.toStdlib value = false

/-- What `parse_arguments` raises: an `ArgumentError`, or the `ValueError` of a summary item. -/
inductive ParseError
  | argument (reason : BrokerReason)
  | value (message : String)
  deriving DecidableEq, Repr

/-- `SummaryItem.__post_init__`. -/
def SummaryItem.make (name kind value : Text) : Except ParseError (SummaryItem py) :=
  if named : isArgumentName name = true then
    if kindNamed : isArgumentName kind = true then
      if short : value.length ≤ maxSummaryTextChars then
        if plain : containsCredentialPlaintext py.toStdlib value = false then
          .ok ⟨name, kind, value, named, kindNamed, short, plain⟩
        else .error (.value "a summary must not hold credential plaintext")
      else .error (.value "a summary value is too long")
    else .error (.value "a summary item needs a valid kind")
  else .error (.value "a summary item needs a valid argument name")

/-! ### Parsing -/

structure ParsedArguments where
  values : List (Text × Value) := []
  targets : List Target := []
  urls : List Text := []
  summary : List (SummaryItem py) := []

def maxArgumentChars : ℕ := 262144

def ArgumentSpec.limit (argument : ArgumentSpec) : ℕ × BrokerReason :=
  match argument.kind with
  | .path => (maxPathLength, .invalidTarget)
  | .url => (maxUrlLength, .invalidTarget)
  | .host => (maxHostLength + 2, .invalidTarget)
  | .project | .repository | .workingSetRepository => (64, .invalidTarget)
  | .credentialHandle => (64, .credentialHandleInvalid)
  | _ => (min argument.maxLength maxTextLength, .invalidArguments)

/-- What `normalise_*` refuses is an invalid target. -/
def orInvalidTarget {α : Type} (normalised : Except TargetError α) : Except BrokerReason α :=
  normalised.mapError fun _ => .invalidTarget

/-- `_parse_value`, for the kinds that are texts. -/
def parseText (argument : ArgumentSpec) (value : Text) (base : Option Text) :
    Except BrokerReason (Value × Option Target) := do
  if argument.limit.1 < value.length then throw argument.limit.2
  if containsCredentialPlaintext py.toStdlib value then throw .credentialPlaintextInArguments
  match argument.kind with
  | .path =>
    let path ← orInvalidTarget (normalisePath py.toStdlib value base)
    return (.text path, some ⟨.path, path⟩)
  | .url =>
    let url ← orInvalidTarget (normaliseUrl py.toStdlib value)
    return (.text url.1, some ⟨.host, url.2⟩)
  | .host =>
    let host ← orInvalidTarget (normaliseHost py.toStdlib value)
    return (.text host, some ⟨.host, host⟩)
  | .project =>
    let id ← orInvalidTarget (normaliseProject value)
    return (.text (uuidText id), some ⟨.project, uuidText id⟩)
  | .repository =>
    let id ← orInvalidTarget (normaliseRepository value)
    return (.text (uuidText id), some ⟨.repository, uuidText id⟩)
  | .workingSetRepository =>
    let id ← orInvalidTarget (normaliseRepository value)
    return (.text (uuidText id), some ⟨.workingSetRepository, uuidText id⟩)
  | .credentialHandle =>
    if !isCredentialHandle value then throw .credentialHandleInvalid
    return (.text value, some ⟨.credential, value⟩)
  | _ =>
    if argument.maxLength < value.length ∨ 0 ∈ value then throw .invalidArguments
    return (.text value, none)

def parseValue (argument : ArgumentSpec) (value : ArgumentValue) (base : Option Text) :
    Except BrokerReason (Value × Option Target) :=
  match argument.kind, value with
  | .integer, .integer n =>
    if argument.minimum ≤ n ∧ n ≤ argument.maximum then .ok (.integer n, none) else .error .invalidArguments
  | .integer, _ => .error .invalidArguments
  | .boolean, .boolean b => .ok (.boolean b, none)
  | .boolean, _ => .error .invalidArguments
  | .project, .uuid id | .repository, .uuid id | .workingSetRepository, .uuid id =>
    parseText py argument (uuidText id) base
  | _, .text t => parseText py argument t base
  | _, _ => .error .invalidArguments

/-- How far the loop over the declared arguments is. -/
structure Parsing extends ParsedArguments py where
  totalChars : ℕ := 0

def ArgumentValue.chars : ArgumentValue → ℕ
  | .text t => t.length
  | _ => 0

def parseSupplied (base : Option Text) (state : Parsing py) (name : Text) (argument : ArgumentSpec)
    (raw : ArgumentValue) : Except ParseError (Parsing py) := do
  let totalChars := state.totalChars + raw.chars
  if maxArgumentChars < totalChars then throw (.argument .invalidArguments)
  let (value, target) ← (parseValue py argument raw base).mapError .argument
  let item ← SummaryItem.make py name argument.kind.value (summaryValue py (shown value))
  return {
    values := state.values ++ [(name, value)]
    targets := state.targets ++ target.toList
    urls := if argument.kind = .url then state.urls ++ [shown value] else state.urls
    summary := state.summary ++ [item]
    totalChars := totalChars }

def parseDeclared (base : Option Text) (supplied : List (Option Text × ArgumentValue)) (state : Parsing py)
    (declared : Text × ArgumentSpec) : Except ParseError (Parsing py) :=
  match supplied.lookup (some declared.1) with
  | none => if declared.2.required then .error (.argument .invalidArguments) else .ok state
  | some raw => parseSupplied py base state declared.1 declared.2 raw

/-- What a relative path is resolved against. -/
def TaskScope.base {py : Stdlib} (scope : TaskScope py) : Option Text := scope.pathRoots.head?.map Subtype.val

def parseArguments (spec : ToolSpec) (arguments : Supplied) (scope : TaskScope py.toStdlib) :
    Except ParseError (ParsedArguments py) := do
  let supplied ← orThrow arguments (.argument .invalidArguments)
  if spec.arguments.length < supplied.length then throw (.argument .invalidArguments)
  if supplied.any fun entry => !(spec.arguments.any fun declared => decide (entry.1 = some declared.1)) then
    throw (.argument .invalidArguments)
  let state ← spec.arguments.foldlM (parseDeclared py scope.base supplied) {}
  return state.toParsedArguments

end PawBackend.Tools
