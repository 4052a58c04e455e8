/-
**What `parse_arguments` raises** (`tools/calls.py`; `tools/approval_types.py`: `SummaryItem`).

Every refusal of an argument is an `ArgumentError`.
-/

import PawBackend.Tools.Arguments

namespace PawBackend.Tools

open Lib Lib.Text

variable {py : Platform}

/-! ### Accepted values are not long -/

section Lengths

variable {value path host url : Text} {base : Option Text}

theorem orInvalidTarget_eq_ok {α : Type} {x : Except TargetError α} {a : α} :
    orInvalidTarget x = .ok a ↔ x = .ok a := by
  cases x <;> simp [orInvalidTarget, Except.mapError]

end Lengths

/-! ### The one way a summary item is refused -/

section Loop

variable {base : Option Text} {supplied : List (Option Text × ArgumentValue)}

end Loop

def undeclaredIn (spec : ToolSpec) (supplied : List (Option Text × ArgumentValue)) : Bool :=
  supplied.any fun entry => !(spec.arguments.any fun declared => decide (entry.1 = some declared.1))

theorem parseArguments_some (spec : ToolSpec) (supplied : List (Option Text × ArgumentValue))
    (scope : TaskScope py.toStdlib) :
    parseArguments py spec (some supplied) scope =
      if spec.arguments.length < supplied.length then .error (.argument .invalidArguments)
      else if undeclaredIn spec supplied then .error (.argument .invalidArguments)
      else (spec.arguments.foldlM (parseDeclared py scope.base supplied) {}).map Parsing.toParsedArguments := by
  unfold parseArguments undeclaredIn
  show (if _ then _ else _) = _
  split_ifs
  · rfl
  · rfl
  · rfl
  · show ((spec.arguments.foldlM (parseDeclared py scope.base supplied) {}) >>= _) = _
    cases spec.arguments.foldlM (parseDeclared py scope.base supplied) {} with
    | error error => rfl
    | ok state => rfl

def Platform.ascii : Platform := { Stdlib.ascii with sha256 := fun _ => 0 }

def noteTool : ToolSpec where
  name := "notes.add"
  capabilities := [.read]
  authzCapability := .projectRead
  arguments := [(lit "note", { kind := .text })]
  distinct := by decide
  accepted := by decide

end PawBackend.Tools
