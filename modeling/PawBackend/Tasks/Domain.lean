/-
**The rules of the task lifecycle** (`tasks/domain.py`, `tasks/errors.py`).

`transitions` is the table of the source: which states accept a command, and where it leads. `planTransition` is the
one way the service asks it.
-/

import PawBackend.Tools.ApprovalTypes
import PawBackend.Lib.Text

namespace PawBackend.Tasks

open Lib
open Tools (Uuid Instant TaskRun)

/-! ### States, commands and actors -/

inductive TaskState
  | queued
  | running
  | waiting
  | paused
  | evaluating
  | completed
  | failed
  | cancelled
  deriving DecidableEq, Repr

inductive WaitReason
  | user
  | approval
  | resource
  deriving DecidableEq, Repr

inductive TaskCommand
  | create
  | changeWorkingSet
  | releaseRepositoryWrite
  | start
  | wait
  | unblock
  | beginEvaluation
  | complete
  | fail
  | pause
  | resume
  | cancel
  | retry
  | restart
  | stopNow
  deriving DecidableEq, Repr

/-- `TERMINAL_STATES`, and the service's `_ENDED_STATES`. -/
def TaskState.isTerminal (state : TaskState) : Bool :=
  decide (state = .completed ∨ state = .failed ∨ state = .cancelled)

inductive Interruption
  | graceful
  | immediate
  deriving DecidableEq, Repr

inductive ActorKind
  | user
  | system
  | policy
  deriving DecidableEq, Repr

/-- Who triggered a command: only a user has an id. -/
structure Actor where
  kind : ActorKind
  id : Option Uuid := none
  id_matches : kind = .user ↔ id.isSome = true := by decide
  deriving DecidableEq

def Actor.user (userId : Uuid) : Actor := ⟨.user, some userId, by simp⟩

def Actor.system : Actor := { kind := .system }

/-- What a call of the task service is refused with. `integrity` and `outOfRange` are the database's own
refusals (a broken constraint, a number a column cannot hold), `aborted` is what a caller's step raised. -/
inductive TaskError
  | taskNotFound
  | illegalTransition (state : TaskState) (command : TaskCommand)
  | invalidCommandArgument (message : String)
  | taskConflict
  | taskStep (message : String)
  | projectNotActive
  | taskNotActive
  | staleRun
  | staleAttempt
  | taskStateChanged
  | workingSetChangeInvalid
  | workingSetConflict
  | lastTargetRemovalRefused
  | modifiedRepositoryDowngradeRefused
  | repositoryWriteInFlight
  | repositoryWriteNotFound
  | repositoryWriteNotHeld
  | repositoryWriteHolderAlive
  | noTargetRepository
  | readOnlyTask
  | completionRequirementsNotMet
  | repositoryNotInAttempt
  | repositoryRoleUnresolved
  | repositoryRoleInsufficient
  | integrity
  | outOfRange
  | aborted
  deriving DecidableEq, Repr

/-! ### Roles and Working Set operations -/

inductive RepoRole
  | referenced
  | working
  | target
  deriving DecidableEq, Repr

/-- `referenced` < `working` < `target`. -/
def RepoRole.strength : RepoRole → ℕ
  | .referenced => 0
  | .working => 1
  | .target => 2

inductive WorkingSetOperation
  | addReferenced
  | setWorking
  | setTarget
  | downgradeToWorking
  | downgradeToReferenced
  | remove
  deriving DecidableEq, Repr

/-- `_OPERATION_RULES`: the roles an operation accepts, and the role it leaves. -/
def WorkingSetOperation.rule : WorkingSetOperation → List (Option RepoRole) × Option RepoRole
  | .addReferenced => ([none], some .referenced)
  | .setWorking => ([none, some .referenced], some .working)
  | .setTarget => ([none, some .referenced, some .working], some .target)
  | .downgradeToWorking => ([some .target], some .working)
  | .downgradeToReferenced => ([some .working, some .target], some .referenced)
  | .remove => ([some .referenced, some .working, some .target], none)

def acceptsRole (operation : WorkingSetOperation) (role : Option RepoRole) : Bool :=
  decide (role ∈ operation.rule.1)

def roleAfter (operation : WorkingSetOperation) : Option RepoRole := operation.rule.2

def narrows (operation : WorkingSetOperation) : Bool :=
  decide (operation = .downgradeToWorking ∨ operation = .downgradeToReferenced ∨ operation = .remove)

/-! ### The transition tables -/

structure TransitionRule where
  sources : List TaskState
  target : TaskState
  interruption : Option Interruption := none
  deriving DecidableEq, Repr

def transitions : TaskCommand → Option TransitionRule
  | .start => some { sources := [.queued], target := .running }
  | .wait => some { sources := [.running], target := .waiting }
  | .unblock => some { sources := [.waiting], target := .running }
  | .beginEvaluation => some { sources := [.running], target := .evaluating }
  | .complete => some { sources := [.evaluating], target := .completed }
  | .fail => some { sources := [.queued, .running, .waiting, .evaluating], target := .failed }
  | .pause => some { sources := [.running], target := .paused, interruption := some .graceful }
  | .resume => some { sources := [.paused], target := .running }
  | .cancel => some
      { sources := [.queued, .running, .waiting, .paused, .evaluating], target := .cancelled
        interruption := some .graceful }
  | .stopNow => some
      { sources := [.running, .waiting, .evaluating], target := .cancelled
        interruption := some .immediate }
  | .retry => some { sources := [.failed], target := .queued }
  | .restart => some { sources := [.failed, .cancelled], target := .queued }
  | .create => none
  | .changeWorkingSet => none
  | .releaseRepositoryWrite => none

def readOnlyTransitions : TaskCommand → Option TransitionRule
  | .complete => some { sources := [.running], target := .completed }
  | .beginEvaluation => none
  | command => transitions command

def table (readOnly : Bool) : TaskCommand → Option TransitionRule :=
  if readOnly then readOnlyTransitions else transitions

structure TransitionPlan where
  command : TaskCommand
  fromState : TaskState
  target : TaskState
  waitReason : Option WaitReason
  interruption : Option Interruption
  deriving DecidableEq, Repr

def planTransition (state : TaskState) (command : TaskCommand) (waitReason : Option WaitReason)
    (readOnly : Bool) : Except TaskError TransitionPlan :=
  match table readOnly command with
  | none => .error (.illegalTransition state command)
  | some rule =>
    if state ∉ rule.sources then .error (.illegalTransition state command)
    else if command = .wait ∧ waitReason = none then
      .error (.invalidCommandArgument "Wait needs a wait reason")
    else if command ≠ .wait ∧ waitReason ≠ none then
      .error (.invalidCommandArgument "Only Wait accepts a wait reason")
    else .ok ⟨command, state, rule.target, waitReason, rule.interruption⟩

def Steps (readOnly : Bool) (command : TaskCommand) (source target : TaskState) : Prop :=
  ∃ rule, table readOnly command = some rule ∧ source ∈ rule.sources ∧ rule.target = target

instance (readOnly : Bool) (command : TaskCommand) (source target : TaskState) :
    Decidable (Steps readOnly command source target) :=
  decidable_of_iff
    ((table readOnly command).any fun rule => decide (source ∈ rule.sources ∧ rule.target = target)) (by
      cases found : table readOnly command with
      | none => simp [Steps, found]
      | some rule => simp [Steps, found])

theorem planTransition_eq_ok {state : TaskState} {command : TaskCommand} {waitReason : Option WaitReason}
    {readOnly : Bool} {plan : TransitionPlan}
    (planned : planTransition state command waitReason readOnly = .ok plan) :
    Steps readOnly command state plan.target ∧ plan.fromState = state ∧ plan.command = command ∧
      plan.waitReason = waitReason ∧ (command = .wait ↔ waitReason ≠ none) := by
  unfold planTransition at planned
  cases found : table readOnly command with
  | none => simp [found] at planned
  | some rule =>
    rw [found] at planned
    dsimp only at planned
    split_ifs at planned with illegal missing extra
    rw [Except.ok.injEq] at planned
    subst planned
    refine ⟨⟨rule, found, illegal, rfl⟩, rfl, rfl, rfl, ?_⟩
    constructor
    · intro waits none
      exact missing ⟨waits, none⟩
    · intro given
      by_contra other
      exact extra ⟨other, given⟩

theorem Steps.waiting_iff {readOnly : Bool} {command : TaskCommand} {source target : TaskState}
    (step : Steps readOnly command source target) : target = .waiting ↔ command = .wait := by
  obtain ⟨rule, found, -, rfl⟩ := step
  cases readOnly <;> cases command <;> simp [table, transitions, readOnlyTransitions] at found <;>
    subst found <;> decide

end PawBackend.Tasks
