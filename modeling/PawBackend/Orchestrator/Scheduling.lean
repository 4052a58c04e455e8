/-
**Which node runs next, and what a failure does to the others** (`orchestrator/scheduling.py`,
`orchestrator/domain.py`; `orchestrator/store.py`: `_Locked.views`, `_Locked.settle`).

The nodes are given in the order of their ordinals, so a node depends on nodes before it (`InOrdinalOrder`;
`settle_states` raises a `KeyError` for any other list, which `plan.py` never builds).
-/

import PawBackend.Lib.DependencyOrder
import PawBackend.Lib.Machine
import PawBackend.Lib.Text

namespace PawBackend.Orchestrator

open Lib List

inductive NodeState
  | pending
  | ready
  | running
  | succeeded
  | failed
  | blocked
  | cancelled
  deriving DecidableEq, Repr

namespace NodeState

/-- `_OPEN`: the states that dependency effects may change. -/
def isOpen : NodeState → Bool
  | .pending | .ready | .blocked => true
  | _ => false

/-- `UNSATISFIABLE_NODE_STATES`: a dependent cannot start. -/
def isUnsatisfiable : NodeState → Bool
  | .failed | .blocked | .cancelled => true
  | _ => false

theorem isUnsatisfiable_iff_of_open {state : NodeState} :
    state.isOpen = true → (state.isUnsatisfiable = true ↔ state = .blocked) := by
  cases state <;> decide

theorem isUnsatisfiable_iff_of_not_open {state : NodeState} :
    ¬ state.isOpen = true → (state.isUnsatisfiable = true ↔ state = .failed ∨ state = .cancelled) := by
  cases state <;> decide

end NodeState

/-- What scheduling needs to know of a node; its ordinal is its place in the list. -/
structure NodeView where
  key : Text
  state : NodeState
  dependsOn : List Text
  required : Bool
  deriving DecidableEq, Repr

def InOrdinalOrder (nodes : List NodeView) : Prop :=
  OrderedAfter NodeView.key NodeView.dependsOn [] nodes

inductive DagVerdict
  | active
  | succeeded
  | failed
  deriving DecidableEq, Repr

/-! ### The functions of the module -/

def dependencyEffect (dependsOn : List Text) (settled : Text → Option NodeState) : NodeState :=
  if dependsOn.any fun key => (settled key).any NodeState.isUnsatisfiable then .blocked
  else if dependsOn.all fun key => settled key == some .succeeded then .ready
  else .pending

/-- One turn of the loop of `settle_states`, from the states that are settled before the node. -/
def settleOne (node : NodeView) (settled : Text → Option NodeState) : NodeState :=
  if node.state.isOpen then dependencyEffect node.dependsOn settled else node.state

def settleStates (nodes : List NodeView) : List (Text × NodeState) := evaluate NodeView.key settleOne nodes

/-- The state `settle_states` gives a node. -/
def settledState (nodes : List NodeView) (node : NodeView) : NodeState :=
  (valueOf (settleStates nodes) node.key).getD node.state

/-- `_Locked.settle`: each node gets the state that was settled for it. -/
def settle (nodes : List NodeView) : List NodeView :=
  nodes.map fun node => { node with state := settledState nodes node }

def readyBatch (nodes : List NodeView) (capacity : ℤ) (exclude : List Text) : List Text :=
  if capacity ≤ 0 then []
  else ((nodes.filter fun node => node.state = .ready ∧ node.key ∉ exclude).map NodeView.key).take capacity.toNat

def dagVerdict (nodes : List NodeView) : DagVerdict :=
  if nodes.any fun node => node.state = .ready ∨ node.state = .running then .active
  else if (nodes.filter NodeView.required).all fun node => node.state = .succeeded then .succeeded
  else .failed

def transitiveDependents (nodes : List NodeView) (key : Text) : List Text :=
  nodes.foldl
    (fun found node =>
      if key ∈ node.dependsOn ∨ ∃ dependency ∈ node.dependsOn, dependency ∈ found then found ++ [node.key]
      else found)
    []

/-! ### One turn -/

section Turn

variable {dependsOn : List Text} {settled settled' : Text → Option NodeState} {node : NodeView}

theorem dependencyEffect_eq_blocked_iff :
    dependencyEffect dependsOn settled = .blocked ↔
      ∃ key ∈ dependsOn, ∃ state, settled key = some state ∧ state.isUnsatisfiable = true := by
  have isAny : (dependsOn.any fun key => (settled key).any NodeState.isUnsatisfiable) = true ↔
      ∃ key ∈ dependsOn, ∃ state, settled key = some state ∧ state.isUnsatisfiable = true := by
    simp [any_eq_true, Option.any_eq_true]
  rw [← isAny, dependencyEffect]
  by_cases bad : (dependsOn.any fun key => (settled key).any NodeState.isUnsatisfiable) = true
  · rw [if_pos bad]
    exact iff_of_true rfl bad
  · rw [if_neg bad]
    refine iff_of_false ?_ bad
    split <;> decide

theorem dependencyEffect_eq_ready_iff :
    dependencyEffect dependsOn settled = .ready ↔ ∀ key ∈ dependsOn, settled key = some .succeeded := by
  have isAll : (dependsOn.all fun key => settled key == some .succeeded) = true ↔
      ∀ key ∈ dependsOn, settled key = some .succeeded := by
    simp [all_eq_true]
  rw [← isAll, dependencyEffect]
  by_cases all : (dependsOn.all fun key => settled key == some .succeeded) = true
  · have noneBad : ¬ (dependsOn.any fun key => (settled key).any NodeState.isUnsatisfiable) = true := by
      intro bad
      obtain ⟨key, mem, isBad⟩ := any_eq_true.mp bad
      rw [isAll.mp all key mem] at isBad
      cases isBad
    rw [if_neg noneBad, if_pos all]
    exact iff_of_true rfl all
  · refine iff_of_false ?_ all
    rw [if_neg all]
    split <;> decide

theorem isOpen_dependencyEffect : (dependencyEffect dependsOn settled).isOpen = true := by
  unfold dependencyEffect
  split_ifs <;> rfl

theorem dependencyEffect_congr
    (sameBad : ∀ key ∈ dependsOn, (settled key).any NodeState.isUnsatisfiable =
      (settled' key).any NodeState.isUnsatisfiable)
    (sameGood : ∀ key ∈ dependsOn, settled key = some .succeeded ↔ settled' key = some .succeeded) :
    dependencyEffect dependsOn settled = dependencyEffect dependsOn settled' := by
  have sameAny : (dependsOn.any fun key => (settled key).any NodeState.isUnsatisfiable) =
      dependsOn.any fun key => (settled' key).any NodeState.isUnsatisfiable := by
    rw [Bool.eq_iff_iff, any_eq_true, any_eq_true]
    exact exists_congr fun key => and_congr_right fun mem => by rw [sameBad key mem]
  have sameAll : (dependsOn.all fun key => settled key == some .succeeded) =
      dependsOn.all fun key => settled' key == some .succeeded := by
    rw [Bool.eq_iff_iff, all_eq_true, all_eq_true]
    exact forall₂_congr fun key mem => by simpa using sameGood key mem
  rw [dependencyEffect, dependencyEffect, sameAny, sameAll]

theorem settleOne_of_open (isOpen : node.state.isOpen = true) :
    settleOne node settled = dependencyEffect node.dependsOn settled :=
  if_pos isOpen

theorem settleOne_of_not_open (fixed : ¬ node.state.isOpen = true) : settleOne node settled = node.state :=
  if_neg fixed

theorem settleOne_congr (same : ∀ key ∈ node.dependsOn, settled key = settled' key) :
    settleOne node settled = settleOne node settled' := by
  have sameEffect : dependencyEffect node.dependsOn settled = dependencyEffect node.dependsOn settled' :=
    dependencyEffect_congr (fun key mem => by rw [same key mem]) fun key mem => by rw [same key mem]
  rw [settleOne, settleOne, sameEffect]

theorem isOpen_settleOne : (settleOne node settled).isOpen = node.state.isOpen := by
  by_cases isOpen : node.state.isOpen = true
  · rw [settleOne_of_open isOpen, isOpen_dependencyEffect, isOpen]
  · rw [settleOne_of_not_open isOpen]

theorem settleOne_settled :
    settleOne { node with state := settleOne node settled } settled = settleOne node settled := by
  by_cases isOpen : node.state.isOpen = true
  · rw [settleOne_of_open (isOpen_settleOne.trans isOpen), settleOne_of_open isOpen]
  · exact settleOne_of_not_open (isOpen_settleOne.symm ▸ isOpen)

end Turn

/-! ### The whole pass -/

namespace InOrdinalOrder

variable {nodes : List NodeView} {node : NodeView}

theorem eq_of_key (ordered : InOrdinalOrder nodes) {other : NodeView} (mem : node ∈ nodes)
    (otherMember : other ∈ nodes) (same : other.key = node.key) : other = node :=
  inj_on_of_nodup_map (OrderedAfter.nodup ordered) otherMember mem same

theorem exists_dependency (ordered : InOrdinalOrder nodes) (mem : node ∈ nodes) {key : Text}
    (depends : key ∈ node.dependsOn) : ∃ dependency ∈ nodes, dependency.key = key :=
  (OrderedAfter.exists_of_mem_deps ordered mem depends).resolve_left not_mem_nil

theorem valueOf_settleStates (ordered : InOrdinalOrder nodes) (mem : node ∈ nodes) :
    valueOf (settleStates nodes) node.key = some (settleOne node (valueOf (settleStates nodes))) :=
  valueOf_evaluate ordered (fun _ _ _ => settleOne_congr) mem

theorem settledState_eq (ordered : InOrdinalOrder nodes) (mem : node ∈ nodes) :
    settledState nodes node = settleOne node (valueOf (settleStates nodes)) := by
  rw [settledState, ordered.valueOf_settleStates mem]
  rfl

theorem valueOf_eq (ordered : InOrdinalOrder nodes) (mem : node ∈ nodes) :
    valueOf (settleStates nodes) node.key = some (settledState nodes node) := by
  rw [ordered.settledState_eq mem, ordered.valueOf_settleStates mem]

/-- **Induction along the dependencies of the nodes.** -/
theorem induction {P : NodeView → Prop} (ordered : InOrdinalOrder nodes)
    (next : ∀ node ∈ nodes, (∀ dependency ∈ nodes, dependency.key ∈ node.dependsOn → P dependency) → P node) :
    ∀ node ∈ nodes, P node := by
  have all := OrderedAfter.induction (P := fun key => ∀ node ∈ nodes, node.key = key → P node) ordered
    (fun key mem => absurd mem not_mem_nil) fun first isFirst known node mem same => by
      obtain rfl := ordered.eq_of_key isFirst mem same
      exact next node mem fun dependency isNode depends => known dependency.key depends dependency isNode rfl
  exact fun node mem => all node mem node mem rfl

theorem settle (ordered : InOrdinalOrder nodes) : InOrdinalOrder (settle nodes) :=
  OrderedAfter.map ordered (fun _ _ => rfl) fun _ _ => rfl

end InOrdinalOrder

/-! ### Chains of dependencies -/

inductive Doomed (nodes : List NodeView) : NodeView → Prop
  | fails {node dependency : NodeView} (isNode : dependency ∈ nodes) (depends : dependency.key ∈ node.dependsOn)
      (ended : dependency.state = .failed ∨ dependency.state = .cancelled) : Doomed nodes node
  | through {node dependency : NodeView} (isNode : dependency ∈ nodes)
      (depends : dependency.key ∈ node.dependsOn) (isOpen : dependency.state.isOpen = true)
      (next : Doomed nodes dependency) : Doomed nodes node

section Settled

variable {nodes : List NodeView} {node : NodeView}

theorem settledState_of_not_open (ordered : InOrdinalOrder nodes) (mem : node ∈ nodes)
    (fixed : ¬ node.state.isOpen = true) : settledState nodes node = node.state := by
  rw [ordered.settledState_eq mem, settleOne_of_not_open fixed]

theorem isOpen_settledState (ordered : InOrdinalOrder nodes) (mem : node ∈ nodes) :
    (settledState nodes node).isOpen = node.state.isOpen := by
  rw [ordered.settledState_eq mem, isOpen_settleOne]

theorem isUnsatisfiable_settledState_iff (ordered : InOrdinalOrder nodes) (mem : node ∈ nodes) :
    (settledState nodes node).isUnsatisfiable = true ↔
      (node.state = .failed ∨ node.state = .cancelled) ∨
        node.state.isOpen = true ∧ settledState nodes node = .blocked := by
  by_cases isOpen : node.state.isOpen = true
  · have stays := (isOpen_settledState ordered mem).trans isOpen
    have notEnded : ¬ (node.state = .failed ∨ node.state = .cancelled) := by
      rintro (state | state) <;> rw [state] at isOpen <;> cases isOpen
    rw [or_iff_right notEnded, and_iff_right isOpen, NodeState.isUnsatisfiable_iff_of_open stays]
  · rw [settledState_of_not_open ordered mem isOpen, or_iff_left fun both => isOpen both.1,
      NodeState.isUnsatisfiable_iff_of_not_open isOpen]

theorem dependency_settled_iff (ordered : InOrdinalOrder nodes) (mem : node ∈ nodes) {P : NodeState → Prop} :
    (∃ key ∈ node.dependsOn, ∃ state, valueOf (settleStates nodes) key = some state ∧ P state) ↔
      ∃ dependency ∈ nodes, dependency.key ∈ node.dependsOn ∧ P (settledState nodes dependency) := by
  constructor
  · rintro ⟨key, depends, state, value, holds⟩
    obtain ⟨dependency, isNode, rfl⟩ := ordered.exists_dependency mem depends
    rw [ordered.valueOf_eq isNode, Option.some.injEq] at value
    exact ⟨dependency, isNode, depends, value ▸ holds⟩
  · rintro ⟨dependency, isNode, depends, holds⟩
    exact ⟨dependency.key, depends, _, ordered.valueOf_eq isNode, holds⟩

theorem settledState_eq_blocked_iff (ordered : InOrdinalOrder nodes) (mem : node ∈ nodes)
    (isOpen : node.state.isOpen = true) : settledState nodes node = .blocked ↔ Doomed nodes node := by
  refine ordered.induction (P := fun node => node.state.isOpen = true →
    (settledState nodes node = .blocked ↔ Doomed nodes node)) ?_ node mem isOpen
  intro node mem earlier isOpen
  rw [ordered.settledState_eq mem, settleOne_of_open isOpen, dependencyEffect_eq_blocked_iff,
    dependency_settled_iff (P := fun state => state.isUnsatisfiable = true) ordered mem]
  constructor
  · rintro ⟨dependency, isNode, depends, bad⟩
    rcases (isUnsatisfiable_settledState_iff ordered isNode).mp bad with ended | ⟨stillOpen, isBlocked⟩
    · exact .fails isNode depends ended
    · exact .through isNode depends stillOpen ((earlier dependency isNode depends stillOpen).mp isBlocked)
  · rintro (⟨isNode, depends, ended⟩ | ⟨isNode, depends, stillOpen, next⟩)
    · exact ⟨_, isNode, depends, (isUnsatisfiable_settledState_iff ordered isNode).mpr (.inl ended)⟩
    · refine ⟨_, isNode, depends, (isUnsatisfiable_settledState_iff ordered isNode).mpr (.inr ⟨stillOpen, ?_⟩)⟩
      exact (earlier _ isNode depends stillOpen).mpr next

theorem settledState_eq_iff (ordered : InOrdinalOrder nodes) (mem : node ∈ nodes) {state : NodeState}
    (fixed : state.isOpen = false) : settledState nodes node = state ↔ node.state = state := by
  by_cases isOpen : node.state.isOpen = true
  · have stays := (isOpen_settledState ordered mem).trans isOpen
    refine iff_of_false ?_ ?_ <;> rintro rfl
    · exact Bool.false_ne_true (fixed.symm.trans stays)
    · exact Bool.false_ne_true (fixed.symm.trans isOpen)
  · rw [settledState_of_not_open ordered mem isOpen]

theorem settledState_eq_ready_iff (ordered : InOrdinalOrder nodes) (mem : node ∈ nodes)
    (isOpen : node.state.isOpen = true) :
    settledState nodes node = .ready ↔
      ∀ dependency ∈ nodes, dependency.key ∈ node.dependsOn → dependency.state = .succeeded := by
  rw [ordered.settledState_eq mem, settleOne_of_open isOpen, dependencyEffect_eq_ready_iff]
  constructor
  · intro all dependency isNode depends
    have value := all dependency.key depends
    rw [ordered.valueOf_eq isNode, Option.some.injEq] at value
    exact (settledState_eq_iff ordered isNode rfl).mp value
  · intro all key depends
    obtain ⟨dependency, isNode, rfl⟩ := ordered.exists_dependency mem depends
    rw [ordered.valueOf_eq isNode, (settledState_eq_iff ordered isNode rfl).mpr (all _ isNode depends)]

def settledNode (nodes : List NodeView) (node : NodeView) : NodeView :=
  { node with state := settledState nodes node }

theorem settledState_settle (ordered : InOrdinalOrder nodes) (mem : node ∈ nodes) :
    settledState (settle nodes) (settledNode nodes node) = settledState nodes node := by
  have isNode : ∀ node ∈ nodes, settledNode nodes node ∈ settle nodes :=
    fun node mem => mem_map_of_mem mem
  refine ordered.induction (P := fun node =>
    settledState (settle nodes) (settledNode nodes node) = settledState nodes node) ?_ node mem
  intro node mem earlier
  have sameDependencies : ∀ key ∈ (settledNode nodes node).dependsOn,
      valueOf (settleStates (settle nodes)) key = valueOf (settleStates nodes) key := by
    intro key depends
    obtain ⟨dependency, isDependency, rfl⟩ := ordered.exists_dependency mem depends
    rw [ordered.valueOf_eq isDependency, ← earlier dependency isDependency depends]
    exact ordered.settle.valueOf_eq (isNode dependency isDependency)
  rw [ordered.settle.settledState_eq (isNode node mem), settleOne_congr sameDependencies, settledNode,
    ordered.settledState_eq mem, settleOne_settled]

/-- **Settling is idempotent.** -/
theorem settle_settle (ordered : InOrdinalOrder nodes) : settle (settle nodes) = settle nodes := by
  have again : ∀ node ∈ settle nodes, { node with state := settledState (settle nodes) node } = node := by
    intro settled isSettled
    obtain ⟨node, mem, rfl⟩ := mem_map.mp isSettled
    have same := settledState_settle ordered mem
    rw [settledNode] at same
    rw [same]
  rw [settle, map_congr_left again, map_id']

/-- The states as they are. -/
def stateOf (nodes : List NodeView) : Text → Option NodeState :=
  valueOf (nodes.map fun node => (node.key, node.state))

theorem stateOf_key (ordered : InOrdinalOrder nodes) (mem : node ∈ nodes) :
    stateOf nodes node.key = some node.state := by
  refine valueOf_of_mem ?_ (mem_map.mpr ⟨node, mem, rfl⟩)
  rw [map_map]
  exact OrderedAfter.nodup ordered

theorem settledState_eq_state_iff :
    settle nodes = nodes ↔ ∀ node ∈ nodes, settledState nodes node = node.state := by
  constructor
  · intro same node mem
    have here : (settle nodes).map NodeView.state = nodes.map NodeView.state := by rw [same]
    rw [settle, map_map] at here
    exact map_inj_left.mp here node mem
  · intro same
    rw [settle, map_congr_left (g := id) fun node mem => by rw [same node mem]; rfl, map_id]

theorem settle_eq_self_iff (ordered : InOrdinalOrder nodes) :
    settle nodes = nodes ↔
      ∀ node ∈ nodes, node.state.isOpen = true → node.state = dependencyEffect node.dependsOn (stateOf nodes) := by
  rw [settledState_eq_state_iff]
  have effect : ∀ node ∈ nodes, node.state.isOpen = true →
      (∀ dependency ∈ nodes, dependency.key ∈ node.dependsOn → settledState nodes dependency = dependency.state) →
      settledState nodes node = dependencyEffect node.dependsOn (stateOf nodes) := by
    intro node mem isOpen same
    have sameDependencies : ∀ key ∈ node.dependsOn, valueOf (settleStates nodes) key = stateOf nodes key := by
      intro key depends
      obtain ⟨dependency, isNode, rfl⟩ := ordered.exists_dependency mem depends
      rw [ordered.valueOf_eq isNode, stateOf_key ordered isNode, same dependency isNode depends]
    rw [ordered.settledState_eq mem, settleOne_congr sameDependencies, settleOne_of_open isOpen]
  constructor
  · intro same node mem isOpen
    rw [← effect node mem isOpen fun dependency isNode _ => same dependency isNode, same node mem]
  · intro effects node mem
    refine ordered.induction (P := fun node => settledState nodes node = node.state) ?_ node mem
    intro node mem earlier
    by_cases isOpen : node.state.isOpen = true
    · rw [effect node mem isOpen earlier, ← effects node mem isOpen]
    · exact settledState_of_not_open ordered mem isOpen

/-- **Nothing is stuck.** In settled states a node is pending only while some node is ready or running. -/
theorem exists_active_of_pending (ordered : InOrdinalOrder nodes) (settled : settle nodes = nodes)
    (mem : node ∈ nodes) (pending : node.state = .pending) :
    ∃ other ∈ nodes, other.state = .ready ∨ other.state = .running := by
  by_contra noneActive
  refine ordered.induction (P := fun node => node.state ≠ .pending) ?_ node mem pending
  intro node mem earlier pending
  have isEffect := (settle_eq_self_iff ordered).mp settled node mem (by rw [pending]; rfl)
  rw [pending] at isEffect
  by_cases good : ∀ key ∈ node.dependsOn, stateOf nodes key = some .succeeded
  · rw [dependencyEffect_eq_ready_iff.mpr good] at isEffect
    cases isEffect
  · push Not at good
    obtain ⟨key, depends, notGood⟩ := good
    obtain ⟨dependency, isNode, rfl⟩ := ordered.exists_dependency mem depends
    have state := stateOf_key ordered isNode
    have notPending := earlier dependency isNode depends
    have notActive : ¬ (dependency.state = .ready ∨ dependency.state = .running) :=
      fun active => noneActive ⟨dependency, isNode, active⟩
    have bad : dependency.state.isUnsatisfiable = true := by
      rw [state] at notGood
      cases isState : dependency.state <;> simp_all [NodeState.isUnsatisfiable]
    rw [dependencyEffect_eq_blocked_iff.mpr ⟨_, depends, _, state, bad⟩] at isEffect
    cases isEffect

end Settled

def DependsOn (nodes : List NodeView) (key dependency : Text) : Prop :=
  ∃ node ∈ nodes, node.key = key ∧ dependency ∈ node.dependsOn

section Dependents

variable {nodes : List NodeView} {node : NodeView}

end Dependents

/-! ### Runs -/

/-- A running node finishes for good, or becomes ready again. -/
inductive NodeOutcome
  | succeeded
  | failed
  | again
  deriving DecidableEq, Repr

def NodeOutcome.state : NodeOutcome → NodeState
  | .succeeded => .succeeded
  | .failed => .failed
  | .again => .ready

inductive Move
  | settle
  | start (keys : List Text)
  | finish (key : Text) (outcome : NodeOutcome)
  deriving DecidableEq, Repr

def Move.Fits (nodes : List NodeView) : Move → Prop
  | .settle => True
  | .start keys => ∀ key ∈ keys, ∃ node ∈ nodes, node.key = key ∧ node.state = .ready
  | .finish key _ => ∃ node ∈ nodes, node.key = key ∧ node.state = .running

instance (nodes : List NodeView) : DecidablePred (Move.Fits nodes)
  | .settle => inferInstanceAs (Decidable True)
  | .start keys => inferInstanceAs (Decidable (∀ key ∈ keys, ∃ node ∈ nodes, node.key = key ∧ node.state = .ready))
  | .finish key _ => inferInstanceAs (Decidable (∃ node ∈ nodes, node.key = key ∧ node.state = .running))

def Move.stateAfter (nodes : List NodeView) (node : NodeView) : Move → NodeState
  | .settle => settledState nodes node
  | .start keys => if node.key ∈ keys then .running else node.state
  | .finish key outcome => if node.key = key then outcome.state else node.state

/-- Settling, starting any batch of ready nodes and finishing running ones, in any order. -/
def moves : Machine (List NodeView) Move where
  initial nodes := InOrdinalOrder nodes ∧ ∀ node ∈ nodes, node.state = .pending
  step nodes move :=
    if move.Fits nodes then some (nodes.map fun node => { node with state := move.stateAfter nodes node })
    else none

/-- The nodes of a plan before anything ran. -/
def unstarted (nodes : List NodeView) : List NodeView :=
  nodes.map fun node => { node with state := .pending }

structure Explained (past : List Move) (nodes : List NodeView) : Prop where
  ordered : InOrdinalOrder nodes
  succeeded : ∀ node ∈ nodes, node.state = .succeeded ↔ .finish node.key .succeeded ∈ past
  failed : ∀ node ∈ nodes, node.state = .failed ↔ .finish node.key .failed ∈ past
  blocked : ∀ node ∈ nodes, node.state = .blocked →
    ∃ key, Relation.TransGen (DependsOn nodes) node.key key ∧ .finish key .failed ∈ past
  notCancelled : ∀ node ∈ nodes, node.state ≠ .cancelled

theorem Doomed.exists_ended {nodes : List NodeView} {node : NodeView} (doomed : Doomed nodes node)
    (mem : node ∈ nodes) :
    ∃ ended ∈ nodes, Relation.TransGen (DependsOn nodes) node.key ended.key ∧
      (ended.state = .failed ∨ ended.state = .cancelled) := by
  induction doomed with
  | fails isNode depends ended => exact ⟨_, isNode, .single ⟨_, mem, rfl, depends⟩, ended⟩
  | through isNode depends _ _ ih =>
    obtain ⟨ended, isEnded, reaches, state⟩ := ih isNode
    exact ⟨ended, isEnded, .head ⟨_, mem, rfl, depends⟩ reaches, state⟩

section Step

variable {nodes : List NodeView} {node : NodeView} {past : List Move} {move : Move}

theorem dependsOn_map (state : NodeView → NodeState) :
    DependsOn (nodes.map fun node => { node with state := state node }) = DependsOn nodes := by
  funext key dependency
  refine propext ⟨?_, ?_⟩
  · rintro ⟨changed, isChanged, same, depends⟩
    obtain ⟨node, mem, rfl⟩ := mem_map.mp isChanged
    exact ⟨node, mem, same, depends⟩
  · rintro ⟨node, mem, same, depends⟩
    exact ⟨_, mem_map_of_mem mem, same, depends⟩

theorem stateAfter_eq_iff (ordered : InOrdinalOrder nodes) (fits : move.Fits nodes) (mem : node ∈ nodes)
    (outcome : NodeOutcome) (isOver : outcome ≠ .again) :
    move.stateAfter nodes node = outcome.state ↔ node.state = outcome.state ∨ move = .finish node.key outcome := by
  have notOpen : outcome.state.isOpen = false := by
    cases outcome
    · rfl
    · rfl
    · exact absurd rfl isOver
  have notRunning : outcome.state ≠ .running := by cases outcome <;> decide
  have notReady : outcome.state ≠ .ready := fun state => by
    rw [state] at notOpen
    cases notOpen
  cases move with
  | settle =>
    rw [or_iff_left nofun]
    exact settledState_eq_iff ordered mem notOpen
  | start keys =>
    rw [or_iff_left nofun]
    by_cases started : node.key ∈ keys
    · obtain ⟨other, isNode, same, ready⟩ := fits node.key started
      obtain rfl := ordered.eq_of_key mem isNode same
      rw [Move.stateAfter, if_pos started, ready]
      exact iff_of_false notRunning.symm notReady.symm
    · rw [Move.stateAfter, if_neg started]
  | finish key given =>
    by_cases same : node.key = key
    · subst same
      obtain ⟨other, isNode, same, running⟩ := fits
      obtain rfl := ordered.eq_of_key mem isNode same
      rw [Move.stateAfter, if_pos rfl, running, or_iff_right notRunning.symm, Move.finish.injEq,
        and_iff_right rfl]
      cases given <;> cases outcome <;> decide
    · rw [Move.stateAfter, if_neg same, or_iff_left]
      rw [Move.finish.injEq]
      exact fun both => same both.1.symm

theorem Explained.blockedAfter (explained : Explained past nodes) (mem : node ∈ nodes)
    (isBlocked : move.stateAfter nodes node = .blocked) :
    ∃ key, Relation.TransGen (DependsOn nodes) node.key key ∧ .finish key .failed ∈ past := by
  cases move with
  | settle =>
    have isOpen : node.state.isOpen = true := by
      rw [← isOpen_settledState explained.ordered mem, show settledState nodes node = .blocked from isBlocked]
      rfl
    have doomed := (settledState_eq_blocked_iff explained.ordered mem isOpen).mp isBlocked
    obtain ⟨ended, isNode, reaches, state⟩ := doomed.exists_ended mem
    have failed := state.resolve_right (explained.notCancelled ended isNode)
    exact ⟨ended.key, reaches, (explained.failed ended isNode).mp failed⟩
  | start keys =>
    rw [Move.stateAfter] at isBlocked
    split at isBlocked
    · cases isBlocked
    · exact explained.blocked node mem isBlocked
  | finish key outcome =>
    rw [Move.stateAfter] at isBlocked
    split at isBlocked
    · cases outcome <;> cases isBlocked
    · exact explained.blocked node mem isBlocked

theorem Explained.notCancelledAfter (explained : Explained past nodes) (move : Move) (mem : node ∈ nodes) :
    move.stateAfter nodes node ≠ .cancelled := by
  have before := explained.notCancelled node mem
  cases move with
  | settle => exact fun cancelled => before ((settledState_eq_iff explained.ordered mem rfl).mp cancelled)
  | start keys =>
    rw [Move.stateAfter]
    split
    · decide
    · exact before
  | finish key outcome =>
    rw [Move.stateAfter]
    split
    · cases outcome <;> decide
    · exact before

theorem Explained.step (explained : Explained past nodes) {nodes' : List NodeView}
    (taken : moves.step nodes move = some nodes') : Explained (past ++ [move]) nodes' := by
  have ordered := explained.ordered
  unfold moves at taken
  dsimp only at taken
  split at taken
  case isFalse => cases taken
  case isTrue fits =>
    obtain rfl := Option.some.inj taken
    have now : ∀ {event : Move}, event ∈ past ++ [move] ↔ event ∈ past ∨ move = event := fun {event} => by
      rw [mem_append, mem_singleton, eq_comm]
    refine ⟨OrderedAfter.map ordered (fun _ _ => rfl) fun _ _ => rfl, ?_, ?_, ?_, ?_⟩ <;>
      refine forall_mem_map.mpr fun node mem => ?_
    · rw [now, ← explained.succeeded node mem]
      exact stateAfter_eq_iff ordered fits mem .succeeded (by decide)
    · rw [now, ← explained.failed node mem]
      exact stateAfter_eq_iff ordered fits mem .failed (by decide)
    · intro isBlocked
      rw [dependsOn_map]
      obtain ⟨key, reaches, failed⟩ := explained.blockedAfter mem isBlocked
      exact ⟨key, reaches, mem_append_left _ failed⟩
    · exact explained.notCancelledAfter move mem

end Step

/-! ### The verdict -/

section Verdict

variable {nodes : List NodeView}

theorem dagVerdict_eq_active_iff :
    dagVerdict nodes = .active ↔ ∃ node ∈ nodes, node.state = .ready ∨ node.state = .running := by
  have isAny : (nodes.any fun node => node.state = .ready ∨ node.state = .running) = true ↔
      ∃ node ∈ nodes, node.state = .ready ∨ node.state = .running := by
    simp [any_eq_true]
  rw [dagVerdict, ← isAny]
  by_cases active : (nodes.any fun node => node.state = .ready ∨ node.state = .running) = true
  · rw [if_pos active]
    exact iff_of_true rfl active
  · rw [if_neg active]
    refine iff_of_false ?_ active
    split <;> decide

theorem dagVerdict_eq_succeeded_iff (ended : dagVerdict nodes ≠ .active) :
    dagVerdict nodes = .succeeded ↔ ∀ node ∈ nodes, node.required = true → node.state = .succeeded := by
  have isAll : ((nodes.filter NodeView.required).all fun node => node.state = .succeeded) = true ↔
      ∀ node ∈ nodes, node.required = true → node.state = .succeeded := by
    rw [all_eq_true]
    constructor
    · intro all node mem required
      exact of_decide_eq_true (all node (mem_filter.mpr ⟨mem, required⟩))
    · intro all node mem
      have both := mem_filter.mp mem
      exact decide_eq_true (all node both.1 both.2)
  have idle : ¬ (nodes.any fun node => node.state = .ready ∨ node.state = .running) = true :=
    fun active => ended (if_pos active)
  rw [dagVerdict, if_neg idle, ← isAll]
  split
  case isTrue all => exact iff_of_true rfl all
  case isFalse some => exact iff_of_false nofun some

theorem isOver_of_idle (ordered : InOrdinalOrder nodes) (settled : settle nodes = nodes)
    (ended : dagVerdict nodes ≠ .active) :
    ∀ node ∈ nodes, node.state ≠ .pending ∧ node.state ≠ .ready ∧ node.state ≠ .running := by
  have idle := dagVerdict_eq_active_iff.not.mp ended
  intro node mem
  refine ⟨fun pending => ?_, fun ready => ?_, fun running => ?_⟩
  · exact idle (exists_active_of_pending ordered settled mem pending)
  · exact idle ⟨node, mem, .inl ready⟩
  · exact idle ⟨node, mem, .inr running⟩

end Verdict

end PawBackend.Orchestrator
