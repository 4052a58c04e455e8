/-
**The ladders of agents** (`orchestrator/config.py`).

What `OrchestratorConfig` checks when it is built are fields here. A rung is a position on the ladder of a
role; an escalation moves up to the next rung whose agent is not to be skipped.
-/

import PawBackend.Orchestrator.DagStore

namespace PawBackend.Orchestrator

open Lib

/-- The agents a plan may assign a node of one role to, and the one a node without an agent gets. -/
structure RoleAssignment where
  allowed : List Text
  default : Option Text
  nonempty : allowed ≠ []
  distinct : allowed.Nodup
  default_mem : ∀ agent ∈ default, agent ∈ allowed

/-- What the orchestrator is told; `max_attempts_per_rung` bounds the attempts of a node on one agent. -/
structure OrchestratorConfig where
  ladders : NodeRole → List Text
  maxAttempts : ℕ
  assigned : NodeRole → RoleAssignment
  ladder_length : ∀ role, 1 ≤ (ladders role).length ∧ (ladders role).length ≤ maxLadderLength
  ladder_distinct : ∀ role, (ladders role).Nodup
  maxAttempts_bound : 1 ≤ maxAttempts ∧ maxAttempts ≤ maxAttemptsPerRung
  assigned_mem : ∀ role, ∀ agent ∈ (assigned role).allowed, agent ∈ ladders role

namespace OrchestratorConfig

variable (config : OrchestratorConfig)

def agentOf (role : NodeRole) (rung : ℕ) : Text := (config.ladders role).getD rung []

def nextRung (role : NodeRole) (rung : ℕ) (skip : List Text) : Option ℕ :=
  (List.range' (rung + 1) ((config.ladders role).length - (rung + 1))).find? fun index =>
    decide (config.agentOf role index ∉ skip)

theorem nextRung_eq_some {config : OrchestratorConfig} {role : NodeRole} {rung next : ℕ} {skip : List Text}
    (found : config.nextRung role rung skip = some next) :
    rung < next ∧ next < (config.ladders role).length ∧ config.agentOf role next ∉ skip := by
  have mem := List.mem_of_find?_eq_some found
  have allowed := List.find?_some found
  rw [List.mem_range'_1] at mem
  exact ⟨by omega, by omega, of_decide_eq_true allowed⟩

/-- How many rungs there are from one on; a rung above the ladder counts as its last one. -/
def rungsFrom (role : NodeRole) (rung : ℕ) : ℕ :=
  (config.ladders role).length - min rung ((config.ladders role).length - 1)

def startRung (role : NodeRole) (agent : Text) : ℕ := (config.ladders role).idxOf agent

def defaultAgent (role : NodeRole) : Option Text :=
  (config.assigned role).default.or
    ((config.ladders role).find? fun label => decide (label ∈ (config.assigned role).allowed))

def assignNode (node : PlanNode) : Except PlanReason PlanNode :=
  match node.agent with
  | none => .ok { node with agent := config.defaultAgent node.role }
  | some agent => if agent ∉ (config.assigned node.role).allowed then .error .agentNotAllowed else .ok node

def assign (plan : Plan) : Except PlanReason Plan := do
  let nodes ← plan.nodes.mapM config.assignNode
  Plan.accept nodes

def rungOf (node : PlanNode) : Option (Text × ℤ) :=
  node.agent.map fun agent => (node.key, (config.startRung node.role agent : ℤ))

theorem map_key_rungs (nodes : List PlanNode) :
    ((nodes.filterMap config.rungOf).map Prod.fst).Sublist (nodes.map PlanNode.key) := by
  induction nodes with
  | nil => exact List.Sublist.slnil
  | cons node rest ih =>
    cases isAgent : node.agent with
    | none =>
      rw [List.filterMap_cons_none (by rw [rungOf, isAgent]; rfl)]
      exact ih.cons _
    | some agent =>
      rw [List.filterMap_cons_some (by rw [rungOf, isAgent]; rfl)]
      exact ih.cons_cons _

theorem nodup_rungs (plan : Plan) : ((plan.nodes.filterMap config.rungOf).map Prod.fst).Nodup :=
  (config.map_key_rungs plan.nodes).nodup plan.ordered.nodup

def startRungs (plan : Plan) : Keyed (Prod.fst : Text × ℤ → Text) :=
  ⟨plan.nodes.filterMap config.rungOf, config.nodup_rungs plan⟩

end OrchestratorConfig

end PawBackend.Orchestrator
