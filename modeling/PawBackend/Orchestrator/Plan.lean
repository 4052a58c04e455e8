/-
**Plans** (`orchestrator/plan.py`).

A plan is a list of nodes in topological order: `Plan` carries it, so a DAG is only ever made of nodes that depend on
nodes before them. `Plan.accept` is how one is built: whatever is proposed is checked as a whole and put in order, or
refused with a reason.
-/

import PawBackend.Lib.DependencyOrder
import PawBackend.Orchestrator.Scope

namespace PawBackend.Orchestrator

open Lib Tools
open Authz (Capability)
open Lib.Text (lit)

structure PlanNode where
  key : Text
  role : NodeRole
  title : Text
  goal : Text
  dependsOn : List Text := []
  required : Bool := true
  input : Text := lit "\x7b\x7d"
  capabilities : Option (List Capability) := none
  repositories : Option (List Uuid) := none
  agent : Option Text := none
  deriving DecidableEq

structure Plan where
  nodes : List PlanNode
  ordered : OrderedAfter PlanNode.key PlanNode.dependsOn [] nodes

/-- Why a plan is refused, as far as the checks of a whole plan and of its assignment say so. -/
inductive PlanReason
  | badText
  | tooManyDependencies
  | empty
  | tooManyNodes
  | duplicateKey
  | selfDependency
  | unknownDependency
  | tooManyEdges
  | cycle
  | tooDeep
  | tooLarge
  | noRequiredNode
  | workerInReadOnlyTask
  | agentNotAllowed
  | reservedKey
  deriving DecidableEq, Repr

def maxNodes : ℕ := 32

/-- `MAX_DEPENDENCIES`, of one node. -/
def maxDependencies : ℕ := 8

def maxEdges : ℕ := 96

/-- `MAX_DEPTH`: the nodes on the longest chain of dependencies. -/
def maxDepth : ℕ := 16

def maxGoalChars : ℕ := 4000

def maxPlanBytes : ℕ := 128 * 1024

/-! ### The size of a plan -/

def NodeRole.value : NodeRole → Text
  | .planner => lit "planner"
  | .worker => lit "worker"
  | .researcher => lit "researcher"
  | .reviewer => lit "reviewer"

def utf8Bytes (c : ℕ) : ℕ := if c < 0x80 then 1 else if c < 0x800 then 2 else if c < 0x10000 then 3 else 4

/-- The bytes of a code point in a JSON string: a control character is escaped. -/
def jsonCharBytes (c : ℕ) : ℕ :=
  if c = 34 ∨ c = 92 ∨ c ∈ [8, 9, 10, 12, 13] then 2 else if c < 32 then 6 else utf8Bytes c

def jsonTextBytes (t : Text) : ℕ := 2 + (t.map jsonCharBytes).sum

def jsonListBytes (sizes : List ℕ) : ℕ := 2 + sizes.sum + (sizes.length - 1)

/-- The bytes of `null`, or of a list. -/
def jsonOptionBytes (sizes : Option (List ℕ)) : ℕ := sizes.elim 4 jsonListBytes

/-- The bytes of `to_mapping` as compact JSON; an agent is there only when the node has one. -/
def PlanNode.encodedBytes (node : PlanNode) : ℕ :=
  (lit "\x7b\"key\":,\"role\":,\"title\":,\"goal\":,\"depends_on\":,\"required\":,\"input\":,\"capabilities\":,\"repositories\":\x7d").length +
    jsonTextBytes node.key + jsonTextBytes node.role.value + jsonTextBytes node.title + jsonTextBytes node.goal +
    jsonListBytes (node.dependsOn.map jsonTextBytes) + (if node.required then 4 else 5) + (node.input.map utf8Bytes).sum +
    jsonOptionBytes (node.capabilities.map fun values => values.map fun capability => jsonTextBytes capability.value) +
    jsonOptionBytes (node.repositories.map fun ids => ids.map fun _ => 38) +
    node.agent.elim 0 fun agent => (lit ",\"agent\":").length + jsonTextBytes agent

def planBytes (nodes : List PlanNode) : ℕ :=
  (lit "\x7b\"nodes\":\x7d").length + jsonListBytes (nodes.map PlanNode.encodedBytes)

/-! ### Acceptance -/

/-- The nodes of the longest chain that ends in a node, from those of its dependencies. -/
def depthRule (node : PlanNode) (depth : Text → Option ℕ) : ℕ :=
  1 + (node.dependsOn.map fun key => (depth key).getD 0).foldl max 0

def depths (nodes : List PlanNode) : List ℕ := (evaluate PlanNode.key depthRule nodes).map Prod.snd

def checkDependency (keys : List Text) (node : PlanNode) (dependency : Text) : Except PlanReason Unit :=
  if dependency = node.key then .error .selfDependency
  else if dependency ∉ keys then .error .unknownDependency
  else .ok ()

namespace Plan

def acceptDistinct (nodes : List PlanNode) (distinct : (nodes.map PlanNode.key).Nodup) : Except PlanReason Plan := do
  nodes.forM fun node => node.dependsOn.forM (checkDependency (nodes.map PlanNode.key) node)
  if maxEdges < (nodes.map fun node => node.dependsOn.length).sum then throw .tooManyEdges
  let ordered := topologicalOrder PlanNode.key PlanNode.dependsOn nodes
  if ordered.length ≠ nodes.length then throw .cycle
  if maxDepth < (depths ordered).foldl max 0 then throw .tooDeep
  if maxPlanBytes < planBytes ordered then throw .tooLarge
  if !ordered.any PlanNode.required then throw .noRequiredNode
  return ⟨ordered, orderedAfter_topologicalOrder distinct⟩

/-- `Plan(nodes)`. -/
def accept (nodes : List PlanNode) : Except PlanReason Plan :=
  if nodes = [] then .error .empty
  else if maxNodes < nodes.length then .error .tooManyNodes
  else if distinct : (nodes.map PlanNode.key).Nodup then acceptDistinct nodes distinct
  else .error .duplicateKey

/-- **An accepted plan is the proposal in another order.** -/
theorem perm_of_accept {nodes : List PlanNode} {plan : Plan} (accepted : accept nodes = .ok plan) :
    plan.nodes.Perm nodes := by
  unfold accept at accepted
  simp only [refuse_eq_ok] at accepted
  obtain ⟨-, -, accepted⟩ := accepted
  split at accepted
  case isTrue distinct =>
    simp only [acceptDistinct, bind_eq_ok, check_eq_ok, pure_eq_ok] at accepted
    obtain ⟨_, -, -, all, -, -, -, rfl⟩ := accepted
    exact topologicalOrder_perm (not_not.mp all)
  case isFalse => cases accepted

def refuseWriters (plan : Plan) : Except PlanReason Unit :=
  if plan.nodes.any fun node => node.role = .worker then .error .workerInReadOnlyTask else .ok ()

end Plan

end PawBackend.Orchestrator
