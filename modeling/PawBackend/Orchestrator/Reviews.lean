/-
**The independent reviews the backend adds to a plan** (`orchestrator/reviews.py`).

Two `reviewer` nodes, each with an agent of its own. `forbiddenAgents` is the independence rule: the agent
of the other review, and every agent that ran a Worker.
-/

import Mathlib
import PawBackend.Orchestrator.Config

namespace PawBackend.Orchestrator

open Lib
open Lib.Text (lit)

def claudeReview : Text := lit "paw-review-claude"

def codexReview : Text := lit "paw-review-codex"

/-- `REQUIRED_REVIEWS`: the key of each review and its agent. -/
def requiredReviews : List (Text × Text) := [(claudeReview, lit "claude"), (codexReview, lit "codex")]

def reviewAgents : List Text := requiredReviews.map Prod.snd

def isRequiredReview (key : Text) : Bool := decide (key ∈ requiredReviews.map Prod.fst)

def reviewAgent (key : Text) : Option Text := requiredReviews.lookup key

/-- The agents a required review must not run on: the other review's, and those that ran a Worker. -/
def forbiddenAgents (key : Text) (workerAgents : List Text) : List Text :=
  (reviewAgents.filter fun agent => decide (some agent ≠ reviewAgent key)) ++ workerAgents

/-! ### The plan with the reviews -/

/-- `RESERVED_KEY_PREFIX`: a key of the backend's. -/
def isReservedKey (key : Text) : Bool := Text.startsWith key (lit "paw-")

/-- `adds_required_reviews`: whether both agents may be assigned. -/
def OrchestratorConfig.addsRequiredReviews (config : OrchestratorConfig) : Bool :=
  reviewAgents.all fun agent => decide (agent ∈ (config.assigned .reviewer).allowed)

def refuseReservedKeys (plan : Plan) : Except PlanReason Unit :=
  if plan.nodes.any fun node => isReservedKey node.key then .error .reservedKey else .ok ()

/-- The words of a text, as `str.split` finds them. -/
def words (t : Text) : List Text := (t.splitOnP Text.isSpace).filter fun word => decide (word ≠ [])

/-- `_quoted`: the title of the task in one line. -/
def quoted (title : Text) : Text :=
  let text := Text.join 32 (words (title.map fun c => if isControl c || isSurrogate c then 32 else c))
  let text := if 200 < text.length then text.take 197 ++ lit "..." else text
  text.map fun c => if c = 34 then 39 else c

def reviewTitle (key : Text) : Text :=
  if key = claudeReview then lit "Independent review by Claude" else lit "Independent review by Codex"

/-- `GOAL_TEMPLATE`, filled in. -/
def reviewGoal (workers : List Text) (taskTitle : Text) : Text :=
  lit "Review, on your own, the changes the worker nodes " ++ (lit ", ").intercalate workers ++
    lit " made for the task \"" ++ quoted taskTitle ++
    lit "\". Their work is merged into your read-only checkout of each repository; " ++
    lit "read the change with git from the review base to HEAD (the base is named " ++
    lit "with the repository, for example `git log -p <review base>..HEAD` or " ++
    lit "`git diff <review base> HEAD`). Check that the change does what the task " ++
    lit "asks, that it is correct and tested, and that it adds no security problem. " ++
    lit "You cannot change anything. Submit a summary of your review, and put every " ++
    lit "problem you found in unresolved_questions."

/-- `_text`, for a goal: several lines, no other control characters. -/
def checkGoal (value : Text) : Except PlanReason Text :=
  let stripped := (value.dropWhile Text.isSpace).rdropWhile Text.isSpace
  if 4 * maxGoalChars < value.length ∨ value.any (fun c => isControl c && decide (c ≠ 9 ∧ c ≠ 10)) ∨ value.any isSurrogate ∨
      stripped = [] ∨ maxGoalChars < stripped.length then .error .badText
  else .ok stripped

/-- `review_node`; its key and its title are texts that pass. -/
def reviewNode (workers : List Text) (taskTitle key : Text) : Except PlanReason PlanNode := do
  let goal ← checkGoal (reviewGoal workers taskTitle)
  if maxDependencies < workers.length then throw .tooManyDependencies
  return { key := key, role := .reviewer, title := reviewTitle key, goal := goal
           dependsOn := workers.insertionSort (· ≤ ·), required := true, agent := reviewAgent key }

def workersOf (nodes : List PlanNode) : List Text := (nodes.filter fun node => node.role = .worker).map PlanNode.key

def addRequiredReviews (plan : Plan) (taskTitle : Text) : Except PlanReason Plan := do
  let workers := workersOf plan.nodes
  if workers = [] then return plan
  refuseReservedKeys plan
  let reviews ← requiredReviews.mapM fun review => reviewNode workers taskTitle review.1
  Plan.accept (plan.nodes ++ reviews)

/-- `_accepted`: the plan a DAG is made of. -/
def OrchestratorConfig.accepted (config : OrchestratorConfig) (plan : Plan) (readOnly : Bool) (title : Text) :
    Except PlanReason Plan := do
  refuseReservedKeys plan
  if readOnly then
    plan.refuseWriters
    config.assign plan
  else if config.addsRequiredReviews then
    let reviewed ← addRequiredReviews plan title
    config.assign reviewed
  else config.assign plan

/-! ### The rule -/

/-- `_review_forbidden`: the agents that ran a Worker are those recorded on its attempts. -/
def reviewForbidden (nodes : List NodeRow) (attempts : List AttemptRow) (key : Text) : List Text :=
  let workers := (nodes.filter fun row => row.role = .worker).map NodeRow.key
  forbiddenAgents key
    ((attempts.filter fun attempt => attempt.nodeKey ∈ workers).filterMap fun attempt => attempt.placed.map Placed.agent)

end PawBackend.Orchestrator
