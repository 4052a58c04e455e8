/-
**The bounded failure window loses nothing** (`tasks/queueing/loop.py`: `evaluate_loop`, `LoopDetector`).

Of a task's failures only the newest are stored. Those of the current attempt are the newest ones, and the judgement
looks no further back than the window, so it is that of all failures of the attempt (`Window`).
-/

import PawBackend.Lib.Machine
import PawBackend.Lib.Text

namespace PawBackend.Tasks.LoopDetector

open Lib List

/-! ### The judgement -/

structure LoopPolicy where
  repeatThreshold : ℕ
  windowSize : ℕ
  maxAlternatives : ℕ
  bounds : 2 ≤ repeatThreshold ∧ repeatThreshold ≤ windowSize ∧ windowSize ≤ 1000

inductive LoopVerdict
  | goOn
  | tryAlternative
  | escalate
  deriving DecidableEq, Repr

structure FailureRecord where
  signature : Text
  approach : ℕ
  deriving DecidableEq, Repr

structure LoopAssessment where
  verdict : LoopVerdict
  signature : Option Text
  approach : Option ℕ
  repeats : ℕ
  deriving DecidableEq, Repr

/-- `evaluate_loop` of failures, the oldest first. -/
def evaluateLoop (history : List FailureRecord) (policy : LoopPolicy) : LoopAssessment :=
  match history.getLast? with
  | none => ⟨.goOn, none, none, 0⟩
  | some last =>
    let repeats := (history.rtake policy.windowSize).countP fun record =>
      record.signature = last.signature ∧ record.approach = last.approach
    let verdict := if repeats < policy.repeatThreshold then .goOn
      else if last.approach < policy.maxAlternatives then .tryAlternative else .escalate
    ⟨verdict, some last.signature, some last.approach, repeats⟩

/-! ### The stored window -/

/-- The row of the task, as far as the detector reads it. -/
structure TaskRow where
  attempt : ℕ
  retryCount : ℕ
  ended : Bool

structure FailureSignatureRow where
  attempt : ℕ
  record : FailureRecord

/-- A task and its failures in the order of `seq`. -/
structure LoopDb where
  task : TaskRow
  rows : List FailureSignatureRow

inductive LoopError
  | staleAttempt
  | staleRun

def ofAttempt (attempt : ℕ) (rows : List FailureSignatureRow) : List FailureSignatureRow :=
  rows.filter fun row => row.attempt = attempt

def LoopDb.history (db : LoopDb) : List FailureRecord := (ofAttempt db.task.attempt db.rows).map (·.record)

def assess (policy : LoopPolicy) (db : LoopDb) : LoopAssessment := evaluateLoop db.history policy

/-- `record_failure`; `run` is the retry count of the run it is told. -/
def recordFailure (policy : LoopPolicy) (db : LoopDb) (attempt : ℕ) (run : Option ℕ) (record : FailureRecord) :
    Except LoopError (LoopAssessment × LoopDb) :=
  if db.task.attempt ≠ attempt then .error .staleAttempt
  else if run.any fun retryCount => decide (db.task.retryCount ≠ retryCount) || db.task.ended then .error .staleRun
  else
    let after : LoopDb := { db with rows := (db.rows ++ [FailureSignatureRow.mk attempt record]).rtake policy.windowSize }
    .ok (assess policy after, after)

def clearPreviousAttempts (db : LoopDb) : LoopDb :=
  { db with rows := db.rows.filter fun row => !decide (row.attempt < db.task.attempt) }

/-! ### Runs -/

inductive LoopCall
  | recordFailure (attempt : ℕ) (run : Option ℕ) (record : FailureRecord)
  | clearPreviousAttempts
  | restart (retryCount : ℕ)
  /-- A Retry, or the end of a run. -/
  | change (retryCount : ℕ) (ended : Bool)

/-- The stored failures, and all that were ever recorded. -/
structure LoopTrace where
  db : LoopDb
  recorded : List FailureSignatureRow

def LoopTrace.failures (t : LoopTrace) : List FailureRecord := (ofAttempt t.db.task.attempt t.recorded).map (·.record)

def LoopTrace.next (policy : LoopPolicy) (t : LoopTrace) : LoopCall → LoopTrace
  | .recordFailure attempt run record =>
    match LoopDetector.recordFailure policy t.db attempt run record with
    | .ok (_, db) => ⟨db, t.recorded ++ [⟨attempt, record⟩]⟩
    | .error _ => t
  | .clearPreviousAttempts => { t with db := LoopDetector.clearPreviousAttempts t.db }
  | .restart retryCount => { t with db := { t.db with task := ⟨t.db.task.attempt + 1, retryCount, false⟩ } }
  | .change retryCount ended => { t with db := { t.db with task := ⟨t.db.task.attempt, retryCount, ended⟩ } }

variable {policy : LoopPolicy} {t : LoopTrace} {attempt : ℕ} {front current rows : List FailureSignatureRow}

/-- The stored rows end with the newest of the current attempt: all of them, or as many as the window holds. -/
structure Window (policy : LoopPolicy) (t : LoopTrace) : Prop where
  past : ∀ row ∈ t.recorded, row.attempt ≤ t.db.task.attempt
  kept : ∃ older front current, t.db.rows = older ++ current ∧ (∀ row ∈ older, row.attempt < t.db.task.attempt) ∧
    ofAttempt t.db.task.attempt t.recorded = front ++ current ∧ (front = [] ∨ policy.windowSize ≤ current.length)

theorem ofAttempt_eq_self : ofAttempt attempt rows = rows ↔ ∀ row ∈ rows, row.attempt = attempt := by
  unfold ofAttempt
  rw [filter_eq_self]
  simp only [decide_eq_true_eq]

theorem ofAttempt_eq_nil (other : ∀ row ∈ rows, row.attempt ≠ attempt) : ofAttempt attempt rows = [] :=
  filter_eq_nil_iff.mpr fun row isIn same => other row isIn (of_decide_eq_true same)

theorem ofAttempt_append : ofAttempt attempt (front ++ rows) = ofAttempt attempt front ++ ofAttempt attempt rows :=
  filter_append _ _

theorem ofAttempt_singleton (row : FailureSignatureRow) : ofAttempt row.attempt [row] = [row] :=
  ofAttempt_eq_self.mpr fun other isIn => by rw [mem_singleton.mp isIn]

theorem ofAttempt_current {recorded : List FailureSignatureRow} (isEnd : ofAttempt attempt recorded = front ++ current) :
    ofAttempt attempt current = current :=
  ofAttempt_eq_self.mpr fun row isIn => by
    have mem : row ∈ ofAttempt attempt recorded := isEnd ▸ mem_append_right _ isIn
    exact of_decide_eq_true (mem_filter.mp mem).2

theorem evaluateLoop_append {front history : List FailureRecord} (enough : front = [] ∨ policy.windowSize ≤ history.length) :
    evaluateLoop (front ++ history) policy = evaluateLoop history policy := by
  rcases enough with rfl | enough
  · rfl
  · have filled : history ≠ [] := by
      have := policy.bounds
      exact ne_nil_of_length_pos (by omega)
    have sameWindow : (front ++ history).rtake policy.windowSize = history.rtake policy.windowSize := by
      unfold List.rtake
      rw [drop_append, length_append, drop_eq_nil_of_le (by omega), nil_append]
      congr 1
      omega
    unfold evaluateLoop
    rw [getLast?_append_of_ne_nil _ filled, sameWindow]

theorem Window.assess (window : Window policy t) : assess policy t.db = evaluateLoop t.failures policy := by
  obtain ⟨older, front, current, isRows, before, isEnd, enough⟩ := window.kept
  unfold LoopDetector.assess LoopDb.history LoopTrace.failures
  rw [isRows, ofAttempt_append, ofAttempt_eq_nil fun row isIn => Nat.ne_of_lt (before row isIn), nil_append,
    ofAttempt_current isEnd, isEnd, map_append]
  refine (evaluateLoop_append (enough.imp (fun noFront => ?_) fun enough => ?_)).symm
  · rw [noFront, map_nil]
  · rwa [length_map]

theorem Window.record (window : Window policy t) (record : FailureRecord) :
    Window policy ⟨{ t.db with rows := (t.db.rows ++ [FailureSignatureRow.mk t.db.task.attempt record]).rtake policy.windowSize },
      t.recorded ++ [⟨t.db.task.attempt, record⟩]⟩ := by
  obtain ⟨older, front, current, isRows, before, isEnd, enough⟩ := window.kept
  let now := current ++ [FailureSignatureRow.mk t.db.task.attempt record]
  let cut := (older ++ now).length - policy.windowSize
  refine ⟨fun row isIn => ?_, older.drop cut, front ++ now.take (cut - older.length), now.drop (cut - older.length), ?_,
    fun row isIn => before row (mem_of_mem_drop isIn), ?_, ?_⟩
  · rcases mem_append.mp isIn with old | new
    · exact window.past row old
    · rw [mem_singleton.mp new]
  · show (t.db.rows ++ _).rtake _ = _
    rw [isRows, append_assoc, ← drop_append]
    rfl
  · show ofAttempt t.db.task.attempt (t.recorded ++ _) = _
    rw [ofAttempt_append, isEnd, append_assoc, append_assoc, take_append_drop,
      ofAttempt_singleton ⟨t.db.task.attempt, record⟩]
  · have length : now.length = current.length + 1 := length_append
    by_cases fits : cut ≤ older.length
    · rw [Nat.sub_eq_zero_of_le fits, take_zero, append_nil, drop_zero, length]
      exact enough.imp_right Nat.le_succ_of_le
    · right
      have total : (older ++ now).length = older.length + now.length := length_append
      rw [length_drop]
      omega

theorem Window.next (window : Window policy t) (call : LoopCall) : Window policy (t.next policy call) := by
  cases call with
  | recordFailure attempt run record =>
    unfold LoopTrace.next LoopDetector.recordFailure
    dsimp only
    split_ifs with stale other
    · exact window
    · exact window
    · rw [← not_not.mp stale]
      exact window.record record
  | clearPreviousAttempts =>
    obtain ⟨older, front, current, isRows, before, isEnd, enough⟩ := window.kept
    refine ⟨window.past, [], front, current, ?_, fun row isIn => absurd isIn not_mem_nil, isEnd, enough⟩
    have stays : ∀ row ∈ current, row.attempt = t.db.task.attempt := ofAttempt_eq_self.mp (ofAttempt_current isEnd)
    show t.db.rows.filter _ = _
    rw [isRows, filter_append, filter_eq_nil_iff.mpr fun row isIn => by simp [before row isIn],
      filter_eq_self.mpr fun row isIn => by simp [stays row isIn]]
  | restart retryCount =>
    obtain ⟨older, front, current, isRows, before, isEnd, -⟩ := window.kept
    have stays : ∀ row ∈ current, row.attempt = t.db.task.attempt := ofAttempt_eq_self.mp (ofAttempt_current isEnd)
    refine ⟨fun row isIn => Nat.le_succ_of_le (window.past row isIn), t.db.rows, [], [], (append_nil _).symm,
      fun row isIn => ?_, ofAttempt_eq_nil fun row isIn => Nat.ne_of_lt (Nat.lt_succ_of_le (window.past row isIn)), .inl rfl⟩
    rw [isRows] at isIn
    rcases mem_append.mp isIn with old | new
    · exact Nat.lt_succ_of_lt (before row old)
    · exact Nat.lt_succ_of_le (stays row new).le
  | change retryCount ended => exact ⟨window.past, window.kept⟩

end PawBackend.Tasks.LoopDetector
