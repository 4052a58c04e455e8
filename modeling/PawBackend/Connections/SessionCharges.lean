/-
**A session's charge and its row never drift apart** (`connections/store.py`: `add_session_turn`,
`settle_session`, `reap_abandoned`; `connections/service.py`: `_session_finals`, `_settle_session`).

* `Balanced` is the invariant: what the turns and the settlement of a session charged is what its row counts, and
  a budget is the sum of the charges of its task, up to the cap.
* `Grows` is what may happen to a row: neither part decreases, and a row that is no longer in flight stays.
-/

import PawBackend.Connections.SessionUsage

namespace PawBackend.Connections

open Lib List
open Tools (Instant TaskRun Uuid)
open Tasks (QueueLease QueueTable)

variable {taskOf : Uuid → Uuid} {db db' : SessionTables} {held : List SessionLock} {id : Uuid} {row row' : UsageRow}

/-! ### Charges -/

namespace SessionTables

def chargedBy (db : SessionTables) (usageId : Uuid) : ℕ :=
  ((db.charges.filter fun charge => decide (charge.usageId = some usageId)).map Charge.amount).sum

def chargedTo (db : SessionTables) (taskId : Uuid) : ℕ :=
  ((db.charges.filter fun charge => decide (charge.taskId = taskId)).map Charge.amount).sum

end SessionTables

theorem sum_filter_append (p : Charge → Bool) (charges : List Charge) (charge : Charge) :
    (((charges ++ [charge]).filter p).map Charge.amount).sum =
      ((charges.filter p).map Charge.amount).sum + if p charge then charge.amount else 0 := by
  rw [filter_append, map_append, sum_append]
  congr 1
  cases here : p charge <;> simp [here]

theorem chargedBy_charge (db : SessionTables) (taskId : Uuid) (usageId : Option Uuid) (amount : ℕ) (id : Uuid) :
    (db.charge taskId usageId amount).chargedBy id = db.chargedBy id + if usageId = some id then amount else 0 := by
  unfold SessionTables.chargedBy SessionTables.charge
  rw [sum_filter_append]
  simp only [decide_eq_true_eq]

theorem chargedTo_charge (db : SessionTables) (taskId : Uuid) (usageId : Option Uuid) (amount : ℕ) (id : Uuid) :
    (db.charge taskId usageId amount).chargedTo id = db.chargedTo id + if taskId = id then amount else 0 := by
  unfold SessionTables.chargedTo SessionTables.charge
  rw [sum_filter_append]
  simp only [decide_eq_true_eq]

theorem get_budgets_charge (db : SessionTables) (taskId : Uuid) (usageId : Option Uuid) (amount : ℕ) (id : Uuid) :
    (db.charge taskId usageId amount).budgets.get id =
      (db.budgets.get id).map fun row =>
        if decide (row.taskId = taskId) then { row with consumed := min (row.consumed + amount) maxConsumedTokens } else row :=
  Keyed.get_update db.budgets (fun row => decide (row.taskId = taskId))
    (fun row => { row with consumed := min (row.consumed + amount) maxConsumedTokens }) (fun _ _ => rfl) id

theorem get_writeOutcome (db : SessionTables) (id : Uuid) (write : UsageRow → UsageOutcome) (k : Uuid) :
    (db.writeOutcome id write).usage.get k = (db.usage.get k).map fun row =>
      if decide (row.id = id ∧ row.outcome.status = .inFlight) then { row with outcome := write row } else row :=
  Keyed.get_update db.usage (fun row => decide (row.id = id ∧ row.outcome.status = .inFlight))
    (fun row => { row with outcome := write row }) (fun _ _ => rfl) k

theorem get_writeOutcome_of_found (write : UsageRow → UsageOutcome) (found : db.usage.get id = some row)
    (inFlight : row.outcome.status = .inFlight) (k : Uuid) :
    (db.writeOutcome id write).usage.get k = if k = id then some { row with outcome := write row } else db.usage.get k := by
  rw [get_writeOutcome]
  split_ifs with same
  · rw [same, found, Option.map_some, if_pos (decide_eq_true ⟨Keyed.key_of_get found, inFlight⟩)]
  · cases other : db.usage.get k with
    | none => rfl
    | some row =>
      have isKey : row.id = k := Keyed.key_of_get other
      rw [Option.map_some, if_neg]
      simp [isKey, same]

/-! ### The discipline -/

structure Budgeted (taskOf : Uuid → Uuid) (db : SessionTables) : Prop where
  consumed : ∀ taskId budget, db.budgets.get taskId = some budget → budget.consumed = min maxConsumedTokens (db.chargedTo taskId)
  unbudgeted : ∀ taskId, db.budgets.get taskId = none → db.chargedTo taskId = 0
  tasks : ∀ charge ∈ db.charges, ∀ id, charge.usageId = some id → charge.taskId = taskOf id

structure Balanced (taskOf : Uuid → Uuid) (db : SessionTables) : Prop extends Budgeted taskOf db where
  counted : ∀ id row, db.usage.get id = some row → row.session = true → row.counted.1 + row.counted.2 = db.chargedBy id
  absent : ∀ id, db.usage.get id = none → db.chargedBy id = 0

structure Grows (row row' : UsageRow) : Prop where
  entry : row'.entry = row.entry
  session : row'.session = row.session
  input : row.counted.1 ≤ row'.counted.1
  output : row.counted.2 ≤ row'.counted.2
  closed : row.outcome.status ≠ .inFlight → row' = row

theorem Grows.refl (row : UsageRow) : Grows row row := ⟨rfl, rfl, le_rfl, le_rfl, fun _ => rfl⟩

theorem Grows.trans {a b c : UsageRow} (first : Grows a b) (second : Grows b c) : Grows a c where
  entry := second.entry.trans first.entry
  session := second.session.trans first.session
  input := first.input.trans second.input
  output := first.output.trans second.output
  closed done := by
    have same := first.closed done
    exact (second.closed (same ▸ done)).trans same

/-- What a transaction that holds these locks may rely on. -/
structure SessionKeeps (held : List SessionLock) (db db' : SessionTables) : Prop where
  rows : ∀ id row, db.usage.get id = some row → ∃ row', db'.usage.get id = some row' ∧ Grows row row'
  locked : ∀ id row, .usage id ∈ held → db.usage.get id = some row → db'.usage.get id = some row
  budgets : ∀ taskId, (db.budgets.get taskId).isSome = true → (db'.budgets.get taskId).isSome = true

theorem SessionKeeps.refl (held : List SessionLock) (db : SessionTables) : SessionKeeps held db db :=
  ⟨fun _ row found => ⟨row, found, Grows.refl row⟩, fun _ _ _ found => found, fun _ there => there⟩

theorem SessionKeeps.trans (held : List SessionLock) {a b c : SessionTables} (first : SessionKeeps held a b)
    (second : SessionKeeps held b c) : SessionKeeps held a c where
  rows id row found := by
    obtain ⟨row', found', grows⟩ := first.rows id row found
    obtain ⟨row'', found'', grows'⟩ := second.rows id row' found'
    exact ⟨row'', found'', grows.trans grows'⟩
  locked id row isHeld found := second.locked id row isHeld (first.locked id row isHeld found)
  budgets taskId there := second.budgets taskId (first.budgets taskId there)

/-- What a settlement makes of a session's row. -/
structure SettledAs (counted : ℕ × ℕ) (totals : Totals) (estimate : ℕ) (parts : ℕ × ℕ) : Prop where
  notLess : counted.1 ≤ parts.1 ∧ counted.2 ≤ parts.2
  input : ∀ known, totals.1 = some known → parts.1 = max counted.1 known
  output : ∀ known, totals.2 = some known → parts.2 = max counted.2 known
  estimated : totals.1 = none ∨ totals.2 = none → estimate ≤ parts.1 + parts.2
  finals : sessionFinals counted totals estimate = parts

def sessionReplies (db db' : SessionTables) : SessionReply → Prop
  | .settled id totals estimate (some (row, counted)) =>
    db'.usage.get id = some row ∧ row.outcome.status ≠ .inFlight ∧ SettledAs counted totals estimate row.counted ∧
      ∃ before, db.usage.get id = some before ∧ before.outcome.status = .inFlight ∧ before.counted = counted
  | .settled _ _ _ none => db' = db
  | .turn _ _ _ turn => turn = .recorded ∨ turn = .usedUp
  | .reaped _ => True

def sessionDiscipline (taskOf : Uuid → Uuid) : Discipline (sessionSystem taskOf) where
  inv := Balanced taskOf
  keeps := SessionKeeps
  answers := sessionReplies
  refl := SessionKeeps.refl
  trans := SessionKeeps.trans

/-! ### What the statements write -/

theorem Budgeted.charge {taskId : Uuid} {usageId : Option Uuid} {amount : ℕ} (budgeted : Budgeted taskOf db)
    (funded : (db.budgets.get taskId).isSome = true) (ofTask : ∀ id, usageId = some id → taskId = taskOf id) :
    Budgeted taskOf (db.charge taskId usageId amount) where
  consumed id budget found := by
    rw [get_budgets_charge, Option.map_eq_some_iff] at found
    obtain ⟨old, found, rfl⟩ := found
    have isKey : old.taskId = id := Keyed.key_of_get found
    rw [chargedTo_charge, isKey]
    by_cases same : taskId = id
    · rw [if_pos (decide_eq_true same.symm), if_pos same, budgeted.consumed id old found]
      show min (min maxConsumedTokens (db.chargedTo id) + amount) maxConsumedTokens = _
      omega
    · rw [if_neg (by simpa using fun other => same other.symm), if_neg same, budgeted.consumed id old found, Nat.add_zero]
  unbudgeted id none := by
    rw [get_budgets_charge, Option.map_eq_none_iff] at none
    have other : taskId ≠ id := fun same => by
      rw [same, none] at funded
      cases funded
    rw [chargedTo_charge, if_neg other, Nat.add_zero, budgeted.unbudgeted id none]
  tasks charge mem id isSession := by
    rcases mem_append.mp mem with old | new
    · exact budgeted.tasks charge old id isSession
    · rw [mem_singleton.mp new] at isSession ⊢
      exact ofTask id isSession

theorem isSome_budgets_charge (db : SessionTables) (taskId : Uuid) (usageId : Option Uuid) (amount : ℕ) (id : Uuid) :
    ((db.charge taskId usageId amount).budgets.get id).isSome = (db.budgets.get id).isSome := by
  rw [get_budgets_charge, Option.isSome_map]

theorem keeps_of_replaced (locked : .usage id ∈ held) (found : db.usage.get id = some row) (grows : Grows row row')
    (usage : ∀ k, db'.usage.get k = if k = id then some row' else db.usage.get k)
    (budgets : ∀ taskId, (db.budgets.get taskId).isSome = true → (db'.budgets.get taskId).isSome = true)
    (others : List SessionLock) (apart : Discipline.Compatible (sessionSystem taskOf) held others) :
    SessionKeeps others db db' where
  rows k old there := by
    rw [usage]
    split_ifs with same
    · rw [same, found, Option.some.injEq] at there
      exact ⟨row', rfl, there ▸ grows⟩
    · exact ⟨old, there, Grows.refl old⟩
  locked k old isHeld there := by
    have clear := apart _ locked _ isHeld
    have other : k ≠ id := by
      rintro rfl
      simp [sessionSystem, SessionLock.conflict] at clear
    rw [usage, if_neg other]
    exact there
  budgets := budgets

theorem balanced_of_replaced {amount : ℕ} (sound : Balanced taskOf db) (found : db.usage.get id = some row)
    (session : row'.session = row.session)
    (more : row'.counted.1 + row'.counted.2 = row.counted.1 + row.counted.2 + amount)
    (usage : ∀ k, db'.usage.get k = if k = id then some row' else db.usage.get k)
    (charged : ∀ k, db'.chargedBy k = db.chargedBy k + if k = id then amount else 0)
    (budgeted : Budgeted taskOf db') : Balanced taskOf db' where
  toBudgeted := budgeted
  counted k other there isSession := by
    rw [usage] at there
    rw [charged]
    split_ifs at there ⊢ with same
    · rw [Option.some.injEq] at there
      subst there same
      rw [session] at isSession
      rw [more, sound.counted k row found isSession]
    · exact sound.counted k other there isSession
  absent k none := by
    rw [usage] at none
    rw [charged]
    split_ifs at none ⊢ with same
    exact sound.absent k none

theorem respects_charged {write : UsageRow → UsageOutcome} {amount : ℕ} (sound : Balanced taskOf db)
    (locked : .usage id ∈ held) (found : db.usage.get id = some row) (inFlight : row.outcome.status = .inFlight)
    (written : { row with outcome := write row } = row') (grows : Grows row row')
    (more : row'.counted.1 + row'.counted.2 = row.counted.1 + row.counted.2 + amount)
    (funded : (db.budgets.get (taskOf id)).isSome = true) :
    (sessionDiscipline taskOf).Respects held db ((db.writeOutcome id write).charge (taskOf id) (some id) amount) := by
  have usage := get_writeOutcome_of_found write found inFlight
  rw [written] at usage
  have before : Budgeted taskOf (db.writeOutcome id write) := ⟨sound.consumed, sound.unbudgeted, sound.tasks⟩
  constructor
  · refine balanced_of_replaced sound found grows.session more usage (fun k => ?_)
      (before.charge funded fun _ same => congrArg taskOf (Option.some.inj same))
    rw [chargedBy_charge]
    simp only [Option.some.injEq, eq_comm]
    rfl
  · refine keeps_of_replaced locked found grows usage fun taskId there => ?_
    rw [isSome_budgets_charge]
    exact there

theorem respects_written {write : UsageRow → UsageOutcome} (sound : Balanced taskOf db) (locked : .usage id ∈ held)
    (found : db.usage.get id = some row) (inFlight : row.outcome.status = .inFlight)
    (written : { row with outcome := write row } = row') (grows : Grows row row')
    (same : row'.counted.1 + row'.counted.2 = row.counted.1 + row.counted.2) :
    (sessionDiscipline taskOf).Respects held db (db.writeOutcome id write) := by
  have usage := get_writeOutcome_of_found write found inFlight
  rw [written] at usage
  constructor
  · refine balanced_of_replaced sound found grows.session (same.trans (Nat.add_zero _).symm) usage (fun k => ?_)
      ⟨sound.consumed, sound.unbudgeted, sound.tasks⟩
    rw [ite_self]
    rfl
  · exact keeps_of_replaced locked found grows usage fun taskId there => there

theorem respects_same (sound : Balanced taskOf db) (usage : ∀ k, db'.usage.get k = db.usage.get k)
    (budgets : db'.budgets = db.budgets) (charges : db'.charges = db.charges) :
    (sessionDiscipline taskOf).Respects held db db' := by
  have charged : db'.chargedBy = db.chargedBy := by
    unfold SessionTables.chargedBy
    rw [charges]
  have chargedTo : db'.chargedTo = db.chargedTo := by
    unfold SessionTables.chargedTo
    rw [charges]
  constructor
  · refine ⟨⟨?_, ?_, ?_⟩, ?_, ?_⟩
    · rw [budgets, chargedTo]
      exact sound.consumed
    · rw [budgets, chargedTo]
      exact sound.unbudgeted
    · rw [charges]
      exact sound.tasks
    · intro id row found
      rw [usage] at found
      rw [charged]
      exact sound.counted id row found
    · intro id none
      rw [usage] at none
      rw [charged]
      exact sound.absent id none
  · intro others _
    refine ⟨fun k row found => ⟨row, (usage k).trans found, Grows.refl row⟩, fun k row _ found => (usage k).trans found, ?_⟩
    rw [budgets]
    exact fun _ there => there

/-! ### Final tokens -/

theorem settledParts_eq (counted : ℕ × ℕ) (totals : Totals) (estimate : ℕ) :
    sessionFinals counted totals estimate = settledParts counted totals estimate := by
  obtain ⟨input | input, output | output⟩ := totals <;> simp [sessionFinals, settledParts, largerParts]

theorem settledAs (counted : ℕ × ℕ) (totals : Totals) (estimate : ℕ) :
    SettledAs counted totals estimate (settledParts counted totals estimate) := by
  constructor
  · unfold settledParts largerParts
    exact ⟨(le_max_left _ _).trans (Nat.le_add_right _ _), (le_max_left _ _).trans (Nat.le_add_right _ _)⟩
  · intro known isKnown
    simp [settledParts, largerParts, isKnown]
  · intro known isKnown
    simp [settledParts, largerParts, isKnown]
  · intro unknown
    unfold settledParts largerParts
    rcases unknown with none | none
    · simp only [none, ne_eq, not_true_eq_false, false_and, if_true, if_false]
      omega
    · cases input : totals.1 with
      | none =>
        simp only [ne_eq, not_true_eq_false, false_and, if_true, if_false]
        omega
      | some known =>
        simp only [none, ne_eq, reduceCtorEq, not_false_eq_true, true_and, if_true, if_false]
        omega
  · exact settledParts_eq counted totals estimate

/-! ### The transactions -/

theorem follows_lockBudget {taskId : Uuid} {next : TokenBudgetRow → SessionTxn}
    (follows : ∀ held db budget, (db.budgets.get taskId).isSome = true →
      (sessionDiscipline taskOf).Follows held db (next budget)) :
    (sessionDiscipline taskOf).Follows held db (lockBudget taskId next) := by
  intro db _ _
  beta_reduce
  obtain found | ⟨budget, found⟩ := (db.budgets.get taskId).eq_none_or_eq_some
  · rw [if_pos (by rw [found]; rfl), found]
    trivial
  · rw [if_neg (by simp [found]), found]
    exact follows _ db budget (by rw [found]; rfl)

theorem takes_iff {input output : ℕ} :
    row.takes input output = true ↔ (row.outcome.status = .inFlight ∧ row.session = true) ∧
      row.counted.1 + input ≤ maxTokensPerCall ∧ row.counted.2 + output ≤ maxTokensPerCall := by
  simp only [UsageRow.takes, UsageRow.isOpen, Bool.and_eq_true, decide_eq_true_eq]

theorem follows_record (request : TurnRequest) {budget : TokenBudgetRow}
    (funded : (db.budgets.get (taskOf request.usageId)).isSome = true) :
    (sessionDiscipline taskOf).Follows held db (request.record (taskOf request.usageId) budget) := by
  intro db₁ _ kept₁
  beta_reduce
  by_cases lost : holdsSessionLease db₁ (taskOf request.usageId) request.lease = false
  · rw [if_pos lost, if_pos lost]
    trivial
  rw [if_neg lost, if_neg lost]
  intro db₂ _ kept₂
  beta_reduce
  by_cases closed : ((db₂.usage.get request.usageId).any fun row => row.takes request.input request.output) = false
  · rw [if_pos closed, if_pos closed]
    trivial
  rw [if_neg closed, if_neg closed]
  intro db₃ sound kept₃ db' reply wrote
  cases wrote
  refine ⟨?_, by show ite _ _ _ = _ ∨ ite _ _ _ = _; split_ifs <;> simp⟩
  obtain ⟨row, found, takes⟩ := (Option.any_eq_true _ _).mp (Bool.eq_true_of_not_eq_false closed)
  have inFlight := (takes_iff.mp takes).1.1
  have there := kept₃.locked _ row (.head _) found
  refine respects_charged sound (.head _) there inFlight rfl
    ⟨rfl, rfl, Nat.le_add_right _ _, Nat.le_add_right _ _, fun done => absurd inFlight done⟩ ?_
    (kept₃.budgets _ (kept₂.budgets _ (kept₁.budgets _ funded)))
  show row.counted.1 + request.input + (row.counted.2 + request.output) = _
  omega

theorem follows_turn (request : TurnRequest) :
    (sessionDiscipline taskOf).Follows held db (request.addSessionTurn (taskOf request.usageId)) := by
  have onwards : ∀ held db, (sessionDiscipline taskOf).Follows held db
      (lockBudget (taskOf request.usageId) (request.record (taskOf request.usageId))) := by
    intro held db
    exact follows_lockBudget fun held db budget funded => follows_record request funded
  intro db _ _
  split_ifs
  all_goals
    dsimp only
    cases db.tasks.get (taskOf request.usageId) with
    | none => trivial
    | some task =>
      dsimp only
      split_ifs
      · trivial
      · exact onwards _ db

theorem follows_settle (request : SettleRequest) :
    (sessionDiscipline taskOf).Follows held db (request.settleSession (taskOf request.usageId)) := by
  refine follows_lockBudget fun held db budget funded => ?_
  intro db₁ _ kept₁
  beta_reduce
  obtain none | ⟨row, opened⟩ := ((db₁.usage.get request.usageId).filter UsageRow.isOpen).eq_none_or_eq_some
  · rw [if_pos (by rw [none]; rfl), none]
    intro db₂ sound _ db' reply wrote
    cases wrote
    exact ⟨Discipline.respects_self sound, rfl⟩
  rw [if_neg (by simp [opened]), opened]
  have settled := settledAs row.counted request.totals request.estimate
  dsimp only
  generalize settledParts row.counted request.totals request.estimate = parts at settled ⊢
  by_cases violates : request.violates parts = true
  · rw [if_pos violates]
    trivial
  rw [if_neg violates]
  intro db₂ sound kept₂ db' reply wrote
  cases wrote
  obtain ⟨found, isOpen⟩ := Option.filter_eq_some_iff.mp opened
  unfold UsageRow.isOpen at isOpen
  rw [Bool.and_eq_true, decide_eq_true_eq] at isOpen
  have there := kept₂.locked _ row (.head _) found
  have closed : request.status ≠ .inFlight := fun same => violates (decide_eq_true (.inl same))
  have grows : Grows row (request.settledRow db₁ row parts) :=
    ⟨rfl, rfl, settled.notLess.1, settled.notLess.2, fun done => absurd isOpen.1 done⟩
  have after := get_writeOutcome_of_found (fun _ => (request.settledRow db₁ row parts).outcome) there isOpen.1 request.usageId
  rw [if_pos rfl] at after
  have notLess := settled.notLess
  constructor
  · split_ifs with more
    · refine respects_charged sound (.head _) there isOpen.1 rfl grows ?_
        (kept₂.budgets _ (kept₁.budgets _ funded))
      show parts.1 + parts.2 = _
      omega
    · refine respects_written sound (.head _) there isOpen.1 rfl grows ?_
      show parts.1 + parts.2 = _
      omega
  · refine ⟨?_, closed, settled, row, there, isOpen.1, rfl⟩
    split_ifs
    · exact after
    · exact after

theorem follows_lockDoomed {next : List Uuid → SessionTxn} {todo found : List Uuid}
    (locked : ∀ id ∈ found, .usage id ∈ held)
    (follows : ∀ held db found, (∀ id ∈ found, .usage id ∈ held) → (sessionDiscipline taskOf).Follows held db (next found)) :
    (sessionDiscipline taskOf).Follows held db (lockDoomed next todo found) := by
  induction todo generalizing held db found with
  | nil => exact follows held db found locked
  | cons id rest ih =>
    intro db₁ _ _
    beta_reduce
    by_cases absent : ((db₁.usage.get id).any fun row => decide (row.outcome.status = .inFlight)) = false
    · rw [if_pos absent, absent, if_neg Bool.false_ne_true]
      exact ih locked
    · rw [if_neg absent, if_pos (Bool.eq_true_of_not_eq_false absent)]
      refine ih fun other mem => ?_
      rcases mem_append.mp mem with old | new
      · exact .tail _ (locked other old)
      · rw [mem_singleton.mp new]
        exact .head _

theorem respects_reaped (started : SessionTables) (sound : Balanced taskOf db) (locked : .usage id ∈ held) :
    (sessionDiscipline taskOf).Respects held db (db.writeOutcome id started.toUsageTables.reaped) := by
  by_cases open_ : ∃ row, db.usage.get id = some row ∧ row.outcome.status = .inFlight
  · obtain ⟨row, found, inFlight⟩ := open_
    exact respects_written sound locked found inFlight rfl
      ⟨rfl, rfl, le_rfl, le_rfl, fun done => absurd inFlight done⟩ rfl
  · refine respects_same sound (fun k => ?_) rfl rfl
    rw [get_writeOutcome]
    cases found : db.usage.get k with
    | none => rfl
    | some row =>
      rw [Option.map_some, if_neg]
      intro selected
      obtain ⟨isId, inFlight⟩ := of_decide_eq_true selected
      exact open_ ⟨row, isId ▸ Keyed.key_of_get found ▸ found, inFlight⟩

theorem respects_reapAll (started : SessionTables) {found : List Uuid} (sound : Balanced taskOf db)
    (locked : ∀ id ∈ found, .usage id ∈ held) :
    (sessionDiscipline taskOf).Respects held db
      (found.foldl (fun tables id => tables.writeOutcome id started.toUsageTables.reaped) db) := by
  induction found generalizing db with
  | nil => exact Discipline.respects_self sound
  | cons id rest ih =>
    have first := respects_reaped started sound (locked id (.head _))
    exact first.trans (ih first.1 fun other mem => locked other (.tail _ mem))

theorem follows_reap (limit : ℕ) (skipped : List Uuid) :
    (sessionDiscipline taskOf).Follows held db (reapSessions limit skipped) := by
  intro started _ _
  refine follows_lockDoomed nofun fun held db found locked => ?_
  intro db₁ sound _ db' reply wrote
  cases wrote
  exact ⟨respects_reapAll started sound locked, trivial⟩

/-! ### What else moves the rows -/

theorem respects_budget (sound : Balanced taskOf db) (taskId : Uuid) (limit : Option ℕ) :
    (sessionDiscipline taskOf).Respects held db ((SessionChange.budget taskId limit).apply taskOf db) := by
  have found : ∀ k, ((SessionChange.budget taskId limit).apply taskOf db).budgets.get k =
      if k = taskId then some ⟨taskId, ((db.budgets.get taskId).map TokenBudgetRow.consumed).getD 0, limit⟩
      else db.budgets.get k := fun k => Keyed.get_put _ _ k
  constructor
  · refine ⟨⟨fun k budget there => ?_, fun k none => ?_, sound.tasks⟩, sound.counted, sound.absent⟩
    · rw [found] at there
      split_ifs at there with same
      · rw [Option.some.injEq] at there
        subst there same
        show _ = min maxConsumedTokens (db.chargedTo k)
        cases old : db.budgets.get k with
        | none =>
          rw [sound.unbudgeted k old]
          rfl
        | some budget => exact sound.consumed k budget old
      · exact sound.consumed k budget there
    · rw [found] at none
      split_ifs at none with same
      exact sound.unbudgeted k none
  · intro others _
    refine ⟨fun k row there => ⟨row, there, Grows.refl row⟩, fun k row _ there => there, fun k there => ?_⟩
    rw [found]
    split_ifs
    · rfl
    · exact there

theorem respects_otherCharge (sound : Balanced taskOf db) {taskId : Uuid} (amount : ℕ)
    (funded : (db.budgets.get taskId).isSome = true) :
    (sessionDiscipline taskOf).Respects held db (db.charge taskId none amount) := by
  have charged : ∀ k, (db.charge taskId none amount).chargedBy k = db.chargedBy k := fun k => by
    rw [chargedBy_charge, if_neg (by simp), Nat.add_zero]
  constructor
  · refine ⟨sound.toBudgeted.charge funded nofun, fun k row there session => ?_, fun k none => ?_⟩
    · rw [charged]
      exact sound.counted k row there session
    · rw [charged]
      exact sound.absent k none
  · intro others _
    refine ⟨fun k row there => ⟨row, there, Grows.refl row⟩, fun k row _ there => there, fun k there => ?_⟩
    rw [isSome_budgets_charge]
    exact there

theorem respects_admitted {usage : Keyed UsageRow.id} (sound : Balanced taskOf db) (fresh : row.outcome = {})
    (added : db.usage.tryInsert row = some usage) :
    (sessionDiscipline taskOf).Respects held db { db with usage } := by
  have get : ∀ k, usage.get k = if k = row.id then some row else db.usage.get k := Keyed.get_of_tryInsert added
  have new := Keyed.fresh_of_tryInsert added
  have counts : row.counted = (0, 0) := by
    unfold UsageRow.counted
    rw [fresh]
    rfl
  constructor
  · refine ⟨⟨sound.consumed, sound.unbudgeted, sound.tasks⟩, fun k other there session => ?_, fun k none => ?_⟩
    · rw [get] at there
      split_ifs at there with same
      · rw [Option.some.injEq] at there
        subst there same
        rw [counts]
        exact (sound.absent _ new).symm
      · exact sound.counted k other there session
    · rw [get] at none
      split_ifs at none with same
      exact sound.absent k none
  · intro others _
    have stays : ∀ k other, db.usage.get k = some other → usage.get k = some other := fun k other there => by
      have apart : k ≠ row.id := fun same => by
        rw [same, new] at there
        cases there
      rw [get, if_neg apart]
      exact there
    exact ⟨fun k other there => ⟨other, stays k other there, Grows.refl other⟩, fun k other _ there => stays k other there,
      fun k there => there⟩

theorem sessions_obeyed (taskOf : Uuid → Uuid) : (sessionDiscipline taskOf).Obeyed where
  programs operation db _ := by
    cases operation with
    | turn request => exact follows_turn request
    | settle request => exact follows_settle request
    | reap limit skipped => exact follows_reap limit skipped
  ambient change db sound := by
    cases change with
    | clock | task | queue => exact respects_same sound (fun _ => rfl) rfl rfl
    | budget taskId limit => exact respects_budget sound taskId limit
    | charge taskId amount =>
      simp only [sessionSystem, SessionChange.apply]
      split_ifs with funded
      · exact respects_otherCharge sound amount funded
      · exact Discipline.respects_self sound
    | admitted row =>
      simp only [sessionSystem, SessionChange.apply]
      split_ifs with fits
      · cases added : db.usage.tryInsert row with
        | none => exact Discipline.respects_self sound
        | some usage => exact respects_admitted sound fits.1 added
      · exact Discipline.respects_self sound

/-! ### No drift -/

def noSessions (db : SessionTables) : Prop := db.usage.rows = [] ∧ db.budgets.rows = [] ∧ db.charges = []

theorem balanced_of_noSessions (none : noSessions db) : Balanced taskOf db := by
  obtain ⟨usage, budgets, charges⟩ := none
  have noUsage : ∀ k, db.usage.get k = Option.none := fun k => by
    unfold Keyed.get
    rw [usage]
    rfl
  have noBudget : ∀ k, db.budgets.get k = Option.none := fun k => by
    unfold Keyed.get
    rw [budgets]
    rfl
  refine ⟨⟨fun k budget there => ?_, fun k _ => ?_, fun charge mem => ?_⟩, fun k row there => ?_, fun k _ => ?_⟩
  · rw [noBudget] at there
    cases there
  · unfold SessionTables.chargedTo
    rw [charges]
    rfl
  · rw [charges] at mem
    cases mem
  · rw [noUsage] at there
    cases there
  · unfold SessionTables.chargedBy
    rw [charges]
    rfl

abbrev sessionRuns (taskOf : Uuid → Uuid) :
    Machine (World SessionTables SessionLock SessionFailure SessionReply) (Happening SessionOperation SessionChange) :=
  (sessionSystem taskOf).machine noSessions

def stillSettled (db : SessionTables) : SessionReply → Prop
  | .settled id totals estimate (some (row, counted)) =>
    db.usage.get id = some row ∧ row.outcome.status ≠ .inFlight ∧ SettledAs counted totals estimate row.counted
  | _ => True

theorem stillSettled_of_reachable {w : World SessionTables SessionLock SessionFailure SessionReply}
    (reach : (sessionRuns taskOf).Reachable w) :
    ∀ session ∈ w.sessions, ∀ reply, session.phase = .ended (.ok reply) → stillSettled w.db reply := by
  refine Discipline.ended_of_reachable (sessions_obeyed taskOf) (fun _ => balanced_of_noSessions)
    (fun db db' reply answered => ?_) (fun db db' reply kept told => ?_) reach
  · rcases reply with _ | ⟨id, totals, estimate, _ | ⟨row, counted⟩⟩ | _
    · trivial
    · trivial
    · exact ⟨answered.1, answered.2.1, answered.2.2.1⟩
    · trivial
  · rcases reply with _ | ⟨id, totals, estimate, _ | ⟨row, counted⟩⟩ | _
    · trivial
    · trivial
    · obtain ⟨found, closed, settled⟩ := told
      obtain ⟨row', found', grows⟩ := kept.rows id row found
      exact ⟨found'.trans (congrArg some (grows.closed closed)), closed, settled⟩
    · trivial

/-- What may be said of the sessions in every state of every interleaving. -/
structure NoDrift (taskOf : Uuid → Uuid) (w : World SessionTables SessionLock SessionFailure SessionReply) : Prop where
  /-- The turns and the settlement of a session charged what its row counts, to the task of the session. -/
  charged : ∀ row ∈ w.db.usage.rows, row.session = true → w.db.chargedBy row.id = row.counted.1 + row.counted.2
  ofTask : ∀ charge ∈ w.db.charges, ∀ id, charge.usageId = some id → charge.taskId = taskOf id
  consumed : ∀ budget ∈ w.db.budgets.rows, budget.consumed = min maxConsumedTokens (w.db.chargedTo budget.taskId)
  /-- Neither part of a row ever decreases, and a row leaves `in_flight` once. -/
  grows : ∀ e w', (sessionSystem taskOf).step w e = some w' → ∀ row ∈ w.db.usage.rows,
    ∃ row' ∈ w'.db.usage.rows, row'.id = row.id ∧ Grows row row'
  /-- A turn that is refused changes nothing. -/
  refused : ∀ i w' session outcome turn, (sessionSystem taskOf).step w (.advance i) = some w' →
    w'.sessions[i]? = some session → session.phase = .ended outcome → turnOf outcome = some turn →
      turn ≠ .recorded → turn ≠ .usedUp → w'.db = w.db
  settled : ∀ session ∈ w.sessions, ∀ id totals estimate row counted,
    session.phase = .ended (.ok (.settled id totals estimate (some (row, counted)))) →
      w.db.usage.get id = some row ∧ row.outcome.status ≠ .inFlight ∧ SettledAs counted totals estimate row.counted
  reported : ∀ id totals estimate counted attempts row before,
    (∀ answer, some answer ∈ attempts →
      ∃ session ∈ w.sessions, session.phase = .ended (.ok (.settled id totals estimate answer))) →
    attempts.findSome? (fun answer => answer) = some (some (row, before)) →
      ∃ now, w.db.usage.get id = some now ∧ reportedTotals counted totals estimate attempts = now.counted

/-- **A session's charge and its row never drift apart**, and the statement that settles a row comes to the same tokens
as `_session_finals`. -/
theorem session_charges_match {w : World SessionTables SessionLock SessionFailure SessionReply}
    (reach : (sessionRuns taskOf).Reachable w) :
    NoDrift taskOf w ∧ ∀ counted totals estimate,
      sessionFinals counted totals estimate = settledParts counted totals estimate := by
  have sound := Discipline.sound_of_reachable (sessions_obeyed taskOf) (fun _ => balanced_of_noSessions) reach
  have answered := stillSettled_of_reachable reach
  refine ⟨⟨?_, sound.inv.tasks, ?_, ?_, ?_, ?_, ?_⟩, settledParts_eq⟩
  · exact fun row member session => (sound.inv.counted row.id row (Keyed.get_self member) session).symm
  · exact fun budget member => sound.inv.consumed _ budget (Keyed.get_self member)
  · intro e w' taken row member
    obtain ⟨row', found, grows⟩ := (sound.kept (sessions_obeyed taskOf) taken).rows row.id row (Keyed.get_self member)
    exact ⟨row', Keyed.mem_of_get found, Keyed.key_of_get found, grows⟩
  · intro i w' session outcome turn taken ended phase isTurn notRecorded notUsedUp
    cases outcome with
    | error failure => exact Transactional.unchanged_of_error taken ended phase
    | ok reply =>
      cases reply with
      | turn id input output turn' =>
        cases isTurn
        have said : turn = .recorded ∨ turn = .usedUp := sound.answered taken ended phase
        exact absurd said (not_or.mpr ⟨notRecorded, notUsedUp⟩)
      | settled | reaped => cases isTurn
  · exact fun session member id totals estimate row counted phase => answered session member _ phase
  · intro usageId totals estimate counted attempts row before seen first
    obtain ⟨answer, member, same⟩ := exists_of_findSome?_eq_some first
    obtain ⟨session, inWorld, phase⟩ := seen _ (same ▸ member)
    refine ⟨row, (answered session inWorld _ phase).1, ?_⟩
    unfold reportedTotals
    rw [show attempts.findSome? id = _ from first]

/-! ### Two answers that are lost -/

namespace Sample

def worker : Text := [119]

theorem entryId_checked : Tasks.checkEntryId 1 = .ok () := by decide

theorem worker_checked : Tasks.checkWorkerId worker = .ok () := by decide

theorem claims_checked : Tasks.checkClaimCount 1 = .ok () := by decide

def lease : QueueLease := ⟨1, worker, 1, entryId_checked, worker_checked, claims_checked⟩

def entry : Tasks.QueueEntryRow := ⟨1, 7, .normal, .claimed, 0, some worker, some 0, some 60, 1, none⟩

theorem entry_distinct : ([entry].map Tasks.QueueEntryRow.id).Nodup := by decide

def start : World SessionTables SessionLock SessionFailure SessionReply where
  db := { tasks := .empty, budgets := .empty, connections := .empty, quotas := .empty, usage := .empty, clock := 0
          queue := ⟨[entry], entry_distinct⟩, charges := [] }
  sessions := []

def settlement : SettleRequest := ⟨1, .failed, some .internalError, (none, none), 200000⟩

/-- A turn of ten tokens commits, then the settlement, then the settlement is tried again. -/
def events : List (Happening SessionOperation SessionChange) :=
  [.ambient (.task ⟨7, .running, 1, 0, 2, none⟩), .ambient (.budget 7 none),
    .ambient (.admitted ⟨1, 2, 7, none, .codex, 0, true, {}⟩)] ++
  .begin (.turn ⟨1, .first, lease, 7, 3⟩) :: List.replicate 5 (.advance 0) ++
  .begin (.settle settlement) :: List.replicate 3 (.advance 1) ++
  .begin (.settle settlement) :: List.replicate 3 (.advance 2)

def stop : Option (World SessionTables SessionLock SessionFailure SessionReply) :=
  (sessionRuns fun _ => 7).run start events

/-- The row the settlement wrote: 199997 input tokens and 3 output tokens. -/
def settledRow : UsageRow :=
  ⟨1, 2, 7, none, .codex, 0, true, ⟨.failed, some .internalError, some 199997, some 3, some 0, some 0⟩⟩

theorem stop_settled :
    stop.any (fun w => decide (w.db.usage.get 1 = some settledRow) && decide (w.db.chargedBy 1 = 200000) &&
      w.sessions.any (fun session => decide (session.value = some (.settled 1 (none, none) 200000 (some (settledRow, 7, 3))))) &&
      w.sessions.any (fun session => decide (session.value = some (.settled 1 (none, none) 200000 none)))) = true := by
  decide

theorem exists_stop : ∃ w, (sessionRuns fun _ => 7).Reachable w ∧ w.db.usage.get 1 = some settledRow ∧
    w.db.chargedBy 1 = 200000 ∧
    (∃ session ∈ w.sessions, session.phase = .ended (.ok (.settled 1 (none, none) 200000 (some (settledRow, 7, 3))))) ∧
    ∃ session ∈ w.sessions, session.phase = .ended (.ok (.settled 1 (none, none) 200000 none)) := by
  obtain ⟨w, ran, there⟩ := (Option.any_eq_true _ _).mp stop_settled
  simp only [Bool.and_eq_true, decide_eq_true_eq, any_eq_true] at there
  obtain ⟨⟨⟨row, charged⟩, first, inFirst, settled⟩, second, inSecond, closed⟩ := there
  exact ⟨w, .run (.start ⟨⟨rfl, rfl, rfl⟩, rfl⟩) ran, row, charged, ⟨first, inFirst, first.phase_of_value settled⟩,
    second, inSecond, second.phase_of_value closed⟩

end Sample

/-- The row of the sample charged what it counts. -/
theorem session_charges_match_sample :
    ∃ w, (sessionRuns fun _ => 7).Reachable w ∧ w.db.usage.get 1 = some Sample.settledRow ∧ NoDrift (fun _ => 7) w := by
  obtain ⟨w, reach, row, -⟩ := Sample.exists_stop
  exact ⟨w, reach, row, (session_charges_match reach).1⟩

/-- A settlement whose answer is lost, after a turn whose answer was lost: the caller reports other totals than the
row that it settled has. -/
theorem lost_answers_reported :
    ∃ w, (sessionRuns fun _ => 7).Reachable w ∧ w.db.usage.get 1 = some Sample.settledRow ∧
      (∃ session ∈ w.sessions,
        session.phase = .ended (.ok (.settled 1 (none, none) 200000 (some (Sample.settledRow, 7, 3))))) ∧
      (∃ session ∈ w.sessions, session.phase = .ended (.ok (.settled 1 (none, none) 200000 none))) ∧
      -- the first attempt raised, the second found the row closed, and no turn was counted
      reportedTotals (0, 0) (none, none) 200000 [none, some none] ≠ Sample.settledRow.counted := by
  obtain ⟨w, reach, row, -, first, second⟩ := Sample.exists_stop
  exact ⟨w, reach, row, first, second, by decide⟩

end PawBackend.Connections
