/-
**The store in memory obeys the rules.** Its dictionary writes are `Writes`; the loop over earlier runs
and the loop over the records of the same call are one pass that puts open approvals in order
(`pass_tidies`). `openRequest_cases` says what `open_request` did when it answered, and `Passes` is
what it checks before it creates anything, read off the store before the call.
-/

import PawBackend.Tools.ApprovalLifecycle

namespace PawBackend.Tools

open Lib List
open PostgresApprovalStore (hasCallHash timedOut)

variable {Δ : Type}

def ApprovalHistoryEntry.row (entry : ApprovalHistoryEntry Δ) : ToolApprovalEventRow Δ where
  approvalId := entry.approvalId
  kind := entry.kind
  actorUserId := entry.actorUserId
  agentId := entry.agentId
  createdAt := entry.occurredAt
  summary := entry.summary

namespace InMemoryApprovalStore

def apply (cfg : MemoryConfig) (s : InMemoryApprovalStore Δ) :
    Call Δ → InMemoryApprovalStore Δ × Answer Δ
  | .openRequest new now _ limits require activity =>
    let (s, result) := s.openRequest cfg new now limits require activity
    (s, .opened result)
  | .decide id approver approve now stepUp =>
    let (s, result) := s.decide id approver approve now stepUp
    (s, .decided result)
  | .consume id binding now _ require activity =>
    let (s, outcome) := s.consume cfg id binding now require activity
    (s, .consumed outcome)
  | .revoke id actor now =>
    let (s, outcome) := s.revoke id actor now
    (s, .revoked outcome)
  | .revokeTask taskId now =>
    let (s, ids) := s.revokeTask taskId now
    (s, .revokedTask ids)

def model (cfg : MemoryConfig) : StoreModel (InMemoryApprovalStore Δ) Δ where
  approvals := records
  events s := s.history.map ApprovalHistoryEntry.row
  apply := apply cfg

def view (s : InMemoryApprovalStore Δ) : View Δ where
  record := s.get
  events := s.history.map ApprovalHistoryEntry.row
  keyed _ _ found := Keyed.key_of_get found

variable {s : InMemoryApprovalStore Δ}

/-! ### One write -/

theorem get_assign_log (record : ApprovalRecord Δ) (id : Uuid) (kind : ApprovalEventKind) (now : Instant)
    (actor agent : Option Uuid) (summary : Option Δ) (k : Uuid) :
    ((s.assign record).log id kind now actor agent summary).get k =
      if k = record.approvalId then some record else s.get k :=
  Keyed.get_put s.records record k

theorem writes (record : ApprovalRecord Δ) (now : Instant) (actor agent : Option Uuid)
    (summary : Option Δ) :
    Writes s.view ((s.assign record).log record.approvalId record.status.kind now actor agent
      summary).view record where
  record k := get_assign_log record _ _ now actor agent summary k
  events := by
    refine ⟨⟨record.approvalId, record.status.kind, actor, agent, now, summary⟩, ?_, rfl, rfl⟩
    show (s.history ++ [_]).map ApprovalHistoryEntry.row = _
    rw [map_append]
    rfl

variable {record : ApprovalRecord Δ}

theorem expire_tidies (stored : s.get record.approvalId = some record)
    (now : Instant) : Tidies s.view (s.expire record now).1.view := by
  unfold expire
  split_ifs with selected
  · exact (writes record.expire now none none none).tidies stored ⟨selected.1, Or.inl rfl⟩
  · exact Tidies.refl _

/-! ### A pass over the records -/

/-- Write the records of a condition, one after the other. -/
def pass (selected : ApprovalRecord Δ → Bool) (change : ApprovalRecord Δ → ApprovalRecord Δ)
    (kind : ApprovalEventKind) (now : Instant) (l : List (ApprovalRecord Δ))
    (s : InMemoryApprovalStore Δ) : InMemoryApprovalStore Δ :=
  l.foldl
    (fun s record =>
      if selected record then (s.assign (change record)).log record.approvalId kind now none none none
      else s)
    s

section Pass

variable {selected : ApprovalRecord Δ → Bool} {change : ApprovalRecord Δ → ApprovalRecord Δ}
  {kind : ApprovalEventKind} {now : Instant}

theorem pass_records (l : List (ApprovalRecord Δ)) (s : InMemoryApprovalStore Δ) :
    (pass selected change kind now l s).records =
      l.foldl (fun t record => if selected record then t.put (change record) else t) s.records := by
  induction l generalizing s with
  | nil => rfl
  | cons record rest ih =>
    rw [pass, foldl_cons, foldl_cons, ← pass, ih]
    congr 1
    split_ifs <;> rfl

theorem get_pass (keeps : ∀ record, (change record).approvalId = record.approvalId) (id : Uuid) :
    (pass selected change kind now s.records.rows s).get id =
      (s.get id).map fun record => if selected record then change record else record := by
  unfold get
  rw [pass_records]
  exact Keyed.get_foldl_rows s.records selected change keeps id

theorem pass_tidies (keeps : ∀ record, (change record).approvalId = record.approvalId)
    (ordered : ∀ record, selected record = true → record.PutInOrder (change record))
    (logged : ∀ record, (change record).status.kind = kind) (l : List (ApprovalRecord Δ))
    (distinct : (l.map ApprovalRecord.approvalId).Nodup) (s : InMemoryApprovalStore Δ)
    (stored : ∀ record ∈ l, s.get record.approvalId = some record) :
    Tidies s.view (pass selected change kind now l s).view := by
  induction l generalizing s with
  | nil => exact Tidies.refl _
  | cons record rest ih =>
    rw [map_cons, nodup_cons] at distinct
    rw [pass, foldl_cons, ← pass]
    split_ifs with this
    · have written := writes (s := s) (change record) now none none none
      rw [keeps, logged] at written
      have was : s.view.record (change record).approvalId = some record := by
        rw [keeps]
        exact stored record mem_cons_self
      refine (written.tidies was (ordered record this)).trans (ih distinct.2 _ fun other mem => ?_)
      rw [get_assign_log, keeps, if_neg, stored other (mem_cons_of_mem _ mem)]
      exact fun same => distinct.1 (same ▸ mem_map_of_mem mem)
    · exact ih distinct.2 s fun other mem => stored other (mem_cons_of_mem _ mem)

end Pass

theorem stored_of_mem (mem : record ∈ s.records.rows) :
    s.get record.approvalId = some record :=
  Keyed.get_self mem

theorem revokeWhere_eq (selected : ApprovalRecord Δ → Bool) (now : Instant) :
    s.revokeWhere selected now =
      pass selected (fun record => record.revoke none now) .revoked now s.records.rows s := rfl

theorem revokeWhere_tidies (selected : ApprovalRecord Δ → Bool)
    (isOpen : ∀ record, selected record = true → record.status.isOpen = true) (now : Instant) :
    Tidies s.view (s.revokeWhere selected now).view := by
  rw [revokeWhere_eq]
  apply pass_tidies
  · exact fun _ => rfl
  · exact fun record this => ⟨isOpen record this, Or.inr ⟨none, now, rfl⟩⟩
  · exact fun _ => rfl
  · exact s.records.distinct
  · exact fun _ => stored_of_mem

theorem get_revokeWhere (selected : ApprovalRecord Δ → Bool) (now : Instant) (id : Uuid) :
    (s.revokeWhere selected now).get id =
      (s.get id).map fun record => if selected record then record.revoke none now else record := by
  rw [revokeWhere_eq, get_pass]
  exact fun _ => rfl

/-! ### The records of the same call -/

def markCall (callHash : CallHash) (now : Instant) :
    List (ApprovalRecord Δ) → InMemoryApprovalStore Δ → InMemoryApprovalStore Δ :=
  pass (fun record => hasCallHash callHash record && timedOut now record) ApprovalRecord.expire .expired
    now

theorem timedOut_iff {now : Instant} :
    timedOut now record = true ↔ record.status.isOpen = true ∧ record.isExpired now = true := by
  unfold timedOut ApprovalRecord.isExpired
  rw [Bool.and_eq_true]

theorem findOpen_cons (callHash : CallHash) (now : Instant) (s : InMemoryApprovalStore Δ)
    (record : ApprovalRecord Δ) (rest : List (ApprovalRecord Δ)) :
    findOpen callHash now s (record :: rest) =
      if record.callHash = callHash ∧ record.status.isOpen = true ∧ record.isExpired now = false then
        (s, some record)
      else findOpen callHash now (markCall callHash now [record] s) rest := by
  rw [findOpen, markCall, pass, foldl_cons, foldl_nil]
  by_cases sameCall : record.callHash = callHash
  · have isCall : hasCallHash callHash record = true := decide_eq_true sameCall
    rw [if_neg (not_not.mpr sameCall), isCall, Bool.true_and]
    by_cases isOpen : record.status.isOpen = true
    · cases late : record.isExpired now
      · simp [expire, sameCall, isOpen, late]
      · have isLate : timedOut now record = true := timedOut_iff.mpr ⟨isOpen, late⟩
        have closed : record.expire.status.isOpen = false := rfl
        simp [expire, isOpen, late, isLate, closed]
    · have inTime : timedOut now record = false := by
        rw [Bool.eq_false_iff, Ne, timedOut_iff]
        exact fun this => isOpen this.1
      simp [expire, isOpen, inTime]
  · have isOther : hasCallHash callHash record = false := decide_eq_false sameCall
    simp [sameCall, isOther]

theorem findOpen_none {callHash : CallHash} {now : Instant} {l : List (ApprovalRecord Δ)}
    (nothing : (findOpen callHash now s l).2 = none) :
    (findOpen callHash now s l).1 = markCall callHash now l s ∧
      ∀ record ∈ l, record.callHash = callHash → record.status.isOpen = true →
        record.isExpired now = true := by
  induction l generalizing s with
  | nil => exact ⟨rfl, by simp⟩
  | cons record rest ih =>
    rw [findOpen_cons] at nothing ⊢
    split_ifs at nothing ⊢ with found
    obtain ⟨isNow, late⟩ := ih nothing
    refine ⟨isNow, fun other mem sameCall isOpen => ?_⟩
    rcases mem_cons.mp mem with rfl | mem
    · by_contra inTime
      exact found ⟨sameCall, isOpen, by simpa using inTime⟩
    · exact late other mem sameCall isOpen

theorem findOpen_some {callHash : CallHash} {now : Instant} {l : List (ApprovalRecord Δ)}
    (found : (findOpen callHash now s l).2 = some record) :
    (record.callHash = callHash ∧ record.status.isOpen = true ∧ record.isExpired now = false) ∧
      ∃ earlier later, l = earlier ++ record :: later ∧
        (findOpen callHash now s l).1 = markCall callHash now earlier s := by
  induction l generalizing s with
  | nil => cases found
  | cons first rest ih =>
    rw [findOpen_cons] at found ⊢
    split_ifs at found ⊢ with this
    · cases found
      exact ⟨this, [], rest, rfl, rfl⟩
    · obtain ⟨isFound, earlier, later, isRest, isNow⟩ := ih found
      exact ⟨isFound, first :: earlier, later, by rw [isRest, cons_append], isNow⟩

theorem markCall_tidies (callHash : CallHash) (now : Instant) (l : List (ApprovalRecord Δ))
    (distinct : (l.map ApprovalRecord.approvalId).Nodup)
    (stored : ∀ record ∈ l, s.get record.approvalId = some record) :
    Tidies s.view (markCall callHash now l s).view := by
  unfold markCall
  apply pass_tidies
  · exact fun _ => rfl
  · intro record this
    rw [Bool.and_eq_true] at this
    exact ⟨(timedOut_iff.mp this.2).1, Or.inl rfl⟩
  · exact fun _ => rfl
  · exact distinct
  · exact stored

theorem findOpen_tidies (callHash : CallHash) (now : Instant) :
    Tidies s.view (findOpen callHash now s s.records.rows).1.view := by
  cases found : (findOpen callHash now s s.records.rows).2 with
  | none =>
    rw [(findOpen_none found).1]
    exact markCall_tidies callHash now _ s.records.distinct fun _ => stored_of_mem
  | some record =>
    obtain ⟨-, earlier, later, isRows, isNow⟩ := findOpen_some found
    have distinct := s.records.distinct
    rw [isRows, map_append] at distinct
    rw [isNow]
    refine markCall_tidies callHash now _ distinct.of_append_left fun other mem => ?_
    exact stored_of_mem (isRows ▸ mem_append_left _ mem)

/-! ### `open_request` -/

def survives (new : NewApproval Δ) (now : Instant) (asks : Bool) (record : ApprovalRecord Δ) : Bool :=
  record.status.isOpen && !record.isExpired now && !(asks && ofEarlierRun new now record)

/-- What the request makes of a stored record before it is created. -/
def tidied (new : NewApproval Δ) (now : Instant) (asks : Bool) (record : ApprovalRecord Δ) :
    ApprovalRecord Δ :=
  if hasCallHash new.callHash record && timedOut now record then record.expire
  else if asks && ofEarlierRun new now record then record.revoke none now
  else record

/-- Nothing is in the way of a request: its task is active when that is asked for, no approval of its
call stays open or was just rejected, and its task and user have room for one more. -/
structure Passes (s : InMemoryApprovalStore Δ) (new : NewApproval Δ) (now : Instant)
    (limits : OpenLimits) (asks : Bool) (activity : TaskActivity) : Prop where
  task : asks = true → activity = .active
  noOpen : ∀ record ∈ s.records.rows, record.callHash = new.callHash →
    survives new now asks record = false
  noRejection : ∀ record ∈ s.records.rows, coolsDown new.callHash now limits record = false
  below : s.records.rows.countP (fun record => Decidable.decide (record.taskId = new.taskId) &&
    Decidable.decide (record.requesterUserId = new.requesterUserId) && survives new now asks record) <
      limits.maxPending

instance (s : InMemoryApprovalStore Δ) (new : NewApproval Δ) (now : Instant) (limits : OpenLimits)
    (asks : Bool) (activity : TaskActivity) : Decidable (Passes s new now limits asks activity) :=
  decidable_of_iff
    ((asks = true → activity = .active) ∧
      (∀ record ∈ s.records.rows, record.callHash = new.callHash →
        survives new now asks record = false) ∧
      (∀ record ∈ s.records.rows, coolsDown new.callHash now limits record = false) ∧
      s.records.rows.countP (fun record => Decidable.decide (record.taskId = new.taskId) &&
        Decidable.decide (record.requesterUserId = new.requesterUserId) &&
        survives new now asks record) < limits.maxPending)
    ⟨fun all => ⟨all.1, all.2.1, all.2.2.1, all.2.2.2⟩,
      fun passes => ⟨passes.task, passes.noOpen, passes.noRejection, passes.below⟩⟩

section Opening

variable {new : NewApproval Δ} {now : Instant} {asks : Bool}

theorem isOpen_of_ofEarlierRun {record : ApprovalRecord Δ} (earlier : ofEarlierRun new now record = true) :
    record.status.isOpen = true ∧ record.isExpired now = false := by
  unfold ofEarlierRun at earlier
  simp only [Bool.and_eq_true, Bool.not_eq_true'] at earlier
  exact ⟨earlier.1.2, earlier.2⟩

def swept (new : NewApproval Δ) (now : Instant) (asks : Bool) (s : InMemoryApprovalStore Δ) :
    InMemoryApprovalStore Δ :=
  if asks then s.revokeWhere (ofEarlierRun new now) now else s

theorem swept_tidies : Tidies s.view (s.swept new now asks).view := by
  unfold swept
  split_ifs
  · exact revokeWhere_tidies _ (fun _ earlier => (isOpen_of_ofEarlierRun earlier).1) now
  · exact Tidies.refl _

theorem get_swept (id : Uuid) :
    (s.swept new now asks).get id = (s.get id).map fun record =>
      if asks && ofEarlierRun new now record then record.revoke none now else record := by
  unfold swept
  cases asks
  · simp
  · simpa using get_revokeWhere (ofEarlierRun new now) now id

theorem get_marked (id : Uuid) :
    (markCall new.callHash now (s.swept new now asks).records.rows (s.swept new now asks)).get id =
      (s.get id).map (tidied new now asks) := by
  have keeps : ∀ record : ApprovalRecord Δ, record.expire.approvalId = record.approvalId := fun _ => rfl
  unfold markCall
  rw [get_pass keeps, get_swept, Option.map_map]
  congr 1
  funext record
  unfold tidied
  rw [Function.comp_apply]
  by_cases earlier : (asks && ofEarlierRun new now record) = true
  · -- a record of an earlier run is in time, and closed once it is revoked
    obtain ⟨-, inTime⟩ := isOpen_of_ofEarlierRun (Bool.and_eq_true _ _ ▸ earlier).2
    have closed : timedOut now (record.revoke none now) = false := rfl
    have notLate : timedOut now record = false := by
      rw [Bool.eq_false_iff, Ne, timedOut_iff, inTime]
      simp
    simp [earlier, closed, notLate]
  · simp [earlier]

theorem tidied_approvalId (record : ApprovalRecord Δ) :
    (tidied new now asks record).approvalId = record.approvalId := by
  unfold tidied
  split_ifs <;> rfl

theorem tidied_callHash (record : ApprovalRecord Δ) :
    (tidied new now asks record).callHash = record.callHash := by
  unfold tidied
  split_ifs <;> rfl

theorem isOpen_tidied (record : ApprovalRecord Δ) :
    ((tidied new now asks record).status.isOpen && !(tidied new now asks record).isExpired now) =
      survives new now asks record := by
  unfold tidied survives
  split_ifs with late earlier
  · rw [Bool.and_eq_true] at late
    obtain ⟨isOpen, isLate⟩ := timedOut_iff.mp late.2
    rw [isOpen, isLate]
    rfl
  · rw [earlier, Bool.not_true, Bool.and_false]
    rfl
  · rw [Bool.not_eq_true] at earlier
    rw [earlier, Bool.not_false, Bool.and_true]

theorem coolsDown_tidied (callHash : CallHash) (limits : OpenLimits) (record : ApprovalRecord Δ) :
    coolsDown callHash now limits (tidied new now asks record) =
      coolsDown callHash now limits record := by
  unfold tidied
  split_ifs with late earlier
  · rw [Bool.and_eq_true] at late
    have isOpen := (timedOut_iff.mp late.2).1
    have notRejected : record.status ≠ .rejected := by
      intro isRejected
      rw [isRejected] at isOpen
      cases isOpen
    simp [coolsDown, ApprovalRecord.expire, notRejected]
  · have isOpen := (isOpen_of_ofEarlierRun (Bool.and_eq_true _ _ ▸ earlier).2).1
    have notRejected : record.status ≠ .rejected := by
      intro isRejected
      rw [isRejected] at isOpen
      cases isOpen
    simp [coolsDown, ApprovalRecord.revoke, notRejected]
  · rfl

theorem counts_tidied (taskId userId : Uuid) (record : ApprovalRecord Δ) :
    counts taskId userId now (tidied new now asks record) =
      (Decidable.decide (record.taskId = taskId) &&
        Decidable.decide (record.requesterUserId = userId) && survives new now asks record) := by
  rw [← isOpen_tidied]
  unfold counts
  rw [Bool.and_assoc _ _ (!_)]
  congr 1
  unfold tidied
  split_ifs <;> rfl

end Opening

/-- How a request is created: in the store `u` the records are as the request leaves them, and nothing
is in its way. -/
structure Creation (cfg : MemoryConfig) (s : InMemoryApprovalStore Δ) (new : NewApproval Δ)
    (now : Instant) (limits : OpenLimits) (asks : Bool) (activity : TaskActivity)
    (u : InMemoryApprovalStore Δ) : Prop where
  tidies : Tidies s.view u.view
  records : ∀ id, u.get id = (s.get id).map (tidied new now asks)
  passes : Passes s new now limits asks activity
  room : s.records.rows.length < cfg.maxRecords
  inTime : now < new.expiresAt

section Creation

variable {cfg : MemoryConfig} {u : InMemoryApprovalStore Δ} {new : NewApproval Δ} {now : Instant}
  {limits : OpenLimits} {asks : Bool} {activity : TaskActivity}

theorem perm_tidied (records : ∀ id, u.get id = (s.get id).map (tidied new now asks)) :
    u.records.rows.Perm (s.records.rows.map (tidied new now asks)) :=
  Keyed.perm_map_of_get tidied_approvalId records

theorem passes_of_tidied (records : ∀ id, u.get id = (s.get id).map (tidied new now asks))
    (task : asks = true → activity = .active)
    (noOpen : ∀ record ∈ s.records.rows, record.callHash = new.callHash →
      survives new now asks record = false)
    (noRejection : u.records.rows.any (coolsDown new.callHash now limits) = false)
    (below : u.records.rows.countP (counts new.taskId new.requesterUserId now) < limits.maxPending) :
    Passes s new now limits asks activity where
  task := task
  noOpen := noOpen
  noRejection record mem := by
    rw [(perm_tidied records).any_eq, any_map, any_eq_false] at noRejection
    have cold := noRejection record mem
    rwa [Function.comp_apply, coolsDown_tidied, Bool.not_eq_true] at cold
  below := by
    rw [(perm_tidied records).countP_eq, countP_map] at below
    have same : counts new.taskId new.requesterUserId now ∘ tidied new now asks = fun record =>
        Decidable.decide (record.taskId = new.taskId) &&
          Decidable.decide (record.requesterUserId = new.requesterUserId) &&
          survives new now asks record := by
      funext record
      exact counts_tidied new.taskId new.requesterUserId record
    rwa [same] at below

variable {require : Bool}

def refusalOf (asks : Bool) (activity : TaskActivity) : Option OpenOutcome :=
  if asks then openTaskRefusal activity else none

theorem refusalOf_ne_created {refusal : OpenOutcome} (refused : refusalOf asks activity = some refusal) :
    refusal ≠ .created := by
  rintro rfl
  unfold refusalOf at refused
  split_ifs at refused
  cases activity <;> cases refused

theorem active_of_refusalOf (accepted : refusalOf asks activity = none) (asked : asks = true) :
    activity = .active := by
  subst asked
  cases activity <;> first | rfl | cases accepted

def searched (new : NewApproval Δ) (now : Instant) (asks : Bool) (s : InMemoryApprovalStore Δ) :
    InMemoryApprovalStore Δ × Option (ApprovalRecord Δ) :=
  findOpen new.callHash now (s.swept new now asks) (s.swept new now asks).records.rows

theorem openRequest_eq (cfg : MemoryConfig) (s : InMemoryApprovalStore Δ) (new : NewApproval Δ)
    (now : Instant) (limits : OpenLimits) (require : Bool) (activity : TaskActivity) :
    s.openRequest cfg new now limits require activity =
      match refusalOf (require && cfg.taskActivity) activity with
      | some refusal => (s, .ok ⟨refusal, none⟩)
      | none =>
        match s.searched new now (require && cfg.taskActivity) with
        | (found, some record) => (found, .ok ⟨.existing, some record⟩)
        | (found, none) => found.create cfg new now limits := rfl

theorem create_cases (cfg : MemoryConfig) (u : InMemoryApprovalStore Δ) (new : NewApproval Δ)
    (now : Instant) (limits : OpenLimits) :
    ((u.create cfg new now limits).1 = u ∧
      ∀ found, (u.create cfg new now limits).2 ≠ .ok ⟨.created, found⟩) ∨
    u.records.rows.any (coolsDown new.callHash now limits) = false ∧
      u.records.rows.countP (counts new.taskId new.requesterUserId now) < limits.maxPending ∧
      u.records.rows.length < cfg.maxRecords ∧ now < new.expiresAt ∧
      u.create cfg new now limits =
        ((u.assign (new.record now)).log new.approvalId .requested now none (some new.agentId)
          (some new.details), .ok ⟨.created, some (new.record now)⟩) := by
  unfold create
  split_ifs with cooling many full late
  · exact Or.inl ⟨rfl, by simp⟩
  · exact Or.inl ⟨rfl, by simp⟩
  · exact Or.inl ⟨rfl, by simp⟩
  · exact Or.inl ⟨rfl, by simp⟩
  · exact Or.inr ⟨Bool.eq_false_iff.mpr cooling, Nat.lt_of_not_le many, Nat.lt_of_not_le full,
      lt_of_not_ge late, rfl⟩

theorem searched_none {found : InMemoryApprovalStore Δ} (nothing : s.searched new now asks = (found, none)) :
    (∀ id, found.get id = (s.get id).map (tidied new now asks)) ∧
      ∀ record ∈ s.records.rows, record.callHash = new.callHash →
        survives new now asks record = false := by
  obtain ⟨isNow, late⟩ := findOpen_none (congrArg Prod.snd nothing)
  have isFound : found = markCall new.callHash now (s.swept new now asks).records.rows
      (s.swept new now asks) := (congrArg Prod.fst nothing).symm.trans isNow
  refine ⟨fun id => isFound ▸ get_marked id, fun record mem sameCall => ?_⟩
  have nowThere : (s.swept new now asks).get record.approvalId = some
      (if asks && ofEarlierRun new now record then record.revoke none now else record) := by
    rw [get_swept, stored_of_mem mem, Option.map_some]
  unfold survives
  cases earlier : asks && ofEarlierRun new now record with
  | true => simp
  | false =>
    rw [if_neg (by simp [earlier])] at nowThere
    cases isOpen : record.status.isOpen with
    | false => rfl
    | true =>
      rw [late record (Keyed.mem_of_get nowThere) sameCall isOpen]
      rfl

theorem openRequest_cases (cfg : MemoryConfig) (s : InMemoryApprovalStore Δ) (new : NewApproval Δ)
    (now : Instant) (limits : OpenLimits) (require : Bool) (activity : TaskActivity) :
    (Tidies s.view (s.openRequest cfg new now limits require activity).1.view ∧
      ∀ found, (s.openRequest cfg new now limits require activity).2 ≠ .ok ⟨.created, found⟩) ∨
    ∃ u, Creation cfg s new now limits (require && cfg.taskActivity) activity u ∧
      s.openRequest cfg new now limits require activity =
        ((u.assign (new.record now)).log new.approvalId .requested now none (some new.agentId)
          (some new.details), .ok ⟨.created, some (new.record now)⟩) := by
  rw [openRequest_eq]
  generalize (require && cfg.taskActivity) = asks
  cases refused : refusalOf asks activity with
  | some refusal =>
    refine Or.inl ⟨Tidies.refl _, fun found same => refusalOf_ne_created refused ?_⟩
    cases same
    rfl
  | none =>
    have tidies : Tidies s.view (s.searched new now asks).1.view :=
      swept_tidies.trans (findOpen_tidies new.callHash now)
    rcases isSearched : s.searched new now asks with ⟨found, _ | record⟩
    · rw [isSearched] at tidies
      obtain ⟨records, noOpen⟩ := searched_none isSearched
      rcases create_cases cfg found new now limits with
        ⟨unchanged, notCreated⟩ | ⟨cold, below, room, inTime, created⟩
      · exact Or.inl ⟨by simpa only [unchanged] using tidies, notCreated⟩
      · refine Or.inr ⟨found, ⟨tidies, records, ?_, ?_, inTime⟩, created⟩
        · exact passes_of_tidied records (active_of_refusalOf refused) noOpen cold below
        · rwa [(perm_tidied records).length_eq, length_map] at room
    · rw [isSearched] at tidies
      exact Or.inl ⟨tidies, by simp⟩

end Creation

/-! ### Every call -/

section Calls

variable {cfg : MemoryConfig} {u : InMemoryApprovalStore Δ} {new : NewApproval Δ} {now : Instant}
  {limits : OpenLimits} {asks : Bool} {activity : TaskActivity}

theorem survives_of_isOpen_tidied {record : ApprovalRecord Δ} (sameCall : record.callHash = new.callHash)
    (isOpen : (tidied new now asks record).status.isOpen = true) :
    survives new now asks record = true := by
  unfold tidied at isOpen
  unfold survives
  split_ifs at isOpen with late earlier
  · cases isOpen
  · cases isOpen
  · have isCall : hasCallHash new.callHash record = true := decide_eq_true sameCall
    have inTime : record.isExpired now = false := by
      rw [Bool.eq_false_iff]
      intro isLate
      exact late (by rw [isCall, timedOut_iff.mpr ⟨isOpen, isLate⟩]; rfl)
    rw [isOpen, inTime, Bool.eq_false_iff.mpr earlier]
    rfl

theorem Creation.obeys (creation : Creation cfg s new now limits asks activity u) (waited : ℕ)
    (require : Bool) :
    Obeys s.view ((u.assign (new.record now)).log new.approvalId .requested now none (some new.agentId)
        (some new.details)).view (.openRequest new now waited limits require activity)
      (.opened (.ok ⟨.created, some (new.record now)⟩)) := by
  have origin : ∀ id record, u.get id = some record →
      ∃ before ∈ s.records.rows, tidied new now asks before = record := by
    intro id record found
    rw [creation.records, Option.map_eq_some_iff] at found
    obtain ⟨before, was, isRecord⟩ := found
    exact ⟨before, Keyed.mem_of_get was, isRecord⟩
  refine (writes (new.record now) now none (some new.agentId) (some new.details)).obeys_create
    creation.tidies (fun id record found isOpen sameCall => ?_)
    fun id record decidedAt found isRejected sameCall decided => ?_
  · obtain ⟨before, mem, rfl⟩ := origin id record found
    rw [tidied_callHash] at sameCall
    have survived := survives_of_isOpen_tidied sameCall isOpen
    rw [creation.passes.noOpen before mem sameCall] at survived
    cases survived
  · obtain ⟨before, mem, rfl⟩ := origin id record found
    have cold : coolsDown new.callHash now limits (tidied new now asks before) = false := by
      rw [coolsDown_tidied]
      exact creation.passes.noRejection before mem
    simpa [coolsDown, sameCall, isRejected, decided] using cold

theorem openRequest_obeys (cfg : MemoryConfig) (s : InMemoryApprovalStore Δ) (new : NewApproval Δ)
    (now : Instant) (waited : ℕ) (limits : OpenLimits) (require : Bool) (activity : TaskActivity) :
    Obeys s.view (s.openRequest cfg new now limits require activity).1.view
      (.openRequest new now waited limits require activity)
      (.opened (s.openRequest cfg new now limits require activity).2) := by
  rcases openRequest_cases cfg s new now limits require activity with
    ⟨tidies, notCreated⟩ | ⟨u, creation, isNow⟩
  · exact tidies.obeys _ (quiet_opened notCreated)
  · rw [isNow]
    exact creation.obeys waited require

theorem decide_obeys (s : InMemoryApprovalStore Δ) (id approver : Uuid) (approve : Bool) (now : Instant)
    (stepUp : Bool) :
    Obeys s.view (s.decide id approver approve now stepUp).1.view
      (.decide id approver approve now stepUp)
      (.decided (s.decide id approver approve now stepUp).2) := by
  unfold decide
  generalize isKind : (if approve then ApprovalEventKind.approved else .rejected) = kind
  cases found : s.get id with
  | none =>
    exact (Tidies.refl _).obeys _ rfl
  | some record =>
    have thisId : record.approvalId = id := Keyed.key_of_get found
    have stored : s.get record.approvalId = some record := thisId.symm ▸ found
    dsimp only
    split_ifs with late notDecided
    · rw [late]
      exact (expire_tidies stored now).obeys _ rfl
    · exact (Tidies.refl _).obeys _ (quiet_decided notDecided)
    · have written := writes (s := s) (record.decide approver approve now stepUp) now (some approver)
        none none
      have logged : (record.decide approver approve now stepUp).status.kind = kind := by
        rw [← isKind]
        cases approve <;> rfl
      have isId : (record.decide approver approve now stepUp).approvalId = id := thisId
      rw [logged, isId] at written
      exact written.obeys_decide found (mayDecide_of_diagnose (not_not.mp notDecided))

theorem consume_obeys (cfg : MemoryConfig) (s : InMemoryApprovalStore Δ) (id : Uuid)
    (binding : ApprovalBinding) (now : Instant) (waited : ℕ) (require : Bool)
    (activity : TaskActivity) :
    Obeys s.view (s.consume cfg id binding now require activity).1.view
      (.consume id binding now waited require activity)
      (.consumed (s.consume cfg id binding now require activity).2) := by
  have unused : ∀ outcome, outcome ≠ .consumed →
      Obeys s.view s.view (.consume id binding now waited require activity) (.consumed outcome) := by
    intro outcome notConsumed
    exact (Tidies.refl _).obeys _ (quiet_consumed notConsumed)
  unfold consume
  generalize refused : (if require && cfg.taskActivity then consumeTaskRefusal activity else none) =
    refusal
  cases found : s.get id with
  | none => exact (Tidies.refl _).obeys _ rfl
  | some record =>
    have thisId : record.approvalId = id := Keyed.key_of_get found
    have stored : s.get record.approvalId = some record := thisId.symm ▸ found
    dsimp only
    split_ifs with late notUsed notConsumed
    · rw [late]
      exact (expire_tidies stored now).obeys _ rfl
    · exact unused _ notUsed.1
    · cases refusal with
      | some refusal =>
        refine unused refusal ?_
        rintro rfl
        split_ifs at refused
        cases activity <;> cases refused
      | none => exact unused _ notConsumed
    · cases refusal with
      | some refusal =>
        refine unused refusal ?_
        rintro rfl
        split_ifs at refused
        cases activity <;> cases refused
      | none =>
        have written := writes (s := s) (record.consume now) now none (some binding.agentId) none
        have isId : (record.consume now).approvalId = id := thisId
        rw [isId] at written
        exact written.obeys_consume found (mayConsume_of_diagnose (not_not.mp notConsumed))

theorem revoke_obeys (s : InMemoryApprovalStore Δ) (id : Uuid) (actor : Option Uuid) (now : Instant) :
    Obeys s.view (s.revoke id actor now).1.view (.revoke id actor now)
      (.revoked (s.revoke id actor now).2) := by
  have tidies : Tidies s.view (s.revoke id actor now).1.view := by
    unfold revoke
    cases found : s.get id with
    | none => exact Tidies.refl _
    | some record =>
      have thisId : record.approvalId = id := Keyed.key_of_get found
      dsimp only
      split_ifs with notRevoked
      · exact Tidies.refl _
      · have written := writes (s := s) (record.revoke actor now) now actor none none
        have isId : (record.revoke actor now).approvalId = id := thisId
        have was : s.view.record (record.revoke actor now).approvalId = some record := by
          rw [isId]
          exact found
        rw [isId] at written
        refine written.tidies was ⟨?_, ?_⟩
        · exact isOpen_of_diagnose (not_not.mp notRevoked)
        · exact Or.inr ⟨actor, now, rfl⟩
  exact tidies.obeys _ rfl

theorem revokeTask_obeys (s : InMemoryApprovalStore Δ) (taskId : Uuid) (now : Instant) :
    Obeys s.view (s.revokeTask taskId now).1.view (.revokeTask taskId now)
      (.revokedTask (s.revokeTask taskId now).2) := by
  have tidies : Tidies s.view (s.revokeTask taskId now).1.view := by
    refine revokeWhere_tidies _ (fun record this => ?_) now
    unfold ofTask at this
    rw [Bool.and_eq_true, decide_eq_true_eq, decide_eq_true_eq] at this
    exact isOpen_of_diagnose this.2
  exact tidies.obeys _ rfl

theorem model_obeys (cfg : MemoryConfig) (s : InMemoryApprovalStore Δ) (call : Call Δ) :
    Obeys ((model cfg).view s) ((model cfg).view ((model cfg).apply s call).1) call
      ((model cfg).apply s call).2 := by
  cases call with
  | openRequest new now waited limits require activity =>
    exact openRequest_obeys cfg s new now waited limits require activity
  | decide id approver approve now stepUp => exact decide_obeys s id approver approve now stepUp
  | consume id binding now waited require activity =>
    exact consume_obeys cfg s id binding now waited require activity
  | revoke id actor now => exact revoke_obeys s id actor now
  | revokeTask taskId now => exact revokeTask_obeys s taskId now

end Calls

end InMemoryApprovalStore

end PawBackend.Tools
