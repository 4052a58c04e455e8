/-
**Quotas of requests and tasks are exact** (`connections/store.py`: `admit`, `QUOTA_LOCK_SQL`, `CONTINUING_SQL`,
`SUMS_SQL`; `connections/domain.py`: `window_start`, `window_end`).

All admissions of one user and kind for which a quota is set hold the same rows when they read the clock, whether
the task continues, and the sums (`Ready`), so what they read is what is there when they commit:

* a call that starts a new task found each set limit above what its window had used, in a state that had been
  committed and with exactly the calls before it (`Admitted`);
* so the new tasks of one calendar window, and of any five hours, never exceed the limit (`newTasks_le`).
-/

import PawBackend.Connections.Admission
import PawBackend.Connections.NewTasks

namespace PawBackend.Connections

open Lib List
open Tools (Instant TaskActivity TaskRun Uuid)

abbrev RecordedTables := Recorded UsageTables

variable {s s' : RecordedTables} {held : List UsageLock}

/-! ### What the locks fix -/

def UsageTables.owner (db : UsageTables) (taskId : Uuid) : Option Uuid := (db.tasks.get taskId).map TaskRow.createdBy

/-- What a transaction that holds these locks may rely on: under a quota row its user's calls stay the same. -/
structure Keeps (held : List UsageLock) (s s' : RecordedTables) : Prop where
  clock : s.db.clock ≤ s'.db.clock
  quotas : s'.db.quotas = s.db.quotas
  owners : ∀ id userId, s.db.owner id = some userId → s'.db.owner id = some userId
  past : s.states ⊆ s'.states
  calls : ∀ key, .quota key ∈ held → s.db.quotas.get key ≠ none →
    callsOf s'.db.entries key.1 key.2.1 = callsOf s.db.entries key.1 key.2.1

theorem Keeps.refl (held : List UsageLock) (s : RecordedTables) : Keeps held s s :=
  ⟨le_rfl, rfl, fun _ _ same => same, List.Subset.refl _, fun _ _ _ => rfl⟩

theorem Keeps.trans (held : List UsageLock) {a b c : RecordedTables} (first : Keeps held a b) (second : Keeps held b c) :
    Keeps held a c where
  clock := first.clock.trans second.clock
  quotas := second.quotas.trans first.quotas
  owners id userId same := second.owners id userId (first.owners id userId same)
  past := List.Subset.trans first.past second.past
  calls key isHeld there := (second.calls key isHeld (first.quotas ▸ there)).trans (first.calls key isHeld there)

/-- A state that was committed in which the calls of a user were these, and a quota above what was used. -/
def Judged (zone : Zone) (s : RecordedTables) (calls : List UsageEntry) (userId : Uuid) (kind : ConnectionKind)
    (now : Instant) (quota : QuotaRow) : Prop :=
  ∀ limit, quota.limit = some limit → ∃ db ∈ s.states, callsOf db.entries userId kind = calls ∧
    (db.sums userId kind (windowStart quota.period now zone)).used quota.metric < limit

variable {userId : Uuid} {kind : ConnectionKind} {now : Instant} {quota : QuotaRow} {request : AdmissionRequest}
  {projectId : Option Uuid} {sums : List (Instant × Sums)} {quotas : List QuotaRow}

theorem Judged.later {zone : Zone} {calls : List UsageEntry}
    (judged : Judged zone s calls userId kind now quota) (kept : Keeps held s s') :
    Judged zone s' calls userId kind now quota := fun limit isSet => by
  obtain ⟨db, mem, same, below⟩ := judged limit isSet
  exact ⟨db, kept.past mem, same, below⟩

/-- A call since the start that starts a new task was admitted after all calls of its user before it, and below each
set limit. -/
def Admitted (zone : Zone) (start : UsageTables) (s : RecordedTables) : Prop :=
  ∀ before entry after, s.db.entries = start.entries ++ (before ++ entry :: after) →
    entry.startsAfter (start.entries ++ before) = true →
    ∀ quota, s.db.quotas.get quota.key = some quota → entry.isOf quota.userId quota.kind = true →
      let calls := callsOf (start.entries ++ before) entry.userId entry.kind
      (∀ other ∈ calls, other.startedAt ≤ entry.startedAt) ∧
        Judged zone s calls entry.userId entry.kind entry.startedAt quota

structure Plausible (db : UsageTables) : Prop where
  owned : ∀ entry ∈ db.entries, db.owner entry.taskId = some entry.userId
  past : ∀ entry ∈ db.entries, entry.startedAt ≤ db.clock

structure Exact (zone : Zone) (start : UsageTables) (s : RecordedTables) : Prop extends Plausible s.db where
  quotas : s.db.quotas = start.quotas
  grown : ∃ since, s.db.entries = start.entries ++ since
  admitted : Admitted zone start s

def replies (s s' : RecordedTables) : AdmissionReply → Prop
  | .refused taskId kind reason _ _ _ =>
    s'.db = s.db ∧ (reason = .quotaExceeded → ∀ entry ∈ s.db.entries, entry.isFor taskId kind = false)
  | _ => True

def quotaDiscipline (zone : Zone) (start : UsageTables) : Discipline (usageSystem zone).recorded where
  inv := Exact zone start
  keeps := Keeps
  answers := replies
  refl := Keeps.refl
  trans := Keeps.trans

variable {zone : Zone} {start : UsageTables}

theorem respects_push {db : UsageTables} (sound : Exact zone start s) (entries : db.entries = s.db.entries)
    (quotas : db.quotas = s.db.quotas)
    (owners : ∀ id userId, s.db.owner id = some userId → db.owner id = some userId) (clock : s.db.clock ≤ db.clock) :
    (quotaDiscipline zone start).Respects held s (s.push db) := by
  have more : s.states ⊆ (s.push db).states := subset_cons_self _ _
  constructor
  · refine ⟨⟨fun entry mem => ?_, fun entry mem => ?_⟩, quotas.trans sound.quotas, ?_, ?_⟩
    · exact owners _ _ (sound.owned entry (entries ▸ mem))
    · exact (sound.past entry (entries ▸ mem)).trans clock
    · obtain ⟨since, grown⟩ := sound.grown
      exact ⟨since, entries.trans grown⟩
    · intro before entry after split starts quota isSet isOf
      obtain ⟨ordered, judged⟩ := sound.admitted before entry after (entries.symm.trans split) starts quota (quotas ▸ isSet) isOf
      exact ⟨ordered, fun limit isLimit => by
        obtain ⟨db₀, mem, same⟩ := judged limit isLimit
        exact ⟨db₀, more mem, same⟩⟩
  · intro others _
    exact ⟨clock, quotas, owners, more, fun key _ _ => congrArg (fun l => callsOf l key.1 key.2.1) entries⟩

theorem respects_sameEntries {db : UsageTables} (sound : Exact zone start s) (same : SameEntries s.db db) :
    (quotaDiscipline zone start).Respects held s (s.push db) :=
  respects_push sound same.entries same.quotas (fun id userId owned => by
    unfold UsageTables.owner at owned ⊢
    rwa [same.tasks]) same.clock.ge

theorem respects_change (sound : Exact zone start s) (change : Change) :
    (quotaDiscipline zone start).Respects held s (s.push (change.apply s.db)) := by
  cases change with
  | clock passed =>
    exact respects_push sound rfl rfl (fun _ _ same => same) (le_add_of_nonneg_right (Int.natCast_nonneg passed))
  | newTask row =>
    refine respects_push sound rfl rfl (fun taskId userId same => ?_) le_rfl
    unfold UsageTables.owner at same ⊢
    obtain ⟨old, found, isUser⟩ := Option.map_eq_some_iff.mp same
    rw [Option.map_eq_some_iff]
    refine ⟨old, ?_, isUser⟩
    show ((s.db.tasks.tryInsert row).getD s.db.tasks).get taskId = some old
    cases added : s.db.tasks.tryInsert row with
    | none => exact found
    | some tasks =>
      have other : taskId ≠ row.id := fun same => by
        rw [same, Keyed.fresh_of_tryInsert added] at found
        cases found
      rw [Option.getD_some, Keyed.get_of_tryInsert added, if_neg other]
      exact found
  | task id state attempt retryCount =>
    have owner : ∀ taskId, ((Change.task id state attempt retryCount).apply s.db).owner taskId = s.db.owner taskId := by
      intro taskId
      unfold UsageTables.owner
      have found := Keyed.get_update s.db.tasks (fun row => decide (row.id = id))
        (fun row => { row with state, attempt, retryCount }) (fun _ _ => rfl) taskId
      rw [show ((Change.task id state attempt retryCount).apply s.db).tasks.get taskId = _ from found, Option.map_map]
      congr 1
      funext row
      rw [Function.comp_apply]
      split_ifs <;> rfl
    exact respects_push sound rfl rfl (fun taskId userId same => (owner taskId).trans same) le_rfl
  | budget | connection => exact respects_push sound rfl rfl (fun _ _ same => same) le_rfl
  | outcome id written => exact respects_sameEntries sound (sameEntries_writeOutcome s.db id _)

/-! ### The row of an admitted call -/

def HoldsQuotas (held : List UsageLock) (s : RecordedTables) (userId : Uuid) (kind : ConnectionKind) : Prop :=
  ∀ quota, s.db.quotas.get quota.key = some quota → quota.userId = userId → quota.kind = kind → .quota quota.key ∈ held

theorem HoldsQuotas.calls
    (holds : HoldsQuotas held s userId kind) (kept : Keeps held s s') (isSet : s.db.quotas.get quota.key = some quota)
    (ofUser : quota.userId = userId) (ofKind : quota.kind = kind) :
    callsOf s'.db.entries userId kind = callsOf s.db.entries userId kind := by
  have same := kept.calls quota.key (holds quota isSet ofUser ofKind) (by rw [isSet]; exact Option.some_ne_none quota)
  subst ofUser ofKind
  exact same

structure Ready (zone : Zone) (request : AdmissionRequest) (now : Instant) (s : RecordedTables) : Prop where
  owner : s.db.owner request.taskId = some request.userId
  clock : now ≤ s.db.clock
  ordered : ∀ quota, s.db.quotas.get quota.key = some quota → quota.userId = request.userId → quota.kind = request.kind →
    ∀ other ∈ callsOf s.db.entries request.userId request.kind, other.startedAt ≤ now
  judged : ∀ quota, s.db.quotas.get quota.key = some quota → quota.userId = request.userId → quota.kind = request.kind →
    (∀ other ∈ callsOf s.db.entries request.userId request.kind, other.isFor request.taskId request.kind = false) →
    Judged zone s (callsOf s.db.entries request.userId request.kind) request.userId request.kind now quota

theorem Ready.kept (ready : Ready zone request now s)
    (holds : HoldsQuotas held s request.userId request.kind) (kept : Keeps held s s') : Ready zone request now s' where
  owner := kept.owners _ _ ready.owner
  clock := ready.clock.trans kept.clock
  ordered quota isSet ofUser ofKind := by
    rw [kept.quotas] at isSet
    rw [holds.calls kept isSet ofUser ofKind]
    exact ready.ordered quota isSet ofUser ofKind
  judged quota isSet ofUser ofKind := by
    rw [kept.quotas] at isSet
    rw [holds.calls kept isSet ofUser ofKind]
    exact fun new => (ready.judged quota isSet ofUser ofKind new).later kept

theorem HoldsQuotas.kept (holds : HoldsQuotas held s userId kind)
    (kept : Keeps held s s') : HoldsQuotas held s' userId kind := fun quota isSet =>
  holds quota (kept.quotas ▸ isSet)

theorem callsOf_append (entries : List UsageEntry) (entry : UsageEntry) (userId : Uuid) (kind : ConnectionKind) :
    callsOf (entries ++ [entry]) userId kind =
      callsOf entries userId kind ++ if entry.isOf userId kind then [entry] else [] := by
  unfold callsOf
  rw [filter_append]
  congr 1
  cases isOf : entry.isOf userId kind <;> simp [isOf]

theorem respects_insert {usage : Keyed UsageRow.id}
    (sound : Exact zone start s) (holds : HoldsQuotas held s request.userId request.kind) (ready : Ready zone request now s)
    (added : s.db.usage.tryInsert (request.row projectId now) = some usage) :
    (quotaDiscipline zone start).Respects held s (s.push { s.db with usage }) := by
  have entries : ({ s.db with usage } : UsageTables).entries = s.db.entries ++ [(request.row projectId now).entry] := by
    unfold UsageTables.entries
    rw [Keyed.rows_of_tryInsert added, map_append, map_singleton]
  have more : s.states ⊆ (s.push { s.db with usage }).states := subset_cons_self _ _
  constructor
  · refine ⟨⟨fun entry mem => ?_, fun entry mem => ?_⟩, sound.quotas, ?_, ?_⟩
    · rcases mem_append.mp (entries ▸ mem) with old | new
      · exact sound.owned entry old
      · rw [mem_singleton.mp new]
        exact ready.owner
    · rcases mem_append.mp (entries ▸ mem) with old | new
      · exact sound.past entry old
      · rw [mem_singleton.mp new]
        exact ready.clock
    · obtain ⟨since, grown⟩ := sound.grown
      exact ⟨since ++ [(request.row projectId now).entry], by rw [← append_assoc, ← grown]; exact entries⟩
    · intro before entry after split starts quota isSet isOf
      rw [← append_assoc] at split
      rcases append_singleton_split (entries.symm.trans split) with ⟨same, rfl, -⟩ | ⟨rest, -, old⟩
      · rw [same] at starts ⊢
        unfold UsageEntry.isOf at isOf
        obtain ⟨ofUser, ofKind⟩ := of_decide_eq_true isOf
        refine ⟨ready.ordered quota isSet ofUser.symm ofKind.symm, fun limit isLimit => ?_⟩
        unfold UsageEntry.startsAfter at starts
        rw [Bool.not_eq_true', any_eq_false] at starts
        have new : ∀ other ∈ callsOf s.db.entries request.userId request.kind,
            other.isFor request.taskId request.kind = false := fun other inCalls =>
          Bool.eq_false_of_not_eq_true (starts other (mem_of_mem_filter inCalls))
        obtain ⟨db, mem, same⟩ := ready.judged quota isSet ofUser.symm ofKind.symm new limit isLimit
        exact ⟨db, more mem, same⟩
      · rw [append_assoc] at old
        obtain ⟨ordered, judged⟩ := sound.admitted before entry rest old starts quota isSet isOf
        exact ⟨ordered, fun limit isLimit => by
          obtain ⟨db, mem, same⟩ := judged limit isLimit
          exact ⟨db, more mem, same⟩⟩
  · intro others apart
    refine ⟨le_rfl, rfl, fun _ _ same => same, more, fun key isHeld there => ?_⟩
    rw [show (s.push { s.db with usage }).db.entries = _ from entries, callsOf_append, if_neg, append_nil]
    -- the row of the other's quota would be locked twice
    intro isOf
    unfold UsageEntry.isOf at isOf
    obtain ⟨ofUser, ofKind⟩ := of_decide_eq_true isOf
    obtain ⟨quota, found⟩ := Option.ne_none_iff_exists'.mp there
    have isKey := Keyed.key_of_get found
    subst isKey
    have clear := apart _ (holds quota found ofUser.symm ofKind.symm) _ isHeld
    simp [Transactional.recorded, usageSystem, UsageLock.conflict] at clear

/-! ### The statements of an admission -/

abbrev Follows (zone : Zone) (start : UsageTables) (held : List UsageLock) (s : RecordedTables) (t : UsageTxn) : Prop :=
  (quotaDiscipline zone start).Follows held s t.recorded

theorem follows_refuse {reason : RefusalReason}
    (other : reason ≠ .quotaExceeded) : Follows zone start held s (request.refuse reason projectId) := by
  intro s' sound _ s'' reply wrote
  cases wrote
  exact ⟨respects_sameEntries sound ⟨rfl, rfl, rfl, rfl⟩, rfl, fun same => absurd same other⟩

theorem follows_insert {connection : ConnectionRow}
    (holds : HoldsQuotas held s request.userId request.kind) (ready : Ready zone request now s) :
    Follows zone start held s (request.insert connection projectId now) := by
  intro s' sound kept s'' reply wrote
  dsimp only at wrote
  cases added : s'.db.usage.tryInsert (request.row projectId now) with
  | none =>
    rw [added] at wrote
    cases wrote
  | some usage =>
    rw [added] at wrote
    cases wrote
    exact ⟨respects_insert sound (holds.kept kept) (ready.kept holds kept) added, trivial⟩

/-- What is known while the quotas of a new task are checked. -/
structure Checking (zone : Zone) (request : AdmissionRequest) (now : Instant) (calls : List UsageEntry)
    (sums : List (Instant × Sums)) (s : RecordedTables) : Prop where
  same : callsOf s.db.entries request.userId request.kind = calls
  read : ∀ since known, (since, known) ∈ sums → ∃ db ∈ s.states,
    callsOf db.entries request.userId request.kind = calls ∧ db.sums request.userId request.kind since = known

theorem none_for (sound : Exact zone start s) (owner : s.db.owner request.taskId = some request.userId)
    (new : ∀ other ∈ callsOf s.db.entries request.userId request.kind, other.isFor request.taskId request.kind = false) :
    ∀ entry ∈ s.db.entries, entry.isFor request.taskId request.kind = false := by
  intro entry mem
  by_contra isFor
  have same : entry.taskId = request.taskId ∧ entry.kind = request.kind :=
    of_decide_eq_true (Bool.eq_true_of_not_eq_false isFor)
  have ofUser : entry.userId = request.userId := by
    have owned := sound.owned entry mem
    rw [same.1, owner, Option.some.injEq] at owned
    exact owned.symm
  exact isFor (new entry (mem_filter.mpr ⟨mem, decide_eq_true ⟨ofUser, same.2⟩⟩))

theorem follows_exceeded {resetsAt : Option Instant}
    {calls : List UsageEntry} (isSet : s.db.quotas.get quota.key = some quota) (ofUser : quota.userId = request.userId)
    (ofKind : quota.kind = request.kind) (holds : HoldsQuotas held s request.userId request.kind)
    (same : callsOf s.db.entries request.userId request.kind = calls)
    (owner : s.db.owner request.taskId = some request.userId)
    (new : ∀ other ∈ calls, other.isFor request.taskId request.kind = false) :
    Follows zone start held s (.commit fun db => .ok (db, .refused request.taskId request.kind .quotaExceeded
      (some (quota.metric, quota.period)) resetsAt projectId)) := by
  intro s' sound kept s'' reply wrote
  cases wrote
  refine ⟨respects_sameEntries sound ⟨rfl, rfl, rfl, rfl⟩, rfl, fun _ => ?_⟩
  refine none_for sound (kept.owners _ _ owner) ?_
  rw [holds.calls kept isSet ofUser ofKind, same]
  exact new

theorem Checking.kept {calls : List UsageEntry}
    (checking : Checking zone request now calls sums s) (kept : Keeps held s s')
    (same : callsOf s'.db.entries request.userId request.kind = callsOf s.db.entries request.userId request.kind) :
    Checking zone request now calls sums s' where
  same := same.trans checking.same
  read since known mem := by
    obtain ⟨db, there, calls⟩ := checking.read since known mem
    exact ⟨db, kept.past there, calls⟩

theorem mem_of_lookup {since : Instant} {known : Sums}
    (found : sums.lookup since = some known) : (since, known) ∈ sums := by
  obtain ⟨before, after, rfl, -⟩ := lookup_eq_some_iff.mp found
  exact mem_append_right _ (.head _)

theorem follows_checkQuotas {next : UsageTxn} {calls : List UsageEntry}
    (isSet : ∀ quota ∈ quotas, s.db.quotas.get quota.key = some quota ∧ quota.userId = request.userId ∧
      quota.kind = request.kind)
    (holds : HoldsQuotas held s request.userId request.kind) (checking : Checking zone request now calls sums s)
    (owner : s.db.owner request.taskId = some request.userId)
    (new : ∀ other ∈ calls, other.isFor request.taskId request.kind = false)
    (follows : ∀ s', Keeps held s s' →
      (∀ quota ∈ quotas, Judged zone s' calls request.userId request.kind now quota) → Follows zone start held s' next) :
    Follows zone start held s (request.checkQuotas zone projectId now next quotas sums) := by
  induction quotas generalizing s sums with
  | nil => exact follows s (Keeps.refl held s) fun _ mem => nomatch mem
  | cons quota rest ih =>
    obtain ⟨here, ofUser, ofKind⟩ := isSet quota (.head _)
    have others : ∀ s₁, Keeps held s s₁ → ∀ quota ∈ rest,
        s₁.db.quotas.get quota.key = some quota ∧ quota.userId = request.userId ∧ quota.kind = request.kind :=
      fun s₁ kept quota mem => by
        rw [kept.quotas]
        exact isSet quota (.tail _ mem)
    -- the rest of the checks, once this quota was judged
    have onwards : ∀ s₁ sums, Keeps held s s₁ → Checking zone request now calls sums s₁ →
        Judged zone s₁ calls request.userId request.kind now quota →
        Follows zone start held s₁ (request.checkQuotas zone projectId now next rest sums) := by
      intro s₁ sums kept checking judged
      refine ih (others s₁ kept) (holds.kept kept) checking (kept.owners _ _ owner) fun s₂ kept₂ all => ?_
      refine follows s₂ (Keeps.trans held kept kept₂) fun other mem => ?_
      rcases mem_cons.mp mem with rfl | mem
      · exact judged.later kept₂
      · exact all other mem
    unfold AdmissionRequest.checkQuotas
    cases isLimit : quota.limit with
    | none =>
      refine onwards s sums (Keeps.refl held s) checking fun limit never => ?_
      rw [isLimit] at never
      cases never
    | some limit =>
      dsimp only
      cases found : sums.lookup (windowStart quota.period now zone) with
      | some known =>
        dsimp only
        split_ifs with exceeded
        · exact follows_exceeded here ofUser ofKind holds checking.same owner new
        · refine onwards s sums (Keeps.refl held s) checking fun other same => ?_
          rw [isLimit, Option.some.injEq] at same
          obtain ⟨db, mem, calls, read⟩ := checking.read _ _ (mem_of_lookup found)
          exact ⟨db, mem, calls, same ▸ read ▸ not_le.mp exceeded⟩
      | none =>
        dsimp only
        intro s₁ _ kept
        have checking₁ := checking.kept kept (holds.calls kept here ofUser ofKind)
        dsimp only
        split_ifs with exceeded
        · exact follows_exceeded (kept.quotas ▸ here) ofUser ofKind (holds.kept kept) checking₁.same
            (kept.owners _ _ owner) new
        · refine onwards s₁ _ kept ⟨checking₁.same, fun since known mem => ?_⟩ fun other same => ?_
          · rcases mem_cons.mp mem with same | mem
            · cases same
              exact ⟨s₁.db, s₁.mem_states, checking₁.same, rfl⟩
            · exact checking₁.read since known mem
          · rw [isLimit, Option.some.injEq] at same
            exact ⟨s₁.db, s₁.mem_states, checking₁.same, same ▸ not_le.mp exceeded⟩

theorem mem_checkOrder (metric : QuotaMetric) (period : QuotaPeriod) : (metric, period) ∈ checkOrder := by
  cases metric <;> cases period <;> decide

theorem mem_lockOrder (metric : QuotaMetric) (period : QuotaPeriod) : (metric, period) ∈ lockOrder := by
  cases metric <;> cases period <;> decide

structure QuotasRead (request : AdmissionRequest) (quotas : List QuotaRow) (s : RecordedTables) : Prop where
  real : ∀ quota ∈ quotas, s.db.quotas.get quota.key = some quota ∧ quota.userId = request.userId ∧
    quota.kind = request.kind
  all : ∀ quota, s.db.quotas.get quota.key = some quota → quota.userId = request.userId → quota.kind = request.kind →
    quota ∈ quotas

theorem key_eq (ofUser : quota.userId = request.userId) (ofKind : quota.kind = request.kind) :
    quota.key = (request.userId, request.kind, quota.metric, quota.period) := by
  unfold QuotaRow.key
  rw [ofUser, ofKind]

theorem follows_lockQuotas {next : List QuotaRow → UsageTxn}
    {todo : List (QuotaMetric × QuotaPeriod)} {found : List QuotaRow}
    (real : ∀ quota ∈ found, s.db.quotas.get quota.key = some quota ∧ quota.userId = request.userId ∧
      quota.kind = request.kind)
    (locked : ∀ quota, s.db.quotas.get quota.key = some quota → quota.userId = request.userId →
      quota.kind = request.kind → (quota.metric, quota.period) ∈ todo ∨ .quota quota.key ∈ held ∧ quota ∈ found)
    (owner : s.db.owner request.taskId = some request.userId)
    (follows : ∀ more s' found, s'.db.owner request.taskId = some request.userId →
      HoldsQuotas more s' request.userId request.kind → QuotasRead request found s' → Follows zone start more s' (next found)) :
    Follows zone start held s (request.lockQuotas next todo found) := by
  induction todo generalizing held s found with
  | nil =>
    refine follows held s found owner (fun quota isSet ofUser ofKind => ?_) ⟨real, fun quota isSet ofUser ofKind => ?_⟩
    · exact ((locked quota isSet ofUser ofKind).resolve_left (not_mem_nil)).1
    · exact ((locked quota isSet ofUser ofKind).resolve_left (not_mem_nil)).2
  | cons pair rest ih =>
    obtain ⟨metric, period⟩ := pair
    intro s' _ kept
    beta_reduce
    have owner' := kept.owners _ _ owner
    obtain absent | ⟨row, there⟩ := (s'.db.quotas.get (request.userId, request.kind, metric, period)).eq_none_or_eq_some
    · rw [if_pos (by rw [absent]; rfl), absent, Option.toList_none, append_nil]
      refine ih (fun quota mem => kept.quotas ▸ real quota mem) (fun quota isSet ofUser ofKind => ?_) owner'
      rcases locked quota (kept.quotas ▸ isSet) ofUser ofKind with todo | done
      · rcases mem_cons.mp todo with same | todo
        · cases same
          rw [key_eq ofUser ofKind, absent] at isSet
          cases isSet
        · exact .inl todo
      · exact .inr done
    · rw [if_neg (by simp [there]), there, Option.toList_some]
      have isKey : row.key = (request.userId, request.kind, metric, period) := Keyed.key_of_get there
      refine ih (fun quota mem => ?_) (fun quota isSet ofUser ofKind => ?_) owner'
      · rcases mem_append.mp mem with old | new
        · exact kept.quotas ▸ real quota old
        · rw [mem_singleton.mp new]
          exact ⟨isKey ▸ there, congrArg Prod.fst isKey, congrArg (fun key => key.2.1) isKey⟩
      · rcases locked quota (kept.quotas ▸ isSet) ofUser ofKind with todo | ⟨isHeld, mem⟩
        · rcases mem_cons.mp todo with same | todo
          · cases same
            rw [key_eq ofUser ofKind, there, Option.some.injEq] at isSet
            subst isSet
            exact .inr ⟨isKey ▸ (.head _), mem_append_right _ (mem_singleton_self _)⟩
          · exact .inl todo
        · exact .inr ⟨.tail _ isHeld, mem_append_left _ mem⟩

theorem mem_of_inCheckOrder (mem : quota ∈ inCheckOrder quotas) :
    quota ∈ quotas := by
  obtain ⟨pair, -, found⟩ := mem_filterMap.mp mem
  exact mem_of_find?_eq_some found

theorem mem_inCheckOrder {table : Keyed QuotaRow.key}
    (sameTable : ∀ other ∈ quotas, table.get other.key = some other ∧ other.userId = quota.userId ∧ other.kind = quota.kind)
    (mem : quota ∈ quotas) : quota ∈ inCheckOrder quotas := by
  refine mem_filterMap.mpr ⟨(quota.metric, quota.period), mem_checkOrder _ _, ?_⟩
  have isSome : (quotas.find? fun other => decide (other.metric = quota.metric ∧ other.period = quota.period)).isSome = true :=
    find?_isSome.mpr ⟨quota, mem, decide_eq_true ⟨rfl, rfl⟩⟩
  obtain ⟨other, found⟩ := Option.isSome_iff_exists.mp isSome
  have same : other.metric = quota.metric ∧ other.period = quota.period := of_decide_eq_true (by simpa using find?_some found)
  obtain ⟨isSet, ofUser, ofKind⟩ := sameTable other (mem_of_find?_eq_some found)
  have isSet' := (sameTable quota mem).1
  have key : other.key = quota.key := by
    unfold QuotaRow.key
    rw [ofUser, ofKind, same.1, same.2]
  rw [key, isSet', Option.some.injEq] at isSet
  subst isSet
  exact found

theorem follows_decide {connection : ConnectionRow} (owner : s.db.owner request.taskId = some request.userId)
    (holds : HoldsQuotas held s request.userId request.kind) (read : QuotasRead request quotas s) :
    Follows zone start held s (request.decide zone connection projectId quotas) := by
  intro s₁ sound₁ kept₁
  dsimp only
  intro s₂ sound₂ kept₂
  dsimp only
  have holds₁ := holds.kept kept₁
  have holds₂ := holds₁.kept kept₂
  have owner₁ := kept₁.owners _ _ owner
  have owner₂ := kept₂.owners _ _ owner₁
  have ordered : ∀ other ∈ callsOf s₂.db.entries request.userId request.kind, other.startedAt ≤ s₂.db.clock :=
    fun other mem => sound₂.past other (mem_of_mem_filter mem)
  split_ifs with continues
  · refine follows_insert holds₂ ⟨owner₂, le_rfl, fun _ _ _ _ => ordered, fun quota isSet ofUser ofKind new => ?_⟩
    -- the call that was found before is still there
    have same := holds₁.calls kept₂ (kept₂.quotas ▸ isSet) ofUser ofKind
    obtain ⟨row, mem, isFor⟩ := any_eq_true.mp continues
    have inEntries : row.entry ∈ s₁.db.entries := mem_map_of_mem mem
    have none := none_for sound₁ owner₁ (same ▸ new) row.entry inEntries
    rw [isFor] at none
    cases none
  · have new : ∀ other ∈ callsOf s₁.db.entries request.userId request.kind,
        other.isFor request.taskId request.kind = false := by
      intro other mem
      obtain ⟨row, inRows, rfl⟩ := mem_map.mp (mem_of_mem_filter mem)
      unfold UsageTables.continuing at continues
      rw [Bool.not_eq_true, any_eq_false] at continues
      exact Bool.eq_false_of_not_eq_true (continues row inRows)
    have real : ∀ quota ∈ inCheckOrder quotas, s₂.db.quotas.get quota.key = some quota ∧
        quota.userId = request.userId ∧ quota.kind = request.kind := fun quota mem => by
      rw [kept₂.quotas, kept₁.quotas]
      exact read.real quota (mem_of_inCheckOrder mem)
    by_cases unset : ∀ quota, s₂.db.quotas.get quota.key = some quota → quota.userId = request.userId →
        quota.kind ≠ request.kind
    · -- no quota is set: nothing is checked
      have empty : inCheckOrder quotas = [] := by
        refine eq_nil_iff_forall_not_mem.mpr fun quota mem => ?_
        obtain ⟨isSet, ofUser, ofKind⟩ := real quota mem
        exact unset quota isSet ofUser ofKind
      rw [empty]
      exact follows_insert holds₂ ⟨owner₂, le_rfl, fun _ _ _ _ => ordered,
        fun quota isSet ofUser ofKind => absurd ofKind (unset quota isSet ofUser)⟩
    · simp only [not_forall, not_not] at unset
      obtain ⟨chosen, isSet, ofUser, ofKind⟩ := unset
      have same := holds₁.calls kept₂ (kept₂.quotas ▸ isSet) ofUser ofKind
      refine follows_checkQuotas real holds₂ ⟨rfl, fun _ _ mem => absurd mem not_mem_nil⟩ owner₂ (same ▸ new)
        fun s₃ kept₃ judged => ?_
      have same₃ := holds₂.calls kept₃ isSet ofUser ofKind
      refine follows_insert (holds₂.kept kept₃) ⟨kept₃.owners _ _ owner₂, kept₃.clock,
        fun _ _ _ _ => same₃ ▸ ordered, fun quota isSet' ofUser' ofKind' _ => ?_⟩
      rw [same₃]
      have inTable : s.db.quotas.get quota.key = some quota := by
        rw [← kept₁.quotas, ← kept₂.quotas, ← kept₃.quotas]
        exact isSet'
      have together : ∀ other ∈ quotas, s.db.quotas.get other.key = some other ∧ other.userId = quota.userId ∧
          other.kind = quota.kind := fun other mem => by
        obtain ⟨isSet'', ofUser'', ofKind''⟩ := read.real other mem
        exact ⟨isSet'', ofUser''.trans ofUser'.symm, ofKind''.trans ofKind'.symm⟩
      exact judged quota (mem_inCheckOrder together (read.all quota inTable ofUser' ofKind'))

theorem follows_useConnection (owner : s.db.owner request.taskId = some request.userId) :
    Follows zone start held s (request.useConnection zone projectId) := by
  intro s' _ kept
  have owner' := kept.owners _ _ owner
  split_ifs
  all_goals
    dsimp only
    cases s'.db.connections.get request.kind with
    | none => exact follows_refuse (by decide)
    | some connection =>
      dsimp only
      split_ifs
      · exact follows_refuse (by decide)
      · exact follows_lockQuotas (fun _ mem => absurd mem not_mem_nil) (fun quota _ _ _ => .inl (mem_lockOrder _ _)) owner'
          fun more s'' found owner holds read => follows_decide owner holds read

theorem follows_requireFloor {next : UsageTxn} (owner : s.db.owner request.taskId = some request.userId)
    (follows : ∀ held s', s'.db.owner request.taskId = some request.userId → Follows zone start held s' next) :
    Follows zone start held s (request.requireFloor projectId next) := by
  unfold AdmissionRequest.requireFloor
  cases request.minTokens with
  | none => exact follows held s owner
  | some minTokens =>
    intro s' _ kept
    have owner' := kept.owners _ _ owner
    split_ifs
    all_goals
      dsimp only
      cases s'.db.budgets.get request.taskId with
      | none => exact follows_refuse (by decide)
      | some budget =>
        dsimp only
        split_ifs
        · exact follows_refuse (by decide)
        · exact follows _ s' owner'

theorem follows_admitted (request : AdmissionRequest) : Follows zone start held s (request.admitted zone) := by
  intro s' _ _
  split_ifs
  all_goals
    dsimp only
    cases found : s'.db.tasks.get request.taskId with
    | none => exact follows_refuse (by decide)
    | some task =>
      dsimp only
      split_ifs with own
      · exact follows_refuse (by decide)
      · have owner : s'.db.owner request.taskId = some request.userId := by
          unfold UsageTables.owner
          rw [found, Option.map_some, not_not.mp own]
        cases activityOf task.state task.attempt task.retryCount request.run with
        | ended | superseded | unknown => exact follows_refuse (by decide)
        | active => exact follows_requireFloor owner fun _ _ owner => follows_useConnection owner

theorem quotas_obeyed (zone : Zone) (start : UsageTables) : (quotaDiscipline zone start).Obeyed where
  programs operation s _ := by
    cases operation with
    | admission request => exact follows_admitted request
    | settle id status failure inputTokens outputTokens =>
      intro s' sound _ s'' reply wrote
      cases wrote
      exact ⟨respects_sameEntries sound (sameEntries_writeOutcome _ _ _), trivial⟩
    | reap limit skipped =>
      intro s' sound _ s'' reply wrote
      cases wrote
      exact ⟨respects_sameEntries sound (sameEntries_writeAll _ _ _), trivial⟩
  ambient change s sound := respects_change sound change

/-! ### Counting -/

/-- The calls so far, from a start on. -/
abbrev usageFrom (zone : Zone) (start : UsageTables) :
    Machine (World RecordedTables UsageLock UsageFailure AdmissionReply) (Happening UsageOperation Change) :=
  (usageSystem zone).recorded.machine fun s => s = ⟨start, []⟩

theorem exact_start (wellFormed : Plausible start) : Exact zone start ⟨start, []⟩ where
  toPlausible := wellFormed
  quotas := rfl
  grown := ⟨[], (append_nil _).symm⟩
  admitted before entry after split := by
    have none : before ++ entry :: after = [] := append_right_eq_self.mp split.symm
    cases before <;> cases none

theorem sound_of_usageFrom {w : World RecordedTables UsageLock UsageFailure AdmissionReply} (wellFormed : Plausible start)
    (reach : (usageFrom zone start).Reachable w) : (quotaDiscipline zone start).Sound w :=
  Discipline.sound_of_reachable (quotas_obeyed zone start) (fun s same => by rw [same]; exact exact_start wellFormed) reach

theorem admittedBelow {limit : ℕ} {since : List UsageEntry} (sound : Exact zone start s)
    (isSet : s.db.quotas.get quota.key = some quota) (limited : quota.limit = some limit)
    (grown : s.db.entries = start.entries ++ since) :
    AdmittedBelow quota.metric limit start.entries since quota.userId quota.kind fun t => windowStart quota.period t zone := by
  intro before entry after split starts isOf n counts
  rw [split] at grown
  have judged := (sound.admitted before entry after grown starts quota isSet isOf).2
  unfold UsageEntry.isOf at isOf
  obtain ⟨ofUser, ofKind⟩ := of_decide_eq_true isOf
  obtain ⟨db, -, same, below⟩ := judged limit limited
  rw [← usedBy_callsOf, ← ofUser, ← ofKind, ← same, usedBy_callsOf] at counts
  rwa [used_sums db _ _ _ counts] at below

theorem calendar_together (clean : zone.Clean) {period : QuotaPeriod} {stop : Instant}
    (isEnd : windowEnd period now zone = some stop) (x y : Instant)
    (here : decide (windowStart period now zone ≤ x ∧ x < stop) = true)
    (there : decide (windowStart period now zone ≤ y ∧ y < stop) = true) : windowStart period x zone ≤ y := by
  rw [decide_eq_true_eq] at here there
  exact (windowStart_eq clean isEnd here.1 here.2).trans_le there.1

theorem rolling_together {period : QuotaPeriod} (rolling : period.calendar = none) (x y : Instant)
    (here : decide (now - rollingWindow ≤ x ∧ x ≤ now) = true)
    (there : decide (now - rollingWindow ≤ y ∧ y ≤ now) = true) : windowStart period x zone ≤ y := by
  rw [decide_eq_true_eq] at here there
  unfold windowStart
  rw [rolling]
  exact (Int.sub_le_sub_right here.2 _).trans there.1

/-! ### Exact quotas -/

def Tiled (zone : Zone) : Prop :=
  ∀ period now, windowStart period now zone ≤ now ∧
    ∀ stop, windowEnd period now zone = some stop → now < stop ∧ windowStart period stop zone = stop

theorem tiled_iff : Tiled zone ↔ zone.Clean := by
  constructor
  · intro tiled
    exact Zone.clean_of_daily fun t => ⟨(tiled .day t).1, (tiled .day t).2 _ rfl⟩
  · intro clean period now
    exact ⟨windowStart_le clean period now, fun stop isEnd => windowEnd_spec clean isEnd⟩

def newTasksIn (old since : List UsageEntry) (userId : Uuid) (kind : ConnectionKind) (window : Instant → Prop)
    [DecidablePred window] : ℕ :=
  ((newTasksAfter old since).filter fun entry => entry.isOf userId kind && decide (window entry.startedAt)).length

/-- What the quotas promise of all interleavings that begin with these rows. -/
structure ExactFrom (zone : Zone) (start : UsageTables) : Prop where
  /-- A call that starts a new task found each set limit above what its window had used. -/
  admitted : ∀ w, (usageFrom zone start).Reachable w → Admitted zone start w.db
  calendar : ∀ w, (usageFrom zone start).Reachable w → ∀ since, w.db.db.entries = start.entries ++ since →
    ∀ quota ∈ w.db.db.quotas.rows, quota.metric = .requests ∨ quota.metric = .tasks → ∀ limit, quota.limit = some limit →
      ∀ now stop, windowEnd quota.period now zone = some stop →
        newTasksIn start.entries since quota.userId quota.kind
          (fun t => windowStart quota.period now zone ≤ t ∧ t < stop) ≤ limit
  rolling : ∀ w, (usageFrom zone start).Reachable w → ∀ since, w.db.db.entries = start.entries ++ since →
    ∀ quota ∈ w.db.db.quotas.rows, quota.metric = .requests ∨ quota.metric = .tasks → quota.period = .rolling5h →
      ∀ limit, quota.limit = some limit → ∀ now,
        newTasksIn start.entries since quota.userId quota.kind (fun t => now - rollingWindow ≤ t ∧ t ≤ now) ≤ limit
  grown : ∀ w, (usageFrom zone start).Reachable w →
    (∃ since, w.db.db.entries = start.entries ++ since) ∧ w.db.db.quotas = start.quotas
  /-- A refusal writes nothing, and a task that has a call of the kind is never refused for a quota. -/
  refused : ∀ w, (usageFrom zone start).Reachable w → ∀ i w' session taskId kind reason quota resetsAt projectId,
    (usageSystem zone).recorded.step w (.advance i) = some w' → w'.sessions[i]? = some session →
    session.phase = .ended (.ok (.refused taskId kind reason quota resetsAt projectId)) →
      w'.db.db = w.db.db ∧ (reason = .quotaExceeded → ∀ entry ∈ w.db.db.entries, entry.isFor taskId kind = false)

/-- **The quotas of requests and tasks are exact, and the windows tile time, exactly in a zone no change of which carries
the clocks over a midnight.** -/
theorem quotas_exact_iff (zone : Zone) : (Tiled zone ∧ ∀ start, Plausible start → ExactFrom zone start) ↔ zone.Clean := by
  refine ⟨fun exact => tiled_iff.mp exact.1, fun clean => ⟨tiled_iff.mpr clean, fun start wellFormed => ?_⟩⟩
  have sound : ∀ w, (usageFrom zone start).Reachable w → (quotaDiscipline zone start).Sound w :=
    fun w reach => sound_of_usageFrom wellFormed reach
  constructor
  · exact fun w reach => (sound w reach).inv.admitted
  · intro w reach since grown quota inRows calls limit limited now stop isEnd
    have below := admittedBelow (sound w reach).inv (Keyed.get_self inRows) limited grown
    exact newTasks_le calls below _ (calendar_together clean isEnd)
  · intro w reach since grown quota inRows calls rolling limit limited now
    have below := admittedBelow (sound w reach).inv (Keyed.get_self inRows) limited grown
    exact newTasks_le calls below _ (rolling_together (by rw [rolling]; rfl))
  · exact fun w reach => ⟨(sound w reach).inv.grown, (sound w reach).inv.quotas⟩
  · intro w reach i w' session taskId kind reason quota resetsAt projectId taken ended outcome
    have answered : replies w.db w'.db _ := (sound w reach).answered taken ended outcome
    exact ⟨answered.1, answered.2⟩

/-! ### A change that goes back over a midnight -/

/-- The clocks of Newfoundland in the autumn of 2006: one minute after the 29th of October has begun they go back an
hour, from UTC-2:30 to UTC-3:30. -/
def newfoundland : Zone where
  change n := (732613 * 1440 + 151 + n * 1440) * (60 * 10 ^ 6)
  offset n := if n = 0 then -150 * (60 * 10 ^ 6) else -210 * (60 * 10 ^ 6)
  increasing := strictMono_nat_of_lt_succ fun n => by push_cast; omega
  bounded n := by split_ifs <;> decide
  ordered := monotone_nat_of_le_succ fun n => by
    rcases n with _ | n
    · decide
    · simp only [Nat.add_eq_zero_iff, one_ne_zero, and_false, if_false]
      push_cast
      omega

/-- A quarter to three, UTC, of that day. -/
def lateOctober : Instant := (732613 * 1440 + 165) * (60 * 10 ^ 6)

theorem newfoundland_changesBy : newfoundland.changesBy lateOctober = 1 :=
  (Nat.find_eq_iff _).mpr ⟨by decide, fun n less => by rw [Nat.lt_one_iff.mp less]; decide⟩

theorem newfoundland_wallChangesBy : newfoundland.wallChangesBy (732613 * dayLength) = 0 :=
  (Nat.find_eq_iff _).mpr ⟨by decide, fun n less => absurd less (Nat.not_lt_zero n)⟩

/-- The day that contains a quarter to three ends at half past two, and the windows do not tile time. -/
theorem newfoundland_day_ended :
    windowEnd .day lateOctober newfoundland = some (lateOctober - 15 * (60 * 10 ^ 6)) ∧
      ¬(Tiled newfoundland ∧ ∀ start, Plausible start → ExactFrom newfoundland start) := by
  have date : newfoundland.date lateOctober + 1 = 732613 := by
    rw [Zone.date, Zone.clock, newfoundland_changesBy]
    decide
  have stop : windowEnd .day lateOctober newfoundland = some (lateOctober - 15 * (60 * 10 ^ 6)) := by
    show some (newfoundland.midnight (newfoundland.date lateOctober + 1)) = _
    rw [date, Zone.midnight, Zone.toUtc, newfoundland_wallChangesBy]
    decide
  refine ⟨stop, fun exact => ?_⟩
  have later := ((exact.1 .day lateOctober).2 _ stop).1
  exact absurd later (by decide)

end PawBackend.Connections
