/-
**Transactions that lock rows.**

Many transactions run at once on one database. A transaction is a program of statements: one that locks a row waits
until nobody else holds a lock that conflicts with it, and each statement sees what is committed when it starts.
-/

import PawBackend.Lib.Machine
import PawBackend.Lib.Places

namespace PawBackend.Lib

open List

variable {σ L ε α ω δ : Type}

/-- The statements of a transaction. A lock is taken where the row is there; a commit may be refused. -/
inductive Txn (σ L ε α : Type)
  | lock (row : L) (present : σ → Bool) (next : σ → Txn σ L ε α)
  | read (next : σ → Txn σ L ε α)
  | commit (write : σ → Except ε (σ × α))
  | raise (error : ε)

/-- Where a transaction stands: before its next statement, at its end, or lost. -/
inductive Phase (σ L ε α : Type)
  | running (rest : Txn σ L ε α)
  | ended (outcome : Except ε α)
  | lost

structure Session (σ L ε α : Type) where
  held : List L
  phase : Phase σ L ε α

def Session.value : Session σ L ε α → Option α
  | ⟨_, .ended (.ok value)⟩ => some value
  | _ => none

theorem Session.phase_of_value {session : Session σ L ε α} {value : α} (ended : session.value = some value) :
    session.phase = .ended (.ok value) := by
  unfold Session.value at ended
  split at ended
  · rw [Option.some.inj ended]
  · cases ended

/-- What is committed, and the transactions begun so far. -/
structure World (σ L ε α : Type) where
  db : σ
  sessions : List (Session σ L ε α)

/-- The transactions of a system, which locks exclude one another, and what else moves its database. -/
structure Transactional (σ L ε α ω δ : Type) where
  conflict : L → L → Bool
  symmetric : ∀ l l', conflict l l' = conflict l' l
  program : ω → Txn σ L ε α
  ambient : δ → σ → σ

/-- What happens next: a transaction begins, runs its next statement, or is lost; or the database moves. -/
inductive Happening (ω δ : Type)
  | begin (operation : ω)
  | advance (i : ℕ)
  | rollback (i : ℕ)
  | ambient (d : δ)
  deriving DecidableEq, Repr

namespace Transactional

variable (S : Transactional σ L ε α ω δ)

/-- Nobody but the session itself holds a lock that conflicts with this one. -/
def free (sessions : List (Session σ L ε α)) (i : ℕ) (l : L) : Bool :=
  (sessions.eraseIdx i).all fun other => other.held.all fun l' => !S.conflict l l'

/-- The next statement of one transaction; without one, it waits. -/
def advance (w : World σ L ε α) (i : ℕ) (held : List L) : Txn σ L ε α → Option (World σ L ε α)
  | .lock l present next =>
    if present w.db = false then
      some { w with sessions := w.sessions.set i ⟨held, .running (next w.db)⟩ }
    else if S.free w.sessions i l then
      some { w with sessions := w.sessions.set i ⟨l :: held, .running (next w.db)⟩ }
    else none
  | .read next => some { w with sessions := w.sessions.set i ⟨held, .running (next w.db)⟩ }
  | .commit write =>
    match write w.db with
    | .ok (db, value) => some { db, sessions := w.sessions.set i ⟨[], .ended (.ok value)⟩ }
    | .error error => some { w with sessions := w.sessions.set i ⟨[], .ended (.error error)⟩ }
  | .raise error => some { w with sessions := w.sessions.set i ⟨[], .ended (.error error)⟩ }

def step (w : World σ L ε α) : Happening ω δ → Option (World σ L ε α)
  | .begin operation =>
    some { w with sessions := w.sessions ++ [⟨[], .running (S.program operation)⟩] }
  | .advance i =>
    match w.sessions[i]? with
    | some ⟨held, .running rest⟩ => S.advance w i held rest
    | _ => none
  | .rollback i =>
    match w.sessions[i]? with
    | some ⟨_, .running _⟩ => some { w with sessions := w.sessions.set i ⟨[], .lost⟩ }
    | _ => none
  | .ambient d => some { w with db := S.ambient d w.db }

def machine (initial : σ → Prop) : Machine (World σ L ε α) (Happening ω δ) where
  initial w := initial w.db ∧ w.sessions = []
  step := S.step

end Transactional

/-! ### What may be relied on -/

/-- An invariant of the database, what nobody changes under somebody else's locks, and what a commit that
returns a value has done. -/
structure Discipline (S : Transactional σ L ε α ω δ) where
  inv : σ → Prop
  keeps : List L → σ → σ → Prop
  answers : σ → σ → α → Prop
  refl : ∀ held db, keeps held db db
  trans : ∀ held {a b c}, keeps held a b → keeps held b c → keeps held a c

namespace Discipline

variable {S : Transactional σ L ε α ω δ} (D : Discipline S)

/-- No lock of the one conflicts with a lock of the other. -/
def Compatible (S : Transactional σ L ε α ω δ) (held others : List L) : Prop :=
  ∀ l ∈ held, ∀ l' ∈ others, S.conflict l l' = false

/-- A change that keeps the invariant, and what all others rely on while these locks are held. -/
def Respects (held : List L) (db db' : σ) : Prop :=
  D.inv db' ∧ ∀ others, Compatible S held others → D.keeps others db db'

/-- The program, which last saw this database and holds these locks, follows the discipline. -/
def Follows (held : List L) (seen : σ) : Txn σ L ε α → Prop
  | .lock l present next => ∀ db, D.inv db → D.keeps held seen db →
    if present db = false then Follows held db (next db) else Follows (l :: held) db (next db)
  | .read next => ∀ db, D.inv db → D.keeps held seen db → Follows held db (next db)
  | .commit write => ∀ db, D.inv db → D.keeps held seen db → ∀ db' value,
    write db = .ok (db', value) → D.Respects held db db' ∧ D.answers db db' value
  | .raise _ => True

variable {D}

variable {held : List L} {db : σ} {rest : Txn σ L ε α} {session : Session σ L ε α} {w w' : World σ L ε α} {i : ℕ}

theorem Follows.mono {seen : σ} (follows : D.Follows held seen rest)
    (kept : D.keeps held seen db) : D.Follows held db rest := by
  cases rest with
  | lock | read | commit => exact fun _ sound later => follows _ sound (D.trans held kept later)
  | raise error => trivial

variable (D)

def Obeys (db : σ) (session : Session σ L ε α) : Prop :=
  ∀ rest, session.phase = .running rest → D.Follows session.held db rest

/-- The invariant of a world: of its database, of each session, and between two of them. -/
structure Sound (w : World σ L ε α) : Prop where
  inv : D.inv w.db
  obeys : ∀ session ∈ w.sessions, D.Obeys w.db session
  apart : w.sessions.Pairwise fun a b => Compatible S a.held b.held

variable {D}

theorem Compatible.symm {others : List L} (apart : Compatible S held others) : Compatible S others held :=
  fun l mem l' member' => (S.symmetric l l').trans (apart l' member' l mem)

theorem compatible_nil (held : List L) : Compatible S held [] := nofun

theorem nil_compatible (held : List L) : Compatible S [] held := nofun

theorem Obeys.kept {db' : σ} (obeys : D.Obeys db session)
    (kept : D.keeps session.held db db') : D.Obeys db' session :=
  fun rest running => (obeys rest running).mono kept

theorem obeys_ended (db : σ) (held : List L) (outcome : Except ε α) : D.Obeys db ⟨held, .ended outcome⟩ :=
  nofun

theorem obeys_lost (db : σ) (held : List L) : D.Obeys db ⟨held, .lost⟩ := nofun

theorem obeys_running (follows : D.Follows held db rest) :
    D.Obeys db ⟨held, .running rest⟩ := by
  intro other running
  cases running
  exact follows

theorem Sound.replace {new : Session σ L ε α} {db' : σ} (sound : D.Sound w)
    (found : w.sessions[i]? = some session) (changed : D.Respects session.held w.db db') (obeys : D.Obeys db' new)
    (fits : ∀ other ∈ w.sessions.eraseIdx i, Compatible S new.held other.held) :
    D.Sound ⟨db', w.sessions.set i new⟩ := by
  refine ⟨changed.1, fun other mem => ?_, pairwise_set (fun _ _ => Compatible.symm) sound.apart fits⟩
  rcases mem_of_mem_set mem with rfl | mem
  · exact obeys
  · exact (sound.obeys other (mem_of_mem_eraseIdx mem)).kept
      (changed.2 _ (apart_of_eraseIdx (fun _ _ => Compatible.symm) sound.apart found other mem))

theorem respects_self (sound : D.inv db) : D.Respects held db db :=
  ⟨sound, fun others _ => D.refl others db⟩

theorem Respects.trans {a b c : σ} (first : D.Respects held a b) (second : D.Respects held b c) :
    D.Respects held a c :=
  ⟨second.1, fun others apart => D.trans others (first.2 others apart) (second.2 others apart)⟩

theorem Sound.advance (sound : D.Sound w)
    (found : w.sessions[i]? = some ⟨held, .running rest⟩) (taken : S.advance w i held rest = some w') :
    D.Sound w' ∧ D.Respects held w.db w'.db := by
  have follows := sound.obeys _ (mem_of_getElem? found) rest rfl
  have apart := apart_of_eraseIdx (fun _ _ => Compatible.symm) sound.apart found
  have stays : D.Respects held w.db w.db := respects_self sound.inv
  have empty : ∀ other ∈ w.sessions.eraseIdx i, Compatible S [] other.held := fun _ _ => nil_compatible _
  cases rest with
  | lock l present next =>
    simp only [Transactional.advance] at taken
    have after := follows w.db sound.inv (D.refl held w.db)
    split_ifs at taken with absent free
    · cases taken
      rw [if_pos absent] at after
      exact ⟨sound.replace found stays (obeys_running after) apart, stays⟩
    · cases taken
      rw [if_neg absent] at after
      refine ⟨sound.replace found stays (obeys_running after) fun other mem => ?_, stays⟩
      intro l' isHeld
      rcases mem_cons.mp isHeld with rfl | isHeld
      · intro l'' isOther
        have clear := all_eq_true.mp (all_eq_true.mp free other mem) l'' isOther
        simpa using clear
      · exact apart other mem l' isHeld
  | read next =>
    cases taken
    have after := follows w.db sound.inv (D.refl held w.db)
    exact ⟨sound.replace found stays (obeys_running after) apart, stays⟩
  | commit write =>
    simp only [Transactional.advance] at taken
    cases wrote : write w.db with
    | ok result =>
      obtain ⟨db', value⟩ := result
      rw [wrote] at taken
      cases taken
      have changed := (follows w.db sound.inv (D.refl held w.db) db' value wrote).1
      exact ⟨sound.replace found changed (obeys_ended _ _ _) empty, changed⟩
    | error error =>
      rw [wrote] at taken
      cases taken
      exact ⟨sound.replace found stays (obeys_ended _ _ _) empty, stays⟩
  | raise error =>
    cases taken
    exact ⟨sound.replace found stays (obeys_ended _ _ _) empty, stays⟩

theorem Sound.answered {value : α} (sound : D.Sound w)
    (taken : S.step w (.advance i) = some w') (ended : w'.sessions[i]? = some session)
    (outcome : session.phase = .ended (.ok value)) : D.answers w.db w'.db value := by
  simp only [Transactional.step] at taken
  split at taken
  · next held rest found =>
    have follows := sound.obeys _ (mem_of_getElem? found) rest rfl
    have inside : i < w.sessions.length := (List.getElem?_eq_some_iff.mp found).1
    cases rest with
    | lock l present next =>
      simp only [Transactional.advance] at taken
      split_ifs at taken
      all_goals
        cases taken
        rw [getElem?_set_self inside, Option.some.injEq] at ended
        subst ended
        cases outcome
    | read | raise =>
      cases taken
      rw [getElem?_set_self inside, Option.some.injEq] at ended
      subst ended
      cases outcome
    | commit write =>
      simp only [Transactional.advance] at taken
      cases wrote : write w.db with
      | ok result =>
        obtain ⟨db', value'⟩ := result
        rw [wrote] at taken
        cases taken
        rw [getElem?_set_self inside, Option.some.injEq] at ended
        subst ended
        cases outcome
        exact (follows w.db sound.inv (D.refl held w.db) db' value wrote).2
      | error error =>
        rw [wrote] at taken
        cases taken
        rw [getElem?_set_self inside, Option.some.injEq] at ended
        subst ended
        cases outcome
  · cases taken

/-- The programs follow the discipline from the start, and so does what else moves the database. -/
structure Obeyed (D : Discipline S) : Prop where
  programs : ∀ operation db, D.inv db → D.Follows [] db (S.program operation)
  ambient : ∀ d db, D.inv db → D.Respects [] db (S.ambient d db)

theorem Sound.step {e : Happening ω δ} (obeyed : D.Obeyed) (sound : D.Sound w)
    (taken : S.step w e = some w') : D.Sound w' := by
  cases e with
  | begin operation =>
    cases taken
    refine ⟨sound.inv, fun session mem => ?_, ?_⟩
    · rcases mem_append.mp mem with mem | mem
      · exact sound.obeys session mem
      · rw [mem_singleton.mp mem]
        exact obeys_running (obeyed.programs operation w.db sound.inv)
    · refine pairwise_append.mpr ⟨sound.apart, pairwise_singleton _ _, fun a _ b new => ?_⟩
      rw [mem_singleton.mp new]
      exact compatible_nil a.held
  | advance i =>
    simp only [Transactional.step] at taken
    split at taken
    · next held rest found => exact (sound.advance found taken).1
    · cases taken
  | rollback i =>
    simp only [Transactional.step] at taken
    split at taken
    · next held rest found =>
      cases taken
      exact sound.replace found (respects_self sound.inv) (obeys_lost _ _) fun _ _ => nil_compatible _
    · cases taken
  | ambient d =>
    cases taken
    have changed := obeyed.ambient d w.db sound.inv
    exact ⟨changed.1, fun session mem => (sound.obeys session mem).kept (changed.2 _ (nil_compatible _)),
      sound.apart⟩

theorem sound_start (inv : D.inv w.db) (none : w.sessions = []) : D.Sound w := by
  refine ⟨inv, ?_, ?_⟩
  · intro session mem
    rw [none] at mem
    cases mem
  · rw [none]
    exact .nil

/-- **Where every program follows the discipline, its invariant holds in every interleaving.** -/
theorem sound_of_reachable {initial : σ → Prop} (obeyed : D.Obeyed) (base : ∀ db, initial db → D.inv db)
    (reach : (S.machine initial).Reachable w) : D.Sound w := by
  refine reach.invariant (P := D.Sound) (fun w init => ?_) fun w e w' _ sound taken => ?_
  · exact sound_start (base w.db init.1) init.2
  · exact sound.step obeyed taken

end Discipline

namespace Discipline

variable {S : Transactional σ L ε α ω δ} {D : Discipline S}

theorem Sound.kept {w w' : World σ L ε α} {e : Happening ω δ} (obeyed : D.Obeyed) (sound : D.Sound w)
    (taken : S.step w e = some w') : D.keeps [] w.db w'.db := by
  cases e with
  | begin operation =>
    cases taken
    exact D.refl [] w.db
  | advance i =>
    simp only [Transactional.step] at taken
    split at taken
    · next held rest found => exact (sound.advance found taken).2.2 [] (compatible_nil held)
    · cases taken
  | rollback i =>
    simp only [Transactional.step] at taken
    split at taken
    · cases taken
      exact D.refl [] w.db
    · cases taken
  | ambient d =>
    cases taken
    exact (obeyed.ambient d w.db sound.inv).2 [] (compatible_nil [])

end Discipline

namespace Transactional

variable {S : Transactional σ L ε α ω δ}

theorem advance_sessions {w w' : World σ L ε α} {i : ℕ} {held : List L} {rest : Txn σ L ε α}
    (taken : S.advance w i held rest = some w') : ∃ new, w'.sessions = w.sessions.set i new := by
  cases rest with
  | lock l present next =>
    simp only [advance] at taken
    split_ifs at taken
    all_goals
      cases taken
      exact ⟨_, rfl⟩
  | read | raise =>
    cases taken
    exact ⟨_, rfl⟩
  | commit write =>
    simp only [advance] at taken
    split at taken
    all_goals
      cases taken
      exact ⟨_, rfl⟩

theorem unchanged_of_error {w w' : World σ L ε α} {i : ℕ} {session : Session σ L ε α} {error : ε}
    (taken : S.step w (.advance i) = some w') (ended : w'.sessions[i]? = some session)
    (outcome : session.phase = .ended (.error error)) : w'.db = w.db := by
  simp only [step] at taken
  split at taken
  · next held rest found =>
    have inside : i < w.sessions.length := (List.getElem?_eq_some_iff.mp found).1
    cases rest with
    | lock l present next =>
      simp only [advance] at taken
      split_ifs at taken
      all_goals
        cases taken
        rfl
    | read | raise =>
      cases taken
      rfl
    | commit write =>
      simp only [advance] at taken
      split at taken
      · cases taken
        rw [getElem?_set_self inside, Option.some.injEq] at ended
        subst ended
        cases outcome
      · cases taken
        rfl
  · cases taken

end Transactional

namespace Discipline

variable {S : Transactional σ L ε α ω δ} {D : Discipline S}

/-- **What replies say stays true**, where a commit makes it so and nobody undoes it. -/
theorem ended_of_reachable {initial : σ → Prop} {holds : σ → α → Prop} (obeyed : D.Obeyed)
    (base : ∀ db, initial db → D.inv db) (made : ∀ db db' value, D.answers db db' value → holds db' value)
    (stays : ∀ db db' value, D.keeps [] db db' → holds db value → holds db' value) {w : World σ L ε α}
    (reach : (S.machine initial).Reachable w) :
    ∀ session ∈ w.sessions, ∀ value, session.phase = .ended (.ok value) → holds w.db value := by
  refine reach.invariant (P := fun w => ∀ session ∈ w.sessions, ∀ value, session.phase = .ended (.ok value) →
    holds w.db value) (fun w init session mem => ?_) fun w e w' reach told taken session mem value outcome => ?_
  · rw [init.2] at mem
    cases mem
  · have sound := sound_of_reachable obeyed base reach
    have kept : D.keeps [] w.db w'.db := sound.kept obeyed taken
    have old : session ∈ w.sessions → holds w'.db value := fun mem => stays _ _ value kept (told session mem value outcome)
    cases e with
    | begin operation =>
      cases taken
      rcases mem_append.mp mem with mem | mem
      · exact old mem
      · rw [mem_singleton.mp mem] at outcome
        cases outcome
    | advance i =>
      have whole : S.step w (.advance i) = some w' := taken
      simp only [Transactional.machine, Transactional.step] at taken
      split at taken
      · next held rest found =>
        obtain ⟨new, sessions⟩ := S.advance_sessions taken
        have inside : i < w.sessions.length := (List.getElem?_eq_some_iff.mp found).1
        rw [sessions] at mem
        rcases mem_of_mem_set mem with rfl | mem
        · exact made _ _ value (sound.answered whole (by rw [sessions, getElem?_set_self inside]) outcome)
        · exact old (mem_of_mem_eraseIdx mem)
      · cases taken
    | rollback i =>
      simp only [Transactional.machine, Transactional.step] at taken
      split at taken
      · cases taken
        rcases mem_of_mem_set mem with rfl | mem
        · cases outcome
        · exact old (mem_of_mem_eraseIdx mem)
      · cases taken
    | ambient d =>
      cases taken
      exact old mem

end Discipline

/-! ### Keeping what was committed -/

/-- A database with the states that were committed before. -/
structure Recorded (σ : Type) where
  db : σ
  past : List σ

namespace Recorded

/-- The states so far, the present one included. -/
def states (s : Recorded σ) : List σ := s.db :: s.past

def push (s : Recorded σ) (db : σ) : Recorded σ := ⟨db, s.states⟩

theorem mem_states (s : Recorded σ) : s.db ∈ s.states := .head _

end Recorded

/-- The same transaction, on a database that records what was committed. -/
def Txn.recorded : Txn σ L ε α → Txn (Recorded σ) L ε α
  | .lock l present next => .lock l (fun s => present s.db) fun s => (next s.db).recorded
  | .read next => .read fun s => (next s.db).recorded
  | .commit write => .commit fun s => (write s.db).map fun result => (s.push result.1, result.2)
  | .raise error => .raise error

def Transactional.recorded (S : Transactional σ L ε α ω δ) : Transactional (Recorded σ) L ε α ω δ where
  conflict := S.conflict
  symmetric := S.symmetric
  program operation := (S.program operation).recorded
  ambient d s := s.push (S.ambient d s.db)

end PawBackend.Lib
