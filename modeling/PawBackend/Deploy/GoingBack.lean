/-
**Going back release by release** (`Tool.rollback` and `State.mark_known_good` of `deploy/release/paw_release.py`).

A rollback without `--to` goes to the release that stands before the current one in `known_good`, a list that only
installs and updates extend.
-/

import Mathlib.Data.List.Perm.Subperm
import PawBackend.Deploy.Histories

namespace PawBackend.Deploy

open Lib List

variable {ε α β : Type} {server : Server ε} {host : Host} {w : World ε}

/-! ### The log of the releases in use -/

def Question.resumes : Question → Option String
  | .command (.backend release .maintenanceEnd) => some release.version
  | _ => none

def resumed (version : String) (asked : List (Asked ε)) : Bool := asked.any (·.question.resumes = some version)

/-- The release an invocation makes current. -/
def Invocation.installs : Invocation → Option String
  | .install version => some version
  | .update version _ => some version
  | _ => none

/-- A run marks its release known-good: an update before it lets that release take up the work, an install last. -/
def Invocation.passes (code : ExitCode) (asked : List (Asked ε)) : Invocation → Bool
  | .install _ => code = .ok
  | .update version _ => resumed version asked
  | _ => false

inductive How
  | passed
  | failed
  | rolledBack
  deriving DecidableEq, Repr

/-- A release was made current: by an install or update that it passed or not, or by a rollback. -/
structure Use where
  release : String
  how : How
  leaving : Option String
  deriving DecidableEq, Repr

/-- What a run adds to the log. -/
def Installation.uses (s : Installation ε) (invocation : Invocation) (code : ExitCode) (w : World ε) : List Use :=
  match w.files.current with
  | none => []
  | some release =>
    if invocation.passes code w.asked then [⟨release, .passed, s.files.current⟩]
    else if w.files.current = s.files.current then []
    else [⟨release, if invocation.installs.isSome then .failed else .rolledBack, s.files.current⟩]

/-- A server and the log of its releases, newest first. -/
structure Traced (ε : Type) where
  now : Installation ε
  log : List Use

def Traced.after (server : Server ε) (t : Traced ε) (e : Host × Invocation) : Traced ε :=
  let ran := t.now.ran server e
  ⟨t.now.after ran.2, t.now.uses e.2 (exitCode ran.1) ran.2 ++ t.log⟩

def usage (server : Server ε) : Machine (Traced ε) (Host × Invocation) where
  initial t := (histories server).initial t.now ∧ t.log = []
  step t e := some (t.after server e)

/-- A release became known-good. -/
def Passed (log : List Use) (release : String) : Prop := ∃ use ∈ log, use.how = .passed ∧ use.release = release

/-- A rollback left a release, which has not passed an update since. -/
def left : List Use → String → Bool
  | [], _ => false
  | use :: older, release =>
    if use.how = .passed ∧ use.release = release then false
    else decide (use.how = .rolledBack ∧ use.leaving = some release) || left older release

/-- `earlier` was current before an install or update last made `release` current. -/
def UsedBefore (earlier release : String) : List Use → Prop
  | [] => False
  | use :: older =>
    if use.release = release ∧ use.how ≠ .rolledBack then ∃ before ∈ older, before.release = earlier
    else UsedBefore earlier release older

/-- Nothing is installed while a release that a rollback left is known-good, and `--to` names an earlier release than
the current one. -/
def Backwards (t : Traced ε) : Host × Invocation → Prop
  | (_, .install version) => ∀ release ∈ t.now.files.knownGood, left t.log release = true → release = version
  | (_, .update version _) => ∀ release ∈ t.now.files.knownGood, left t.log release = true → release = version
  | (_, .rollback (some version) _) => version ∈ t.now.files.knownGood → ∀ current, t.now.files.current = some current →
    t.now.files.knownGood.idxOf version ≤ t.now.files.knownGood.idxOf current
  | _ => True

/-! ### Programs that carry a property of the world -/

/-- From a world with the one property a program returns, in a world with the other. -/
def Carries (P Q : World ε → Prop) (x : Tool ε α) : Prop :=
  ∀ w, P w → Ensures x (fun _ w' => Q w') (fun _ _ => False) w

/-- Neither a question that lets nobody take up the work nor the record of what is in progress touches it. -/
structure Steady (server : Server ε) (P : World ε → Prop) : Prop where
  asks : ∀ w question, question.resumes = none → P w → P (w.asking server question)
  notes : ∀ w record, P w → P (w.withFiles { w.files with inProgress := record })

variable {P P' Q : World ε → Prop} {x y : Tool ε α} {f : α → Tool ε β} {release : Release} {commands : List Command}
  {name message title : String} {key : CommandKey} {of : Option Release} {revision : Option String}

theorem Carries.mono (carries : Carries P Q x) {Q' : World ε → Prop} (weaker : ∀ w, Q w → Q' w) : Carries P Q' x :=
  fun w held => (carries w held).mono (fun _ _ isEnd => weaker _ isEnd) fun _ _ wrong => wrong

theorem Carries.bind (first : Carries P P' x) (next : ∀ value, Carries P' Q (f value)) : Carries P Q (x >>= f) :=
  fun w held => (first w held).bind fun value w' held' => next value w' held'

theorem Carries.then {returned : β → World ε → Prop} {raised : ReleaseError → World ε → Prop} (carries : Carries P Q x)
    (held : P w) (next : ∀ value w', Q w' → Ensures (f value) returned raised w') : Ensures (x >>= f) returned raised w :=
  ((carries w held).mono (fun _ _ isEnd => isEnd) fun _ _ wrong => wrong.elim).bind next

theorem carries_pure {value : α} : Carries P P (pure value : Tool ε α) := fun _ held => ensures_pure.mpr held

theorem carries_ite {p : Prop} [Decidable p] (yes : Carries P Q x) (no : Carries P Q y) :
    Carries P Q (if p then x else y) := by
  split_ifs
  · exact yes
  · exact no

theorem carries_onlyIf {condition : Bool} {x : Tool ε Bool} (runs : Carries P P x) : Carries P P (onlyIf condition x) :=
  carries_ite runs carries_pure

theorem carries_change {change : Files → Files} (changed : ∀ w, P w → Q (w.withFiles (change w.files))) :
    Carries P Q (changeFiles change : Tool ε Unit) :=
  fun w held => ensures_changeFiles.mpr (changed w held)

namespace Steady

variable (steady : Steady server P)

include steady

theorem ask {question : Question} (quiet : question.resumes = none) : Carries P P (ask server question) :=
  fun w held => ensures_ask.mpr (steady.asks w question quiet held)

theorem record {record : Option InProgress} : Carries P P (setInProgress record : Tool ε Unit) :=
  carries_change fun w held => steady.notes w record held

theorem step {code : ℤ} : Carries P P (step title code : Tool ε Bool) := fun w held => ensures_step.mpr (steady.notes w _ held)

theorem stage {x : Tool ε ℤ} {rest : Bool → Tool ε α} (ran : Carries P P x) (next : ∀ done, Carries P Q (rest done)) :
    Carries P Q (x >>= fun code => Deploy.step title code >>= rest) :=
  ran.bind fun _ => steady.step.bind next

theorem firstFailure (quiet : ∀ command ∈ commands, (Question.command command).resumes = none) :
    Carries P P (firstFailure server commands) := by
  induction commands with
  | nil => exact carries_pure
  | cons command rest ih =>
    rw [forall_mem_cons] at quiet
    exact (steady.ask quiet.1).bind fun _ => carries_ite (ih quiet.2) carries_pure

theorem configured : Carries P P (configured server host key of message) := by
  refine steady.firstFailure fun command mem => ?_
  obtain ⟨argv, -, rfl⟩ := mem_map.mp mem
  rfl

theorem postRestore : Carries P P (postRestore server host release) := by
  refine steady.firstFailure fun command mem => ?_
  obtain ⟨arguments, -, rfl⟩ := mem_map.mp mem
  rfl

theorem maintenanceMode : Carries P P (maintenanceMode server host name message) :=
  steady.configured.bind fun _ => carries_pure

theorem healthyOnce : Carries P P (healthyOnce server host release revision) :=
  (steady.ask rfl).bind fun _ => carries_ite (steady.configured.bind fun _ => carries_pure) carries_pure

theorem healthy : Carries P P (healthy server host release revision) := by
  refine (steady.ask rfl).bind fun rounds => ?_
  induction rounds with
  | zero => exact steady.healthyOnce
  | succ rounds ih => exact steady.healthyOnce.bind fun _ => carries_ite carries_pure ih

theorem prune : Carries P P (pruneRestorePoints server host) := by
  have reads : Carries P P (readFiles : Tool ε Files) := fun w held => ensures_readFiles.mpr held
  refine reads.bind fun files => (steady.ask rfl).bind fun now => (steady.ask rfl).bind fun points => ?_
  induction points with
  | nil => exact carries_pure
  | cons point rest ih => exact carries_ite ((steady.ask rfl).bind fun _ => ih) ih

omit steady in
/-- The end of an operation, when taking up the work leads from one property to the other. -/
theorem resume {rest : Tool ε ExitCode} (steady : Steady server Q)
    (ends : ∀ w, P w → Q (w.asking server (.command (.backend release .maintenanceEnd)))) (next : Carries Q Q rest) :
    Carries P Q (resume server host name release rest) := by
  have ended : Carries P Q (backend server release .maintenanceEnd) := fun w held => ensures_ask.mpr (ends w held)
  exact ended.bind fun _ => steady.step.bind fun _ =>
    carries_ite steady.maintenanceMode (steady.record.bind fun _ => next)

end Steady

/-! ### How a run changes the files -/

def At (version : String) (current : String) (known : List String) (taken : Bool) (w : World ε) : Prop :=
  w.files.current = some current ∧ w.files.knownGood = known ∧ resumed version w.asked = taken

theorem resumed_asking {version : String} {question : Question} :
    resumed version (w.asking server question).asked =
      (resumed version w.asked || decide (question.resumes = some version)) := by
  show (w.asked ++ [_]).any _ = _
  rw [any_append]
  simp [resumed]

theorem steady_at {version current : String} {known : List String} {taken : Bool} :
    Steady server (At version current known taken : World ε → Prop) where
  asks w question quiet held := ⟨held.1, held.2.1, by rw [resumed_asking, held.2.2, quiet]; simp⟩
  notes _ _ held := held

theorem Steady.or (first : Steady server P) (second : Steady server Q) : Steady server fun w => P w ∨ Q w where
  asks w question quiet held := held.imp (first.asks w question quiet) (second.asks w question quiet)
  notes w record held := held.imp (first.notes w record) (second.notes w record)

section Updates

variable {u : Update} {known : List String}

namespace Update

section Carrying

variable (steady : Steady server P)
  (ends : ∀ w, P w → P (w.asking server (.command (.backend u.current .maintenanceEnd))))
  (back : ∀ w, P w → P (w.withFiles { w.files with current := some u.current.version }))

include steady ends

theorem carries_abort {running : Bool} : Carries P P (u.abort server host running) :=
  (carries_onlyIf (steady.configured.bind fun _ => steady.step)).bind fun _ =>
    carries_ite steady.maintenanceMode (steady.resume ends carries_pure)

include back

theorem carries_rollback {migrated : Bool} : Carries P P (u.rollback server host migrated) := by
  have started : Carries P P (u.rollbackStart server host) :=
    steady.stage steady.configured fun _ => carries_ite steady.maintenanceMode
      (steady.healthy.bind fun _ => carries_ite steady.maintenanceMode (steady.resume ends carries_pure))
  have switched : Carries P P (u.rollbackSwitch server host migrated) :=
    (carries_change back).bind fun _ => (carries_onlyIf (steady.postRestore.bind fun _ => steady.step)).bind
      fun _ => carries_ite steady.maintenanceMode started
  exact steady.stage steady.configured fun _ => carries_ite steady.maintenanceMode
    ((carries_onlyIf ((steady.ask rfl).bind fun _ => steady.step)).bind fun _ =>
      carries_ite steady.maintenanceMode switched)

theorem carries_run (stays : ∀ w, P w → Q w) (switches : ∀ migrated, Carries P Q (u.switch server host migrated)) :
    Carries P Q (u.run server host) := by
  have aborted : ∀ running, Carries P Q (u.abort server host running) := fun _ => (carries_abort steady ends).mono stays
  have upgraded : Carries P Q (u.upgrade server host) := steady.stage (steady.ask rfl) fun _ =>
    carries_ite ((carries_rollback steady ends back).mono stays) (switches true)
  have migrated : Carries P Q (u.migrate server host) :=
    steady.stage (steady.ask rfl) fun _ => carries_ite (aborted _)
      (steady.stage (steady.ask rfl) fun _ => carries_ite (aborted _)
        ((carries_change fun w held => steady.notes w _ held).bind fun _ => upgraded))
  have stopped : Carries P Q (u.stopAndSwitch server host) :=
    steady.stage (carries_ite (steady.ask rfl) steady.configured) fun _ => carries_ite (aborted _)
      (steady.stage steady.configured fun _ => carries_ite (aborted _) (carries_ite migrated (switches false)))
  exact steady.record.bind fun _ => steady.stage (steady.ask rfl) fun _ =>
    carries_ite (aborted _) (steady.stage (steady.ask rfl) fun _ => carries_ite (aborted _) stopped)

end Carrying

def Unmarked (u : Update) (known : List String) (w : World ε) : Prop :=
  At u.target.version u.current.version known false w ∨ At u.target.version u.target.version known false w

/-- The target is current and was let take up the work after it was marked. -/
def Marked (u : Update) (known : List String) : World ε → Prop :=
  At u.target.version u.target.version (known.filter (· ≠ u.target.version) ++ [u.target.version]) true

theorem carries_update (differs : u.target.version ≠ u.current.version) :
    Carries (u.Unmarked known) (fun w => u.Unmarked known w ∨ u.Marked known w) (u.run server host) := by
  have steady : Steady server (u.Unmarked known) := steady_at.or steady_at
  have ends : ∀ w, u.Unmarked known w →
      u.Unmarked known (w.asking server (.command (.backend u.current .maintenanceEnd))) := fun w unmarked => by
    have same : resumed u.target.version (w.asking server (.command (.backend u.current .maintenanceEnd))).asked =
        resumed u.target.version w.asked := by
      rw [resumed_asking]
      simp [Question.resumes, differs.symm]
    exact unmarked.imp (fun held => ⟨held.1, held.2.1, same.trans held.2.2⟩)
      fun held => ⟨held.1, held.2.1, same.trans held.2.2⟩
  have back : ∀ w : World ε, u.Unmarked known w →
      u.Unmarked known (w.withFiles { w.files with current := some u.current.version }) := fun w unmarked =>
    .inl (unmarked.elim (fun held => ⟨rfl, held.2⟩) fun held => ⟨rfl, held.2⟩)
  refine carries_run steady ends back (fun _ => .inl) fun migrated => ?_
  have installed : Steady server (At u.target.version u.target.version known false) := steady_at
  have resumes : Steady server (u.Marked known) := steady_at
  have rolled : Carries (At u.target.version u.target.version known false)
      (fun w => u.Unmarked known w ∨ u.Marked known w) (u.rollback server host migrated) :=
    fun w held => (carries_rollback steady ends back).mono (fun _ => .inl) w (.inr held)
  have marked : Carries (At u.target.version u.target.version known false) (At u.target.version u.target.version
      (known.filter (· ≠ u.target.version) ++ [u.target.version]) false) (markKnownGood u.target.version : Tool ε Unit) :=
    carries_change fun w held => ⟨held.1, by rw [← held.2.1]; rfl, held.2.2⟩
  have kept : Carries (u.Marked known) (u.Marked known) (do pruneRestorePoints server host; pure ExitCode.ok) :=
    resumes.prune.bind fun _ => carries_pure
  have switched : Carries (u.Unmarked known) (At u.target.version u.target.version known false)
      (switchCurrent u.target.version : Tool ε Unit) :=
    carries_change fun w unmarked => unmarked.elim (fun held => ⟨rfl, held.2⟩) fun held => ⟨rfl, held.2⟩
  exact switched.bind fun _ => installed.stage installed.configured fun _ => carries_ite rolled
    (installed.healthy.bind fun _ => carries_ite rolled (marked.bind fun _ => (resumes.resume (fun w held =>
      ⟨held.1, held.2.1, by rw [resumed_asking]; simp [Question.resumes]⟩) kept).mono fun _ => .inr))

end Update

end Updates

section Rollbacks

variable {r : Rollback} {known : List String}

def Rollback.Between (r : Rollback) (known : List String) (w : World ε) : Prop :=
  (w.files.current = some r.current.version ∨ w.files.current = some r.target.version) ∧ w.files.knownGood = known

theorem steady_between : Steady server (r.Between known : World ε → Prop) where
  asks _ _ _ held := held
  notes _ _ held := held

theorem Rollback.carries_run : Carries (r.Between known) (r.Between known) (r.run server host) := by
  have steady : Steady server (r.Between known) := steady_between
  have aborted : ∀ ends, Carries (r.Between known) (r.Between known) (r.abort server host ends) := fun ends =>
    carries_ite (steady.resume (fun _ held => held) carries_pure) (steady.record.bind fun _ => carries_pure)
  have switched : Carries (r.Between known) (r.Between known) (switchCurrent r.target.version : Tool ε Unit) :=
    carries_change fun w held => ⟨.inr rfl, held.2⟩
  have kept : Carries (r.Between known) (r.Between known) (do pruneRestorePoints server host; pure ExitCode.ok) :=
    steady.prune.bind fun _ => carries_pure
  have ended : Carries (r.Between known) (r.Between known) (r.switch server host) :=
    switched.bind fun _ => (carries_onlyIf (steady.postRestore.bind fun _ => steady.step)).bind fun _ =>
      carries_ite steady.maintenanceMode (steady.stage steady.configured fun _ => carries_ite steady.maintenanceMode
        (steady.healthy.bind fun _ => carries_ite steady.maintenanceMode
          (steady.resume (fun _ held => held) kept)))
  have restored : Carries (r.Between known) (r.Between known) (r.restore server host) :=
    steady.stage steady.configured fun _ => carries_ite steady.maintenanceMode
      ((carries_onlyIf ((steady.ask rfl).bind fun _ => steady.step)).bind fun _ =>
        carries_ite steady.maintenanceMode ended)
  have stopped : ∀ began, Carries (r.Between known) (r.Between known) (r.stopAndSwitch server host began) :=
    fun began => steady.stage (steady.ask rfl) fun _ => carries_ite (aborted _) restored
  exact steady.record.bind fun _ => (carries_onlyIf ((steady.ask rfl).bind fun _ => steady.step)).bind fun _ =>
    carries_ite (aborted _) (stopped _)

end Rollbacks

/-! ### What a run does -/

/-- What a run makes of the files, and what it adds to the log. -/
inductive Moves (files : Files) (invocation : Invocation) (files' : Files) : List Use → Prop
  | stays (current : files'.current = files.current) (known : files'.knownGood = files.knownGood) :
    Moves files invocation files' []
  | passes {version : String} (installs : invocation.installs = some version) (current : files'.current = some version)
    (known : files'.knownGood = files.knownGood.filter (· ≠ version) ++ [version]) :
    Moves files invocation files' [⟨version, .passed, files.current⟩]
  | fails {version : String} (installs : invocation.installs = some version) (current : files'.current = some version)
    (known : files'.knownGood = files.knownGood) : Moves files invocation files' [⟨version, .failed, files.current⟩]
  | goesBack {version point : Option String} {before target : String} (rolls : invocation = .rollback version point)
    (isCurrent : files.current = some before) (isTarget : rollbackTarget files.knownGood before version = some target)
    (known : target ∈ files.knownGood) (current : files'.current = some target) (same : files'.knownGood = files.knownGood) :
    Moves files invocation files' [⟨target, .rolledBack, files.current⟩]

theorem Question.Reads.resumes {question : Question} (reads : question.Reads) : question.resumes = none := by
  cases question with
  | command command =>
    cases command with
    | backend => exact reads.elim
    | configured => rfl
  | unchanged | freeBytes | precheck | status | rounds | stamp | now | restorePoint | restorePoints | deletePoint => rfl

theorem resumed_of_reads {version : String} {asked : List (Asked ε)} (reads : ∀ a ∈ asked, a.question.Reads) :
    resumed version asked = false :=
  any_eq_false.mpr fun a mem resumes => by
    rw [(reads a mem).resumes] at resumes
    simp at resumes

variable {s : Installation ε} {invocation : Invocation} {code : ExitCode}

def Ends (s : Installation ε) (invocation : Invocation) (code : ExitCode) (w : World ε) : Prop :=
  Moves s.files invocation w.files (s.uses invocation code w)

theorem ends_stay (notPassed : invocation.passes code w.asked = false) (current : w.files.current = s.files.current)
    (known : w.files.knownGood = s.files.knownGood) : Ends s invocation code w := by
  have nothing : s.uses invocation code w = [] := by
    unfold Installation.uses
    split
    · rfl
    · rw [notPassed, if_neg Bool.false_ne_true, if_pos current]
  unfold Ends
  rw [nothing]
  exact .stays current known

theorem ends_pass {version : String} (installs : invocation.installs = some version)
    (passed : invocation.passes code w.asked = true) (current : w.files.current = some version)
    (known : w.files.knownGood = s.files.knownGood.filter (· ≠ version) ++ [version]) : Ends s invocation code w := by
  have use : s.uses invocation code w = [⟨version, .passed, s.files.current⟩] := by
    simp [Installation.uses, current, passed]
  unfold Ends
  rw [use]
  exact .passes installs current known

theorem ends_fail {version : String} (installs : invocation.installs = some version)
    (notPassed : invocation.passes code w.asked = false) (current : w.files.current = some version)
    (known : w.files.knownGood = s.files.knownGood) : Ends s invocation code w := by
  by_cases same : w.files.current = s.files.current
  · exact ends_stay notPassed same known
  have use : s.uses invocation code w = [⟨version, .failed, s.files.current⟩] := by
    rw [current] at same
    simp [Installation.uses, current, notPassed, installs, same]
  unfold Ends
  rw [use]
  exact .fails installs current known

theorem Refuses.ends (refuses : Refuses s.files code w) : Ends s invocation code w := by
  refine ends_stay ?_ (congrArg Files.current refuses.2.1) (congrArg Files.knownGood refuses.2.1)
  cases invocation with
  | install => exact decide_eq_false (by rw [refuses.1]; decide)
  | update => exact resumed_of_reads refuses.2.2
  | rollback | endMaintenance | prune => rfl

theorem ends_install {version : String} : Ensures (install server host version) (Ends s (.install version))
    (fun error w' => Ends s (.install version) error.code w') ⟨s.files, s.server, []⟩ := by
  refine ensures_bind.mpr (ensures_readFiles.mpr (ensures_bind.mpr (ensures_refuseIf (fun _ => ?_)
    fun _ => (refuses_of_asks (.refl _ : Asks server _ _ _) rfl).ends)))
  refine Ensures.bindRaising ensures_loadRelease (fun _ _ ⟨asks, isCode⟩ =>
    (refuses_of_asks asks isCode).ends) fun target w₁ ⟨asks, _⟩ => ?_
  have current : w₁.files.current = s.files.current := congrArg Files.current asks.files
  have known : w₁.files.knownGood = s.files.knownGood := congrArg Files.knownGood asks.files
  refine ensures_bind.mpr (ensures_changeFiles.mpr (ensures_bind.mpr (ensures_ask.mpr ?_)))
  split_ifs with failed
  · exact ensures_pure.mpr (ends_stay rfl current known)
  have steady : Steady server fun w : World ε =>
      w.files.current = some version ∧ w.files.knownGood = s.files.knownGood := ⟨fun _ _ _ held => held, fun _ _ held => held⟩
  refine ensures_bind.mpr (ensures_changeFiles.mpr (steady.configured.then ⟨rfl, known⟩ fun started w₂ held => ?_))
  refine (carries_ite steady.healthy carries_pure).then held fun healthy w₃ held => ?_
  cases healthy with
  | false => exact ensures_pure.mpr (ends_fail rfl rfl held.1 held.2)
  | true =>
    refine ensures_bind.mpr (ensures_changeFiles.mpr (ensures_bind.mpr (ensures_changeFiles.mpr (ensures_pure.mpr ?_))))
    refine ends_pass rfl rfl held.1 ?_
    rw [← held.2]
    rfl

theorem ends_update {version : String} {stopNow : Bool} : Ensures (update server host version stopNow)
    (Ends s (.update version stopNow)) (fun error w' => Ends s (.update version stopNow) error.code w')
    ⟨s.files, s.server, []⟩ := by
  refine ensures_update_of (fun w' asks => ⟨(refuses_of_asks asks rfl).ends, fun _ isCode =>
    (refuses_of_asks asks isCode).ends⟩) fun u w' asks ok _ planned _ => ?_
  have before : u.current.version = u.plan.current := Host.version_of_release planned.currentBuilt
  have named : u.target.version = version := Host.version_of_release planned.targetBuilt
  have isCurrent : s.files.current = some u.current.version := before ▸ planned.isCurrent
  have reads := (refuses_of_asks asks (Eq.refl ExitCode.refused)).2.2
  refine (Update.carries_update (before ▸ (planned.passed ok).2) _ (.inl ⟨?_, congrArg Files.knownGood asks.files,
    resumed_of_reads reads⟩)).mono (fun code w' held => ?_) fun _ _ wrong => wrong.elim
  · rw [asks.files]
    exact isCurrent
  · rcases held with (⟨isBefore, known, none⟩ | ⟨isTarget, known, none⟩) | ⟨isTarget, known, some⟩
    · exact ends_stay (named ▸ none) (isBefore.trans isCurrent.symm) known
    · exact ends_fail rfl (named ▸ none) (named ▸ isTarget) known
    · exact ends_pass rfl (named ▸ some) (named ▸ isTarget) (named ▸ known)

theorem ends_rollback {version point : Option String} : Ensures (rollback server host version point)
    (Ends s (.rollback version point)) (fun error w' => Ends s (.rollback version point) error.code w')
    ⟨s.files, s.server, []⟩ := by
  refine ensures_rollback_of (fun _ _ asks isCode => (refuses_of_asks asks isCode).ends)
    fun r before name w' isCurrent isName known other isBefore isTarget _ asks _ => ?_
  refine (Rollback.carries_run w' ⟨.inl ?_, congrArg Files.knownGood asks.files⟩).mono (fun code w' held => ?_)
    fun _ _ wrong => wrong.elim
  · rw [asks.files, isBefore]
    exact isCurrent
  · obtain ⟨isBack | isThere, known'⟩ := held
    · exact ends_stay rfl (isBack.trans (isBefore ▸ isCurrent.symm)) known'
    · have current : w'.files.current = some name := isTarget ▸ isThere
      have use : s.uses (.rollback version point) code w' = [⟨name, .rolledBack, s.files.current⟩] := by
        simp [Installation.uses, current, Invocation.passes, Invocation.installs, isCurrent, other]
      unfold Ends
      rw [use]
      exact .goesBack rfl isCurrent isName known current known'

theorem moves_of_run (s : Installation ε) (e : Host × Invocation) :
    Moves s.files e.2 (s.ran server e).2.files (s.uses e.2 (exitCode (s.ran server e).1) (s.ran server e).2) := by
  obtain ⟨host, invocation⟩ := e
  show Ends s invocation (exitCode (s.ran server (host, invocation)).1) (s.ran server (host, invocation)).2
  cases invocation with
  | install version => exact ran_spec ends_install
  | update version stopNow => exact ran_spec ends_update
  | rollback version point => exact ran_spec ends_rollback
  | endMaintenance =>
    refine ran_spec (leaves_endMaintenance.mono (fun code w' held => ?_) fun _ _ refuses => refuses.ends)
    rcases held.2 with ⟨-, files, -⟩ | ⟨-, files, -⟩
    · exact ends_stay rfl (by rw [files]) (by rw [files])
    · exact ends_stay rfl (congrArg Files.current files) (congrArg Files.knownGood files)
  | prune =>
    refine ran_spec (leaves_prune.mono (fun code w' held => ?_) fun _ _ wrong => wrong.elim)
    exact ends_stay rfl (congrArg Files.current held.2.1) (congrArg Files.knownGood held.2.1)

/-! ### What the log says of the list -/

section Logs

variable {log older : List Use} {use : Use} {files files' : Files} {uses : List Use} {earlier later before target : String}

theorem left_cons : left (use :: older) earlier = true ↔ ¬(use.how = .passed ∧ use.release = earlier) ∧
    (use.how = .rolledBack ∧ use.leaving = some earlier ∨ left older earlier = true) := by
  show (if use.how = .passed ∧ use.release = earlier then false else _) = true ↔ _
  split_ifs with passed
  · simp [passed]
  · rw [Bool.or_eq_true, decide_eq_true_eq]
    exact (and_iff_right passed).symm

theorem UsedBefore.cons (used : UsedBefore earlier later older) (known : Passed older earlier) :
    UsedBefore earlier later (use :: older) := by
  unfold UsedBefore
  split_ifs
  · obtain ⟨before, isIn, -, named⟩ := known
    exact ⟨before, isIn, named⟩
  · exact used

theorem usedBefore_new (installed : use.how ≠ .rolledBack) (known : Passed older earlier) :
    UsedBefore earlier use.release (use :: older) := by
  unfold UsedBefore
  rw [if_pos ⟨rfl, installed⟩]
  obtain ⟨before, isIn, -, named⟩ := known
  exact ⟨before, isIn, named⟩

/-- The list is in the order in which its releases last became known-good, and a current release that is not in it was
installed after them. -/
structure Ordered (files : Files) (log : List Use) : Prop where
  passed : ∀ release ∈ files.knownGood, Passed log release
  order : files.knownGood.Pairwise fun earlier later => UsedBefore earlier later log
  unknown : ∀ current, files.current = some current → current ∉ files.knownGood →
    ∀ release ∈ files.knownGood, UsedBefore release current log

theorem Passed.append (passed : Passed older earlier) : Passed (uses ++ older) earlier := by
  obtain ⟨use, isIn, holds⟩ := passed
  exact ⟨use, mem_append_right _ isIn, holds⟩

theorem Ordered.moved (ordered : Ordered files log) (moves : Moves files invocation files' uses) :
    Ordered files' (uses ++ log) := by
  have kept : ∀ {use : Use}, files.knownGood.Pairwise fun earlier later => UsedBefore earlier later (use :: log) :=
    ordered.order.imp_of_mem fun isEarlier _ used => used.cons (ordered.passed _ isEarlier)
  cases moves with
  | stays current known =>
    refine ⟨known ▸ ordered.passed, known ▸ ordered.order, ?_⟩
    rw [current, known]
    exact ordered.unknown
  | @passes version installs current known =>
    refine ⟨fun release isIn => ?_, ?_, fun other isCurrent notIn => ?_⟩
    · rw [known, mem_append, mem_filter, mem_singleton] at isIn
      rcases isIn with old | rfl
      · exact (ordered.passed release old.1).append
      · exact ⟨_, .head _, rfl, rfl⟩
    · rw [known, pairwise_append]
      refine ⟨kept.sublist filter_sublist, pairwise_singleton _ _, fun earlier isEarlier later isLater => ?_⟩
      cases mem_singleton.mp isLater
      exact usedBefore_new (by simp) (ordered.passed earlier (mem_filter.mp isEarlier).1)
    · cases Option.some.inj (current.symm.trans isCurrent)
      rw [known] at notIn
      exact absurd (mem_append_right _ (mem_singleton_self _)) notIn
  | fails installs current known =>
    refine ⟨fun release isIn => (ordered.passed release (known ▸ isIn)).append, known ▸ kept, ?_⟩
    rintro other isCurrent - release isIn
    cases Option.some.inj (current.symm.trans isCurrent)
    exact usedBefore_new (by simp) (ordered.passed release (known ▸ isIn))
  | goesBack rolls isCurrent isTarget isKnown current same =>
    refine ⟨fun release isIn => (ordered.passed release (same ▸ isIn)).append, same ▸ kept, ?_⟩
    intro other isOther notIn
    cases Option.some.inj (current.symm.trans isOther)
    exact absurd (same ▸ isKnown) notIn

/-- What is selected without `--to` stands right before the current release. -/
theorem rollbackTarget_before (isTarget : rollbackTarget files.knownGood before none = some target) :
    ∃ front back, files.knownGood = front ++ target :: back ∧
      (front ++ [target]).length = files.knownGood.idxOf before := by
  have isLast : (files.knownGood.take (files.knownGood.idxOf before)).getLast? = some target := by
    unfold rollbackTarget at isTarget
    dsimp only at isTarget
    split_ifs at isTarget with known
    · exact isTarget
    · rwa [idxOf_of_notMem known, take_length]
  obtain ⟨front, isFront⟩ := getLast?_eq_some_iff.mp isLast
  refine ⟨front, files.knownGood.drop (files.knownGood.idxOf before), ?_, ?_⟩
  · conv_lhs => rw [← take_append_drop (files.knownGood.idxOf before) files.knownGood, isFront]
    simp
  · rw [← isFront, length_take, Nat.min_eq_left idxOf_le_length]

theorem idxOf_target (isTarget : rollbackTarget files.knownGood before none = some target) :
    target ∈ files.knownGood ∧ files.knownGood.idxOf target < files.knownGood.idxOf before := by
  obtain ⟨front, back, split, length⟩ := rollbackTarget_before isTarget
  have isIn : target ∈ front ++ [target] := mem_append_right _ (mem_singleton_self _)
  have known : files.knownGood = (front ++ [target]) ++ back := by rw [split]; simp
  refine ⟨known ▸ mem_append_left _ isIn, ?_⟩
  rw [← length, known, idxOf_append_of_mem isIn]
  exact idxOf_lt_length_of_mem isIn

theorem Ordered.usedBefore (ordered : Ordered files log) (isCurrent : files.current = some before)
    (isTarget : rollbackTarget files.knownGood before none = some target) : UsedBefore target before log := by
  by_cases known : before ∈ files.knownGood
  · obtain ⟨front, back, split, length⟩ := rollbackTarget_before isTarget
    have order := ordered.order
    have isIn : before ∈ back := by
      have bound := idxOf_lt_length_of_mem known
      have found : files.knownGood[files.knownGood.idxOf before] = before := getElem_idxOf bound
      have parts : files.knownGood = (front ++ [target]) ++ back := by rw [split]; simp
      rw [getElem_of_eq parts, getElem_append_right (Nat.le_of_eq length)] at found
      exact found ▸ getElem_mem _
    rw [split, pairwise_append] at order
    exact (pairwise_cons.mp order.2.1).1 before isIn
  · exact ordered.unknown before isCurrent known target (idxOf_target isTarget).1

def LeftBehind (files : Files) (log : List Use) : Prop :=
  ∀ current, files.current = some current → ∀ release ∈ files.knownGood, left log release = true →
    files.knownGood.idxOf current ≤ files.knownGood.idxOf release

theorem LeftBehind.moved {invocation : Invocation} (behind : LeftBehind files log)
    (moves : Moves files invocation files' uses)
    (installs : ∀ version, invocation.installs = some version → ∀ release ∈ files.knownGood, left log release = true →
      release = version)
    (back : ∀ version point, invocation = .rollback (some version) point → version ∈ files.knownGood →
      ∀ current, files.current = some current → files.knownGood.idxOf version ≤ files.knownGood.idxOf current) :
    LeftBehind files' (uses ++ log) := by
  intro current isCurrent release isIn isLeft
  cases moves with
  | stays same known =>
    rw [same] at isCurrent
    rw [known] at isIn ⊢
    exact behind current isCurrent release isIn isLeft
  | @passes version isInstall now known =>
    obtain ⟨notNew, wrong | isLeft⟩ := left_cons.mp isLeft
    · cases wrong.1
    · have other : release ≠ version := fun same => notNew ⟨rfl, same.symm⟩
      rw [known, mem_append, mem_singleton, or_iff_left other, mem_filter] at isIn
      exact absurd (installs version isInstall release isIn.1 isLeft) other
  | fails isInstall now known =>
    obtain ⟨-, wrong | isLeft⟩ := left_cons.mp isLeft
    · cases wrong.1
    · apply Nat.le_of_eq
      rw [installs _ isInstall release (known ▸ isIn) isLeft, ← Option.some.inj (now.symm.trans isCurrent)]
  | @goesBack version point before target rolls isBefore isTarget known now same =>
    cases Option.some.inj (now.symm.trans isCurrent)
    rw [same] at isIn ⊢
    have earlier : files.knownGood.idxOf current ≤ files.knownGood.idxOf before := by
      cases version with
      | none => exact Nat.le_of_lt (idxOf_target isTarget).2
      | some version =>
        cases Option.some.inj isTarget
        exact back _ point rolls known before isBefore
    obtain ⟨-, new | old⟩ := left_cons.mp isLeft
    · rw [isBefore] at new
      exact Option.some.inj new.2 ▸ earlier
    · exact Nat.le_trans earlier (behind before isBefore release isIn old)

end Logs

/-! ### The result -/

theorem ordered_of_reachable {t : Traced ε} (reach : (usage server).Reachable t) : Ordered t.now.files t.log := by
  refine reach.invariant (P := fun t => Ordered t.now.files t.log) ?_ fun t e t' _ ordered taken => ?_
  · rintro ⟨s, log⟩ ⟨⟨bare, -, -⟩, rfl⟩
    change s.files = _ at bare
    refine ⟨?_, ?_, ?_⟩
    · simp [bare]
    · simp [bare]
    · simp [bare]
  · cases taken
    exact ordered.moved (moves_of_run t.now e)

theorem leftBehind_of_reachable {t : Traced ε} (reach : (usage server).ReachableBy Backwards t) :
    LeftBehind t.now.files t.log := by
  refine reach.invariant (P := fun t => LeftBehind t.now.files t.log) ?_ fun t e t' _ behind fits taken => ?_
  · rintro ⟨s, log⟩ ⟨-, rfl⟩ current - release - isLeft
    cases isLeft
  · cases taken
    obtain ⟨host, invocation⟩ := e
    refine behind.moved (moves_of_run t.now (host, invocation)) (fun version installs => ?_) fun version point rolls => ?_
    · cases invocation with
      | install | update =>
        cases Option.some.inj installs
        exact fits
      | rollback | endMaintenance | prune => cases installs
    · cases rolls
      exact fits

/-- The runs of rollbacks without `--to` go down the list. -/
theorem goesDown_of_run {t t' : Traced ε} {events : List (Host × Invocation)} {current : String}
    (rolls : ∀ e ∈ events, ∃ point, e.2 = .rollback none point) (ran : (usage server).run t events = some t')
    (isCurrent : t.now.files.current = some current) :
    ∃ back, t'.log = back ++ t.log ∧ t'.now.files.knownGood = t.now.files.knownGood ∧
      (back.map (fun use => t.now.files.knownGood.idxOf use.release) ++ [t.now.files.knownGood.idxOf current]).Pairwise
        (· < ·) := by
  induction events generalizing t current with
  | nil =>
    cases ran
    exact ⟨[], rfl, rfl, pairwise_singleton _ _⟩
  | cons e events ih =>
    obtain ⟨⟨point, isRollback⟩, rest⟩ := forall_mem_cons.mp rolls
    have moves : Moves t.now.files e.2 (t.after server e).now.files
        (t.now.uses e.2 (exitCode (t.now.ran server e).1) (t.now.ran server e).2) := moves_of_run t.now e
    have added : (t.after server e).log = t.now.uses e.2 (exitCode (t.now.ran server e).1) (t.now.ran server e).2 ++ t.log :=
      rfl
    generalize t.now.uses e.2 (exitCode (t.now.ran server e).1) (t.now.ran server e).2 = uses at moves added
    have ran : (usage server).run (t.after server e) events = some t' := ran
    cases moves with
    | stays same known =>
      obtain ⟨back, isBack, known', order⟩ := ih rest ran (same.trans isCurrent)
      exact ⟨back, isBack.trans (congrArg _ added), known'.trans known, known ▸ order⟩
    | passes installs | fails installs =>
      rw [isRollback] at installs
      cases installs
    | @goesBack version _ before target isRolls isBefore isTarget isKnown now known =>
      cases isRollback.symm.trans isRolls
      cases Option.some.inj (isBefore.symm.trans isCurrent)
      obtain ⟨back, isBack, known', order⟩ := ih rest ran now
      refine ⟨back ++ [⟨target, .rolledBack, t.now.files.current⟩], ?_, known'.trans known, ?_⟩
      · rw [isBack, added, append_assoc]
      · rw [known] at order
        have last := (idxOf_target isTarget).2
        rw [map_append, map_singleton]
        refine pairwise_append.mpr ⟨order, pairwise_singleton _ _, fun index isIn other isOther => ?_⟩
        cases mem_singleton.mp isOther
        rcases mem_append.mp isIn with isIn | isIn
        · exact Nat.lt_trans ((pairwise_append.mp order).2.2 index isIn _ (mem_singleton_self _)) last
        · exact mem_singleton.mp isIn ▸ last

theorem length_le_of_increasing {indices : List ℕ} {last : ℕ} (order : (indices ++ [last]).Pairwise (· < ·)) :
    indices.length ≤ last := by
  have below : indices ⊆ List.range last := fun index isIn =>
    mem_range.mpr ((pairwise_append.mp order).2.2 index isIn last (mem_singleton_self _))
  have nodup : indices.Nodup := ((pairwise_append.mp order).1).imp Nat.ne_of_lt
  simpa using (subperm_of_subset nodup below).length_le

/-- **Rollbacks go back.** A rollback without `--to` selects a known-good release other than the current one that was in
use before the current one was installed and that no rollback left; it changes nothing or makes it current; and repeated
ones go strictly down `known_good`. -/
theorem rollback_goes_back (server : Server ε) :
    (∀ t, (usage server).ReachableBy Backwards t → ∀ current, t.now.files.current = some current →
      ∀ target, rollbackTarget t.now.files.knownGood current none = some target →
        target ∈ t.now.files.knownGood ∧ Passed t.log target ∧ target ≠ current ∧ UsedBefore target current t.log ∧
          left t.log target = false) ∧
    (∀ (t : Traced ε) host point, let t' := t.after server (host, .rollback none point)
      t'.log = t.log ∧ t'.now.files.current = t.now.files.current ∨
        ∃ current target, t.now.files.current = some current ∧
          rollbackTarget t.now.files.knownGood current none = some target ∧
          t'.log = ⟨target, .rolledBack, some current⟩ :: t.log ∧ t'.now.files.current = some target) ∧
    ∀ t t' events current, (∀ e ∈ events, ∃ point, e.2 = .rollback none point) →
      (usage server).run t events = some t' → t.now.files.current = some current →
        ∃ back, t'.log = back ++ t.log ∧ back.length ≤ t.now.files.knownGood.idxOf current ∧
          (back.map (fun use => t.now.files.knownGood.idxOf use.release) ++
            [t.now.files.knownGood.idxOf current]).Pairwise (· < ·) := by
  refine ⟨fun t reach current isCurrent target isTarget => ?_, fun t host point => ?_,
    fun t t' events current rolls ran isCurrent => ?_⟩
  · have ordered := ordered_of_reachable reach.reachable
    obtain ⟨known, before⟩ := idxOf_target isTarget
    refine ⟨known, ordered.passed target known, fun same => ?_, ordered.usedBefore isCurrent isTarget, ?_⟩
    · exact absurd before (by rw [same]; exact Nat.lt_irrefl _)
    · refine Bool.eq_false_iff.mpr fun isLeft => ?_
      exact absurd before (Nat.not_lt.mpr (leftBehind_of_reachable reach current isCurrent target known isLeft))
  · have moves := @moves_of_run _ server t.now (host, .rollback none point)
    have added : (t.after server (host, .rollback none point)).log = _ ++ t.log := rfl
    generalize t.now.uses _ _ _ = uses at moves added
    cases moves with
    | stays same known => exact .inl ⟨added, same⟩
    | passes installs | fails installs => cases installs
    | @goesBack version _ before target isRolls isBefore isTarget isKnown now known =>
      cases isRolls
      exact .inr ⟨before, target, isBefore, isTarget, added.trans (by rw [isBefore]; rfl), now⟩
  · obtain ⟨back, isBack, -, order⟩ := goesDown_of_run rolls ran isCurrent
    exact ⟨back, isBack, by simpa using length_le_of_increasing order, order⟩

/-! ### A release that was left -/

def threeReleases : Host := { patchedHost with built := [firstRelease, patchRelease, { firstRelease with version := "v3" }] }

/-- Nothing is installed, and nothing was. -/
def untouched : Traced SampleDb := ⟨⟨⟨none, [], none⟩, atFirst, false, []⟩, []⟩

def Traced.next (t : Traced SampleDb) (invocation : Invocation) : Traced SampleDb :=
  t.after willing (threeReleases, invocation)

def updated : Traced SampleDb := (untouched.next (.install "v1")).next (.update "v2" false)

/-- It was left by a rollback, and the third release installed. -/
def fixed : Traced SampleDb := (updated.next (.rollback none none)).next (.update "v3" false)

theorem updated_reachable : (usage willing).ReachableBy Backwards updated :=
  .next (.next (.start ⟨⟨rfl, rfl, rfl⟩, rfl⟩) (e := (threeReleases, .install "v1"))
    (fun _ isIn => absurd isIn not_mem_nil) rfl) (e := (threeReleases, .update "v2" false))
    (show ∀ release ∈ (untouched.next (.install "v1")).now.files.knownGood,
      left (untouched.next (.install "v1")).log release = true → release = "v2" by decide) rfl

theorem rollback_goes_back_sample :
    rollbackTarget updated.now.files.knownGood "v2" none = some "v1" ∧ left updated.log "v1" = false := by
  have isCurrent : updated.now.files.current = some "v2" := by decide
  have isTarget : rollbackTarget updated.now.files.knownGood "v2" none = some "v1" := by decide
  exact ⟨isTarget, ((rollback_goes_back willing).1 updated updated_reachable "v2" isCurrent "v1" isTarget).2.2.2.2⟩

theorem rollback_to_left :
    (usage willing).Reachable fixed ∧ fixed.now.files.current = some "v3" ∧
      rollbackTarget fixed.now.files.knownGood "v3" none = some "v2" ∧ left fixed.log "v2" = true :=
  ⟨.next (.next (updated_reachable).reachable (e := (threeReleases, .rollback none none)) rfl)
    (e := (threeReleases, .update "v3" false)) rfl, by decide +kernel, by decide +kernel, by decide +kernel⟩

end PawBackend.Deploy
