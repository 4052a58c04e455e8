/-
**What a run of the tool has asked, and what its steps end in.**

`Asks` is the way from one world to another by questions of one kind; what each such question keeps, they all keep
(`Asks.keeps`).
-/

import PawBackend.Deploy.Tool
import PawBackend.Lib.Places

namespace PawBackend.Deploy

open Lib List

variable {ε α : Type}

/-! ### Kinds of questions -/

namespace Question

def upgraded : Question → Option Release
  | .command (.backend release .upgradeHead) => some release
  | _ => none

def started : Question → Option Release
  | .command (.configured .start _ release _) => release
  | _ => none

def stops : Question → Bool
  | .command (.configured .stop _ _ _) => true
  | _ => false

def maintenance : Question → Option Bool
  | .command (.backend _ (.maintenanceBegin _ _)) => some true
  | .command (.backend _ .maintenanceEnd) => some false
  | _ => none

def changesSchema : Question → Bool
  | .command (.backend _ .upgradeHead) => true
  | .command (.backend _ (.restorePointRestore _)) => true
  | _ => false

def changesPoints : Question → Bool
  | .command (.backend _ (.restorePointCreate _)) => true
  | .deletePoint _ => true
  | _ => false

def deleted : Question → Option String
  | .deletePoint label => some label
  | _ => none

def Quiet (question : Question) : Prop :=
  question.upgraded = none ∧ question.started = none ∧ question.stops = false ∧ question.maintenance = none ∧
    question.changesSchema = false ∧ question.changesPoints = false ∧ question.deleted = none

def Reads : Question → Prop
  | .command (.configured .precheck _ _ _) => True
  | .command _ => False
  | .deletePoint _ => False
  | _ => True

theorem Reads.quiet {question : Question} (reads : question.Reads) : question.Quiet := by
  unfold Reads at reads
  split at reads
  · exact ⟨rfl, rfl, rfl, rfl, rfl, rfl, rfl⟩
  · exact reads.elim
  · exact reads.elim
  · rename_i notCheck notCommand notDelete
    cases question with
    | command of => exact absurd rfl (notCommand of)
    | deletePoint label => exact absurd rfl (notDelete label)
    | unchanged | freeBytes | precheck | status | rounds | stamp | now | restorePoint | restorePoints =>
      exact ⟨rfl, rfl, rfl, rfl, rfl, rfl, rfl⟩

end Question

/-! ### What was asked -/

def Asked.ok (asked : Asked ε) : Bool :=
  match asked with
  | ⟨_, .command _, code⟩ => code = 0
  | _ => false

def Succeeded (asked : List (Asked ε)) (command : Command) : Prop :=
  ∃ a ∈ asked, a.question = .command command ∧ a.ok = true

def HealthyAt (host : Host) (asked : List (Asked ε)) (release : Release) (revision : Option String) : Prop :=
  ∃ before server status after, asked = before ++ ⟨server, .status release, some status⟩ :: after ∧
    status.schemaRevision = revision ∧ ∀ command ∈ host.commandsOf .health (some release) "", Succeeded after command

def rowAfter (row : Bool) (a : Asked ε) : Bool := if a.ok then a.question.maintenance.getD row else row

def maintenanceRow (row : Bool) (asked : List (Asked ε)) : Bool := asked.foldl rowAfter row

variable {server : Server ε} {host : Host} {w w' w'' : World ε} {past more : List (Asked ε)} {command : Command}
  {release : Release} {revision : Option String} {row : Bool}

theorem Succeeded.append (succeeded : Succeeded past command) : Succeeded (past ++ more) command := by
  obtain ⟨a, mem, same, ok⟩ := succeeded
  exact ⟨a, mem_append_left _ mem, same, ok⟩

theorem HealthyAt.append (healthy : HealthyAt host past release revision) :
    HealthyAt host (past ++ more) release revision := by
  obtain ⟨before, s, status, after, rfl, same, all⟩ := healthy
  exact ⟨before, s, status, after ++ more, by rw [append_assoc, cons_append], same,
    fun command mem => (all command mem).append⟩

theorem maintenanceRow_append :
    maintenanceRow row (past ++ more) = maintenanceRow (maintenanceRow row past) more :=
  foldl_append

theorem maintenanceRow_ended {a : Asked ε} (ok : a.ok = true) (ends : a.question.maintenance = some false) :
    maintenanceRow row (past ++ [a]) = false := by
  rw [maintenanceRow_append]
  show rowAfter _ a = false
  unfold rowAfter
  rw [if_pos ok, ends]
  rfl

theorem rowAfter_of_none {a : Asked ε} (none : a.question.maintenance = none) : rowAfter row a = row := by
  unfold rowAfter
  rw [none]
  exact ite_self _

theorem maintenanceRow_of_none (none : ∀ a ∈ more, a.question.maintenance = none) : maintenanceRow row more = row := by
  induction more with
  | nil => rfl
  | cons a rest ih =>
    show maintenanceRow (rowAfter row a) rest = row
    rw [rowAfter_of_none (none a (.head _)), ih fun b mem => none b (.tail _ mem)]

/-! ### Ways through questions -/

def World.staged (w : World ε) (stage : String) : World ε :=
  w.withFiles { w.files with inProgress := some { w.files.inProgress.getD .empty with stage := some stage } }

theorem succeeded_asking {of : Command} (done : (server.reply w.server (.command of)).1 = (0 : ℤ)) :
    Succeeded (w.asking server (.command of)).asked of :=
  ⟨_, mem_append_right _ (mem_singleton_self _), rfl, decide_eq_true done⟩

inductive Asks (server : Server ε) (fits : Question → Prop) : World ε → World ε → Prop
  | refl (w : World ε) : Asks server fits w w
  | ask {w w' : World ε} {question : Question} (kind : fits question)
      (rest : Asks server fits (w.asking server question) w') : Asks server fits w w'

variable {fits fits' : Question → Prop}

theorem Asks.one {question : Question} (kind : fits question) : Asks server fits w (w.asking server question) :=
  .ask kind (.refl _)

theorem Asks.trans (first : Asks server fits w w') (second : Asks server fits w' w'') : Asks server fits w w'' := by
  induction first with
  | refl w => exact second
  | ask kind rest ih => exact .ask kind (ih second)

theorem Asks.mono (asks : Asks server fits w w') (weaker : ∀ question, fits question → fits' question) :
    Asks server fits' w w' := by
  induction asks with
  | refl w => exact .refl w
  | ask kind rest ih => exact .ask (weaker _ kind) ih

theorem Asks.keeps {P : World ε → Prop} (asks : Asks server fits w w')
    (keep : ∀ w question, fits question → P w → P (w.asking server question)) (holds : P w) : P w' := by
  induction asks with
  | refl w => exact holds
  | ask kind rest ih => exact ih (keep _ _ kind holds)

theorem Asks.quiet (asks : Asks server Question.Reads w w') : Asks server Question.Quiet w w' :=
  asks.mono fun _ => Question.Reads.quiet

theorem Asks.files (asks : Asks server fits w w') : w'.files = w.files :=
  asks.keeps (P := fun other => other.files = w.files) (fun _ _ _ same => same) rfl

theorem Asks.asked (asks : Asks server fits w w') :
    ∃ more, w'.asked = w.asked ++ more ∧ ∀ a ∈ more, fits a.question := by
  induction asks with
  | refl w => exact ⟨[], (append_nil _).symm, fun a mem => absurd mem not_mem_nil⟩
  | @ask w w' question kind rest ih =>
    obtain ⟨more, isMore, all⟩ := ih
    refine ⟨_ :: more, isMore.trans (append_assoc _ _ _), fun a mem => ?_⟩
    rcases mem_cons.mp mem with rfl | mem
    · exact kind
    · exact all a mem

/-! ### What the steps end in -/

variable {returned : α → World ε → Prop} {raised : ReleaseError → World ε → Prop}

theorem ensures_ask {question : Question} {returned : question.Answer → World ε → Prop} :
    Ensures (ask server question) returned raised w ↔
      returned (server.reply w.server question).1 (w.asking server question) :=
  Iff.rfl

theorem ensures_readFiles {returned : Files → World ε → Prop} :
    Ensures readFiles returned raised w ↔ returned w.files w :=
  Iff.rfl

theorem ensures_changeFiles {change : Files → Files} {returned : Unit → World ε → Prop} :
    Ensures (changeFiles change) returned raised w ↔ returned () (w.withFiles (change w.files)) :=
  Iff.rfl

variable {stage message : String} {code : ℤ}

theorem ensures_step {returned : Bool → World ε → Prop} :
    Ensures (step stage code) returned raised w ↔ returned (code = 0) (w.staged stage) :=
  Iff.rfl

theorem ensures_refuseIf {wrong : Bool} {returned : Unit → World ε → Prop}
    (right : wrong = false → returned () w) (refuses : wrong = true → raised (refusal message) w) :
    Ensures (refuseIf wrong message) returned raised w := by
  cases wrong with
  | false => exact right rfl
  | true => exact refuses rfl

theorem ensures_onlyIf {condition : Bool} {x : Tool ε Bool} {returned : Bool → World ε → Prop}
    (runs : condition = true → Ensures x returned raised w) (skipped : condition = false → returned true w) :
    Ensures (onlyIf condition x) returned raised w := by
  cases condition with
  | false => exact skipped rfl
  | true => exact runs rfl

theorem ensures_stage {x : Tool ε ℤ} {rest : Bool → Tool ε α} {ended : ℤ → World ε → Prop}
    (ran : Ensures x ended (fun _ _ => False) w)
    (done : ∀ w', ended 0 w' → Ensures (rest true) returned raised (w'.staged stage))
    (failed : ∀ code w', code ≠ 0 → ended code w' → Ensures (rest false) returned raised (w'.staged stage)) :
    Ensures (x >>= fun code => step stage code >>= rest) returned raised w := by
  refine (ran.mono (fun _ _ isEnd => isEnd) fun _ _ wrong => wrong.elim).bind fun code w' isEnd =>
    ensures_bind.mpr (ensures_step.mpr ?_)
  by_cases isZero : code = 0
  · rw [decide_eq_true isZero]
    exact done w' (isZero ▸ isEnd)
  · rw [decide_eq_false isZero]
    exact failed code w' isZero isEnd

theorem ensures_onlyStage {x : Tool ε ℤ} {condition : Bool} {rest : Bool → Tool ε α}
    {ended : ℤ → World ε → Prop} (ran : condition = true → Ensures x ended (fun _ _ => False) w)
    (done : condition = true → ∀ w', ended 0 w' → Ensures (rest true) returned raised (w'.staged stage))
    (failed : condition = true → ∀ code w', code ≠ 0 → ended code w' →
      Ensures (rest false) returned raised (w'.staged stage))
    (skipped : condition = false → Ensures (rest true) returned raised w) :
    Ensures (onlyIf condition (x >>= fun code => step stage code) >>= rest) returned raised w := by
  cases condition with
  | false => exact skipped rfl
  | true =>
    refine ensures_bind.mpr (ensures_bind.mpr (Ensures.mono ?_ (fun _ _ held => ensures_bind.mp held) fun _ _ same => same))
    exact ensures_bind.mp (ensures_stage (ran rfl) (done rfl) (failed rfl))

/-! ### Commands, the health check, restore points -/

/-- What running commands up to the first that fails leaves. -/
structure RanAll (server : Server ε) (commands : List Command) (w : World ε) (code : ℤ) (w' : World ε) : Prop where
  asks : Asks server (fun question => ∃ command ∈ commands, question = .command command) w w'
  succeeded : code = 0 → ∃ more, w'.asked = w.asked ++ more ∧ ∀ command ∈ commands, Succeeded more command
  begun : ∀ command ∈ commands.head?, ∃ a ∈ w'.asked, a.question = .command command

theorem RanAll.all_succeeded {commands : List Command} (ran : RanAll server commands w code w') (isZero : code = 0) :
    ∀ command ∈ commands, Succeeded w'.asked command := by
  obtain ⟨more, isMore, all⟩ := ran.succeeded isZero
  intro command mem
  obtain ⟨a, isIn, same, ok⟩ := all command mem
  exact ⟨a, isMore ▸ mem_append_right _ isIn, same, ok⟩

theorem ensures_firstFailure {commands : List Command} :
    Ensures (firstFailure server commands) (RanAll server commands w) (fun _ _ => False) w := by
  induction commands generalizing w with
  | nil =>
    exact ensures_pure.mpr ⟨.refl w, fun _ => ⟨[], (append_nil _).symm, fun _ => nofun⟩,
      fun _ => nofun⟩
  | cons command rest ih =>
    refine ensures_bind.mpr (ensures_ask.mpr ?_)
    have asked : ∃ a ∈ (w.asking server (.command command)).asked, a.question = .command command :=
      ⟨_, mem_append_right _ (mem_singleton_self _), rfl⟩
    split_ifs with isZero
    · refine ih.mono (fun code w' ran => ⟨?_, fun done => ?_, fun first isFirst => ?_⟩) fun _ _ wrong => wrong
      · exact .ask ⟨command, .head _, rfl⟩
          (ran.asks.mono fun question ⟨other, mem, same⟩ => ⟨other, .tail _ mem, same⟩)
      · obtain ⟨more, isMore, all⟩ := ran.succeeded done
        refine ⟨_ :: more, isMore.trans (append_assoc _ _ _), fun other mem => ?_⟩
        rcases mem_cons.mp mem with rfl | mem
        · exact ⟨_, .head _, rfl, decide_eq_true isZero⟩
        · obtain ⟨a, isIn, same, ok⟩ := all other mem
          exact ⟨a, .tail _ isIn, same, ok⟩
      · obtain ⟨more, isMore, -⟩ := ran.asks.asked
        obtain ⟨a, mem, same⟩ := asked
        cases isFirst
        exact ⟨a, isMore ▸ mem_append_left _ mem, same⟩
    · refine ensures_pure.mpr ⟨.one ⟨command, .head _, rfl⟩, fun done => absurd done isZero,
        fun first isFirst => ?_⟩
      cases isFirst
      exact asked

theorem quiet_configured {key : CommandKey} {argv : List String} {of : Option Release}
    (notStop : key ≠ .stop) (notStart : key ≠ .start) : (Question.command (.configured key argv of message)).Quiet := by
  cases key with
  | stop => exact absurd rfl notStop
  | start => exact absurd rfl notStart
  | precheck | recoveryBackup | health | postRestore | notify => exact ⟨rfl, rfl, rfl, rfl, rfl, rfl, rfl⟩

theorem RanAll.quiet {key : CommandKey} {of : Option Release}
    (ran : RanAll server (host.commandsOf key of message) w code w') (notStop : key ≠ .stop) (notStart : key ≠ .start) :
    Asks server Question.Quiet w w' :=
  ran.asks.mono fun question ⟨command, mem, same⟩ => by
    obtain ⟨argv, -, rfl⟩ := mem_map.mp mem
    exact same ▸ quiet_configured notStop notStart

theorem ensures_maintenanceMode {name reason : String} :
    Ensures (maintenanceMode server host name reason) (fun code w' => code = .maintenance ∧
      Asks server Question.Quiet w w' ∧ ∀ command ∈ (host.commandsOf .notify none (maintenanceMessage name reason)).head?,
        ∃ a ∈ w'.asked, a.question = .command command) (fun _ _ => False) w :=
  Ensures.bind ensures_firstFailure fun _ _ ran =>
    ensures_pure.mpr ⟨rfl, ran.quiet (by decide) (by decide), ran.begun⟩

theorem ensures_healthyOnce : Ensures (healthyOnce server host release revision)
    (fun healthy w' => Asks server Question.Quiet w w' ∧ (healthy = true → HealthyAt host w'.asked release revision))
    (fun _ _ => False) w := by
  have status : Asks server Question.Quiet w (w.asking server (.status release)) :=
    .one ⟨rfl, rfl, rfl, rfl, rfl, rfl, rfl⟩
  refine ensures_bind.mpr (ensures_ask.mpr ?_)
  split_ifs with same
  · refine Ensures.bind ensures_firstFailure fun code w' ran => ensures_pure.mpr
      ⟨status.trans (ran.quiet (by decide) (by decide)), fun isZero => ?_⟩
    obtain ⟨more, isMore, all⟩ := ran.succeeded (of_decide_eq_true isZero)
    obtain ⟨found, isFound, isRevision⟩ := (Option.any_eq_true _ _).mp same
    refine ⟨w.asked, w.server, found, more, isMore.trans ?_, of_decide_eq_true isRevision, all⟩
    show w.asked ++ [⟨w.server, .status release, _⟩] ++ more = _
    rw [append_assoc, isFound]
    rfl
  · exact ensures_pure.mpr ⟨status, nofun⟩

theorem ensures_healthyWithin {rounds : ℕ} : Ensures (healthyWithin server host release revision rounds)
    (fun healthy w' => Asks server Question.Quiet w w' ∧ (healthy = true → HealthyAt host w'.asked release revision))
    (fun _ _ => False) w := by
  induction rounds generalizing w with
  | zero => exact ensures_healthyOnce
  | succ rounds ih =>
    refine Ensures.bind ensures_healthyOnce fun healthy w' ⟨asks, found⟩ => ?_
    cases healthy with
    | true => exact ensures_pure.mpr ⟨asks, found⟩
    | false => exact ih.mono (fun healthy w'' ⟨more, found⟩ => ⟨asks.trans more, found⟩) fun _ _ wrong => wrong

theorem ensures_healthy : Ensures (healthy server host release revision)
    (fun healthy w' => Asks server Question.Quiet w w' ∧ (healthy = true → HealthyAt host w'.asked release revision))
    (fun _ _ => False) w :=
  ensures_bind.mpr (ensures_ask.mpr (ensures_healthyWithin.mono
    (fun _ _ ⟨asks, found⟩ => ⟨.ask ⟨rfl, rfl, rfl, rfl, rfl, rfl, rfl⟩ asks, found⟩) fun _ _ wrong => wrong))

def Prunes (keep : Option String) (question : Question) : Prop :=
  question.Quiet ∨ ∃ label, question = .deletePoint label ∧ some label ≠ keep

theorem ensures_deleteExpired {keep : Option String} {cutoff : ℤ} {points : List (String × ℤ)} :
    Ensures (deleteExpired server keep cutoff points) (fun _ => Asks server (Prunes keep) w) (fun _ _ => False) w := by
  induction points generalizing w with
  | nil => exact ensures_pure.mpr (.refl w)
  | cons point rest ih =>
    unfold deleteExpired
    split_ifs with expired
    · exact ensures_bind.mpr (ensures_ask.mpr (ih.mono
        (fun _ _ asks => .ask (.inr ⟨_, rfl, expired.1⟩) asks) fun _ _ wrong => wrong))
    · exact ih

theorem ensures_pruneRestorePoints : Ensures (pruneRestorePoints server host)
    (fun _ => Asks server (Prunes (w.files.inProgress.bind (·.restorePoint))) w) (fun _ _ => False) w := by
  have quiet : ∀ question : Question, question.Quiet → Prunes (w.files.inProgress.bind (·.restorePoint)) question :=
    fun _ => .inl
  refine ensures_bind.mpr (ensures_readFiles.mpr (ensures_bind.mpr (ensures_ask.mpr (ensures_bind.mpr (ensures_ask.mpr ?_)))))
  exact Ensures.mono ensures_deleteExpired (fun _ _ asks => .ask (quiet _ ⟨rfl, rfl, rfl, rfl, rfl, rfl, rfl⟩)
    (.ask (quiet _ ⟨rfl, rfl, rfl, rfl, rfl, rfl, rfl⟩) asks)) fun _ _ wrong => wrong

theorem ensures_comparing {version : String} {verify : Bool} : Ensures (loadRelease server host version verify)
    (fun release w' => Asks server (· = .unchanged version) w w' ∧ host.release version = some release)
    (fun error w' => Asks server (· = .unchanged version) w w' ∧ error.code = .refused) w := by
  refine ensures_bind.mpr (ensures_refuseIf (fun _ => ?_) fun _ => ⟨.refl w, rfl⟩)
  refine ensures_bind.mpr (ensures_orThrowAs (fun release found => ?_) fun _ => ⟨.refl w, rfl⟩)
  refine Ensures.bind (ensures_onlyIf (fun _ => ensures_ask.mpr (.one rfl))
    fun _ => .refl w) fun unchanged w' (asks : Asks server (· = .unchanged version) w w') => ?_
  exact ensures_bind.mpr (ensures_refuseIf (fun _ => ensures_pure.mpr ⟨asks, found⟩) fun _ => ⟨asks, rfl⟩)

theorem ensures_loadRelease {version : String} {verify : Bool} : Ensures (loadRelease server host version verify)
    (fun release w' => Asks server Question.Reads w w' ∧ host.release version = some release)
    (fun error w' => Asks server Question.Reads w w' ∧ error.code = .refused) w :=
  Ensures.mono ensures_comparing (fun _ _ ⟨asks, found⟩ => ⟨asks.mono fun _ same => same ▸ trivial, found⟩)
    fun _ _ ⟨asks, refused⟩ => ⟨asks.mono fun _ same => same ▸ trivial, refused⟩

end PawBackend.Deploy
