import Turnstile.Proofs.CommandLine.ClosedForm
import Turnstile.Proofs.CommandLine.Completion
import Turnstile.Proofs.Limiter.Acceptance

/-!
# Exit status

A run succeeds exactly if it has settings and a limiter can be made of them. It has those of
the file that it names, or the defaults if it names none, and each flag takes the place of
one of them: so what the file says is of no account where there is a flag, but the file has to
give settings even if there are both.

A run that does not succeed ends with the first error, and says nothing of requests. One that
does answers them all (`World.Complete`), and what these answers are makes no difference to
its exit status.

* `Arguments.Reads`, `Arguments.draft`: the settings of a run, and what its limiter is to be
  made of;
* `Settings.swept_of_ofFile`: no file gives settings with which the sweeper would fail;
* `run_unread`, `run_refused`, `run_served`: the three ways in which a run ends;
* `exit_status`: which of them it is.
-/

namespace Turnstile

/-! ### Files -/

/-- A sweeper of settings that a text gives has an interval. -/
theorem Settings.swept_of_ofYaml {text : String} {s : Settings} (h : ofYaml text = .ok s) :
    s.cache.sweepIntervalMillis ≠ 0 := by
  unfold ofYaml at h
  split at h
  · cases h
  · split at h
    · cases h
    · split at h
      · cases h
      · rwa [← Except.ok.inj h]

theorem Settings.swept_of_ofFile {content : FileContent} {s : Settings}
    (h : ofFile content = .ok s) : s.cache.sweepIntervalMillis ≠ 0 := by
  unfold ofFile at h
  split at h
  · cases h
  · split at h
    · cases h
    · rename_i given
      rw [← Except.ok.inj h]
      exact swept_of_ofYaml given

theorem CacheSettings.sweepInterval_ne_zero {s : CacheSettings} (h : s.sweepIntervalMillis ≠ 0) :
    s.sweepInterval ≠ .zero := by
  have millis : s.sweepIntervalMillis.toNat ≠ 0 := fun e => h (UInt64.toNat_inj.1 e)
  simp only [sweepInterval, Span.ofMillis, Span.zero, ne_eq, Span.mk.injEq]
  omega

/-- That a notice is on what has become of a request, or of all of them. -/
def Notice.IsOutcome : Notice → Prop
  | admitted .. | rejected .. | summary .. => True
  | _ => False

namespace CommandLine

open World

variable {args : List String} {a : Arguments} {env : Environment} {base : Settings}

/-! ### Settings -/

/-- The settings that a run starts from: those of the file that it names, or the defaults. -/
def Arguments.Reads (a : Arguments) (env : Environment) (base : Settings) : Prop :=
  match a.config with
  | none => base = {}
  | some path => Settings.ofFile (env.files path) = .ok base

/-- What the limiter of a run is to be made of: of the spans of its flags, and of those of the
    settings where there is no flag. -/
def Arguments.draft (a : Arguments) (env : Environment) (base : Settings) : Limiter.Draft where
  threshold := .ofMillis (a.thresholdMillis.getD base.limiter.thresholdMillis).toNat
  deadline := .ofMillis (a.deadlineMillis.getD base.limiter.deadlineMillis).toNat
  clock := .starting env.wall
  salt := env.salt

theorem Arguments.fileSettings_of_reads (h : a.Reads env base) :
    a.fileSettings env = .ok base := by
  unfold Reads at h
  unfold fileSettings
  cases config : a.config with
  | none =>
    rw [config] at h
    exact congrArg Except.ok h.symm
  | some path =>
    rw [config] at h
    exact h

theorem Arguments.fileSettings_of_error {path : String} {e : FileError}
    (config : a.config = some path) (file : Settings.ofFile (env.files path) = .error e) :
    a.fileSettings env = .error e := by
  simp only [fileSettings, config, file]

/-- There are settings, or the file has an error. -/
theorem Arguments.reads_or_error (a : Arguments) (env : Environment) : (∃ base, a.Reads env base) ∨
    ∃ path e, a.config = some path ∧ Settings.ofFile (env.files path) = .error e := by
  unfold Reads
  cases a.config with
  | none => exact .inl ⟨_, rfl⟩
  | some path =>
    cases file : Settings.ofFile (env.files path) with
    | ok base => exact .inl ⟨base, file⟩
    | error e => exact .inr ⟨path, e, rfl, file⟩

/-- The sweeper of a run has an interval. -/
theorem Arguments.Reads.swept (h : a.Reads env base) : base.cache.sweepInterval ≠ .zero := by
  unfold Reads at h
  split at h
  · rw [h]
    decide
  · exact CacheSettings.sweepInterval_ne_zero (Settings.swept_of_ofFile h)

/-- The sweeper of a run does not fail as it starts, before there is a limiter. -/
theorem Arguments.Reads.faults_prepare (h : a.Reads env base) :
    ((prepare env (a.override base)).turn (.sweeper 0)).trace.faults = #[] := by
  have sweepers : (prepare env (a.override base)).sweepers =
      #[⟨0, base.cache.sweepInterval.onTimer, .issued⟩] := rfl
  have ticks : ∀ s ∈ (prepare env (a.override base)).sweepers[0]?, s.interval ≠ .zero := by
    intro s hs
    rw [sweepers] at hs
    rw [← Option.some.inj hs]
    exact Span.onTimer_ne_zero h.swept
  exact faults_sweeperTurn_of_interval ticks

/-! ### How a run ends -/

/-- That a run fails, with an error, and says nothing of requests. -/
structure Transcript.Failed (t : Transcript) (message : String) (cause : Option String) :
    Prop where
  exitCode : t.exitCode = 1
  errors : t.errors = errorLines message cause
  printed : t.printed = []
  silent : ∀ x ∈ t.log, ¬ x.2.IsOutcome

/-- That a run succeeds, with requests for some keys: all are answered, and in the end what has
    become of each of them is said, as far as the log is not filtered. -/
structure Transcript.Served (t : Transcript) (filter : LogFilter) (keys : List Key) : Prop where
  exitCode : t.exitCode = 0
  errors : t.errors = []
  printed : t.printed = []
  told : ∃ (before : List (Instant × Notice)) (now : Instant) (outcomes : List Outcome)
      (entries : Nat),
    outcomes.length = keys.length ∧ .error .aborted ∉ outcomes ∧
      t.log = before ++ ((keys.zipWith outcomeNotice outcomes ++
        [Notice.summary keys.length (outcomes.countP fun o => !o.isOk) entries]).filter
          filter.allows).map fun n => (now, n)

theorem run_of_parsed (parsed : Arguments.parse args = .ok a) :
    run args env = { runUnfiltered a env with
      log := (runUnfiltered a env).log.filter fun x =>
        (LogFilter.asked env.logDirectives).allows x.2 } := by
  simp only [run, parsed]
  rfl

/-- What is said before the requests is not of them. -/
theorem not_isOutcome_opening {ns : List Notice} (h : ns = a.openingNotices ∨
    ∃ threshold deadline, ns = a.openingNotices ++ [.settingsRead threshold deadline]) :
    ∀ x ∈ ns.map fun n => (Instant.origin, n), ¬ x.2.IsOutcome := by
  intro x hx
  obtain ⟨n, hn, rfl⟩ := List.mem_map.1 hx
  have opening : ∀ n ∈ a.openingNotices, ¬ n.IsOutcome := by
    intro n hn
    rcases List.mem_cons.1 hn with rfl | hn
    · exact id
    · split at hn
      · cases hn
      · rw [List.mem_singleton.1 hn]
        exact id
  rcases h with rfl | ⟨_, _, rfl⟩
  · exact opening n hn
  · rcases List.mem_append.1 hn with hn | hn
    · exact opening n hn
    · rw [List.mem_singleton.1 hn]
      exact id

/-- A run whose file gives no settings fails, whatever its flags are. -/
theorem run_unread (parsed : Arguments.parse args = .ok a) {path : String} {e : FileError}
    (config : a.config = some path) (file : Settings.ofFile (env.files path) = .error e) :
    (run args env).Failed e.message e.cause? := by
  have unread : runUnfiltered a env =
      { exitCode := 1, json := a.logJson, log := a.openingNotices.map fun n => (.origin, n),
        errors := errorLines e.message e.cause? } := by
    simp only [runUnfiltered, Arguments.fileSettings_of_error config file]
  rw [run_of_parsed parsed, unread]
  exact ⟨rfl, rfl, rfl, fun x hx =>
    not_isOutcome_opening (.inl rfl) x (List.mem_filter.1 hx).1⟩

/-- A run whose limiter cannot be made fails with the error of the limiter. -/
theorem run_refused (parsed : Arguments.parse args = .ok a) (reads : a.Reads env base)
    {e : LimiterError} (made : (a.draft env base).make = .error e) :
    (run args env).Failed e.message e.cause? := by
  have refused : runUnfiltered a env =
      { exitCode := 1, json := a.logJson
        log := (a.openingNotices ++ [Notice.settingsRead
          (a.override base).limiter.thresholdMillis.toNat
          (a.override base).limiter.deadlineMillis.toNat]).map fun n => (.origin, n)
        errors := errorLines e.message e.cause? } := by
    -- How a limiter is made is not to be looked into.
    have made : Limiter.ofSettings (a.override base).limiter (Clock.starting env.wall).read
      env.salt = .error e := made
    obtain ⟨make, eq⟩ : ∃ make, Limiter.ofSettings = make := ⟨_, rfl⟩
    have clock : (prepare env (a.override base)).clock = .starting env.wall := rfl
    rw [eq] at made
    rw [runUnfiltered, eq]
    simp only [Arguments.fileSettings_of_reads reads, clock, made]
  rw [run_of_parsed parsed, refused]
  exact ⟨rfl, rfl, rfl, fun x hx =>
    not_isOutcome_opening (.inr ⟨_, _, rfl⟩) x (List.mem_filter.1 hx).1⟩

/-- The requests of a run whose limiter is made come to an end. -/
theorem complete_of_made (readable : 0 ≤ env.wall ∧ env.wall ≤ Timestamp.lastNanos)
    (reads : a.Reads env base) {l : Limiter} (made : (a.draft env base).make = .ok l) :
    (issueRequests (prepare env (a.override base)) l a.requests).finish.2.Complete
      (a.requests.map l.anonymize) := by
  have read : (Clock.starting env.wall).read = .ok (.ofNanos env.wall) :=
    (Clock.read_eq _).trans
      ((if_neg (Int.not_lt.2 readable.1)).trans (if_pos readable.2))
  exact (Workload.going_start a.requests (Limiter.accepted_of_make made) ⟨_, read⟩
    reads.swept).finish

/-- A run whose limiter is made succeeds. -/
theorem run_served (parsed : Arguments.parse args = .ok a)
    (readable : 0 ≤ env.wall ∧ env.wall ≤ Timestamp.lastNanos) (reads : a.Reads env base)
    {l : Limiter} (made : (a.draft env base).make = .ok l) :
    (run args env).Served (LogFilter.asked env.logDirectives) (a.requests.map l.anonymize) := by
  obtain ⟨outcomes, entries, length, decided, closing⟩ :=
    (complete_of_made readable reads made).closingNotices_eq
  rw [run_of_parsed parsed,
    Accepted.runUnfiltered_of_made (Arguments.fileSettings_of_reads reads) made, requestLog_def]
  simp only [closing]
  generalize (issueRequests (prepare env (a.override base)) l a.requests).finish = f
  refine ⟨rfl, rfl, rfl, ?_⟩
  simp only [← List.append_assoc, List.filter_append _ (List.map _ _), List.filter_map]
  exact ⟨_, f.2.clock.now, outcomes, entries, length, decided, rfl⟩

/-! ### The exit status -/

/-- How a run with some arguments ends. -/
structure ExitStatus (a : Arguments) (env : Environment) (t : Transcript) : Prop where
  /-- A run succeeds exactly if there are settings, and the limiter can be made. -/
  zero_iff : t.exitCode = 0 ↔ ∃ base salt, a.Reads env base ∧ (a.draft env base).Fits salt
  /-- If the file gives no settings, it fails with the error of the file, whatever the flags
      are, … -/
  unread : ∀ path e, a.config = some path → Settings.ofFile (env.files path) = .error e →
    t.Failed e.message e.cause?
  /-- … if the limiter cannot be made, with that of the first check it fails at, … -/
  refused : ∀ base c e, a.Reads env base → (a.draft env base).FailsFirst c e →
    c ≠ .clock ∧ t.Failed e.message e.cause?
  /-- … and in no other way. -/
  failed : t.exitCode ≠ 0 → t.exitCode = 1 ∧
    ((∃ path e, a.config = some path ∧ Settings.ofFile (env.files path) = .error e) ∨
      ∃ base c e, a.Reads env base ∧ (a.draft env base).FailsFirst c e)
  /-- Otherwise all requests are answered, and none of them fails, … -/
  served : ∀ base salt, a.Reads env base → (a.draft env base).Fits salt →
    t.Served (LogFilter.asked env.logDirectives) (a.requests.map salt.anonymize)
  /-- … nor does the sweeper, which has an interval even if the limiter is not made. -/
  faultless : ∀ base, a.Reads env base →
    ((prepare env (a.override base)).turn (.sweeper 0)).trace.faults = #[] ∧
      ∀ l, (a.draft env base).make = .ok l →
        (issueRequests (prepare env (a.override base)) l a.requests).finish.2.trace.faults = #[]
  /-- What is requested, and how it is logged, makes no difference. -/
  same : ∀ args' a' env', Arguments.parse args' = .ok a' → a'.config = a.config →
    a'.thresholdMillis = a.thresholdMillis → a'.deadlineMillis = a.deadlineMillis →
    env'.files = env.files → env'.wall = env.wall → env'.salt = env.salt →
    (run args' env').exitCode = t.exitCode

/-- A run that does not succeed has no settings, or its limiter cannot be made. -/
theorem failed_of_exitCode (parsed : Arguments.parse args = .ok a)
    (readable : 0 ≤ env.wall ∧ env.wall ≤ Timestamp.lastNanos)
    (nonzero : (run args env).exitCode ≠ 0) : (run args env).exitCode = 1 ∧
      ((∃ path e, a.config = some path ∧ Settings.ofFile (env.files path) = .error e) ∨
        ∃ base c e, a.Reads env base ∧ (a.draft env base).FailsFirst c e) := by
  rcases a.reads_or_error env with ⟨base, reads⟩ | ⟨path, e, config, file⟩
  · rcases (a.draft env base).fits_or_failsFirst with ⟨salt, fits⟩ | ⟨c, e, fails⟩
    · have served := run_served parsed readable reads (Limiter.Draft.make_of_fits fits)
      exact absurd served.exitCode nonzero
    · have failed := run_refused parsed reads (Limiter.Draft.make_of_failsFirst fails)
      exact ⟨failed.exitCode, .inr ⟨base, c, e, reads, fails⟩⟩
  · exact ⟨(run_unread parsed config file).exitCode, .inl ⟨path, e, config, file⟩⟩

theorem exitCode_eq_zero_iff (parsed : Arguments.parse args = .ok a)
    (readable : 0 ≤ env.wall ∧ env.wall ≤ Timestamp.lastNanos) :
    (run args env).exitCode = 0 ↔
      ∃ base salt, a.Reads env base ∧ (a.draft env base).Fits salt := by
  constructor
  · intro zero
    rcases a.reads_or_error env with ⟨base, reads⟩ | ⟨path, e, config, file⟩
    · rcases (a.draft env base).fits_or_failsFirst with ⟨salt, fits⟩ | ⟨c, e, fails⟩
      · exact ⟨base, salt, reads, fits⟩
      · have failed := run_refused parsed reads (Limiter.Draft.make_of_failsFirst fails)
        cases zero.symm.trans failed.exitCode
    · cases zero.symm.trans (run_unread parsed config file).exitCode
  · rintro ⟨base, salt, reads, fits⟩
    exact (run_served parsed readable reads (Limiter.Draft.make_of_fits fits)).exitCode

/-- A run succeeds exactly if it has settings of which a limiter can be made, and otherwise
    fails with the first error and does not serve any request. -/
theorem exit_status (parsed : Arguments.parse args = .ok a)
    (readable : 0 ≤ env.wall ∧ env.wall ≤ Timestamp.lastNanos) :
    ExitStatus a env (run args env) := by
  constructor
  case zero_iff => exact exitCode_eq_zero_iff parsed readable
  case unread => exact fun path e config file => run_unread parsed config file
  case refused =>
    intro base c e reads fails
    refine ⟨?_, run_refused parsed reads (Limiter.Draft.make_of_failsFirst fails)⟩
    rintro rfl
    have passes : (a.draft env base).Passes .clock := readable
    exact Limiter.Draft.passes_iff.1 passes e fails.fails
  case failed => exact failed_of_exitCode parsed readable
  case served =>
    intro base salt reads fits
    have served := run_served parsed readable reads (Limiter.Draft.make_of_fits fits)
    rwa [show Limiter.anonymize ⟨_, _, salt⟩ = salt.anonymize from rfl] at served
  case faultless =>
    exact fun base reads =>
      ⟨reads.faults_prepare, fun l made => (complete_of_made readable reads made).going.faults⟩
  case same =>
    intro args' a' env' parsed' config threshold deadline files wall salt
    have readable' : 0 ≤ env'.wall ∧ env'.wall ≤ Timestamp.lastNanos := wall ▸ readable
    have zero : (run args' env').exitCode = 0 ↔ (run args env).exitCode = 0 := by
      rw [exitCode_eq_zero_iff parsed readable, exitCode_eq_zero_iff parsed' readable']
      simp only [Arguments.Reads, Arguments.draft, config, threshold, deadline, files, wall, salt]
    by_cases succeeds : (run args env).exitCode = 0
    · rw [succeeds, zero.2 succeeds]
    · rw [(failed_of_exitCode parsed readable succeeds).1,
        (failed_of_exitCode parsed' readable' (mt zero.1 succeeds)).1]

/-- At the epoch, where every path leads to a threshold that no limiter has. -/
def farThreshold : Environment where
  files _ := .bytes "limiter:\n  threshold_ms: 18446744073709551615\n".toUTF8
  logDirectives := none
  wall := 0
  salt := .ok .zero

/-- Two requests of which the second cannot wait, with flags for both spans. -/
def flagged : Arguments where
  config := some "c.yaml"
  thresholdMillis := some 1000
  deadlineMillis := some 0
  repetitions := some 2
  identifiers := ["x"]

theorem reads_farThreshold {a : Arguments} (config : a.config = some "c.yaml") :
    a.Reads farThreshold { limiter := { thresholdMillis := 18446744073709551615 } } := by
  have file : (Settings.ofFile (farThreshold.files "c.yaml")).toOption =
      some { limiter := { thresholdMillis := 18446744073709551615 } } := by decide +kernel
  simp only [Arguments.Reads, config]
  cases read : Settings.ofFile (farThreshold.files "c.yaml") with
  | error e =>
    rw [read] at file
    cases file
  | ok base =>
    rw [read] at file
    exact congrArg Except.ok (Option.some.inj file)

/-- Flags make up for what is wrong with the settings of a file, but not for a file that
    gives none. -/
theorem exit_status_flags :
    let args := ["x", "-r", "2", "-c", "c.yaml", "--threshold-ms", "1000", "--deadline-ms", "0"]
    (run args farThreshold).exitCode = 0 ∧
      (run ["x", "-c", "c.yaml"] farThreshold).errors = ["Error: Configuration error: " ++
        "threshold 18446744073709551.615s out of range: " ++
        "Source duration value is out of range for the target type"] ∧
      (run args { farThreshold with files := fun _ => .missing }).errors = [
        "Error: I/O error: No such file or directory (os error 2)", "", "Caused by:",
        "    No such file or directory (os error 2)"] := by
  intro args
  have parsed : Arguments.parse args = .ok flagged := by decide +kernel
  have bare : Arguments.parse ["x", "-c", "c.yaml"] =
      .ok { config := some "c.yaml", identifiers := ["x"] } := by decide +kernel
  refine ⟨?_, ?_, ?_⟩
  · refine (exit_status parsed (by decide)).zero_iff.2 ⟨_, .zero, reads_farThreshold rfl, ?_⟩
    constructor <;> decide
  · have long : Limiter.Draft.longest < 18446744073709551615 * 1000000 := by decide
    have status : ExitStatus _ farThreshold _ := exit_status bare (by decide)
    have failed := (status.refused _ .threshold _ (reads_farThreshold rfl)
      ⟨.threshold long, fun b hb => by cases b <;> exact absurd hb (by decide)⟩).2
    rw [failed.errors]
    decide +kernel
  · have status : ExitStatus _ { farThreshold with files := fun _ => .missing } _ :=
      exit_status parsed (by decide)
    rw [(status.unread "c.yaml" (.unreadable ⟨2⟩) rfl rfl).errors]
    decide +kernel

end CommandLine

end Turnstile
