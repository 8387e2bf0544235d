import StackMachine.Proofs.Execution.StepLimits
import StackMachine.Proofs.Execution.Tracing
import StackMachine.Proofs.Settings.Layers
import StackMachine.Runner

/-!
# The runner loads, then runs

What is observed of the runner is how it ends, what it writes to the standard output and how much of
the standard input it reads.  This depends on the program file, the streams and the limit on steps,
and on nothing else: the whole file is decoded first, and then a machine is run that need not keep a
trace.

* `Runner.loadThenRun` is that observation; `Runner.observation_run` says that the runner has it.
* `Runner.Reports` relates what is observed to the result of the machine.
* `Runner.run_loads_then_runs` puts this together.
-/

namespace StackMachine

namespace CommandLine

/-- What is observed of a command from outside, apart from its messages and files. -/
structure Observation where
  ending : Ending
  output : List UInt8
  consumed : Nat
  deriving DecidableEq

/-- What is observed of an outcome. -/
def Outcome.observation (o : Outcome) : Observation :=
  ⟨o.ending, o.output, o.consumed⟩

end CommandLine

open CommandLine

/-! ## Machines at the start of a program -/

namespace Machine

variable {m m' : Machine} {c c' : Console} {p : Program} {tracing : Bool} {limit : Option Nat}
  {fuel : Nat}

/-- A run that is cut has counted as many steps as its limit. -/
theorem eq_steps_of_run_start
    (h : (start p tracing limit).run fuel c = some (.ok .stepLimit, m', c')) :
    limit = some m'.steps := by
  cases limit with
  | none =>
      obtain ⟨k, c₁, hadvances, hreached, -⟩ := runs_stepLimit_iff.1 ⟨fuel, h⟩
      have hnone : m'.stepLimit = none := hadvances.counts.2.2.1
      rw [limitReached, hnone] at hreached
      cases hreached
  | some limit =>
      have hruns : ((start p tracing none).withLimit (some limit)).Runs c (.ok .stepLimit) m' c' :=
        ⟨fuel, h⟩
      rw [steps_of_runs_stepLimit hruns]
      exact congrArg some (Nat.max_zero limit).symm

/-- Before a step that fails there are executed ones, whose output is kept. -/
theorem exists_failed_step_of_run
    {e : Failure}
    (h : m.run fuel c = some (.error e, m', c')) :
    ∃ (k : Nat) (m₁ : Machine) (c₁ c₂ : Console),
      Advances k m c m₁ c₁ ∧ m₁.step c₁ = (.failed e, m', c₂) ∧ c'.written = c₁.written := by
  obtain ⟨k, m₁, c₁, c₂, hadvances, hends, rfl⟩ := runs_iff.1 ⟨fuel, h⟩
  have hkept : c₂.flush.written = c₁.written :=
    congrArg (fun writes => writes.toList.flatten) hends.writes
  cases hends with
  | failed _ hstep =>
      exact ⟨k, m₁, c₁, c₂, hadvances, hstep, hkept⟩

end Machine

namespace Runner

variable {w : World} {args : List String} {a : Arguments} {s : Settings} {files : FileTree}
  {bytes : List UInt8} {p : Program} {limit : Option Nat} {fuel : Nat}

/-! ## What the arguments ask for -/

/-- The arguments ask for a program to be run, and settings for that are made of the environment and
of what the arguments say about them. -/
structure Asks (env : Environment) (args : List String) (a : Arguments) (s : Settings) : Prop where
  exists_matches : ∃ m, grammar.parse args = .matched m ∧ Arguments.ofMatches m = a
  dump : a.dump = false
  settings : Settings.ofSources env a.overrides = .ok s

/-- The files that the program is loaded from.  A log file has its first line by then. -/
inductive LoadsFrom (w : World) (s : Settings) : FileTree → Prop
  | unlogged
      (h : s.logFile = none) :
      LoadsFrom w s w.files
  | logged
      {path : String} {files : FileTree} {place : Place}
      (h : s.logFile = some path)
      (hopen : w.files.openLog path = .ok (files, place)) :
      LoadsFrom w s
        (files.append place (Log.fileBytes w.clock ⟨s.logLevel, true, [openMessage path]⟩))

/-- The level of messages does not matter to the files, as a log file gets all messages. -/
theorem LoadsFrom.congr
    {s' : Settings}
    (h : LoadsFrom w s files)
    (hfile : s'.logFile = s.logFile)
    (env : Environment) :
    LoadsFrom { w with environment := env } s' files := by
  cases h with
  | unlogged h =>
      exact .unlogged (w := { w with environment := env }) (hfile.trans h)
  | logged h hopen =>
      have hlogged := LoadsFrom.logged (w := { w with environment := env }) (hfile.trans h) hopen
      rw [Log.fileBytes, Log.filed_of_hasFile rfl] at hlogged ⊢
      exact hlogged

/-! ## What is observed -/

/-- What is observed of a run that came to the result and left the console. -/
def runObservation (r : RunResult) (c : Console) : Observation :=
  ⟨(runEnding r).1, c.written, c.consumed⟩

/-- What is observed when bytes are decoded and, if they are a program, this is run. -/
def loadThenRun (fuel : Nat) (c : Console) (limit : Option Nat) (bytes : List UInt8) :
    Option Observation :=
  match Program.decode bytes with
  | .error _ => some ⟨.exit 1, [], 0⟩
  | .ok p => ((Machine.start p false limit).run fuel c).map fun x => runObservation x.1 x.2.2

theorem loadThenRun_of_error
    {e : FormatError}
    (h : Program.decode bytes = .error e)
    (fuel : Nat) (c : Console) (limit : Option Nat) :
    loadThenRun fuel c limit bytes = some ⟨.exit 1, [], 0⟩ := by
  rw [loadThenRun, h]

/-- The machine may as well keep a trace. -/
theorem loadThenRun_of_ok
    (h : Program.decode bytes = .ok p)
    (tracing : Bool) (fuel : Nat) (c : Console) (limit : Option Nat) :
    loadThenRun fuel c limit bytes =
      ((Machine.start p tracing limit).run fuel c).map fun x => runObservation x.1 x.2.2 := by
  have huntraced : (Machine.start p tracing limit).untraced = Machine.start p false limit := rfl
  simp only [loadThenRun, h, ← huntraced, Machine.run_untraced, Option.map_map]
  rfl

theorem observation_execute
    (log : Log)
    (hlimit : s.stepLimit = limit.map Int.ofNat) :
    (execute fuel w s log p).map Outcome.observation =
      ((Machine.start p s.trace limit).run fuel (console w)).map
        fun x => runObservation x.1 x.2.2 := by
  have hmachine : machine s p = Machine.start p s.trace limit := by
    rw [machine, hlimit, Option.map_map]
    exact congrArg _ Option.map_id'
  rw [execute, hmachine, Option.map_map]
  rfl

theorem observation_load
    (log : Log)
    (hdump : a.dump = false)
    (hread : w.files.read a.path = .ok bytes)
    (hlimit : s.stepLimit = limit.map Int.ofNat) :
    (load fuel w s a log).map Outcome.observation =
      loadThenRun fuel (console w) limit bytes := by
  simp only [load, hread]
  cases hdecode : Program.decode bytes with
  | error e =>
      rw [loadThenRun_of_error hdecode]
      rfl
  | ok p =>
      rw [loadThenRun_of_ok hdecode s.trace, hdump]
      exact observation_execute _ hlimit

theorem observation_start
    (hfiles : LoadsFrom w s files)
    (hdump : a.dump = false)
    (hread : files.read a.path = .ok bytes)
    (hlimit : s.stepLimit = limit.map Int.ofNat) :
    (start fuel w a s).map Outcome.observation = loadThenRun fuel (console w) limit bytes := by
  cases hfiles with
  | unlogged h =>
      rw [start, h]
      exact observation_load _ hdump hread hlimit
  | logged h hopen =>
      simp only [start, h, hopen, Option.map_map]
      exact observation_load (w := { w with files := _ }) _ hdump hread hlimit

theorem run_eq_start
    (h : Asks w.environment args a s) :
    run fuel w args = start fuel w a s := by
  obtain ⟨⟨m, hmatched, rfl⟩, -, hsettings⟩ := h
  simp only [run, withArguments, hmatched, hsettings]

/-- The runner is observed to decode the file and then to run the program. -/
theorem observation_run
    (hasks : Asks w.environment args a s)
    (hfiles : LoadsFrom w s files)
    (hread : files.read a.path = .ok bytes)
    (hlimit : s.stepLimit = limit.map Int.ofNat) :
    (run fuel w args).map Outcome.observation = loadThenRun fuel (console w) limit bytes := by
  rw [run_eq_start hasks]
  exact observation_start hfiles hasks.dump hread hlimit

/-! ## Exit statuses -/

/-- The observation tells what a run came to that left the console.  The command comes to its end
unless a conversion fails. -/
structure Reports (o : Observation) (r : RunResult) (c : Console) : Prop where
  output : o.output = c.written
  consumed : o.consumed = c.consumed
  ended : o.ending = .exit 0 ↔ r = .ok .programEnd ∨ r = .ok .endOfInput
  failed : o.ending = .exit 2 ↔ ∃ e, r = .error e ∧ e.fault.family ≠ .conversion
  cut : o.ending = .exit 3 ↔ r = .ok .stepLimit
  interrupted :
    (∃ cause, o.ending = .interrupted cause) ↔ ∃ e, r = .error e ∧ e.fault.family = .conversion

theorem failureEnding_fst
    (e : Failure) :
    (failureEnding e).1 =
      if e.fault.family = .conversion then .interrupted (.conversion e.fault) else .exit 2 := by
  rw [failureEnding]
  cases e.fault.family <;> rfl

theorem reports_runObservation
    (r : RunResult) (c : Console) :
    Reports (runObservation r c) r c := by
  cases r with
  | ok reason =>
      cases reason <;> constructor <;> simp [runObservation, runEnding, stopStatus]
  | error e =>
      by_cases hfamily : e.fault.family = .conversion <;> constructor <;>
        simp [runObservation, runEnding, failureEnding_fst, hfamily]

/-- **The runner loads, then runs.**  A file that is no program leaves nothing but the status 1,
whatever records it begins with.  Otherwise the output and the input that is read are those of the
machine on the standard streams, with the limit that the settings give, which is never zero, and the
status tells how its run ended; if a step failed, what was written before is kept.  The flags for
tracing and verbosity do not change the limit, and settings that share it and the log file lead to
the same observation. -/
theorem run_loads_then_runs
    (hasks : Asks w.environment args a s)
    (hfiles : LoadsFrom w s files)
    (hread : files.read a.path = .ok bytes) :
    (∀ e, Program.decode bytes = .error e → ∀ fuel,
      ∃ o, run fuel w args = some o ∧ o.ending = .exit 1 ∧ o.output = [] ∧ o.consumed = 0) ∧
    (∃ limit : Option Nat, s.stepLimit = limit.map Int.ofNat ∧ limit ≠ some 0 ∧
      ∀ p, Program.decode bytes = .ok p → ∀ tracing fuel,
        let m := Machine.start p tracing limit
        let c : Console :=
          { input := w.input, consumed := 0, writes := #[], budget := w.outputBudget, calls := #[] }
        (∀ r m' c', m.run fuel c = some (r, m', c') →
          ∃ o, run fuel w args = some o ∧ Reports o.observation r c' ∧
            (r = .ok .stepLimit → limit = some m'.steps ∧ 1 ≤ m'.steps) ∧
            (∀ e, r = .error e → ∃ k m₁ c₁ c₂,
              Machine.Advances k m c m₁ c₁ ∧ m₁.step c₁ = (.failed e, m', c₂) ∧
                o.output = c₁.written)) ∧
        (m.run fuel c = none → run fuel w args = none)) ∧
    (∀ trace verbosity, ∃ s',
      Settings.ofSources w.environment
          { a.overrides with trace := trace, verbosity := verbosity } = .ok s' ∧
        s'.stepLimit = s.stepLimit ∧ s'.logFile = s.logFile) ∧
    (∀ env' args' a' s', Asks env' args' a' s' → a'.path = a.path →
      s'.stepLimit = s.stepLimit → s'.logFile = s.logFile → ∀ fuel,
        (run fuel { w with environment := env' } args').map Outcome.observation =
          (run fuel w args).map Outcome.observation) := by
  obtain ⟨limit, hlimit, hpositive⟩ := Settings.exists_stepLimit_of_ofSources hasks.settings
  have hrun : ∀ fuel, (run fuel w args).map Outcome.observation =
      loadThenRun fuel (console w) limit bytes :=
    fun fuel => observation_run hasks hfiles hread hlimit
  refine ⟨?_, ⟨limit, hlimit, hpositive, ?_⟩,
    Settings.exists_ofSources_of_trace_verbosity hasks.settings, ?_⟩
  · intro e he fuel
    have hobserved := hrun fuel
    rw [loadThenRun_of_error he] at hobserved
    obtain ⟨o, ho, hobservation⟩ := Option.map_eq_some_iff.1 hobserved
    obtain ⟨hending, houtput, hconsumed⟩ := Observation.mk.inj hobservation
    exact ⟨o, ho, hending, houtput, hconsumed⟩
  · intro p hp tracing fuel m c
    have hobserved : (run fuel w args).map Outcome.observation =
        (m.run fuel c).map fun x => runObservation x.1 x.2.2 :=
      (hrun fuel).trans (loadThenRun_of_ok hp tracing fuel c limit)
    constructor
    · intro r m' c' hmachine
      rw [hmachine] at hobserved
      obtain ⟨o, ho, hobservation⟩ := Option.map_eq_some_iff.1 hobserved
      have hreports : Reports o.observation r c' := hobservation ▸ reports_runObservation r c'
      refine ⟨o, ho, hreports, ?_, ?_⟩
      · rintro rfl
        have hsteps := Machine.eq_steps_of_run_start hmachine
        refine ⟨hsteps, Nat.pos_of_ne_zero fun hzero => hpositive ?_⟩
        rw [hsteps, hzero]
      · rintro e rfl
        obtain ⟨k, m₁, c₁, c₂, hadvances, hstep, hkept⟩ :=
          Machine.exists_failed_step_of_run hmachine
        exact ⟨k, m₁, c₁, c₂, hadvances, hstep, hreports.output.trans hkept⟩
    · intro hmachine
      rw [hmachine] at hobserved
      exact Option.map_eq_none_iff.1 hobserved
  · intro env' args' a' s' hasks' hpath hlimit' hfile fuel
    rw [hrun]
    exact observation_run hasks' (hfiles.congr hfile env') (hpath ▸ hread) (hlimit'.trans hlimit)

/-- The limit of the flag covers the one of the environment and cuts the program after its second
number, unless the output refuses this number or already the first one.  The same records with a
byte behind them are not run. -/
theorem run_loads_then_runs_cut_and_refused :
    let p : Program := [.readByte, .printNumber 0, .jump 1]
    let bytes := Program.encode p
    let world (content : List UInt8) (outputBudget : Option Nat) : World := {
      files := ⟨["tmp"], [(["tmp", "p"], content)], []⟩
      input := [7, 8]
      environment := [("BVM_TRACE", "on"), ("BVM_MAX_STEPS", "2")]
      outputBudget := outputBudget
      clock := "" }
    let w := world bytes none
    let w' := world (bytes ++ [0x63]) none
    let args := ["--max-steps", "4", "-vv", "p"]
    let a : Arguments := ⟨"p", false, ⟨false, some (some "4"), 2, none⟩⟩
    let s : Settings := ⟨true, some 4, 10, none⟩
    Asks w.environment args a s ∧ LoadsFrom w s w.files ∧ w.files.read a.path = .ok bytes ∧
    LoadsFrom w' s w'.files ∧ w'.files.read a.path = .ok (bytes ++ [0x63]) ∧
    (∃ o, run 9 w args = some o ∧ o.ending = .exit 3 ∧
      o.output = [0x37, 0x0A, 0x37, 0x0A] ∧ o.consumed = 1) ∧
    (∃ o, run 9 (world bytes (some 1)) args = some o ∧ o.ending = .exit 2 ∧
      o.output = [0x37, 0x0A] ∧ o.consumed = 1) ∧
    (∃ o, run 9 (world bytes (some 0)) args = some o ∧ o.ending = .exit 2 ∧
      o.output = [] ∧ o.consumed = 1) ∧
    (∀ fuel, ∃ o, run fuel w' args = some o ∧ o.ending = .exit 1 ∧ o.output = [] ∧
      o.consumed = 0) ∧
    (∀ fuel,
      (run fuel { w with environment := [("BVM_MAX_STEPS", "0x4")] } ["p"]).map
          Outcome.observation =
        (run fuel w args).map Outcome.observation) := by
  intro p bytes world w w' args a s
  have hparse : grammar.parse args =
      .matched
        ⟨[("--verbose", none), ("--verbose", none), ("--max-steps", some "4")], some "p", []⟩ :=
    by decide +kernel
  have hasks : Asks w.environment args a s := ⟨⟨_, hparse, rfl⟩, rfl, by decide +kernel⟩
  have hfiles : LoadsFrom w s w.files := .unlogged rfl
  have hfiles' : LoadsFrom w' s w'.files := .unlogged rfl
  -- The path is taken apart from one character to the next.
  have hname : "p".splitOnAux "/" 0 0 0 [] = "p".splitOnAux "/" 0 ⟨1⟩ 0 [] := by
    rw [String.splitOnAux]
    rfl
  have hend : "p".splitOnAux "/" 0 ⟨1⟩ 0 [] = ["p"] := by
    rw [String.splitOnAux]
    rfl
  have hread : ∀ content budget, (world content budget).files.read a.path = .ok content := by
    intro content budget
    have hnames : "p".splitOn "/" = ["p"] := hname.trans hend
    show FileTree.read ⟨["tmp"], [(["tmp", "p"], content)], []⟩ "p" = .ok content
    rw [FileTree.read, FileTree.locate, hnames]
    rfl
  have hdecode : Program.decode bytes = .ok p := by decide +kernel
  have hrefused : Program.decode (bytes ++ [0x63]) = .error ⟨19, .unknownTag 0x63⟩ := by
    decide +kernel
  -- The flag gives the limit, however many writes the output accepts.
  have hobserved : ∀ budget {r m' c'},
      (Machine.start p true (some 4)).run 9 ⟨[7, 8], 0, #[], budget, #[]⟩ = some (r, m', c') →
        ∃ o, run 9 (world bytes budget) args = some o ∧ Reports o.observation r c' := by
    intro budget r m' c' hmachine
    obtain ⟨-, ⟨limit, hlimit, -, hreports⟩, -⟩ :=
      run_loads_then_runs (w := world bytes budget) hasks (.unlogged rfl) (hread _ budget)
    have hfour : (some 4).map Int.ofNat = limit.map Int.ofNat := hlimit
    obtain rfl := Option.map_injective (fun _ _ => Int.ofNat.inj) hfour
    obtain ⟨o, ho, hrun, -⟩ := (hreports p hdecode true 9).1 r m' c' hmachine
    exact ⟨o, ho, hrun⟩
  obtain ⟨-, -, -, hsame⟩ := run_loads_then_runs hasks hfiles (hread _ _)
  obtain ⟨hfails, -⟩ := run_loads_then_runs (w := w') hasks hfiles' (hread _ _)
  refine ⟨hasks, hfiles, hread _ _, hfiles', hread _ _, ?_, ?_, ?_, hfails _ hrefused, ?_⟩
  · obtain ⟨o, ho, hrun⟩ := hobserved none (r := .ok .stepLimit) rfl
    exact ⟨o, ho, hrun.cut.2 rfl, hrun.output, hrun.consumed⟩
  · obtain ⟨o, ho, hrun⟩ := hobserved (some 1) (r := .error ⟨1, .printNumber 0, .outputClosed⟩) rfl
    exact ⟨o, ho, hrun.failed.2 ⟨_, rfl, by decide⟩, hrun.output, hrun.consumed⟩
  · obtain ⟨o, ho, hrun⟩ := hobserved (some 0) (r := .error ⟨1, .printNumber 0, .outputClosed⟩) rfl
    exact ⟨o, ho, hrun.failed.2 ⟨_, rfl, by decide⟩, hrun.output, hrun.consumed⟩
  · have hquiet : Asks [("BVM_MAX_STEPS", "0x4")] ["p"] ⟨"p", false, ⟨false, none, 0, none⟩⟩
        ⟨false, some 4, 30, none⟩ :=
      ⟨⟨⟨[], some "p", []⟩, by decide +kernel, rfl⟩, rfl, by decide +kernel⟩
    exact hsame _ _ _ _ hquiet rfl rfl rfl

end Runner
end StackMachine
