import CoreTiming.CommandLine.Run
import CoreTiming.Proofs.Simulator.Supply

namespace CoreTiming

namespace Program

/-- The program of an option, else one that the environment names and that is not blank, else the configured
    one. -/
def intended (option ambient configured : Option String) : Option String :=
  option.or ((ambient.filter (!isBlank ·)).or configured)

/-- The environment names a program beside an option, or a blank one where there is no option. -/
def contested (option : Option String) : Option String → Bool
  | none => false
  | some path => if isBlank path then option.isNone else option.isSome

theorem resolve_eq_or (environment : Environment) (configured : Option String) :
    resolve environment configured = (environment.program.filter (!isBlank ·)).or configured := by
  unfold resolve
  cases environment.program.filter (!isBlank ·) <;> rfl

theorem resolve_option (environment : Environment) (option configured : Option String) :
    resolve environment ((option.or environment.program).or configured) =
      if contested option environment.program then environment.program
      else intended option environment.program configured := by
  rw [resolve_eq_or, intended]
  cases environment.program with
  | none => simp [contested]
  | some path =>
    -- A blank name counts for nothing when a program is loaded, but it may have taken the place of an option.
    cases blank : isBlank path with
    | true =>
      have unheard : (some path).filter (!isBlank ·) = none := by simp [blank]
      rw [unheard]
      cases option <;> simp [contested, blank]
    | false =>
      have heard : (some path).filter (!isBlank ·) = some path := by simp [blank]
      rw [heard]
      cases option <;> simp [contested, blank]

end Program

namespace CommandLine

def Invocation.supplied (ambient : Option String) (invocation : Invocation) : Invocation :=
  { invocation with
    command := match invocation.command with
      | .run options => .run { options with program := options.program.or ambient }
      | command => command }

variable (ambient : Option String)

theorem runOptions_eq (given : Given) : runOptions ambient given =
    { runOptions none given with program := (runOptions none given).program.or ambient } := by
  simp only [runOptions, Option.or_none]

theorem readCommand_eq (verbosity : Nat) (name : String) (words : List (List Char)) :
    readCommand ambient verbosity name words =
      Invocation.supplied ambient <$> readCommand none verbosity name words := by
  unfold readCommand
  split
  · rw [map_bind]
    refine bind_congr fun given => ?_
    rw [runOptions_eq]
    rfl
  · rw [map_bind]
    refine bind_congr fun given => ?_
    cases given.text? .config <;> rfl
  · rw [map_bind]
    refine bind_congr fun (given, rest) => ?_
    cases rest <;> rfl
  · split
    · rfl
    · split <;> rfl
    · rfl
  · rfl

theorem readWords_eq (verbosity : Nat) (words : List (List Char)) :
    readWords ambient verbosity words = Invocation.supplied ambient <$> readWords none verbosity words := by
  induction words generalizing verbosity with
  | nil => rfl
  | cons word rest ih =>
    rw [readWords, readWords]
    split
    · split <;> rfl
    · exact readCommand_eq ..
    · rw [map_bind]
      exact bind_congr ih
    · split
      · exact ih _
      · rfl
      · rfl
      · rfl

theorem read_eq (words : List String) :
    read ambient words = Invocation.supplied ambient <$> read none words := by
  unfold read
  split
  · split
    · rfl
    · exact readWords_eq ..
  · rfl

variable {environment : Environment} {words : List String} {verbosity : Nat} {asked : RunOptions}
  {config : Config} {log : List Log.Line}

def Outcome.shown (outcome : Outcome) (environment : Environment) (verbosity : Nat) : Outcome :=
  { outcome with log := Log.filtered environment.logFilter (defaultLimit verbosity) outcome.log }

theorem execute_of_run (command : read none words = .ok ⟨verbosity, .run asked⟩)
    (configured : asked.configuration environment.files = .ok (config, log)) :
    execute environment words = (conclude environment.files asked log (Simulator.ofConfig environment
      ({ asked with program := asked.program.or environment.program }.override config))).shown
        environment verbosity := by
  unfold execute
  rw [read_eq, command]
  show (run environment { asked with program := asked.program.or environment.program }).shown _ _ = _
  unfold run
  have found : ({ asked with program := asked.program.or environment.program } : RunOptions).configuration
    environment.files = .ok (config, log) := configured
  rw [found]
  rfl

theorem decides_override (environment : Environment) (asked : RunOptions) (config : Config) :
    Program.Decides (if Program.contested asked.program environment.program then environment.program
        else Program.intended asked.program environment.program config.cpu.program)
      environment.files (asked.override config) (Simulator.ofConfig environment
        ({ asked with program := asked.program.or environment.program }.override config)) := by
  rw [← Program.resolve_option]
  exact (Program.decides_ofConfig environment _).of_named

/-- A run executes the program that is intended, unless the environment contests it: then it executes the
    program of the environment, blank or not. Whatever program that is, every core has all of its operations
    before it, or the run is refused because it cannot be loaded; without a program every core has a synthetic
    stream. -/
theorem run_executes (command : read none words = .ok ⟨verbosity, .run asked⟩)
    (configured : asked.configuration environment.files = .ok (config, log)) :
    let program := if Program.contested asked.program environment.program then environment.program
      else Program.intended asked.program environment.program config.cpu.program
    ∃ result, Program.Decides program environment.files (asked.override config) result ∧
      execute environment words = (conclude environment.files asked log result).shown environment verbosity :=
  ⟨_, decides_override environment asked config, execute_of_run command configured⟩

def twoPrograms : Files where
  entries := [
    (["c.json"], some "\x7b\"cpu\": \x7b\"memCost\": \"[0:1:10]\", \"program\": \"p.trace\"\x7d\x7d"),
    (["p.trace"], some "compute 3\nhalt\n"),
    (["f.trace"], some "halt\n")]

def longerConfigured : Config where
  cpu := { memoryCost := some "[0:1:10]", program := some "p.trace" }

theorem configuration_twoPrograms (option : Option String) :
    RunOptions.configuration { config := some "c.json", program := option } twoPrograms =
      .ok (longerConfigured, [configurationLine "c.json" longerConfigured]) := by
  have found : loadConfig twoPrograms "c.json" = .ok longerConfigured := by decide +kernel
  show (loadConfig twoPrograms "c.json" >>= _) = _
  rw [found]
  rfl

theorem exists_build_longerConfigured :
    ∃ platform, longerConfigured.build = .ok platform ∧ platform.cores.length = 1 := by
  decide +kernel

theorem exists_of_decides_shorter {program : Option String} {result : Except ConfigError Simulator}
    (shorter : program = some "f.trace") (decides : Program.Decides program twoPrograms longerConfigured result) :
    ∃ sim, result = .ok sim ∧ sim.stations.map (·.core.workload) = [.listed [.halt]] := by
  subst shorter
  obtain ⟨platform, built, single⟩ := exists_build_longerConfigured
  have loaded : Program.load twoPrograms "f.trace" = .ok [.halt] := by decide +kernel
  obtain ⟨sim, same, -, given⟩ := decides.listed platform built "f.trace" rfl [.halt] loaded
  rw [List.map_const', single] at given
  exact ⟨sim, same, given⟩

theorem configured_program_gives_way :
    let environment : Environment := { files := twoPrograms, program := some "f.trace" }
    read none ["run", "-c", "c.json"] = .ok ⟨0, .run { config := some "c.json" }⟩ ∧
    RunOptions.configuration { config := some "c.json" } twoPrograms =
      .ok (longerConfigured, [configurationLine "c.json" longerConfigured]) ∧
    ∃ sim, sim.stations.map (·.core.workload) = [.listed [.halt]] ∧
      execute environment ["run", "-c", "c.json"] = (conclude twoPrograms { config := some "c.json" }
        [configurationLine "c.json" longerConfigured] (.ok sim)).shown environment 0 := by
  intro environment
  have command : read none ["run", "-c", "c.json"] = .ok ⟨0, .run { config := some "c.json" }⟩ := by
    decide +kernel
  have configured := configuration_twoPrograms none
  obtain ⟨result, decides, executed⟩ := @run_executes environment _ _ _ _ _ command configured
  obtain ⟨sim, rfl, given⟩ := exists_of_decides_shorter rfl decides
  exact ⟨command, configured, sim, given, executed⟩

/-- A program of the environment is executed in spite of an option, and a blank one is taken for an option, so
    that a configured program is not executed. -/
theorem environment_has_last_word :
    let heard : Environment := { files := twoPrograms, program := some "f.trace" }
    let blank : Environment := { files := twoPrograms, program := some "" }
    let asked : RunOptions := { config := some "c.json", program := some "p.trace" }
    Program.load twoPrograms "p.trace" = .ok [.compute 3, .halt] ∧
    (Program.intended (some "p.trace") (some "f.trace") (some "p.trace") = some "p.trace" ∧
      ∃ sim, sim.stations.map (·.core.workload) = [.listed [.halt]] ∧
        execute heard ["run", "-c", "c.json", "-p", "p.trace"] = (conclude twoPrograms asked
          [configurationLine "c.json" longerConfigured] (.ok sim)).shown heard 0) ∧
    Program.intended none (some "") (some "p.trace") = some "p.trace" ∧
      (execute blank ["run", "-c", "c.json"]).exitCode = refused ∧
      (execute blank ["run", "-c", "c.json"]).errors =
        "configuration error: program ``: No such file or directory (os error 2)\n" := by
  intro heard blank asked
  have loaded : Program.load twoPrograms "p.trace" = .ok [.compute 3, .halt] := by decide +kernel
  refine ⟨loaded, ⟨rfl, ?option⟩, rfl, ?blank⟩
  case option =>
    have command : read none ["run", "-c", "c.json", "-p", "p.trace"] = .ok ⟨0, .run asked⟩ := by
      decide +kernel
    have executed := @execute_of_run heard _ _ _ _ _ command (configuration_twoPrograms (some "p.trace"))
    obtain ⟨sim, same, given⟩ :=
      exists_of_decides_shorter rfl (decides_override heard asked longerConfigured)
    rw [same] at executed
    exact ⟨sim, given, executed⟩
  case blank =>
    have command : read none ["run", "-c", "c.json"] = .ok ⟨0, .run { config := some "c.json" }⟩ := by
      decide +kernel
    have executed := @execute_of_run blank _ _ _ _ _ command (configuration_twoPrograms none)
    obtain ⟨platform, built, -⟩ := exists_build_longerConfigured
    have missing : Program.load twoPrograms "" = .error (.unreadableProgram "" .notFound) := by
      decide +kernel
    have decides := decides_override blank { config := some "c.json" } longerConfigured
    rw [decides.unloaded platform built "" rfl _ missing] at executed
    rw [executed]
    exact ⟨rfl, rfl⟩

end CommandLine

end CoreTiming
