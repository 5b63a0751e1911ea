import CoreTiming.Proofs.Simulator.Halting

namespace CoreTiming

namespace Config

variable {cpu other : CpuSettings}

theorem assemble_congr (verbose : cpu.verbose = other.verbose) (policy : cpu.faultPolicy = other.faultPolicy)
    (clock : Clock) (id : Nat) (isas : List Isa) (starts : List Nat) (costs : List LatencyRange)
    (tables : List (Option (List Nat))) :
    assemble cpu clock id isas starts costs tables = assemble other clock id isas starts costs tables := by
  induction id, isas, starts, costs, tables using assemble.induct with
  | case1 id isa isas start starts cost costs table tables ih =>
    simp only [assemble, verbose, policy, ih]
  | case2 id isas starts costs tables short =>
    rw [assemble.eq_2 _ _ _ _ _ _ _ short, assemble.eq_2 _ _ _ _ _ _ _ short]

theorem build_of_program (config : Config) (program : Option String) :
    ({ config with cpu := { config.cpu with program := program } } : Config).build = config.build := by
  have cores (clock : Clock) :
      buildCores { config.cpu with program := program } clock = buildCores config.cpu clock := by
    unfold buildCores
    simp only [@assemble_congr { config.cpu with program := program } config.cpu rfl rfl]
  unfold build
  simp only [cores]

end Config

variable {environment : Environment} {config : Config} {platform : Platform}

namespace Program

theorem workloads_of_named {path : String} (named : resolve environment config.cpu.program = some path) :
    workloads environment config platform = (do
      let operations ← load environment.files path
      return (platform.cores.map fun _ => .listed operations, [loadedLine path operations.length])) := by
  unfold workloads
  rw [named]

theorem workloads_of_unnamed (unnamed : resolve environment config.cpu.program = none) :
    workloads environment config platform = .ok (platform.cores.map (synthetic config platform), []) := by
  unfold workloads
  rw [unnamed]

end Program

namespace Simulator

variable {workloads : List Workload} {first : Simulator}

theorem exists_create (platform : Platform) (supply : CoreSpec → Workload) :
    ∃ first, create platform (platform.cores.map supply) = .ok first :=
  ⟨_, if_neg fun different => different (List.length_map _)⟩

theorem map_workload_of_create (checked : platform.Sound) (created : create platform workloads = .ok first) :
    first.stations.map (·.core.workload) = workloads := by
  have prepared := prepared_of_create checked created
  apply List.ext_getElem?
  intro index
  rw [List.getElem?_map]
  by_cases known : index < platform.cores.length
  · obtain ⟨core, workload, -, given, found⟩ := station_of_create checked created known
    rw [given, found]
    rfl
  · have beyond : first.stations[index]? = none := by
      cases found : first.stations[index]? with
      | none => rfl
      | some station =>
        have start : (first.states 0).2.stations[index]? = some station := found
        exact absurd (lt_length_of_station prepared start) known
    rw [beyond, List.getElem?_eq_none (by rw [length_of_create created]; omega)]
    rfl

theorem ofConfig_of_build (built : config.build = .ok platform) : ofConfig environment config = (do
    let (workloads, lines) ← Program.workloads environment config platform
    return (← create platform workloads).logBefore lines) := by
  unfold ofConfig
  rw [built]
  rfl

theorem exists_create_of_unnamed (built : config.build = .ok platform)
    (unnamed : Program.resolve environment config.cpu.program = none) :
    ∃ first, create platform (platform.cores.map (Program.synthetic config platform)) = .ok first ∧
      ofConfig environment config = .ok first := by
  obtain ⟨first, created⟩ := exists_create platform (Program.synthetic config platform)
  refine ⟨first, created, ?_⟩
  rw [ofConfig_of_build built, Program.workloads_of_unnamed unnamed]
  simp only [created, bind, Except.bind]
  show Except.ok (first.logBefore []) = .ok first
  simp [logBefore]

end Simulator

namespace Program

/-- What comes of setting up a simulator where nothing but `program` says what its cores are to execute. -/
structure Decides (program : Option String) (files : Files) (config : Config)
    (result : Except ConfigError Simulator) : Prop where
  refused : ∀ error, config.build = .error error → result = .error error
  unloaded : ∀ platform, config.build = .ok platform → ∀ path ∈ program, ∀ error,
    load files path = .error error → result = .error error
  listed : ∀ platform, config.build = .ok platform → ∀ path ∈ program, ∀ operations,
    load files path = .ok operations → ∃ sim, result = .ok sim ∧ sim.platform = platform ∧
      sim.stations.map (·.core.workload) = platform.cores.map fun _ => .listed operations
  streamed : ∀ platform, config.build = .ok platform → program = none → ∃ sim, result = .ok sim ∧
    sim.platform = platform ∧
      sim.stations.map (·.core.workload) = platform.cores.map (synthetic config platform)

theorem decides_ofConfig (environment : Environment) (config : Config) :
    Decides (resolve environment config.cpu.program) environment.files config
      (Simulator.ofConfig environment config) where
  refused error stuck := by
    unfold Simulator.ofConfig
    rw [stuck]
    rfl
  unloaded platform built path named error stuck := by
    rw [Simulator.ofConfig_of_build built, workloads_of_named named, stuck]
    rfl
  listed platform built path named operations loaded := by
    have checked := Config.sound_of_build built
    obtain ⟨first, created⟩ := Simulator.exists_create platform fun _ => .listed operations
    have given : first.stations.map (·.core.workload) = _ := Simulator.map_workload_of_create checked created
    refine ⟨first.logBefore [loadedLine path operations.length], ?_,
      (Simulator.prepared_of_create checked created).platform_eq, given⟩
    rw [Simulator.ofConfig_of_build built, workloads_of_named named, loaded]
    simp only [bind, Except.bind, pure, Except.pure, created]
  streamed platform built unnamed := by
    have checked := Config.sound_of_build built
    obtain ⟨first, created, started⟩ := Simulator.exists_create_of_unnamed built unnamed
    exact ⟨first, started, (Simulator.prepared_of_create checked created).platform_eq,
      Simulator.map_workload_of_create checked created⟩

theorem Decides.of_named {program named : Option String} {files : Files} {result : Except ConfigError Simulator}
    (decides : Decides program files { config with cpu := { config.cpu with program := named } } result) :
    Decides program files config result := by
  obtain ⟨refused, unloaded, listed, streamed⟩ := decides
  rw [Config.build_of_program] at refused unloaded listed streamed
  exact ⟨refused, unloaded, listed, streamed⟩

end Program

end CoreTiming
