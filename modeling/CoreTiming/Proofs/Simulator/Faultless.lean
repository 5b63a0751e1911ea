import CoreTiming.Proofs.Core.Faultless
import CoreTiming.Proofs.Program.Synthetic
import CoreTiming.Proofs.Simulator.Supply

namespace CoreTiming

theorem Mix.Yields.safe {mix : Mix} {attached : Bool} {size : Nat} {operation : Operation}
    (yields : (mix.inEffect attached).Yields size operation) : operation.Safe ⟨size⟩ attached := by
  cases operation with
  | load address => exact decide_eq_true yields.2.2
  | store address => exact decide_eq_true yields.2.2
  | compute cycles => trivial
  | offload work =>
    have weighs : 0 < if attached then mix.offload else 0 := yields.1
    cases attached with
    | false => exact absurd weighs (Nat.lt_irrefl 0)
    | true => rfl
  | wait | halt => trivial

theorem Program.Streams.safe {config : Config} {platform : Platform} {workload : Workload}
    {stream : List Operation} (streams : Streams config platform workload stream) :
    workload.Safe ⟨platform.memorySize⟩ platform.coprocessor.isSome := by
  intro count operation member
  rw [streams.take] at member
  exact (streams.yields operation (List.mem_of_mem_take member)).safe

namespace Simulator

variable {environment : Environment} {config : Config} {platform : Platform} {first : Simulator}
  {workloads : List Workload}

structure Faultless (cores : Nat) (sim : Simulator) : Prop where
  count : sim.stations.length = cores
  faults : ∀ station ∈ sim.stations, station.core.counters.faults = 0

theorem faultless_of_safe (checked : platform.Sound) (created : create platform workloads = .ok first)
    (safe : ∀ workload ∈ workloads, workload.Safe ⟨platform.memorySize⟩ platform.coprocessor.isSome)
    (events : Nat) : (first.states events).2.Faultless platform.cores.length := by
  have prepared := prepared_of_create checked created
  have clean : ∀ index < platform.cores.length, ∃ station,
      (first.states events).2.stations[index]? = some station ∧
        station.core.Clean ⟨platform.memorySize⟩ platform.coprocessor.isSome := by
    intro index known
    obtain ⟨core, workload, -, given, start⟩ := station_of_create checked created known
    have begun : (first.states 0).2.stations[index]? = _ := start
    refine prepared.core_induction begun ?_ ?_ (Nat.zero_le events)
    · exact { Core.clean_ofSpec core (safe workload (List.mem_of_getElem? given)) with }
    · exact fun _ _ _ _ _ takes within clean => takes.clean_deliver within clean
  constructor
  · refine Nat.le_antisymm (Nat.le_of_not_lt fun more => ?_) (Nat.le_of_not_lt fun fewer => ?_)
    · exact Nat.lt_irrefl _ (lt_length_of_station prepared (List.getElem?_eq_getElem more))
    · obtain ⟨station, found, -⟩ := clean _ fewer
      rw [List.getElem?_eq_none (Nat.le_refl _)] at found
      cases found
  · intro station member
    obtain ⟨index, found⟩ := List.mem_iff_getElem?.mp member
    obtain ⟨same, present, kept⟩ := clean index (lt_length_of_station prepared found)
    obtain rfl : station = same := Option.some.inj (found.symm.trans present)
    exact kept.faults

/-- Without a program each core has a stream of its own that keeps to its mix and to memory, and no core
    ever meets a fault. -/
theorem synthetic_runs_faultless (built : config.build = .ok platform)
    (unnamed : Program.resolve environment config.cpu.program = none) (words : config.Words) :
    (∃ workloads, Program.workloads environment config platform = .ok (workloads, []) ∧
      workloads.length = config.cpu.cores ∧
      ∀ workload ∈ workloads, ∃ stream, Program.Streams config platform workload stream) ∧
    ∃ first, ofConfig environment config = .ok first ∧
      (∀ events, (first.states events).2.Faultless config.cpu.cores) ∧
      ∃ last summary, first.run = (last, .ok summary) ∧ last.Faultless config.cpu.cores := by
  have checked := Config.sound_of_build built
  have count := (Config.valid_of_build built).count
  have streams : ∀ workload ∈ platform.cores.map (Program.synthetic config platform),
      ∃ stream, Program.Streams config platform workload stream := by
    intro workload member
    obtain ⟨core, -, rfl⟩ := List.mem_map.mp member
    exact Program.exists_stream built words core
  refine ⟨⟨_, Program.workloads_of_unnamed unnamed, (List.length_map _).trans count, streams⟩, ?_⟩
  obtain ⟨first, created, started⟩ := exists_create_of_unnamed built unnamed
  have faultless : ∀ events, (first.states events).2.Faultless config.cpu.cores := by
    intro events
    rw [← count]
    refine faultless_of_safe checked created (fun workload member => ?_) events
    obtain ⟨stream, gives⟩ := streams workload member
    exact gives.safe
  obtain ⟨ended, summary, ran, -, reached, -⟩ :=
    (prepared_of_create checked created).run_eq (potential_le_of_create created).1
  refine ⟨first, started, faultless, _, summary, ran, ?_⟩
  have last := faultless summary.events
  rw [← reached] at last
  exact { last with }

def narrowMix : Config where
  cpu := {
    cores := 2
    machine := "[CORES:RV64I]"
    memoryCost := some "[CORES:1:4]"
    coprocessor := true }
  synthetic := {
    operations := 5
    loadWeight := 1
    storeWeight := 0
    computeWeight := 0
    offloadWeight := 2
    addressSpan := some 3 }

theorem narrowMix_faultless : ∃ platform, narrowMix.build = .ok platform ∧
    Program.resolve { files := ⟨[]⟩ } narrowMix.cpu.program = none ∧ narrowMix.Words ∧
    (∃ workloads, Program.workloads { files := ⟨[]⟩ } narrowMix platform = .ok (workloads, []) ∧
      workloads.length = 2 ∧ ∀ workload ∈ workloads, ∃ stream, stream.length = 5 ∧
        Program.Streams narrowMix platform workload stream) ∧
    ∃ first last summary, ofConfig { files := ⟨[]⟩ } narrowMix = .ok first ∧
      first.run = (last, .ok summary) ∧ last.Faultless 2 := by
  obtain ⟨platform, built, -⟩ : ∃ platform, narrowMix.build = .ok platform ∧
      platform.coprocessor.isSome = true := by decide +kernel
  have unnamed : Program.resolve { files := ⟨[]⟩ } narrowMix.cpu.program = none := rfl
  have words : narrowMix.Words := ⟨by decide, by decide, by decide⟩
  obtain ⟨⟨workloads, given, count, streams⟩, first, started, -, last, summary, ran, faultless⟩ :=
    synthetic_runs_faultless built unnamed words
  refine ⟨platform, built, unnamed, words, ⟨workloads, given, count, fun workload member => ?_⟩,
    first, last, summary, started, ran, faultless⟩
  obtain ⟨stream, gives⟩ := streams workload member
  exact ⟨stream, gives.length, gives⟩

end Simulator

end CoreTiming
