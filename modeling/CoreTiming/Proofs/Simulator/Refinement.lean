import CoreTiming.Proofs.Core.Reference
import CoreTiming.Proofs.Simulator.Separation
import CoreTiming.Proofs.Simulator.Turns

namespace CoreTiming

def Platform.reference (platform : Platform) (core : CoreSpec) (operations : List Operation) : Reference :=
  Reference.run ⟨platform.memorySize⟩ core.faultPolicy operations
    { source := LatencyModel.ofSpec platform.seed core }

namespace Simulator

def Tracks (index : Nat) (clock : Clock) (final : Reference) (sim : Simulator) : Prop :=
  ∃ station, sim.stations[index]? = some station ∧ station.core.clock = clock ∧
    station.core.outstanding = [] ∧
    station.core.Tracks sim.memory final (sim.awaiting index) sim.latency.sources[index]?

variable {notes : Nat → Notes} {sim next first : Simulator} {platform : Platform} {index : Nat}
  {clock : Clock} {final : Reference} {core : CoreSpec} {operations : List Operation}

theorem Sound.platform_step (sound : sim.Sound notes) {failed : Option Nat}
    (stepped : sim.step? = some (next, failed)) : next.platform = sim.platform := by
  obtain ⟨pending, queue, station, done, -, -, -, -, rfl, -⟩ := sound.step?_eq_some stepped
  rfl

theorem Handles.unaided {event : Event} {rest : List (Nat × Event)} {turn : Turn}
    (handles : Handles notes sim next index event rest turn) (sound : sim.Sound notes)
    (bare : sim.platform.coprocessor = none) (idle : turn.core.outstanding = []) : turn.Unaided := by
  have equipped := (sound.stations index _ handles.station).equipped
  rw [bare] at equipped
  exact ⟨Option.isNone_iff_eq_none.mp (Option.isSome_eq_false_iff.mp equipped), idle⟩

theorem Tracks.step (tracks : Tracks index clock final sim) (sound : sim.Sound notes)
    (bare : sim.platform.coprocessor = none) (within : final.cycle ≤ clock.lastCycle)
    {failed : Option Nat} (stepped : sim.step? = some (next, failed)) : Tracks index clock final next := by
  obtain ⟨station, found, rfl, idle, tracks⟩ := tracks
  have memory : next.memory = sim.memory :=
    congrArg (fun platform => MemoryMap.mk platform.memorySize) (sound.platform_step stepped)
  rcases sound.step_cases stepped index with passes | ⟨event, rest, turn, handles⟩
  · refine ⟨station, passes.station.trans found, rfl, idle, ?_⟩
    rw [memory, passes.awaiting, passes.source]
    exact tracks
  · obtain rfl := Option.some.inj (found.symm.trans handles.station)
    have unaided := handles.unaided sound bare idle
    rw [← handles.memory, handles.awaited, ← handles.latency, ← handles.numbered] at tracks
    have after := handles.takes.tracks_deliver unaided within tracks
    refine ⟨_, handles.left, handles.takes.frame_deliver.2.1, (unaided.deliver event).idle, ?_⟩
    rw [memory, ← handles.memory, handles.awaiting, handles.drawn, ← handles.numbered]
    exact after

theorem Run.tracks (prepared : first.Prepared platform) (run : Run first notes sim)
    (bare : platform.coprocessor = none) (within : final.cycle ≤ clock.lastCycle)
    (start : Tracks index clock final first) : Tracks index clock final sim := by
  induction run with
  | start => exact start
  | next run stepped ih =>
    exact ih.step (run.sound prepared) ((run.platform_eq prepared).symm ▸ bare) within stepped

theorem tracks_of_create (checked : platform.Sound) {programs : List (List Operation)}
    (created : create platform (programs.map .listed) = .ok first)
    (specified : platform.cores[index]? = some core) (given : programs[index]? = some operations) :
    Tracks index core.clock (platform.reference core operations) first := by
  have prepared := prepared_of_create checked created
  have listed : (programs.map Workload.listed)[index]? = some (.listed operations) := by
    rw [List.getElem?_map, given]
    rfl
  obtain ⟨station, found, view⟩ :=
    Option.map_eq_some_iff.mp (view?_of_create checked created specified listed)
  have number : core.id = index := checked.numbered index core specified
  have draws : first.latency.sources[index]? =
      some (LatencyModel.ofSpec platform.seed core) := by
    have latency : first.latency.only index =
        (LatencyModel.ofSpecs platform.cores platform.seed).only core.id := congrArg View.latency view
    rw [← LatencyModel.getElem?_only, latency, number, LatencyModel.getElem?_only]
    show (platform.cores.map (LatencyModel.ofSpec platform.seed))[index]? = _
    rw [List.getElem?_map, specified]
    rfl
  have memory : first.memory = ⟨platform.memorySize⟩ := by
    rw [← prepared.platform_eq]
    rfl
  obtain rfl : station = ⟨{ Core.ofSpec core (.listed operations) with nextEdge := some 0 },
    platform.coprocessor.map (.ofSpec core.id)⟩ := congrArg View.station view
  refine ⟨_, found, rfl, rfl, ?_⟩
  rw [memory]
  refine .operation 0 operations _ ?_ rfl draws rfl
  exact {
    fresh := rfl
    within := Nat.zero_le _
    early := fun outstanding => absurd rfl outstanding
    returns := .running rfl (congrArg some (Nat.zero_mul _).symm) }

/-- Without coprocessors a run drains. A core whose operations, done one after the other, end by its last
    cycle then halts at the end of them, and has counted what they count. -/
theorem cores_run_in_sequence {config : Config} {platform : Platform}
    (built : config.build = .ok platform) (bare : platform.coprocessor = none)
    (drains : platform.stop = .drain) {programs : List (List Operation)} {first : Simulator}
    (created : create platform (programs.map .listed) = .ok first) :
    ∃ last summary, first.run = (last, .ok summary) ∧ summary.reason = .drained ∧
      ∀ (index : Nat) (core : CoreSpec) (operations : List Operation),
        platform.cores[index]? = some core → programs[index]? = some operations →
        (platform.reference core operations).cycle ≤ core.clock.lastCycle →
          ∃ station, last.stations[index]? = some station ∧ station.core.isHalted = true ∧
            station.core.haltedAt =
              some ((platform.reference core operations).cycle * core.clock.period) ∧
            station.core.counters = (platform.reference core operations).counters := by
  have checked := Config.sound_of_build built
  have prepared := prepared_of_create checked created
  obtain ⟨notes, ended, reached, elapsed, same⟩ := prepared.exists_run
  obtain ⟨reason, drained⟩ : ended.ending.reason = .drained ∧ ended.timeline.queue.pending = [] := by
    rcases pending_of_elapsed elapsed with drained | ⟨-, limit, -, -, stop, -⟩
    · exact drained
    · rw [reached.platform_eq prepared, drains] at stop
      cases stop
  refine ⟨_, _, same, reason, ?_⟩
  intro index core operations specified given within
  obtain ⟨station, found, clock, -, tracks⟩ :=
    reached.tracks prepared bare within (tracks_of_create checked created specified given)
  -- nothing is pending, so no core waits for anything
  have halted := (reached.sound prepared).isHalted_of_drained drained found
  obtain ⟨time, counted⟩ := tracks.of_isHalted halted
  exact ⟨station, found, halted, clock ▸ time, counted⟩

/-- Two cores without coprocessors, whose loads take three cycles and two in turn. -/
def inTurn : Config where
  cpu := {
    cores := 2
    machine := "[CORES:RV64I]"
    memoryCost := some "[CORES:1:4]"
    memoryCostTable := some "[CORES:3|2]"
    faultPolicy := .continue }

def inTurnProgram : List Operation :=
  [.compute 2, .load 8, .store 16, .offload ⟨1, 9, []⟩, .wait, .halt, .compute 5]

theorem inTurn_halts_at_eight_thousand : ∃ platform first last summary station,
    inTurn.build = .ok platform ∧
      create platform ([inTurnProgram, [.load 16, .load 8]].map .listed) = .ok first ∧
      first.run = (last, .ok summary) ∧ summary.reason = .drained ∧
      last.stations[0]? = some station ∧ station.core.isHalted = true ∧
      station.core.haltedAt = some 8000 ∧ station.core.counters.retired = 5 ∧
      station.core.counters.faults = 1 ∧ station.core.counters.latency = 5 := by
  obtain ⟨platform, built, bare, stop, first, created, core, specified, clock, cycle, counters⟩ :
      ∃ platform, inTurn.build = .ok platform ∧ platform.coprocessor = none ∧ platform.stop = .drain ∧
        ∃ first, create platform ([inTurnProgram, [.load 16, .load 8]].map .listed) = .ok first ∧
          ∃ core, platform.cores[0]? = some core ∧ core.clock = .ofPeriod 1000 ∧
            (platform.reference core inTurnProgram).cycle = 8 ∧
            (platform.reference core inTurnProgram).counters = ⟨5, 1, 1, 1, 5, 0, 0, 0⟩ := by
    decide +kernel
  obtain ⟨last, summary, ran, drained, sequence⟩ := cores_run_in_sequence built bare stop created
  obtain ⟨station, found, halted, time, counted⟩ :=
    sequence 0 core inTurnProgram specified rfl (by rw [cycle, clock]; decide)
  rw [cycle, clock] at time
  rw [counters] at counted
  exact ⟨platform, first, last, summary, station, built, created, ran, drained, found, halted, time,
    by rw [counted], by rw [counted], by rw [counted]⟩

end Simulator

end CoreTiming
