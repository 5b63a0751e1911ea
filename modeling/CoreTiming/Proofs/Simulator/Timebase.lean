import CoreTiming.Proofs.Simulator.Guise

namespace CoreTiming

/-- Another timebase, of which `factor` ticks make one tick of the platform. -/
def Guise.finer (platform : Platform) (timebase : Float) {factor : Nat} (positive : 0 < factor) : Guise where
  timebase := timebase
  factor := factor
  factor_pos := positive
  statisticLevel := platform.statisticLevel
  coreVerbosity := fun _ verbose => verbose
  unitVerbosity := id

namespace Simulator

/-- The other simulator is in the same state, at the ticks of another timebase. -/
structure Scales (guise : Guise) (sim other : Simulator) : Prop where
  queue : other.timeline.queue = guise.queue sim.timeline.queue
  latency : other.latency = sim.latency
  stations : other.stations = sim.stations.map guise.station
  summary : other.summary = sim.summary.map guise.summary
  records : other.timeline.sink.records.toList = sim.timeline.sink.records.toList.map guise.record

end Simulator

namespace Guise

variable {guise : Guise} {platform : Platform} {sim other : Simulator}

theorem Gathers.map {sink shown : Sink} (gathers : guise.Gathers guise.statisticLevel sink shown) :
    shown.records.toList = sink.records.toList.map guise.record := by
  rw [gathers.filter (Nat.le_refl _)]
  obtain ⟨records, -, also⟩ := gathers.offered
  rw [also, List.filter_filter]
  simp only [Bool.and_self]

theorem Resembles.scales (resembles : guise.Resembles platform sim other)
    (level : platform.statisticLevel = guise.statisticLevel) : sim.Scales guise other where
  queue := resembles.queue
  latency := resembles.latency
  stations := resembles.stations
  summary := resembles.summary
  records := (level ▸ resembles.gathers).map

end Guise

namespace Simulator

variable {platform : Platform} {first second : Simulator}

theorem summary_run {sim : Simulator} {summary : Summary} (ran : sim.run.2 = .ok summary) :
    sim.run.1.summary = some summary := by
  unfold run at ran ⊢
  cases closed : sim.summary with
  | some earlier =>
    rw [closed] at ran
    rw [closed]
    exact congrArg some (Except.ok.inj ran)
  | none =>
    rw [closed] at ran
    simp only at ran ⊢
    cases failed : (sim.apply (.line sim.startLine)).advance.2 with
    | some core =>
      rw [failed] at ran
      cases ran
    | none =>
      rw [failed] at ran
      exact congrArg some (Except.ok.inj ran)

/-- No burst that a core begins at the next event is cut at the last edge of its clock. -/
def EndsBursts (sim : Simulator) : Prop :=
  ∀ index turn, sim.edgeTurn? index = some turn → ∀ cycles workload,
    turn.Performs (.compute cycles) workload → turn.cycle + max cycles 1 ≤ turn.core.clock.lastCycle

/-- A run in a timebase `factor` times as fine goes through the same states with the same events, at
    `factor` times the ticks. The horizon must have no part in it: no number that decides where an event leads
    lies past it, and no burst is cut at the last edge. In the coarser timebase they all come earlier. -/
theorem runs_scale {timebase : Float} {factor : Nat} (positive : 0 < factor) {workloads : List Workload}
    (created : create platform workloads = .ok first)
    (also : create ((Guise.finer platform timebase positive).platform platform) workloads = .ok second)
    (fits : ∀ events, ∀ number ∈ (second.states events).2.reckons, number ≤ horizon)
    (whole : ∀ events, (second.states events).2.EndsBursts) :
    (∀ events, second.history events =
        (first.history events).map (Guise.finer platform timebase positive).pending ∧
      (first.states events).2.Scales (Guise.finer platform timebase positive) (second.states events).2) ∧
    second.run.2 = first.run.2.map (Guise.finer platform timebase positive).summary ∧
    first.run.1.Scales (Guise.finer platform timebase positive) second.run.1 ∧
    ∀ summary, first.run.2 = .ok summary → second.run.1.records.records.toList =
      first.run.1.records.records.toList.map (Guise.finer platform timebase positive).record := by
  have resembles := Guise.resembles_of_create created also
  have admits : ∀ events, (Guise.finer platform timebase positive).Admits (second.states events).2 := by
    intro events
    constructor
    · exact fun number among => .inr (fits events number among)
    · exact fun index turn edge cycles workload performs =>
        .inr (whole events index turn edge cycles workload performs)
  obtain ⟨ended, outcome⟩ := Guise.run_resembles resembles admits
  refine ⟨fun events => ?_, outcome, ended.scales rfl, ?_⟩
  · obtain ⟨states, histories⟩ := Guise.resembles_states resembles admits events
    exact ⟨histories, states.scales rfl⟩
  · intro summary ran
    exact (ended.records (summary_run ran)).map

theorem forall_states_of_elapsed {property : Simulator → Prop} {last : Nat}
    (elapsed : (second.states last).2.step? = none) (idle : ∀ sim, sim.due? = none → property sim)
    (early : ∀ events < last, property (second.states events).2) (events : Nat) :
    property (second.states events).2 := by
  rcases Nat.lt_or_ge events last with before | after
  · exact early events before
  · obtain ⟨more, rfl⟩ := Nat.exists_eq_add_of_le after
    rw [states_of_elapsed elapsed more]
    exact idle _ (Option.map_eq_none_iff.mp elapsed)

theorem reckons_of_idle (sim : Simulator) (idle : sim.due? = none) :
    ∀ number ∈ sim.reckons, number ≤ horizon := by
  unfold reckons
  rw [idle]
  simp

theorem endsBursts_of_idle (sim : Simulator) (idle : sim.due? = none) : sim.EndsBursts := by
  intro index turn edge
  obtain ⟨_, _, _, due, -⟩ := exists_of_edgeTurn? edge
  cases idle.symm.trans due

def leavesRoom (turn : Turn) : Bool :=
  match turn.core.workload.next? with
  | some (.compute cycles, _) => turn.cycle + max cycles 1 ≤ turn.core.clock.lastCycle
  | _ => true

theorem endsBursts_of_single {sim : Simulator} (single : sim.stations.length = 1)
    (room : (sim.edgeTurn? 0).all leavesRoom = true) : sim.EndsBursts := by
  intro index turn edge cycles workload performs
  obtain ⟨_, _, _, -, found, -⟩ := exists_of_edgeTurn? edge
  obtain ⟨known, -⟩ := List.getElem?_eq_some_iff.mp found
  obtain rfl : index = 0 := by omega
  rw [edge, Option.all_some, leavesRoom] at room
  rcases performs.chosen with ⟨-, taken⟩ | ⟨work, -, different, -⟩
  · rw [taken] at room
    exact of_decide_eq_true room
  · cases different

def twoClocksSampled : Config :=
  { twoClocks with statisticLevel := 5 }

def loadedWorkload : Workload :=
  .listed [.load 8, .offload ⟨7, 3, [1]⟩, .compute 2, .halt]

theorem twoClocksSampled_scales : ∃ platform first second summary, twoClocksSampled.build = .ok platform ∧
    create platform [loadedWorkload] = .ok first ∧
    create ((Guise.finer platform platform.timebase (show 0 < 3 by decide)).platform platform)
      [loadedWorkload] = .ok second ∧
    (∀ events, ∀ number ∈ (second.states events).2.reckons, number ≤ horizon) ∧
    (∀ events, (second.states events).2.EndsBursts) ∧
    ⟨"cpu.core0", .offloadLatency, 3000⟩ ∈ (first.states 8).2.timeline.sink.records.toList ∧
    ⟨"cpu.core0", .offloadLatency, 3 * 3000⟩ ∈ (second.states 8).2.timeline.sink.records.toList ∧
    first.run.2 = .ok summary ∧ second.run.2 = .ok { summary with endTick := 3 * summary.endTick } := by
  obtain ⟨platform, built, first, created, sampled, second, also, early, room, elapsed⟩ :
      ∃ platform, twoClocksSampled.build = .ok platform ∧
        ∃ first, create platform [loadedWorkload] = .ok first ∧
          ⟨"cpu.core0", .offloadLatency, 3000⟩ ∈ (first.states 8).2.timeline.sink.records.toList ∧
          ∃ second, create ((Guise.finer platform platform.timebase (show 0 < 3 by decide)).platform
              platform) [loadedWorkload] = .ok second ∧
            (∀ events < 8, ∀ number ∈ (second.states events).2.reckons, number ≤ horizon) ∧
            (∀ events < 8, (second.states events).2.stations.length = 1 ∧
              ((second.states events).2.edgeTurn? 0).all leavesRoom = true) ∧
            (second.states 8).2.step?.isNone = true := by
    decide +kernel
  have idle := Option.isNone_iff_eq_none.mp elapsed
  have fits := forall_states_of_elapsed idle reckons_of_idle early
  have whole := forall_states_of_elapsed idle endsBursts_of_idle fun events before =>
    endsBursts_of_single (room events before).1 (room events before).2
  obtain ⟨states, outcome, -, -⟩ := runs_scale (by decide) created also fits whole
  obtain ⟨last, summary, ran, -⟩ := (prepared_of_create (Config.sound_of_build built) created).run_eq
    (potential_le_of_create created).1
  rw [ran] at outcome
  have scaled : ⟨"cpu.core0", .offloadLatency, 3 * 3000⟩ ∈ (second.states 8).2.timeline.sink.records.toList := by
    rw [(states 8).2.records]
    exact List.mem_map.mpr ⟨_, sampled, Guise.record_offloadLatency ..⟩
  exact ⟨platform, first, second, summary, built, created, also, fits, whole, sampled, scaled,
    congrArg Prod.snd ran, outcome⟩

def slowClock : Config where
  cpu := { clock := "1000000000000", memoryCost := some "[0:1:4]" }

def longWorkload : Workload :=
  .listed [.compute 4294967295, .halt]

/-- A burst that is cut ends at the last edge of its clock, which does not move with the timebase: here it is
    the same tick for a period and for twice that period. Both runs come to their `halt`, and no number of
    theirs runs into the horizon. -/
theorem cut_burst_does_not_scale : ∃ platform first second, slowClock.build = .ok platform ∧
    platform.stop = .drain ∧ create platform [longWorkload] = .ok first ∧
    create ((Guise.finer platform platform.timebase (show 0 < 2 by decide)).platform platform)
      [longWorkload] = .ok second ∧
    (∀ events, ∀ number ∈ (first.states events).2.reckons, number ≤ horizon) ∧
    (∀ events, ∀ number ∈ (second.states events).2.reckons, number ≤ horizon) ∧
    first.run.1.stations.map (·.core.counters.retired) = [2] ∧
    second.run.1.stations.map (·.core.counters.retired) = [2] ∧
    first.run.2 = .ok ⟨18446744000000000000, .drained, 2⟩ ∧
    second.run.2 = .ok ⟨18446744000000000000, .drained, 2⟩ ∧
    second.run.2 ≠
      first.run.2.map (Guise.finer platform platform.timebase (show 0 < 2 by decide)).summary := by
  obtain ⟨platform, built, stop, first, created, second, also, early, before, elapsed, ended, retired, executed,
      coarse, fine⟩ : ∃ platform, slowClock.build = .ok platform ∧ platform.stop = .drain ∧
        ∃ first, create platform [longWorkload] = .ok first ∧
          ∃ second, create ((Guise.finer platform platform.timebase (show 0 < 2 by decide)).platform platform)
              [longWorkload] = .ok second ∧
            (∀ events < 2, ∀ number ∈ (first.states events).2.reckons, number ≤ horizon) ∧
            (∀ events < 2, ∀ number ∈ (second.states events).2.reckons, number ≤ horizon) ∧
            (first.states 2).2.step?.isNone = true ∧ (second.states 2).2.step?.isNone = true ∧
            first.run.1.stations.map (·.core.counters.retired) = [2] ∧
            second.run.1.stations.map (·.core.counters.retired) = [2] ∧
            first.run.2 = .ok ⟨18446744000000000000, .drained, 2⟩ ∧
            second.run.2 = .ok ⟨18446744000000000000, .drained, 2⟩ := by
    decide +kernel
  have fits := forall_states_of_elapsed (Option.isNone_iff_eq_none.mp elapsed) reckons_of_idle early
  have also_fits := forall_states_of_elapsed (Option.isNone_iff_eq_none.mp ended) reckons_of_idle before
  refine ⟨platform, first, second, built, stop, created, also, fits, also_fits, retired, executed, coarse, fine, ?_⟩
  rw [fine, coarse]
  intro same
  have ends : 18446744000000000000 = 2 * 18446744000000000000 := congrArg Summary.endTick (Except.ok.inj same)
  exact absurd ends (by decide)

end Simulator

end CoreTiming
