import CoreTiming.Proofs.Core.Halting
import CoreTiming.Proofs.Simulator.Dispatch
import CoreTiming.Proofs.Simulator.Safety

namespace CoreTiming.Simulator

variable {platform : Platform} {first : Simulator} {index events : Nat} {station : Station}

theorem lt_length_of_station (prepared : first.Prepared platform)
    (found : (first.states events).2.stations[index]? = some station) : index < platform.cores.length := by
  have run := run_states first events
  have known := (List.getElem?_eq_some_iff.mp found).1
  exact Nat.lt_of_lt_of_le known (run.length_sources prepared ▸ (run.sound prepared).sources)

theorem quiet_of_states (checked : platform.Sound) {workloads : List Workload}
    (created : create platform workloads = .ok first)
    (found : (first.states events).2.stations[index]? = some station) : station.core.Quiet := by
  have prepared := prepared_of_create checked created
  obtain ⟨core, workload, -, -, start⟩ :=
    station_of_create checked created (lt_length_of_station prepared found)
  have awake : (first.states 0).2.stations[index]? = _ := start
  obtain ⟨same, present, quiet⟩ := prepared.core_induction awake (Core.quiet_of_awake rfl)
    (fun _ _ _ _ _ takes _ quiet => takes.quiet_deliver quiet) (Nat.zero_le events)
  obtain rfl : station = same := Option.some.inj (found.symm.trans present)
  exact quiet

/-- A core that has halted stays as it is to the end of the run, whatever is still pending for it: its
    state and program counter, its counters, its offloads, the operation it has put aside and what is left
    of its stream. Only stores that are in flight may still be answered. -/
theorem halted_for_good {config : Config} (built : config.build = .ok platform)
    {workloads : List Workload} (created : create platform workloads = .ok first)
    (found : (first.states events).2.stations[index]? = some station)
    (halted : station.core.isHalted = true) :
    (∀ later, events ≤ later → ∃ after, (first.states later).2.stations[index]? = some after ∧
      station.core.Frozen after.core) ∧
    ∃ last summary after, first.run = (last, .ok summary) ∧ last.stations[index]? = some after ∧
      station.core.Frozen after.core := by
  have checked := Config.sound_of_build built
  have prepared := prepared_of_create checked created
  have quiet := quiet_of_states checked created found
  have onwards : ∀ later, events ≤ later → ∃ after,
      (first.states later).2.stations[index]? = some after ∧ station.core.Frozen after.core := by
    intro later order
    refine prepared.core_induction found (.refl _) ?_ order
    intro _ _ _ _ _ takes _ frozen
    exact frozen.trans (takes.frozen_deliver (frozen.isHalted.trans halted) (frozen.quiet quiet))
  refine ⟨onwards, ?_⟩
  obtain ⟨ended, summary, ran, -, reached, elapsed, -⟩ :=
    prepared.run_eq (potential_le_of_create created).1
  rw [reached] at elapsed
  obtain ⟨after, left, frozen⟩ := onwards (summary.events + events) (Nat.le_add_left ..)
  rw [states_of_elapsed elapsed, ← reached] at left
  exact ⟨_, summary, after, ran, left, frozen⟩

theorem answered_after_halt : ∃ platform first station after, twoCoresTable.build = .ok platform ∧
    create platform ([[.store 8, .halt], []].map .listed) = .ok first ∧
    (first.states 3).2.stations[0]? = some station ∧ station.core.isHalted = true ∧
    station.core.haltedAt = some 1000 ∧ station.core.storesInFlight = 1 ∧
    (first.states 4).2.stations[0]? = some after ∧ after.core.storesInFlight = 0 ∧
    station.core.Frozen after.core := by
  obtain ⟨platform, built, first, created, station, found, halted, time, flying, same, answered, landed⟩ :
      ∃ platform, twoCoresTable.build = .ok platform ∧
        ∃ first, create platform ([[.store 8, .halt], []].map .listed) = .ok first ∧
          ∃ station, (first.states 3).2.stations[0]? = some station ∧ station.core.isHalted = true ∧
            station.core.haltedAt = some 1000 ∧ station.core.storesInFlight = 1 ∧
            ∃ after, (first.states 4).2.stations[0]? = some after ∧ after.core.storesInFlight = 0 := by
    decide +kernel
  obtain ⟨after, left, frozen⟩ := (halted_for_good built created found halted).1 4 (by decide)
  obtain rfl : same = after := Option.some.inj (answered.symm.trans left)
  exact ⟨platform, first, station, same, built, created, found, halted, time, flying, answered, landed, frozen⟩

end CoreTiming.Simulator
