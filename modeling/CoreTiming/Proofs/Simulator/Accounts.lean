import CoreTiming.Proofs.Simulator.Runs

namespace CoreTiming

structure Core.Accounts (notes : Notes) (core : Core) (unit : Coprocessor) : Prop where
  submitted : core.counters.submitted = unit.counters.submitted
  numbered : unit.counters.submitted = unit.nextHandle
  refused : core.counters.stalls = unit.counters.rejected
  completed : core.counters.completed = core.completions.length
  balanced : core.counters.submitted = core.counters.completed + core.outstanding.length
  executed : unit.counters.executed + unit.queue.length = unit.counters.submitted
  ascending : core.outstanding.Pairwise (· < ·)
  held : ∀ handle, handle ∈ core.outstanding ↔
    handle ∈ unit.queue.map Job.handle ∨ handle ∈ unit.done.map OffloadResult.handle
  disjoint : (unit.queue.map Job.handle).Disjoint (unit.done.map OffloadResult.handle)
  once : (core.completions.map OffloadResult.handle).Nodup
  handles : notes.submissions.map Submission.handle = List.range unit.nextHandle
  answered : ∀ result ∈ core.completions, ∃ submission ∈ notes.submissions, result.Answers submission

theorem Core.Books.accounts {service : Service} {notes : Notes} {since now : Nat} {core : Core}
    {unit : Coprocessor} (books : core.Books service notes since now unit) : core.Accounts notes unit := by
  have balanced := books.balanced
  have consistent := balanced.schedule.consistent
  have accepted : core.counters.submitted = unit.nextHandle := balanced.accepted
  have counted : core.counters.completed = core.completions.length := balanced.counted
  have accounted : (core.completions.map OffloadResult.handle ++ core.outstanding).Perm
      (List.range unit.nextHandle) := balanced.accounted
  have held : core.outstanding.Perm unit.held := balanced.held
  exact {
    submitted := accepted.trans consistent.accepted.symm
    numbered := consistent.accepted
    refused := balanced.refused
    completed := counted
    balanced := by
      have lengths := accounted.length_eq
      rw [List.length_append, List.length_map, List.length_range] at lengths
      omega
    executed := consistent.executed
    ascending := balanced.ascending
    held := by
      intro handle
      rw [held.mem_iff]
      exact List.mem_append
    disjoint := List.disjoint_of_nodup_append consistent.distinct
    once := by
      have distinct := accounted.nodup_iff.mpr List.nodup_range
      exact (List.nodup_append.mp distinct).1
    handles := consistent.numbered
    answered := balanced.answered }

namespace Simulator

/-- In every state of a run a core and its coprocessor agree on all offloads. A core that has halted with
    offloads outstanding has met a fault, or the horizon. -/
theorem offloads_accounted {config : Config} {platform : Platform} (built : config.build = .ok platform)
    {spec : CoprocessorSpec} (equipped : platform.coprocessor = some spec) {workloads : List Workload}
    {first : Simulator} (created : create platform workloads = .ok first) {notes : Nat → Notes}
    {sim : Simulator} (run : Run first notes sim) {index : Nat} {station : Station}
    (found : sim.stations[index]? = some station) :
    (∃ unit, station.coprocessor = some unit ∧ station.core.Accounts (notes index) unit) ∧
      (station.core.isHalted = true → station.core.outstanding ≠ [] →
        station.core.faultPolicy = .halt ∧ 0 < station.core.counters.faults ∨
          station.core.LastEdge sim.timeline.log.toList) := by
  have prepared := prepared_of_create (Config.sound_of_build built) created
  obtain ⟨since, stands⟩ := ((run.sound prepared).stations index station found).stands
  have lent : sim.platform.coprocessor = some spec := (run.platform_eq prepared).symm ▸ equipped
  constructor
  · obtain ⟨unit, attached, books⟩ := stands.books spec lent
    exact ⟨unit, attached, books.accounts⟩
  · intro halted outstanding
    have stopped : station.core.phase = .halted := by simpa [Core.isHalted] using halted
    cases stands.resumes with
    | halted _ _ _ excused =>
      rcases excused with idle | faulted | last
      · exact absurd idle outstanding
      · exact .inl faulted
      · exact .inr last
    | edge tick active =>
      unfold Core.Active at active
      rw [stopped] at active
      cases active
    | memory tick address issuedAt waits => cases stopped.symm.trans waits
    | polling tick address issuedAt waits => cases stopped.symm.trans waits
    | fault fault waits => cases stopped.symm.trans waits

theorem offload_held_in_burst : ∃ platform first station unit, twoClocks.build = .ok platform ∧
    create platform [twoClocksWorkload] = .ok first ∧
      (first.states 4).2.stations[0]? = some station ∧ station.coprocessor = some unit ∧
        (0 ∈ unit.queue.map Job.handle ∨ 0 ∈ unit.done.map OffloadResult.handle) := by
  obtain ⟨platform, built, equipped, -, first, created, ⟨station, found, -, outstanding, -⟩, -⟩ :=
    exists_twoClocks
  obtain ⟨⟨unit, attached, accounts⟩, -⟩ :=
    offloads_accounted built equipped created (run_states first 4) found
  refine ⟨platform, first, station, unit, built, created, found, attached, ?_⟩
  apply (accounts.held 0).mp
  rw [outstanding]
  exact List.mem_singleton_self 0

end Simulator

end CoreTiming
