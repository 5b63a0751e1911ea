import CoreTiming.Proofs.Simulator.Runs

namespace CoreTiming

theorem StopCondition.excludes_of_le {stop : StopCondition} {earlier later : Nat}
    (excluded : stop.excludes earlier = true) (order : earlier ≤ later) : stop.excludes later = true := by
  cases stop with
  | drain => cases excluded
  | atTick limit =>
    have late : limit < earlier := of_decide_eq_true excluded
    exact decide_eq_true (Nat.lt_of_lt_of_le late order)

namespace Simulator

variable {notes : Nat → Notes} {sim : Simulator}

/-- The run has passed a tick, or it is over and the stop condition had not kept it from there. -/
def HasPassed (sim : Simulator) (tick : Nat) : Prop :=
  tick < sim.now ∨ sim.step? = none ∧ sim.platform.stop.excludes tick = false

theorem HasPassed.lt_of_agenda {tick : Nat} (passed : sim.HasPassed tick)
    (ordered : sim.timeline.queue.Ordered) {kind : Event → Bool} {later : Nat} {event : Event}
    (member : (later, event) ∈ sim.timeline.queue.agenda kind) : tick < later := by
  obtain ⟨-, pending, among, rfl, -⟩ := Queue.mem_agenda.mp member
  have present := ordered.present pending among
  rcases passed with before | ⟨elapsed, included⟩
  · exact Nat.lt_of_lt_of_le before present
  · by_contra order
    have due : sim.due? = none := Option.map_eq_none_iff.mp elapsed
    unfold due? at due
    cases popped : sim.timeline.queue.pop? with
    | none =>
      rw [Queue.pop?_eq_none popped] at among
      cases among
    | some outcome =>
      obtain ⟨next, queue⟩ := outcome
      have soon : next.tick ≤ pending.tick := by
        rw [(Queue.pop?_eq_some popped).1] at among
        rcases List.mem_cons.mp among with rfl | behind
        · exact Nat.le_refl _
        · exact Queue.tick_le_of_before (ordered.before_of_pop? popped pending behind)
      rw [popped] at due
      simp only at due
      split at due
      · rename_i excluded
        have late := StopCondition.excludes_of_le excluded (Nat.le_trans soon (Nat.not_lt.mp order))
        rw [included] at late
        cases late
      · cases due

theorem not_outstanding_of_passed {core : Core} {since : Nat} {log : List Log.Line}
    (ordered : sim.timeline.queue.Ordered)
    (resumes : core.Resumes since (sim.timeline.queue.agenda (Event.resumes core.id)) log)
    {finish : Nat} (passed : sim.HasPassed (core.clock.firstEdge finish))
    (awake : ∀ tick, core.haltedAt = some tick → core.clock.firstEdge finish ≤ tick)
    (later : since < finish) : core.outstanding = [] := by
  by_contra outstanding
  have reached : finish ≤ core.clock.firstEdge finish := Clock.le_firstEdge finish
  have next : core.clock.nextEdgeAfter since ≤ core.clock.firstEdge finish :=
    Clock.nextEdgeAfter_le_firstEdge later
  -- in each state the event ahead comes by the next edge, so the run has not passed that edge
  cases resumes with
  | halted stopped ended =>
    have elapsed := awake since ended
    omega
  | edge tick active asked pending future within onEdge prompt =>
    have order := @HasPassed.lt_of_agenda sim _ passed ordered (Event.resumes core.id) tick
      (.coreEdge core.id) (by rw [pending]; simp)
    have soon := prompt outstanding
    omega
  | memory tick address issuedAt waits asleep idle => exact outstanding idle
  | polling tick address issuedAt waits asked pending =>
    have order := @HasPassed.lt_of_agenda sim _ passed ordered (Event.resumes core.id)
      (core.clock.nextEdgeAfter since) (.coreEdge core.id) (by
        rw [pending]
        unfold Queue.insertLate
        split <;> simp [Queue.insertLate])
    omega
  | fault fault waits asleep pending =>
    have order := @HasPassed.lt_of_agenda sim _ passed ordered (Event.resumes core.id) since
      (.fault core.id fault) (by rw [pending]; simp)
    omega

theorem Sound.mem_observations (sound : sim.Sound notes) {index : Nat} {station : Station}
    (found : sim.stations[index]? = some station) {spec : CoprocessorSpec}
    (lent : sim.platform.coprocessor = some spec) {booking : Booking}
    (member : booking ∈ (Service.ofSpec spec).bookings (notes index).submissions)
    (near : (Service.ofSpec spec).finishTick booking ≤ horizon) {edge : Nat}
    (first : station.core.clock.edgeAtOrAfter? ((Service.ofSpec spec).finishTick booking) = some edge)
    (awake : ∀ tick, station.core.haltedAt = some tick → edge ≤ tick) (passed : sim.HasPassed edge) :
    (edge, (Service.ofSpec spec).result booking) ∈ (notes index).observations := by
  have standing := sound.stations index station found
  obtain ⟨since, stands⟩ := standing.stands
  obtain ⟨unit, attached, books⟩ := stands.books spec lent
  have balanced := books.balanced
  obtain ⟨rfl, -⟩ := Clock.edgeAtOrAfter?_eq_some first
  have resumes := stands.resumes
  rw [← standing.numbered] at resumes
  -- whatever is outstanding still has its end ahead
  have absent : booking.submission.handle ∉ station.core.outstanding := by
    intro outstanding
    have later := books.later booking member outstanding near
    rw [not_outstanding_of_passed sound.ordered resumes passed awake later] at outstanding
    cases outstanding
  have handed : booking.submission.handle ∈
      station.core.completions.map OffloadResult.handle ++ station.core.outstanding := by
    refine balanced.accounted.mem_iff.mpr (List.mem_range.mpr ?_)
    exact balanced.schedule.consistent.handle_lt (Service.submission_mem member)
  obtain ⟨result, among, named⟩ :=
    List.mem_map.mp ((List.mem_append.mp handed).resolve_right absent)
  rw [← books.observed] at among
  obtain ⟨⟨tick, _⟩, noted, rfl⟩ := List.mem_map.mp among
  -- handles are given out once, so the booking that was observed is this one
  obtain ⟨other, booked, same⟩ := books.booked _ noted
  have equal : other = booking := by
    apply balanced.schedule.eq_of_handle booked member
    exact (congrArg OffloadResult.handle same).symm.trans named
  rw [equal] at same
  simp only at same
  subst same
  have time := (books.prompt _ noted).1
  rw [Service.completedAt_result near, first] at time
  obtain rfl : _ = tick := Option.some.inj time
  exact noted

/-- Every result is seen at the first edge from its completion on, and every offload that ends before
    the core halts and the run ends has its result seen there. -/
theorem observed_at_first_edge {config : Config} {platform : Platform}
    (built : config.build = .ok platform) {spec : CoprocessorSpec}
    (equipped : platform.coprocessor = some spec) {workloads : List Workload} {first : Simulator}
    (created : create platform workloads = .ok first) {notes : Nat → Notes} {sim : Simulator}
    (run : Run first notes sim) {index : Nat} {station : Station}
    (found : sim.stations[index]? = some station) :
    (notes index).observations.map Prod.snd = station.core.completions ∧
    (∀ tick result, (tick, result) ∈ (notes index).observations →
      station.core.clock.edgeAtOrAfter? result.completedAt = some tick ∧
        result.submittedAt < result.completedAt) ∧
    (∀ booking ∈ (Service.ofSpec spec).bookings (notes index).submissions,
      booking.finish * spec.clock.period ≤ horizon → ∀ edge,
        station.core.clock.edgeAtOrAfter? (booking.finish * spec.clock.period) = some edge →
          (∀ tick, station.core.haltedAt = some tick → edge ≤ tick) → sim.HasPassed edge →
            ∃ result, (edge, result) ∈ (notes index).observations ∧
              result.Answers booking.submission ∧
                result.completedAt = booking.finish * spec.clock.period) ∧
    ∃ unit, station.coprocessor = some unit ∧ ∀ job ∈ unit.queue,
      ∃ booking ∈ (Service.ofSpec spec).bookings (notes index).submissions,
        job.submission = booking.submission ∧
          ∀ cycle, job.finishCycle = some cycle → cycle = min booking.finish horizon := by
  have prepared := prepared_of_create (Config.sound_of_build built) created
  have sound := run.sound prepared
  have lent : sim.platform.coprocessor = some spec := (run.platform_eq prepared).symm ▸ equipped
  obtain ⟨since, stands⟩ := (sound.stations index station found).stands
  obtain ⟨unit, attached, books⟩ := stands.books spec lent
  refine ⟨books.observed, ?_, ?_, unit, attached, ?_⟩
  · intro tick result noted
    exact books.prompt (tick, result) noted
  · intro booking member near edge reached awake passed
    have seen := sound.mem_observations found lent member near reached awake passed
    exact ⟨_, seen, Service.answers_result .., Service.completedAt_result near⟩
  · intro job member
    exact books.balanced.schedule.exists_booking member

theorem observed_at_three_thousand : ∃ platform first result, twoClocks.build = .ok platform ∧
    create platform [twoClocksWorkload] = .ok first ∧
      (3000, result) ∈ ((first.states 6).1 0).observations ∧ result.completedAt = 2100 := by
  obtain ⟨platform, built, equipped, stop, first, created, -, -, -, ⟨station, found, halted, clock⟩,
    submitted, elapsed⟩ := exists_twoClocks
  have run := run_states first 6
  have platform_eq := run.platform_eq (prepared_of_create (Config.sound_of_build built) created)
  obtain ⟨-, -, seen, -⟩ := observed_at_first_edge built equipped created run found
  rw [submitted, bookings_twoClocks] at seen
  have awake : ∀ tick, station.core.haltedAt = some tick → 3000 ≤ tick := by
    intro tick same
    rw [halted] at same
    exact Nat.le_of_eq (Option.some.inj same)
  have passed : (first.states 6).2.HasPassed 3000 := by
    refine .inr ⟨Option.isNone_iff_eq_none.mp elapsed, ?_⟩
    rw [platform_eq, stop]
    rfl
  have reached := seen ⟨twoClocksSubmission, 0⟩ (List.mem_singleton_self _) (by decide) 3000
    (by rw [clock]; decide) awake passed
  obtain ⟨result, noted, -, completed⟩ := reached
  exact ⟨platform, first, result, built, created, noted, completed⟩

end Simulator

end CoreTiming
