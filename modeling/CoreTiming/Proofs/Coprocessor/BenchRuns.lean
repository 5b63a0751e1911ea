import CoreTiming.Coprocessor.Bench
import CoreTiming.Proofs.Coprocessor.Collection
import CoreTiming.Proofs.Coprocessor.Wakeup

namespace CoreTiming.Bench

structure Poll where
  handle : Nat
  tick : Nat
  deriving DecidableEq, Repr

/-- Anything that can happen on a bench, with the offloads that were accepted and the polls that were
    made. Polls look at the present tick, and events of any kind may be scheduled. -/
inductive Run (owner : Nat) (spec : CoprocessorSpec) : List Submission → List Poll → Bench → Prop
  | start (sink : Sink) : Run owner spec [] [] ⟨.ofSpec owner spec, { sink := sink }⟩
  | accept {submissions polls bench work handle after} (run : Run owner spec submissions polls bench)
      (accepted : bench.submit work = (.ok handle, after)) :
      Run owner spec (submissions ++ [⟨handle, bench.now, work⟩]) polls after
  | refuse {submissions polls bench work refusal after} (run : Run owner spec submissions polls bench)
      (refused : bench.submit work = (.error refusal, after)) :
      Run owner spec submissions polls after
  | collect {submissions polls bench handle result after} (run : Run owner spec submissions polls bench)
      (polled : bench.poll? handle bench.now = some (result, after)) :
      Run owner spec submissions (polls ++ [⟨handle, bench.now⟩]) after
  | miss {submissions polls bench handle} (run : Run owner spec submissions polls bench)
      (polled : bench.poll? handle bench.now = none) :
      Run owner spec submissions (polls ++ [⟨handle, bench.now⟩]) bench
  | schedule {submissions polls bench} (tick : Nat) (event : Event)
      (run : Run owner spec submissions polls bench) (within : tick ≤ horizon) :
      Run owner spec submissions polls { bench with timeline := bench.timeline.schedule tick event }
  | next {submissions polls bench pending after} (run : Run owner spec submissions polls bench)
      (taken : bench.next? = some (pending, after)) :
      Run owner spec submissions polls after

/-- The unit is on schedule and will be woken, and the results that are gone are those that have been
    polled for in time. -/
structure Sound (service : Service) (submissions : List Submission) (polls : List Poll) (bench : Bench) :
    Prop where
  schedule : service.OnSchedule submissions bench.now bench.unit
  ordered : bench.timeline.queue.Ordered
  within : ∀ pending ∈ bench.timeline.queue.pending, pending.tick ≤ horizon
  awaits : bench.timeline.queue.Awaits bench.unit
  past : ∀ poll ∈ polls, poll.tick ≤ bench.now
  collected : ∀ booking ∈ service.bookings submissions, service.finishTick booking ≤ horizon →
    (booking.submission.handle ∉ bench.unit.held ↔
      ∃ poll ∈ polls, poll.handle = booking.submission.handle ∧ service.finishTick booking ≤ poll.tick)

namespace Sound

variable {service : Service} {submissions : List Submission} {polls : List Poll} {bench after : Bench}

theorem start (owner : Nat) (spec : CoprocessorSpec) (sink : Sink) :
    Sound (.ofSpec spec) [] [] ⟨.ofSpec owner spec, { sink := sink }⟩ where
  schedule := Service.onSchedule_ofSpec owner spec
  ordered := Queue.ordered_empty
  within := by simp
  awaits := by
    intro tick asked
    cases asked
  past := by simp
  collected := by simp [Service.bookings_nil]

theorem now_apply (unit : Coprocessor) (timeline : Timeline) (effects : Effects) :
    now ⟨unit, timeline.apply effects⟩ = timeline.queue.now :=
  timeline.queue.now_scheduleAll effects.posts

theorem within_apply {unit : Coprocessor} {timeline : Timeline} {effects : Effects}
    (within : ∀ pending ∈ timeline.queue.pending, pending.tick ≤ horizon)
    (edges : unit.PostsEdges timeline.queue.now effects.posts) :
    ∀ pending ∈ (timeline.apply effects).queue.pending, pending.tick ≤ horizon := by
  intro pending member
  rcases Queue.of_mem_scheduleAll member with before | ⟨post, among, same, -⟩
  · exact within pending before
  · obtain ⟨future, bound, -⟩ := edges post among
    omega

theorem refuse (sound : Sound service submissions polls bench) {work : Offload} {refusal : Backpressure}
    (refused : bench.submit work = (.error refusal, after)) :
    Sound service submissions polls after := by
  obtain ⟨asks, edges⟩ := bench.unit.asks_submit bench.now work
  have outcome : (bench.unit.submit bench.now work).1 = .error refusal := congrArg Prod.fst refused
  obtain rfl : (⟨(bench.unit.submit bench.now work).2.1,
    bench.timeline.apply (bench.unit.submit bench.now work).2.2⟩ : Bench) = after := congrArg Prod.snd refused
  have schedule : service.OnSchedule submissions bench.now (bench.unit.submit bench.now work).2.1 := by
    rcases sound.schedule.submit work with ⟨-, -, kept⟩ | ⟨accepted, -⟩
    · exact kept
    · cases outcome.symm.trans accepted
  have held : (bench.unit.submit bench.now work).2.1.held = bench.unit.held := by
    rcases bench.unit.held_submit bench.now work with ⟨-, -, same⟩ | ⟨accepted, -⟩
    · exact same
    · cases outcome.symm.trans accepted
  exact {
    schedule := by rw [now_apply]; exact schedule
    ordered := sound.ordered.scheduleAll _
    within := within_apply sound.within edges
    awaits := sound.awaits.asks asks edges (List.Subset.refl _)
    past := by rw [now_apply]; exact sound.past
    collected := by rw [held]; exact sound.collected }

theorem accept (sound : Sound service submissions polls bench) {work : Offload} {handle : Nat}
    (accepted : bench.submit work = (.ok handle, after)) :
    Sound service (submissions ++ [⟨handle, bench.now, work⟩]) polls after := by
  obtain ⟨asks, edges⟩ := bench.unit.asks_submit bench.now work
  have outcome : (bench.unit.submit bench.now work).1 = .ok handle := congrArg Prod.fst accepted
  obtain rfl : (⟨(bench.unit.submit bench.now work).2.1,
    bench.timeline.apply (bench.unit.submit bench.now work).2.2⟩ : Bench) = after := congrArg Prod.snd accepted
  have consistent := sound.schedule.consistent
  rcases sound.schedule.submit work with ⟨refusal, refused, -⟩ | ⟨named, schedule⟩
  · cases outcome.symm.trans refused
  rcases bench.unit.held_submit bench.now work with ⟨refusal, refused, -⟩ | ⟨-, held⟩
  · cases outcome.symm.trans refused
  obtain rfl : bench.unit.nextHandle = handle := Except.ok.inj (named.symm.trans outcome)
  refine {
    schedule := by rw [now_apply]; exact schedule
    ordered := sound.ordered.scheduleAll _
    within := within_apply sound.within edges
    awaits := sound.awaits.asks asks edges (List.Subset.refl _)
    past := by rw [now_apply]; exact sound.past
    collected := ?_ }
  intro booking member near
  have later := Service.tick_lt_finish member
  rw [Service.bookings_concat] at member
  rw [held.mem_iff, List.mem_cons]
  rcases List.mem_append.mp member with member | single
  · have different := Nat.ne_of_lt (consistent.handle_lt (Service.submission_mem member))
    have same := sound.collected booking member near
    simpa [different] using same
  · rw [List.mem_singleton.mp single] at later ⊢
    refine ⟨fun absent => absurd (.inl rfl) absent, ?_⟩
    rintro ⟨poll, made, -, elapsed⟩
    have early := sound.past poll made
    exact absurd (Nat.lt_of_lt_of_le later elapsed) (Nat.not_lt.mpr early)

theorem collected_poll (sound : Sound service submissions polls bench) {handle : Nat} {held : List Nat}
    (same : ∀ other, other ≠ handle → (other ∈ held ↔ other ∈ bench.unit.held))
    (own : ∀ booking ∈ service.bookings submissions, booking.submission.handle = handle →
      service.finishTick booking ≤ horizon →
        (handle ∉ held ↔ handle ∉ bench.unit.held ∨ service.finishTick booking ≤ bench.now)) :
    ∀ booking ∈ service.bookings submissions, service.finishTick booking ≤ horizon →
      (booking.submission.handle ∉ held ↔ ∃ poll ∈ polls ++ [⟨handle, bench.now⟩],
        poll.handle = booking.submission.handle ∧ service.finishTick booking ≤ poll.tick) := by
  intro booking member near
  have before := sound.collected booking member near
  simp only [List.mem_append, List.mem_singleton, or_and_right, exists_or, exists_eq_left]
  by_cases named : booking.submission.handle = handle
  · have mine := own booking member named near
    rw [named] at before ⊢
    rw [mine, before]
    simp
  · rw [same _ named, before]
    have other : handle ≠ booking.submission.handle := fun equal => named equal.symm
    simp [other]

theorem miss (sound : Sound service submissions polls bench) {handle : Nat}
    (polled : bench.poll? handle bench.now = none) :
    Sound service submissions (polls ++ [⟨handle, bench.now⟩]) bench := by
  have missed : bench.unit.poll? handle bench.now = none := Option.map_eq_none_iff.mp polled
  refine { sound with past := ?_, collected := ?_ }
  · intro poll made
    rcases List.mem_append.mp made with made | single
    · exact sound.past poll made
    · rw [List.mem_singleton.mp single]
  · refine sound.collected_poll (fun _ _ => Iff.rfl) ?_
    intro booking member named near
    subst named
    refine ⟨.inl, ?_⟩
    rintro (gone | elapsed) held
    · exact gone held
    · obtain ⟨outcome, found⟩ := sound.schedule.exists_poll? member held near elapsed
      cases found.symm.trans missed

theorem collect (sound : Sound service submissions polls bench) {handle : Nat} {result : OffloadResult}
    (polled : bench.poll? handle bench.now = some (result, after)) :
    Sound service submissions (polls ++ [⟨handle, bench.now⟩]) after := by
  obtain ⟨⟨found, unit, effects⟩, taken, same⟩ := Option.map_eq_some_iff.mp polled
  cases same
  clear polled
  obtain ⟨schedule, booking, booked, named, rfl, elapsed⟩ := sound.schedule.poll?_eq_some taken
  obtain ⟨-, handed, -, -⟩ := sound.schedule.consistent.poll taken
  obtain ⟨owner, edge, posts⟩ := Coprocessor.asks_poll? taken
  have distinct := (List.nodup_cons.mp (handed.nodup_iff.mp sound.schedule.consistent.distinct)).1
  refine {
    schedule := by rw [now_apply]; exact schedule
    ordered := sound.ordered.scheduleAll _
    within := within_apply sound.within (posts ▸ bench.unit.postsEdges_nil bench.now)
    awaits := ?_
    past := ?_
    collected := ?_ }
  · refine sound.awaits.asks ⟨owner, ?_⟩ (bench.unit.postsEdges_nil _) (List.nil_subset _)
    intro tick asked
    exact .inl (edge ▸ asked)
  · rw [now_apply]
    intro poll made
    rcases List.mem_append.mp made with made | single
    · exact sound.past poll made
    · rw [List.mem_singleton.mp single]
      exact Nat.le_refl _
  · refine sound.collected_poll ?_ ?_
    · intro other different
      rw [handed.mem_iff, List.mem_cons, or_iff_right different]
    · intro other member same near
      have equal := sound.schedule.eq_of_handle member booked (same.trans named.symm)
      subst equal
      have ended := Service.finishTick_le_of_result near elapsed
      simp [distinct, ended]

theorem schedule_event (sound : Sound service submissions polls bench) {tick : Nat}
    (bound : tick ≤ horizon) (event : Event) :
    Sound service submissions polls { bench with timeline := bench.timeline.schedule tick event } where
  schedule := sound.schedule
  ordered := sound.ordered.schedule tick event
  within pending member := by
    rcases Queue.mem_schedule.mp member with rfl | before
    · exact Nat.max_le.mpr ⟨bound, sound.schedule.within⟩
    · exact sound.within pending before
  awaits := sound.awaits.scheduleAll [(tick, event)]
  past := sound.past
  collected := sound.collected

theorem next (sound : Sound service submissions polls bench) {pending : Pending}
    (taken : bench.next? = some (pending, after)) : Sound service submissions polls after := by
  obtain ⟨⟨_, queue⟩, popped, same⟩ := Option.map_eq_some_iff.mp taken
  cases same
  obtain ⟨ordered, order⟩ := sound.ordered.pop? popped
  obtain ⟨pending_eq, now_eq, -⟩ := Queue.pop?_eq_some popped
  have bound : pending.tick ≤ horizon := sound.within pending (by rw [pending_eq]; simp)
  have within : ∀ other ∈ queue.pending, other.tick ≤ horizon := by
    intro other member
    exact sound.within other (by rw [pending_eq]; simp [member])
  have schedule : service.OnSchedule submissions queue.now bench.unit := by
    refine sound.schedule.wait order (now_eq ▸ bound) fun edge asked => ?_
    rw [now_eq]
    exact sound.awaits.tick_le sound.ordered popped asked
  have past : ∀ poll ∈ polls, poll.tick ≤ queue.now :=
    fun poll made => Nat.le_trans (sound.past poll made) order
  cases kind : pending.event with
  | coprocessorEdge core =>
    have edges := (bench.unit.asks_edge queue.now).2
    have held := bench.unit.held_edge queue.now
    exact {
      schedule := by
        simp only [deliver]
        rw [edge, now_apply]
        exact schedule.edge
      ordered := ordered.scheduleAll _
      within := within_apply within edges
      awaits := by
        have moved := sound.awaits.edge popped (List.Subset.refl _)
        rw [← now_eq] at moved
        exact moved
      past := by
        simp only [deliver]
        rw [edge, now_apply]
        exact past
      collected := by
        intro booking member near
        simp only [deliver, edge, now]
        rw [held.mem_iff]
        exact sound.collected booking member near }
  | coreEdge core =>
    exact ⟨schedule, ordered, within, sound.awaits.pop? popped (by simp [kind]), past, sound.collected⟩
  | response core address access issuedAt =>
    exact ⟨schedule, ordered, within, sound.awaits.pop? popped (by simp [kind]), past, sound.collected⟩
  | fault core fault =>
    exact ⟨schedule, ordered, within, sound.awaits.pop? popped (by simp [kind]), past, sound.collected⟩

end Sound

theorem Run.sound {owner : Nat} {spec : CoprocessorSpec} {submissions : List Submission}
    {polls : List Poll} {bench : Bench} (run : Run owner spec submissions polls bench) :
    Sound (.ofSpec spec) submissions polls bench := by
  induction run with
  | start sink => exact .start owner spec sink
  | accept _ accepted ih => exact ih.accept accepted
  | refuse _ refused ih => exact ih.refuse refused
  | collect _ polled ih => exact ih.collect polled
  | miss _ polled ih => exact ih.miss polled
  | schedule tick event _ within ih => exact ih.schedule_event within event
  | next _ taken ih => exact ih.next taken

theorem Sound.poll?_isSome_iff {service : Service} {submissions : List Submission} {polls : List Poll}
    {bench : Bench} (sound : Sound service submissions polls bench) {booking : Booking}
    (member : booking ∈ service.bookings submissions) (near : service.finishTick booking ≤ horizon) :
    (bench.poll? booking.submission.handle bench.now).isSome ↔
      service.finishTick booking ≤ bench.now ∧ ∀ poll ∈ polls,
        poll.handle = booking.submission.handle → poll.tick < service.finishTick booking := by
  have gone := sound.collected booking member near
  rw [poll?, Option.isSome_map]
  constructor
  · intro some
    obtain ⟨⟨result, unit, effects⟩, polled⟩ := Option.isSome_iff_exists.mp some
    obtain ⟨-, other, booked, named, rfl, elapsed⟩ := sound.schedule.poll?_eq_some polled
    obtain ⟨-, taken, -, -⟩ := sound.schedule.consistent.poll polled
    have held : booking.submission.handle ∈ bench.unit.held := taken.mem_iff.mpr (List.mem_cons_self ..)
    have equal := sound.schedule.eq_of_handle booked member named
    subst equal
    refine ⟨Service.finishTick_le_of_result near elapsed, ?_⟩
    intro poll made same
    by_contra late
    exact gone.mpr ⟨poll, made, same, Nat.not_lt.mp late⟩ held
  · rintro ⟨elapsed, early⟩
    have held : booking.submission.handle ∈ bench.unit.held := by
      by_contra absent
      obtain ⟨poll, made, same, late⟩ := gone.mp absent
      exact Nat.not_le.mpr (early poll made same) late
    obtain ⟨outcome, found⟩ := sound.schedule.exists_poll? member held near elapsed
    exact Option.isSome_iff_exists.mpr ⟨outcome, found⟩

/-- An offload whose booking ends within the horizon is handed over by the first poll from its end on,
    with the tick of this end, and by no other. A unit that takes one offload at a time starts each as
    soon as it is ready and the one before it is over. -/
theorem Run.served_as_booked {owner : Nat} {spec : CoprocessorSpec} {submissions : List Submission}
    {polls : List Poll} {bench : Bench} (run : Run owner spec submissions polls bench)
    {booking : Booking} (member : booking ∈ (Service.ofSpec spec).bookings submissions)
    (near : booking.finish ≤ spec.clock.lastCycle) :
    (∀ result after, bench.poll? booking.submission.handle bench.now = some (result, after) →
        result.Answers booking.submission ∧
          result.completedAt = booking.finish * spec.clock.period) ∧
      ((bench.poll? booking.submission.handle bench.now).isSome ↔
        booking.finish * spec.clock.period ≤ bench.now ∧ ∀ poll ∈ polls,
          poll.handle = booking.submission.handle →
            poll.tick < booking.finish * spec.clock.period) ∧
      (spec.issue = .single → ∀ before after,
        (Service.ofSpec spec).bookings submissions = before ++ booking :: after →
          booking.start = max (spec.clock.cycleAtOrAfter booking.submission.tick)
            ((before.getLast?.map Booking.finish).getD 0)) := by
  have sound := run.sound
  have bound : (Service.ofSpec spec).finishTick booking ≤ horizon := Clock.le_lastCycle_iff.mp near
  refine ⟨?_, sound.poll?_isSome_iff member bound, ?_⟩
  · intro result after polled
    obtain ⟨⟨found, unit, effects⟩, taken, same⟩ := Option.map_eq_some_iff.mp polled
    cases same
    obtain ⟨-, other, booked, named, rfl, -⟩ := sound.schedule.poll?_eq_some taken
    have equal := sound.schedule.eq_of_handle booked member named
    subst equal
    exact ⟨Service.answers_result .., Service.completedAt_result bound⟩
  · intro single before after split
    exact Service.start_of_single_of_split (Service.width_of_single single) split

def onePlace : CoprocessorSpec :=
  ⟨.ofPeriod 3, 2, .single, 1, 0⟩

def contending : List Submission :=
  [⟨0, 0, ⟨7, 2, []⟩⟩, ⟨1, 0, ⟨8, 2, []⟩⟩]

/-- The second offload, ready from tick 0 on, waits for the first one, which ends at tick 6. A poll at tick 6 does
    not return it, and one at tick 12 does. -/
theorem second_served_at_twelve : ∃ bench result after,
    Run 0 onePlace contending [⟨0, 6⟩, ⟨1, 6⟩] bench ∧ bench.now = 12 ∧
      bench.poll? 1 bench.now = some (result, after) ∧ result.completedAt = 12 := by
  have bookings : (Service.ofSpec onePlace).bookings contending =
      [⟨⟨0, 0, ⟨7, 2, []⟩⟩, 0⟩, ⟨⟨1, 0, ⟨8, 2, []⟩⟩, 2⟩] := by
    decide +kernel
  obtain ⟨one, both, begun, finished, left, ended, accepted, also, ⟨_, first⟩, ⟨_, second⟩, ⟨_, collected⟩,
      missed, ⟨_, third⟩, start, six, still, twelve⟩ : ∃ one both begun finished left ended,
        (⟨.ofSpec 0 onePlace, { sink := { level := 0 } }⟩ : Bench).submit ⟨7, 2, []⟩ = (.ok 0, one) ∧
        one.submit ⟨8, 2, []⟩ = (.ok 1, both) ∧
        (∃ edge, both.next? = some (edge, begun)) ∧ (∃ edge, begun.next? = some (edge, finished)) ∧
        (∃ result, finished.poll? 0 finished.now = some (result, left)) ∧ left.poll? 1 left.now = none ∧
        (∃ edge, left.next? = some (edge, ended)) ∧ one.now = 0 ∧ finished.now = 6 ∧ left.now = 6 ∧
        ended.now = 12 :=
    ⟨_, _, _, _, _, _, rfl, rfl, ⟨_, rfl⟩, ⟨_, rfl⟩, ⟨_, rfl⟩, rfl, ⟨_, rfl⟩, rfl, rfl, rfl, rfl⟩
  have submitted := ((Run.start { level := 0 }).accept accepted).accept also
  rw [start] at submitted
  have polled := (((submitted.next first).next second).collect collected).miss missed
  rw [six, still] at polled
  have run : Run 0 onePlace contending [⟨0, 6⟩, ⟨1, 6⟩] ended := polled.next third
  have booked : (⟨⟨1, 0, ⟨8, 2, []⟩⟩, 2⟩ : Booking) ∈ (Service.ofSpec onePlace).bookings contending := by
    rw [bookings]
    simp
  obtain ⟨complete, served, -⟩ := run.served_as_booked booked (by decide)
  have handed : (ended.poll? 1 ended.now).isSome = true :=
    served.mpr ⟨twelve ▸ by decide, by decide⟩
  obtain ⟨⟨result, after⟩, taken⟩ := Option.isSome_iff_exists.mp handed
  exact ⟨ended, result, after, run, twelve, taken, (complete result after taken).2⟩

end CoreTiming.Bench
