import CoreTiming.Proofs.Coprocessor.Settling

namespace CoreTiming.Service

variable {service : Service} {submissions : List Submission} {now : Nat} {unit : Coprocessor}

theorem completedAt_result {booking : Booking} (near : service.finishTick booking ≤ horizon) :
    (service.result booking).completedAt = service.finishTick booking := by
  have positive := service.clock.period_pos
  have bound : booking.finish ≤ horizon := Nat.le_trans (Nat.le_mul_of_pos_right _ positive) near
  unfold result
  rw [Nat.min_eq_left bound]
  exact Clock.tickOfCycle_of_le near

theorem answers_result (service : Service) (booking : Booking) :
    (service.result booking).Answers booking.submission :=
  ⟨rfl, rfl, rfl, rfl⟩

theorem finishTick_le_of_result {booking : Booking} (near : service.finishTick booking ≤ horizon)
    (elapsed : (service.result booking).completedAt ≤ now) : service.finishTick booking ≤ now := by
  rwa [completedAt_result near] at elapsed

theorem Follows.finishedJob?_ne_none {started running waiting : List Booking}
    (follows : service.Follows submissions now unit started running waiting) {booking : Booking}
    (member : booking ∈ service.bookings submissions)
    (queued : booking.submission.handle ∈ unit.queue.map Job.handle)
    (near : service.finishTick booking ≤ horizon) (elapsed : service.finishTick booking ≤ now) :
    unit.finishedJob? booking.submission.handle now ≠ none := by
  intro missing
  obtain ⟨job, among, named⟩ := List.mem_map.mp queued
  have unfinished := List.find?_eq_none.mp missing job among
  rw [follows.queue] at among
  rcases List.mem_append.mp among with begun | idle
  · obtain ⟨other, runs, rfl⟩ := List.mem_map.mp begun
    have known := follows.mem_bookings_of_started (follows.remaining.subset runs)
    have equal := follows.eq_of_handle known member named
    have bound : booking.finish ≤ horizon :=
      Nat.le_trans (Nat.le_mul_of_pos_right _ service.clock.period_pos) near
    have ends : (service.startedJob other).finishCycle = some booking.finish := by
      rw [equal]
      exact congrArg some (Nat.min_eq_left bound)
    refine unfinished ?_
    rw [ends, Option.bind_some, follows.clock, Clock.tick?_of_le near, named]
    simp only [decide_true, Option.any_some, Bool.true_and, decide_eq_true_eq]
    exact elapsed
  · obtain ⟨other, waits, rfl⟩ := List.mem_map.mp idle
    have equal := follows.eq_of_handle (follows.mem_bookings_of_waiting waits) member named
    have ahead := follows.ahead other waits
    have longer := Nat.mul_lt_mul_of_pos_right other.start_lt_finish service.clock.period_pos
    rw [equal] at ahead longer
    unfold finishTick at elapsed
    omega

namespace OnSchedule

theorem consistent (schedule : service.OnSchedule submissions now unit) :
    unit.Consistent submissions := by
  obtain ⟨_, _, _, follows⟩ := schedule
  exact follows.consistent

theorem within (schedule : service.OnSchedule submissions now unit) : now ≤ horizon := by
  obtain ⟨_, _, _, follows⟩ := schedule
  exact follows.within

theorem wait (schedule : service.OnSchedule submissions now unit) {later : Nat} (order : now ≤ later)
    (within : later ≤ horizon) (waits : ∀ edge, unit.nextEdge = some edge → later ≤ edge) :
    service.OnSchedule submissions later unit := by
  obtain ⟨started, running, waiting, follows⟩ := schedule
  exact ⟨started, running, waiting, follows.wait order within waits⟩

theorem submit (schedule : service.OnSchedule submissions now unit) (work : Offload) :
    (∃ refusal, (unit.submit now work).1 = .error refusal ∧
        service.OnSchedule submissions now (unit.submit now work).2.1) ∨
      (unit.submit now work).1 = .ok unit.nextHandle ∧
        service.OnSchedule (submissions ++ [⟨unit.nextHandle, now, work⟩]) now
          (unit.submit now work).2.1 := by
  obtain ⟨started, running, waiting, follows⟩ := schedule
  by_cases full : unit.capacity ≤ unit.occupancy
  · rw [Coprocessor.submit_of_full full]
    exact .inl ⟨_, rfl, started, running, waiting, follows.refuse _⟩
  · exact .inr ⟨(Coprocessor.submit_of_room full now work).1, follows.submit full work⟩

theorem poll?_eq_some (schedule : service.OnSchedule submissions now unit) {handle : Nat}
    {result : OffloadResult} {after : Coprocessor} {effects : Effects}
    (polled : unit.poll? handle now = some (result, after, effects)) :
    service.OnSchedule submissions now after ∧ ∃ booking ∈ service.bookings submissions,
      booking.submission.handle = handle ∧ result = service.result booking ∧
        result.completedAt ≤ now := by
  obtain ⟨started, running, waiting, follows⟩ := schedule
  obtain ⟨kept, booking, begun, rest⟩ := follows.poll polled
  exact ⟨kept, booking, follows.mem_bookings_of_started begun, rest⟩

theorem eq_of_handle (schedule : service.OnSchedule submissions now unit) {first second : Booking}
    (one : first ∈ service.bookings submissions) (other : second ∈ service.bookings submissions)
    (same : first.submission.handle = second.submission.handle) : first = second := by
  obtain ⟨_, _, _, follows⟩ := schedule
  exact follows.eq_of_handle one other same

theorem exists_booking (schedule : service.OnSchedule submissions now unit) {job : Job}
    (member : job ∈ unit.queue) : ∃ booking ∈ service.bookings submissions,
      job.submission = booking.submission ∧
        ∀ cycle, job.finishCycle = some cycle → cycle = min booking.finish horizon := by
  obtain ⟨started, running, waiting, follows⟩ := schedule
  rw [follows.queue] at member
  rcases List.mem_append.mp member with runs | waits
  · obtain ⟨booking, among, rfl⟩ := List.mem_map.mp runs
    refine ⟨booking, follows.mem_bookings_of_started (follows.remaining.subset among), rfl, ?_⟩
    intro cycle ends
    exact (Option.some.inj ends).symm
  · obtain ⟨booking, among, rfl⟩ := List.mem_map.mp waits
    refine ⟨booking, follows.mem_bookings_of_waiting among, rfl, ?_⟩
    intro cycle ends
    cases ends

theorem exists_poll? (schedule : service.OnSchedule submissions now unit) {booking : Booking}
    (member : booking ∈ service.bookings submissions) (held : booking.submission.handle ∈ unit.held)
    (near : service.finishTick booking ≤ horizon) (elapsed : service.finishTick booking ≤ now) :
    ∃ outcome, unit.poll? booking.submission.handle now = some outcome := by
  obtain ⟨_, _, _, follows⟩ := schedule
  cases polled : unit.poll? booking.submission.handle now with
  | some outcome => exact ⟨outcome, rfl⟩
  | none =>
    exfalso
    obtain ⟨early, missing⟩ := Coprocessor.poll?_eq_none polled
    cases kept : unit.done.find? (·.handle = booking.submission.handle) with
    | some result =>
      obtain ⟨other, begun, -, same⟩ := follows.done result (List.mem_of_find?_eq_some kept)
      have named : result.handle = booking.submission.handle := by simpa using List.find?_some kept
      rw [same] at named
      have equal := follows.eq_of_handle (follows.mem_bookings_of_started begun) member named
      have future := early result kept
      rw [same, equal, completedAt_result near] at future
      omega
    | none =>
      refine follows.finishedJob?_ne_none member ?_ near elapsed (missing kept)
      rcases List.mem_append.mp held with queued | collected
      · exact queued
      · obtain ⟨result, among, named⟩ := List.mem_map.mp collected
        exact absurd (decide_eq_true named) (List.find?_eq_none.mp kept result among)

end OnSchedule

end CoreTiming.Service
