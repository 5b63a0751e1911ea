import CoreTiming.Proofs.Coprocessor.Collection
import Mathlib.Data.List.Pairwise

namespace CoreTiming

namespace Coprocessor

/-- The offload has ended and can be handed over, from `done` or from the queue. -/
def Ready (unit : Coprocessor) (now handle : Nat) : Prop :=
  (∃ result ∈ unit.done, result.handle = handle ∧ result.completedAt ≤ now) ∨
    ∃ job ∈ unit.queue, job.handle = handle ∧ ∃ finish, job.finishCycle = some finish ∧
      finish * unit.clock.period ≤ horizon ∧ finish * unit.clock.period ≤ now

variable {submissions : List Submission} {unit after : Coprocessor} {now handle : Nat}
  {result : OffloadResult} {effects : Effects}

theorem Ready.held (ready : unit.Ready now handle) : handle ∈ unit.held := by
  rcases ready with ⟨result, member, rfl, -⟩ | ⟨job, member, rfl, -⟩
  · exact List.mem_append_right _ (List.mem_map_of_mem member)
  · exact List.mem_append_left _ (List.mem_map_of_mem member)

theorem Ready.mono (ready : after.Ready now handle) (done : after.done ⊆ unit.done)
    (queue : ∀ job ∈ after.queue, job ∈ unit.queue ∨ job.finishCycle = none)
    (clock : after.clock = unit.clock) : unit.Ready now handle := by
  rcases ready with ⟨result, member, named, elapsed⟩ | ⟨job, member, named, finish, ends, bounds⟩
  · exact .inl ⟨result, done member, named, elapsed⟩
  · rw [clock] at bounds
    rcases queue job member with among | idle
    · exact .inr ⟨job, among, named, finish, ends, bounds⟩
    · cases idle.symm.trans ends

theorem ready_of_poll? (polled : unit.poll? handle now = some (result, after, effects)) :
    unit.Ready now handle := by
  obtain ⟨-, ⟨member, named, elapsed, -⟩ | ⟨job, finish, member, named, ends, near, elapsed, -, -⟩⟩ :=
    poll?_eq_some polled
  · exact .inl ⟨result, member, named, elapsed⟩
  · exact .inr ⟨job, member, named, finish, ends, near, elapsed⟩

theorem completedAt_le_of_poll? (polled : unit.poll? handle now = some (result, after, effects)) :
    result.completedAt ≤ now := by
  obtain ⟨-, ⟨-, -, elapsed, -⟩ | ⟨job, finish, -, -, ends, -, elapsed, rfl, -⟩⟩ := poll?_eq_some polled
  · exact elapsed
  · show unit.clock.tickOfCycle (job.finishCycle.getD 0) ≤ now
    rw [ends]
    exact Nat.le_trans (Nat.min_le_left ..) elapsed

theorem find?_handle {α : Type} {view : α → Nat} {list : List α} (distinct : (list.map view).Nodup)
    {item : α} (member : item ∈ list) {test : α → Bool} (passes : test item = true)
    (named : ∀ other, test other = true → view other = view item) : list.find? test = some item := by
  cases found : list.find? test with
  | none => exact absurd passes (List.find?_eq_none.mp found item member)
  | some other =>
    have same := named other (List.find?_some found)
    rw [List.inj_on_of_nodup_map distinct (List.mem_of_find?_eq_some found) member same]

theorem Consistent.poll?_of_done (consistent : unit.Consistent submissions) (member : result ∈ unit.done)
    (elapsed : result.completedAt ≤ now) : unit.poll? result.handle now =
      some (result, { unit with done := unit.done.eraseP (·.handle = result.handle) }, .none) := by
  unfold poll?
  rw [find?_handle (List.nodup_append.mp consistent.distinct).2.1 member (decide_eq_true rfl)
    fun other named => of_decide_eq_true named]
  exact if_pos elapsed

theorem Consistent.poll?_of_queue (consistent : unit.Consistent submissions) {job : Job} {finish : Nat}
    (member : job ∈ unit.queue) (ends : job.finishCycle = some finish)
    (near : finish * unit.clock.period ≤ horizon) (elapsed : finish * unit.clock.period ≤ now) :
    unit.poll? job.handle now = some (unit.result job,
      { unit with queue := unit.queue.eraseP (·.handle = job.handle) }.countExecuted 1,
      unit.completionLine job) := by
  obtain ⟨distinct, -, disjoint⟩ := List.nodup_append.mp consistent.distinct
  have absent : unit.done.find? (·.handle = job.handle) = none := by
    refine List.find?_eq_none.mpr fun other among named => ?_
    exact disjoint _ (List.mem_map_of_mem member) _ (List.mem_map_of_mem among)
      (of_decide_eq_true named).symm
  have found : unit.finishedJob? job.handle now = some job := by
    refine find?_handle distinct member ?_ fun other matched => ?_
    · simp [ends, Clock.tick?_of_le near, elapsed]
    · exact of_decide_eq_true ((Bool.and_eq_true ..).mp matched).1
  unfold poll?
  rw [absent, found]
  rfl

theorem Consistent.not_ready_of_poll? (consistent : unit.Consistent submissions)
    (polled : unit.poll? handle now = none) : ¬ unit.Ready now handle := by
  rintro (⟨result, member, rfl, elapsed⟩ | ⟨job, member, rfl, finish, ends, near, elapsed⟩)
  · cases polled.symm.trans (consistent.poll?_of_done member elapsed)
  · cases polled.symm.trans (consistent.poll?_of_queue member ends near elapsed)

theorem Consistent.ready_of_poll? (consistent : unit.Consistent submissions)
    (polled : unit.poll? handle now = some (result, after, effects)) :
    ¬ after.Ready now handle ∧ ∀ other, after.Ready now other → unit.Ready now other := by
  obtain ⟨-, taken, -⟩ := consistent.poll polled
  constructor
  · intro ready
    exact (List.nodup_cons.mp (taken.nodup_iff.mp consistent.distinct)).1 ready.held
  · intro other ready
    obtain ⟨-, ⟨-, -, -, rfl⟩ | ⟨-, -, -, -, -, -, -, -, rfl⟩⟩ := poll?_eq_some polled
    · exact ready.mono List.eraseP_subset (fun job member => .inl member) rfl
    · refine ready.mono (List.Subset.refl _) (fun job member => .inl ?_) rfl
      exact List.mem_of_mem_eraseP member

theorem ready_of_submit (work : Offload) (ready : (unit.submit now work).2.1.Ready now handle) :
    unit.Ready now handle := by
  by_cases full : unit.capacity ≤ unit.occupancy
  · rw [submit_of_full full] at ready
    exact ready
  · obtain ⟨edge, same⟩ := submit_of_room_eq full now work
    rw [same] at ready
    refine ready.mono (List.Subset.refl _) (fun job member => ?_) rfl
    refine (List.mem_append.mp member).imp_right fun single => ?_
    rw [List.mem_singleton.mp single]

end Coprocessor

namespace Service

variable {service : Service} {submissions : List Submission} {now : Nat} {unit : Coprocessor}
  {started running waiting : List Booking}

theorem pairwise_handle (numbered : submissions.map Submission.handle = List.range unit.nextHandle) :
    (service.bookings submissions).Pairwise fun first second =>
      first.submission.handle < second.submission.handle := by
  have ascending : (submissions.map Submission.handle).Pairwise (· < ·) :=
    numbered ▸ List.pairwise_lt_range
  rw [← service.map_submission_bookings submissions, List.map_map] at ascending
  exact List.pairwise_map.mp ascending

theorem finish_le_start_of_handle_lt (single : service.width = 1)
    (numbered : submissions.map Submission.handle = List.range unit.nextHandle) {first second : Booking}
    (one : first ∈ service.bookings submissions) (other : second ∈ service.bookings submissions)
    (order : first.submission.handle < second.submission.handle) : first.finish ≤ second.start := by
  have pairs := (pairwise_handle numbered).and (pairwise_finish_le single submissions)
  obtain ⟨before, after, split⟩ := List.append_of_mem one
  rw [split] at other pairs
  obtain ⟨-, behind, across⟩ := List.pairwise_append.mp pairs
  rcases List.mem_append.mp other with earlier | later
  · have reversed := (across second earlier first (by simp)).1
    omega
  · rcases List.mem_cons.mp later with rfl | later
    · omega
    · exact ((List.pairwise_cons.mp behind).1 second later).2

theorem completedAt_le_of_handle_lt (single : service.width = 1)
    (numbered : submissions.map Submission.handle = List.range unit.nextHandle) {first second : Booking}
    (one : first ∈ service.bookings submissions) (other : second ∈ service.bookings submissions)
    (order : first.submission.handle < second.submission.handle) :
    (service.result first).completedAt ≤ (service.result second).completedAt := by
  have sequential := finish_le_start_of_handle_lt single numbered one other order
  have longer := second.start_lt_finish
  have cycles : min first.finish horizon ≤ min second.finish horizon := by omega
  have ticks := Nat.mul_le_mul_right service.clock.period cycles
  show min _ horizon ≤ min _ horizon
  omega

namespace Follows

theorem exists_started (follows : service.Follows submissions now unit started running waiting)
    {handle : Nat} (ready : unit.Ready now handle) : ∃ booking ∈ started,
      booking.submission.handle = handle := by
  rcases ready with ⟨result, member, rfl, -⟩ | ⟨job, member, rfl, finish, ends, -⟩
  · obtain ⟨booking, begun, -, same⟩ := follows.done result member
    exact ⟨booking, begun, (congrArg OffloadResult.handle same).symm⟩
  · rw [follows.queue] at member
    rcases List.mem_append.mp member with executing | idle
    · obtain ⟨booking, runs, rfl⟩ := List.mem_map.mp executing
      exact ⟨booking, follows.remaining.subset runs, rfl⟩
    · obtain ⟨booking, -, rfl⟩ := List.mem_map.mp idle
      cases ends

theorem ready_of_ready (follows : service.Follows submissions now unit started running waiting)
    (single : service.width = 1) {first second : Nat} (held : first ∈ unit.held) (order : first < second)
    (ready : unit.Ready now second) : unit.Ready now first := by
  have numbered := follows.consistent.numbered
  obtain ⟨later, begun, rfl⟩ := follows.exists_started ready
  have past := follows.past later begun
  rcases List.mem_append.mp held with queued | collected
  · obtain ⟨job, member, rfl⟩ := List.mem_map.mp queued
    have listed := member
    rw [follows.queue] at listed
    rcases List.mem_append.mp listed with executing | idle
    · obtain ⟨booking, runs, rfl⟩ := List.mem_map.mp executing
      have known := follows.mem_bookings_of_started (follows.remaining.subset runs)
      have sequential := finish_le_start_of_handle_lt single numbered known
        (follows.mem_bookings_of_started begun) order
      have elapsed : min booking.finish horizon * unit.clock.period ≤ now := by
        rw [follows.clock]
        exact Nat.le_trans (Nat.mul_le_mul_right _ (by omega)) past
      exact .inr ⟨_, member, rfl, _, rfl, Nat.le_trans elapsed follows.within, elapsed⟩
    · -- an earlier offload does not wait while a later one has started
      obtain ⟨booking, waits, rfl⟩ := List.mem_map.mp idle
      have ascending := service.pairwise_handle numbered
      rw [follows.booked] at ascending
      have reversed := (List.pairwise_append.mp ascending).2.2 later begun booking waits
      exact absurd order (Nat.not_lt.mpr (Nat.le_of_lt reversed))
  · obtain ⟨result, member, rfl⟩ := List.mem_map.mp collected
    obtain ⟨booking, known, absent, rfl⟩ := follows.done result member
    have gone := follows.gone booking known absent
    exact .inl ⟨_, member, rfl, Nat.le_trans (Nat.min_le_left ..) gone⟩

end Follows

end Service

end CoreTiming
