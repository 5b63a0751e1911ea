import CoreTiming.Proofs.Coprocessor.Consistency
import CoreTiming.Proofs.Coprocessor.Starts
import Mathlib.Data.List.Nodup

namespace CoreTiming

namespace Coprocessor

def WakesBy (unit : Coprocessor) (tick : Nat) : Prop :=
  ∃ edge, unit.nextEdge = some edge ∧ edge ≤ tick

end Coprocessor

namespace Service

def finishTick (service : Service) (booking : Booking) : Nat :=
  booking.finish * service.clock.period

def result (service : Service) (booking : Booking) : OffloadResult where
  handle := booking.submission.handle
  instruction := booking.submission.work.instruction
  payload := booking.submission.work.payload
  submittedAt := booking.submission.tick
  completedAt := service.clock.tickOfCycle (min booking.finish horizon)

/-- The unit is where its bookings put it: some have started, of which some are still in the queue,
    and the others wait. -/
structure Follows (service : Service) (submissions : List Submission) (now : Nat) (unit : Coprocessor)
    (started running waiting : List Booking) : Prop where
  consistent : unit.Consistent submissions
  clock : unit.clock = service.clock
  width : unit.issueWidth = service.width
  within : now ≤ horizon
  ordered : submissions.Pairwise fun first second => first.tick ≤ second.tick
  known : ∀ submission ∈ submissions, submission.tick ≤ now
  booked : service.bookings submissions = started ++ waiting
  remaining : running.Sublist started
  queue : unit.queue = running.map service.startedJob ++ waiting.map service.waitingJob
  past : ∀ booking ∈ started, min booking.start horizon * service.clock.period ≤ now
  gone : ∀ booking ∈ started, booking ∉ running →
    min booking.finish horizon * service.clock.period ≤ now
  ahead : ∀ booking ∈ waiting, now ≤ booking.start * service.clock.period
  done : ∀ result ∈ unit.done, ∃ booking ∈ started, booking ∉ running ∧ result = service.result booking
  edge : ∀ tick, unit.nextEdge = some tick → now ≤ tick ∧ tick ≤ horizon ∧ service.clock.period ∣ tick
  finishing : ∀ booking ∈ running, service.finishTick booking ≤ horizon →
    unit.WakesBy (service.finishTick booking)
  starting : ∀ booking ∈ waiting, booking.start * service.clock.period ≤ horizon →
    unit.WakesBy (booking.start * service.clock.period)

/-- The unit has done what is booked up to the present tick, and will be woken for the rest. -/
def OnSchedule (service : Service) (submissions : List Submission) (now : Nat) (unit : Coprocessor) :
    Prop :=
  ∃ started running waiting, service.Follows submissions now unit started running waiting

variable {service : Service} {submissions : List Submission} {now : Nat} {unit : Coprocessor}
  {started running waiting : List Booking}

theorem nodup_bookings (distinct : (submissions.map Submission.handle).Nodup) :
    ((service.bookings submissions).map (·.submission.handle)).Nodup := by
  have same := congrArg (List.map Submission.handle) (service.map_submission_bookings submissions)
  rw [List.map_map] at same
  rw [← same] at distinct
  exact distinct

theorem onSchedule_ofSpec (owner : Nat) (spec : CoprocessorSpec) :
    (ofSpec spec).OnSchedule [] 0 (.ofSpec owner spec) :=
  ⟨[], [], [], {
    consistent := Coprocessor.consistent_ofSpec owner spec
    clock := rfl
    width := rfl
    within := Nat.zero_le _
    ordered := .nil
    known := by simp
    booked := rfl
    remaining := .refl _
    queue := rfl
    past := by simp
    gone := by simp
    ahead := by simp
    done := by simp [Coprocessor.ofSpec]
    edge := by simp [Coprocessor.ofSpec]
    finishing := by simp
    starting := by simp }⟩

theorem firstEdge_le_start (service : Service) (earlier : List Booking) (submission : Submission) :
    service.clock.firstEdge submission.tick ≤
      (service.book earlier submission).start * service.clock.period :=
  Nat.mul_le_mul_right _ ready_le_start

namespace Follows

theorem distinct (follows : service.Follows submissions now unit started running waiting) :
    ((service.bookings submissions).map (·.submission.handle)).Nodup := by
  refine nodup_bookings ?_
  rw [follows.consistent.numbered]
  exact List.nodup_range

theorem wait (follows : service.Follows submissions now unit started running waiting) {later : Nat}
    (order : now ≤ later) (within : later ≤ horizon)
    (waits : ∀ edge, unit.nextEdge = some edge → later ≤ edge) :
    service.Follows submissions later unit started running waiting :=
  { follows with
    within := within
    known := fun submission member => Nat.le_trans (follows.known submission member) order
    past := fun booking member => Nat.le_trans (follows.past booking member) order
    gone := fun booking member absent => Nat.le_trans (follows.gone booking member absent) order
    ahead := by
      intro booking member
      by_cases near : booking.start * service.clock.period ≤ horizon
      · obtain ⟨edge, asked, bound⟩ := follows.starting booking member near
        exact Nat.le_trans (waits edge asked) bound
      · omega
    edge := by
      intro tick asked
      obtain ⟨-, bound, onEdge⟩ := follows.edge tick asked
      exact ⟨waits tick asked, bound, onEdge⟩ }

theorem refuse (follows : service.Follows submissions now unit started running waiting)
    (rejected : Nat) :
    service.Follows submissions now
      { unit with counters := { unit.counters with rejected := rejected } } started running waiting :=
  { follows with consistent := follows.consistent.refuse rejected }

theorem accept (follows : service.Follows submissions now unit started running waiting)
    (work : Offload) (edge : Option Nat)
    (earlier : ∀ old, unit.nextEdge = some old → ∃ tick, edge = some tick ∧ tick ≤ old)
    (onEdge : ∀ tick, edge = some tick → now ≤ tick ∧ tick ≤ horizon ∧ service.clock.period ∣ tick)
    (ready : service.clock.firstEdge now ≤ horizon →
      ∃ tick, edge = some tick ∧ tick ≤ service.clock.firstEdge now) :
    service.Follows (submissions ++ [⟨unit.nextHandle, now, work⟩]) now
      { unit.accept now work with nextEdge := edge } started running
      (waiting ++ [service.book (service.bookings submissions) ⟨unit.nextHandle, now, work⟩]) where
  consistent := (follows.consistent.accept now work).withEdge edge
  clock := follows.clock
  width := follows.width
  within := follows.within
  ordered := by
    refine List.pairwise_append.mpr ⟨follows.ordered, List.pairwise_singleton .., ?_⟩
    intro submission member last single
    rw [List.mem_singleton.mp single]
    exact follows.known submission member
  known submission member := by
    rcases List.mem_append.mp member with member | single
    · exact follows.known submission member
    · rw [List.mem_singleton.mp single]
  booked := by rw [bookings_concat, follows.booked, List.append_assoc]
  remaining := follows.remaining
  queue := by
    simp only [Coprocessor.accept, follows.queue, follows.clock, List.map_append, List.append_assoc]
    rfl
  past := follows.past
  gone := follows.gone
  ahead booking member := by
    rcases List.mem_append.mp member with member | single
    · exact follows.ahead booking member
    · rw [List.mem_singleton.mp single]
      have ready := service.firstEdge_le_start (service.bookings submissions) ⟨unit.nextHandle, now, work⟩
      exact Nat.le_trans (Clock.le_firstEdge now) ready
  done := follows.done
  edge := onEdge
  finishing booking member near := by
    obtain ⟨old, asked, bound⟩ := follows.finishing booking member near
    obtain ⟨tick, same, less⟩ := earlier old asked
    exact ⟨tick, same, Nat.le_trans less bound⟩
  starting booking member near := by
    rcases List.mem_append.mp member with member | single
    · obtain ⟨old, asked, bound⟩ := follows.starting booking member near
      obtain ⟨tick, same, less⟩ := earlier old asked
      exact ⟨tick, same, Nat.le_trans less bound⟩
    · have bound : service.clock.firstEdge now ≤ booking.start * service.clock.period := by
        rw [List.mem_singleton.mp single]
        exact service.firstEdge_le_start (service.bookings submissions) ⟨unit.nextHandle, now, work⟩
      obtain ⟨tick, same, less⟩ := ready (Nat.le_trans bound near)
      exact ⟨tick, same, Nat.le_trans less bound⟩

theorem submit (follows : service.Follows submissions now unit started running waiting)
    (room : ¬ unit.capacity ≤ unit.occupancy) (work : Offload) :
    service.OnSchedule (submissions ++ [⟨unit.nextHandle, now, work⟩]) now
      (unit.submit now work).2.1 := by
  have clock := follows.clock
  rcases (Coprocessor.submit_of_room room now work).2 with ⟨late, same, -⟩ | ⟨near, same, -⟩
  · rw [same]
    refine ⟨_, _, _, follows.accept work unit.nextEdge ?_ follows.edge ?_⟩
    · exact fun old asked => ⟨old, asked, Nat.le_refl _⟩
    · intro bound
      rw [clock] at late
      omega
  · obtain ⟨edge, requested, bound, least, choice⟩ :=
      Coprocessor.requestEdge_spec (unit.accept now work) (unit.clock.firstEdge now)
    rw [same, requested]
    rw [clock] at near bound choice
    refine ⟨_, _, _, follows.accept work (some edge) ?_ ?_ ?_⟩
    · exact fun old asked => ⟨edge, rfl, least old asked⟩
    · intro tick same
      rw [← Option.some.inj same]
      rcases choice with ⟨asked, -⟩ | ⟨rfl, -⟩
      · exact follows.edge edge asked
      · exact ⟨Clock.le_firstEdge now, near, Clock.period_dvd_firstEdge now⟩
    · exact fun _ => ⟨edge, rfl, bound⟩

theorem nodup_started (follows : service.Follows submissions now unit started running waiting) :
    (started.map (·.submission.handle)).Nodup := by
  have distinct := follows.distinct
  rw [follows.booked, List.map_append] at distinct
  exact (List.nodup_append.mp distinct).1

theorem eq_of_handle (follows : service.Follows submissions now unit started running waiting)
    {first second : Booking} (one : first ∈ service.bookings submissions)
    (other : second ∈ service.bookings submissions)
    (same : first.submission.handle = second.submission.handle) : first = second :=
  List.inj_on_of_nodup_map follows.distinct one other same

theorem mem_bookings_of_started
    (follows : service.Follows submissions now unit started running waiting) {booking : Booking}
    (member : booking ∈ started) : booking ∈ service.bookings submissions := by
  rw [follows.booked]
  exact List.mem_append_left _ member

theorem mem_bookings_of_waiting
    (follows : service.Follows submissions now unit started running waiting) {booking : Booking}
    (member : booking ∈ waiting) : booking ∈ service.bookings submissions := by
  rw [follows.booked]
  exact List.mem_append_right _ member

theorem erase (follows : service.Follows submissions now unit started running waiting)
    {booking : Booking} (member : booking ∈ running) :
    ∃ others : List Booking, others.Sublist running ∧ (∀ other ∈ running, other ≠ booking → other ∈ others) ∧
      unit.queue.eraseP (·.handle = booking.submission.handle) =
        others.map service.startedJob ++ waiting.map service.waitingJob := by
  have distinct := follows.nodup_started.sublist (follows.remaining.map _)
  obtain ⟨before, after, rfl⟩ := List.append_of_mem member
  refine ⟨before ++ after, List.Sublist.append_left (List.sublist_cons_self ..) _, ?_, ?_⟩
  · intro other executing different
    simpa [different] using executing
  · rw [List.map_append, List.map_cons] at distinct
    have absent : ∀ job ∈ before.map service.startedJob,
        ¬ decide (job.handle = booking.submission.handle) = true := by
      intro job among same
      obtain ⟨other, earlier, rfl⟩ := List.mem_map.mp among
      exact (List.nodup_append.mp distinct).2.2 _ (List.mem_map_of_mem earlier) _ (by simp)
        (of_decide_eq_true same)
    have first : ∀ rest : List Job, (service.startedJob booking :: rest).eraseP
        (·.handle = booking.submission.handle) = rest :=
      fun rest => List.eraseP_cons_of_pos (decide_eq_true rfl)
    rw [follows.queue, List.map_append, List.append_assoc, List.eraseP_append_right _ absent,
      List.map_cons, List.cons_append, first, List.map_append, List.append_assoc]

theorem poll (follows : service.Follows submissions now unit started running waiting)
    {handle : Nat} {result : OffloadResult} {after : Coprocessor} {effects : Effects}
    (polled : unit.poll? handle now = some (result, after, effects)) :
    service.OnSchedule submissions now after ∧
      ∃ booking ∈ started, booking.submission.handle = handle ∧ result = service.result booking ∧
        result.completedAt ≤ now := by
  have consistent := (follows.consistent.poll polled).1
  obtain ⟨-, ⟨kept, named, elapsed, rfl⟩ |
    ⟨job, finish, member, named, finishes, near, elapsed, rfl, rfl⟩⟩ := Coprocessor.poll?_eq_some polled
  · refine ⟨⟨started, running, waiting, { follows with consistent := consistent, done := ?_ }⟩, ?_⟩
    · intro other remaining
      exact follows.done other (List.mem_of_mem_eraseP remaining)
    · obtain ⟨booking, begun, -, same⟩ := follows.done result kept
      refine ⟨booking, begun, ?_, same, elapsed⟩
      rw [← named, same]
      rfl
  · rw [follows.queue] at member
    -- a job that has come to its end but was not collected yet; one that waits has no end
    rcases List.mem_append.mp member with executing | idle
    · obtain ⟨booking, runs, rfl⟩ := List.mem_map.mp executing
      have begun := follows.remaining.subset runs
      have same : min booking.finish horizon = finish := Option.some.inj finishes
      subst same
      have called : booking.submission.handle = handle := named
      subst called
      rw [follows.clock] at near elapsed
      obtain ⟨others, sublist, rest, erased⟩ := follows.erase runs
      refine ⟨⟨started, others, waiting, { follows with
        consistent := consistent
        remaining := sublist.trans follows.remaining
        queue := erased
        gone := ?_
        done := ?_
        finishing := fun other member => follows.finishing other (sublist.subset member) }⟩,
        booking, begun, rfl, ?_, ?_⟩
      · intro other known absent
        by_cases same : other = booking
        · rw [same]
          exact elapsed
        · exact follows.gone other known fun member => absent (rest other member same)
      · intro result kept
        obtain ⟨other, known, absent, same⟩ := follows.done result kept
        exact ⟨other, known, fun member => absent (sublist.subset member), same⟩
      · unfold Coprocessor.result
        rw [follows.clock]
        rfl
      · unfold Coprocessor.result
        rw [follows.clock]
        exact Nat.le_trans (Nat.min_le_left ..) elapsed
    · obtain ⟨booking, -, rfl⟩ := List.mem_map.mp idle
      cases finishes

end Follows

end Service

end CoreTiming
