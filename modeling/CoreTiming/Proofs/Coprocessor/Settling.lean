import CoreTiming.Proofs.Coprocessor.Activity
import CoreTiming.Proofs.Coprocessor.Schedule

namespace CoreTiming.Service

variable {service : Service} {submissions : List Submission} {now : Nat} {unit : Coprocessor}
  {started running waiting : List Booking}

theorem countP_executing (service : Service) (running waiting : List Booking) :
    (running.map service.startedJob ++ waiting.map service.waitingJob).countP Job.isExecuting =
      running.length := by
  have begun : Job.isExecuting ∘ service.startedJob = fun _ => true := rfl
  have idle : Job.isExecuting ∘ service.waitingJob = fun _ => false := rfl
  rw [List.countP_append, List.countP_map, List.countP_map, begun, idle, List.countP_true,
    List.countP_false]
  rfl

namespace Follows

theorem filter_live (follows : service.Follows submissions now unit started running waiting)
    (cycle : Nat) :
    unit.queue.filter (!·.finishedBy cycle) =
      (running.filter fun booking => cycle < min booking.finish horizon).map service.startedJob ++
        waiting.map service.waitingJob := by
  have live : (fun job : Job => !job.finishedBy cycle) ∘ service.startedJob =
      fun booking => decide (cycle < min booking.finish horizon) := by
    funext booking
    have elapsed : (service.startedJob booking).finishedBy cycle =
        decide (min booking.finish horizon ≤ cycle) := rfl
    rw [Function.comp_apply, elapsed, ← decide_not]
    exact decide_eq_decide.mpr Nat.not_le
  have idle : (fun job : Job => !job.finishedBy cycle) ∘ service.waitingJob = fun _ => true := rfl
  rw [follows.queue, List.filter_append, List.filter_map, List.filter_map, live, idle, List.filter_true]

theorem filter_over (follows : service.Follows submissions now unit started running waiting)
    (cycle : Nat) :
    unit.queue.filter (·.finishedBy cycle) =
      (running.filter fun booking => min booking.finish horizon ≤ cycle).map service.startedJob := by
  have elapsed : (fun job : Job => job.finishedBy cycle) ∘ service.startedJob =
      fun booking => decide (min booking.finish horizon ≤ cycle) := rfl
  have idle : (fun job : Job => job.finishedBy cycle) ∘ service.waitingJob = fun _ => false := rfl
  rw [follows.queue, List.filter_append, List.filter_map, List.filter_map, elapsed, idle, List.filter_false,
    List.map_nil, List.append_nil]

theorem mem_done_settle (follows : service.Follows submissions now unit started running waiting)
    {cycle : Nat} {result : OffloadResult} (member : result ∈ (unit.settle cycle).done) :
    ∃ booking ∈ started, booking ∉ running.filter (fun booking => cycle < min booking.finish horizon) ∧
      result = service.result booking := by
  rw [Coprocessor.done_settle, follows.filter_over] at member
  rcases List.mem_append.mp member with before | moved
  · obtain ⟨booking, known, absent, same⟩ := follows.done result before
    exact ⟨booking, known, fun runs => absent (List.mem_of_mem_filter runs), same⟩
  · obtain ⟨job, finished, rfl⟩ := List.mem_map.mp moved
    obtain ⟨booking, ended, rfl⟩ := List.mem_map.mp finished
    obtain ⟨ran, early⟩ := List.mem_filter.mp ended
    refine ⟨booking, follows.remaining.subset ran, ?_, ?_⟩
    · intro runs
      have live := of_decide_eq_true (List.mem_filter.mp runs).2
      have elapsed := of_decide_eq_true early
      omega
    · unfold Coprocessor.result
      rw [follows.clock]
      rfl

theorem standing (follows : service.Follows submissions now unit started running waiting)
    (onEdge : service.clock.period ∣ now) :
    service.Standing submissions (service.clock.cycleAt now) started
      (running.filter fun booking => service.clock.cycleAt now < min booking.finish horizon) waiting where
  within := Nat.le_trans (Nat.div_le_self ..) follows.within
  booked := follows.booked
  distinct := List.Nodup.of_map _ follows.distinct
  remaining := List.filter_sublist.trans follows.remaining
  past booking member := Clock.le_cycleAt_iff.mpr (follows.past booking member)
  gone booking member absent := by
    by_cases runs : booking ∈ running
    · by_contra early
      exact absent (List.mem_filter.mpr ⟨runs, decide_eq_true (Nat.not_le.mp early)⟩)
    · exact Clock.le_cycleAt_iff.mpr (follows.gone booking member runs)
  live booking member := by
    have unfinished := of_decide_eq_true (List.mem_filter.mp member).2
    omega
  ahead booking member := by
    have ahead := follows.ahead booking member
    rw [← Nat.div_mul_cancel onEdge] at ahead
    exact Nat.le_of_mul_le_mul_right ahead service.clock.period_pos

end Follows

/-- What a unit looks like behind an edge, before it asks for the next one. -/
structure Settled (service : Service) (submissions : List Submission) (cycle : Nat) (unit : Coprocessor)
    (started running waiting : List Booking) : Prop where
  standing : service.Standing submissions cycle started running waiting
  later : ∀ booking ∈ waiting, cycle < booking.start
  clock : unit.clock = service.clock
  width : unit.issueWidth = service.width
  queue : unit.queue = running.map service.startedJob ++ waiting.map service.waitingJob

namespace Settled

variable {cycle : Nat}

theorem hasSlot (settled : service.Settled submissions cycle unit started running waiting) :
    unit.hasSlot = decide (running.length < service.width) := by
  unfold Coprocessor.hasSlot Coprocessor.executing
  rw [settled.queue, countP_executing, settled.width]

theorem lt_activity (settled : service.Settled submissions cycle unit started running waiting)
    (early : cycle < horizon) {job : Job} (member : job ∈ unit.queue) {hasSlot : Bool} {next : Nat}
    (active : job.activity? hasSlot cycle = some next) : cycle < next := by
  rw [settled.queue] at member
  rcases List.mem_append.mp member with runs | waits
  · obtain ⟨booking, among, rfl⟩ := List.mem_map.mp runs
    have live := settled.standing.live booking among
    cases active
    exact Nat.lt_min.mpr ⟨live, early⟩
  · obtain ⟨booking, -, rfl⟩ := List.mem_map.mp waits
    cases hasSlot with
    | false => cases active
    | true =>
      cases active
      unfold addUpToHorizon
      omega

theorem wakes (settled : service.Settled submissions cycle unit started running waiting)
    (now_eq : service.clock.cycleAt now = cycle) {job : Job} (member : job ∈ unit.queue) {next bound : Nat}
    (active : job.activity? unit.hasSlot cycle = some next) (order : next ≤ bound) (after : cycle < bound)
    (near : bound * service.clock.period ≤ horizon) :
    ∃ tick, unit.nextEdge? now = some tick ∧ tick ≤ bound * service.clock.period := by
  have positive := service.clock.period_pos
  have scaled : next * service.clock.period ≤ bound * service.clock.period :=
    Nat.mul_le_mul_right _ order
  have early : cycle < horizon := by
    have := Nat.le_mul_of_pos_right bound positive
    omega
  rw [← settled.clock] at now_eq near scaled ⊢
  subst now_eq
  obtain ⟨tick, found, less⟩ := Coprocessor.exists_nextEdge? member active (by omega)
    fun other queued later comes => settled.lt_activity early queued comes
  exact ⟨tick, found, by omega⟩

theorem wakes_finish (settled : service.Settled submissions cycle unit started running waiting)
    (now_eq : service.clock.cycleAt now = cycle) {booking : Booking} (member : booking ∈ running)
    (near : service.finishTick booking ≤ horizon) :
    ∃ tick, unit.nextEdge? now = some tick ∧ tick ≤ service.finishTick booking := by
  have queued : service.startedJob booking ∈ unit.queue := by
    rw [settled.queue]
    exact List.mem_append_left _ (List.mem_map_of_mem member)
  exact settled.wakes now_eq queued rfl (Nat.min_le_left ..) (settled.standing.live booking member) near

theorem wakes_start (settled : service.Settled submissions cycle unit started running waiting)
    (now_eq : service.clock.cycleAt now = cycle) {booking : Booking} (member : booking ∈ waiting)
    (near : booking.start * service.clock.period ≤ horizon) :
    ∃ tick, unit.nextEdge? now = some tick ∧ tick ≤ booking.start * service.clock.period := by
  have later := settled.later booking member
  by_cases room : running.length < service.width
  · have queued : service.waitingJob booking ∈ unit.queue := by
      rw [settled.queue]
      exact List.mem_append_right _ (List.mem_map_of_mem member)
    have slot : unit.hasSlot = true := settled.hasSlot.trans (decide_eq_true room)
    have active : (service.waitingJob booking).activity? unit.hasSlot cycle =
        some (max (service.clock.cycleAtOrAfter booking.submission.tick) (addUpToHorizon cycle 1)) := by
      rw [slot]
      rfl
    have ready : service.clock.cycleAtOrAfter booking.submission.tick ≤ booking.start := by
      refine @ready_le_of_mem service submissions booking ?_
      rw [settled.standing.booked]
      exact List.mem_append_right _ member
    have soon : addUpToHorizon cycle 1 ≤ booking.start := by
      unfold addUpToHorizon
      omega
    exact settled.wakes now_eq queued active (Nat.max_le.mpr ⟨ready, soon⟩) later near
  · -- no place is free, so the unit wakes for the end of a job, and one of them ends in time
    obtain ⟨other, runs, order⟩ := settled.standing.exists_finish_le (Nat.not_lt.mp room) member
    have queued : service.startedJob other ∈ unit.queue := by
      rw [settled.queue]
      exact List.mem_append_left _ (List.mem_map_of_mem runs)
    exact settled.wakes now_eq queued rfl (Nat.le_trans (Nat.min_le_left ..) order) later near

end Settled

theorem Follows.settle (follows : service.Follows submissions now unit started running waiting)
    (onEdge : service.clock.period ∣ now) :
    service.OnSchedule submissions now { unit.settle (unit.clock.cycleAt now) with
      nextEdge := (unit.settle (unit.clock.cycleAt now)).nextEdge? now } := by
  have standing := follows.standing onEdge
  have consistent := follows.consistent.settle (unit.clock.cycleAt now)
  have live := follows.filter_live (service.clock.cycleAt now)
  have passed := Nat.div_mul_cancel onEdge
  rw [follows.clock] at consistent ⊢
  generalize cycle_eq : service.clock.cycleAt now = cycle at standing consistent live ⊢
  have at_edge : cycle * service.clock.period = now := by rw [← cycle_eq]; exact passed
  generalize kept_eq : (running.filter fun booking => cycle < min booking.finish horizon) = kept
    at standing live
  -- what starts now is booked for this very cycle; the rest is booked for later
  obtain ⟨begun, rest, rfl, jobs, after, later⟩ := standing.exists_begun
  have queue : (unit.settle cycle).queue =
      (kept ++ begun).map service.startedJob ++ rest.map service.waitingJob := by
    have begins : ∀ job ∈ kept.map service.startedJob, job.isExecuting = true := by
      intro job member
      obtain ⟨booking, -, rfl⟩ := List.mem_map.mp member
      rfl
    rw [Coprocessor.queue_settle, live, countP_executing, follows.width,
      Coprocessor.start_append begins, jobs, List.map_append, List.append_assoc]
  have settled : service.Settled submissions cycle (unit.settle cycle) (started ++ begun)
      (kept ++ begun) rest := ⟨after, later, follows.clock, follows.width, queue⟩
  -- a booking starts only once
  have fresh : ∀ booking ∈ started, booking ∉ begun := by
    intro booking known member
    have distinct := standing.distinct
    rw [standing.booked] at distinct
    exact (List.nodup_append.mp distinct).2.2 booking known booking (List.mem_append_left _ member) rfl
  refine ⟨started ++ begun, kept ++ begun, rest, {
    consistent := consistent.withEdge _
    clock := follows.clock
    width := follows.width
    within := follows.within
    ordered := follows.ordered
    known := follows.known
    booked := after.booked
    remaining := after.remaining
    queue := queue
    past := ?past
    gone := ?gone
    ahead := ?ahead
    done := ?done
    edge := ?edge
    finishing := fun booking member near => settled.wakes_finish cycle_eq member near
    starting := fun booking member near => settled.wakes_start cycle_eq member near }⟩
  case past =>
    intro booking member
    rw [← at_edge]
    exact Nat.mul_le_mul_right _ (after.past booking member)
  case gone =>
    intro booking member absent
    rw [← at_edge]
    exact Nat.mul_le_mul_right _ (after.gone booking member absent)
  case ahead =>
    intro booking member
    rw [← at_edge]
    exact Nat.mul_le_mul_right _ (Nat.le_of_lt (later booking member))
  case done =>
    intro result member
    obtain ⟨booking, known, absent, same⟩ := follows.mem_done_settle member
    rw [kept_eq] at absent
    refine ⟨booking, List.mem_append_left _ known, ?_, same⟩
    intro runs
    rcases List.mem_append.mp runs with remains | starts
    · exact absent remains
    · exact fresh booking known starts
  case edge =>
    intro tick asked
    obtain ⟨future, bound, onEdge⟩ := Coprocessor.nextEdge?_eq_some asked
    rw [settled.clock] at onEdge
    exact ⟨Nat.le_of_lt future, bound, onEdge⟩

theorem OnSchedule.edge (schedule : service.OnSchedule submissions now unit) :
    service.OnSchedule submissions now (unit.edge now).1 := by
  obtain ⟨started, running, waiting, follows⟩ := schedule
  by_cases due : unit.nextEdge = some now
  · rw [(Coprocessor.edge_of_eq due).1]
    exact follows.settle (follows.edge now due).2.2
  · rw [Coprocessor.edge_of_ne due]
    exact ⟨started, running, waiting, follows⟩

end CoreTiming.Service
