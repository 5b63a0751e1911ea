import CoreTiming.Proofs.Coprocessor.Collection

namespace CoreTiming

def Coprocessor.occupied (unit : Coprocessor) (cycle : Nat) : Nat :=
  unit.queue.countP fun job => job.isExecuting && !job.finishedBy cycle

/-- A job of the queue can end in a cycle, or it is ready to start and there is a place for it. -/
def Coprocessor.CanAct (unit : Coprocessor) (cycle : Nat) : Prop :=
  ∃ job ∈ unit.queue, job.finishedBy cycle = true ∨ job.isExecuting = false ∧
    job.readyCycle ≤ cycle ∧ unit.occupied cycle < unit.issueWidth

namespace Service

/-- No offload that has started by a tick runs beyond the horizon. -/
def Fits (service : Service) (submissions : List Submission) (now : Nat) : Prop :=
  ∀ booking ∈ service.bookings submissions,
    booking.start * service.clock.period ≤ now → booking.finish ≤ horizon

variable {service : Service} {submissions : List Submission} {now : Nat} {unit : Coprocessor}
  {started running waiting : List Booking}

theorem start_le_horizon (ready : ∀ submission ∈ submissions,
      service.clock.cycleAtOrAfter submission.tick ≤ horizon)
    (fits : ∀ booking ∈ service.bookings submissions, booking.start ≤ horizon → booking.finish ≤ horizon) :
    ∀ booking ∈ service.bookings submissions, booking.start ≤ horizon := by
  induction submissions using List.reverseRecOn with
  | nil => simp [bookings_nil]
  | append_singleton submissions last ih =>
    rw [bookings_concat] at fits ⊢
    have earlier : ∀ booking ∈ service.bookings submissions, booking.start ≤ horizon := by
      apply ih
      · exact fun submission member => ready submission (List.mem_append_left _ member)
      · exact fun booking member => fits booking (List.mem_append_left _ member)
    intro booking member
    rcases List.mem_append.mp member with before | single
    · exact earlier booking before
    · rw [List.mem_singleton.mp single]
      -- all before it have ended by the horizon, which therefore is a cycle with a free place
      have elapsed : ∀ other ∈ service.bookings submissions, other.finish ≤ horizon :=
        fun other before => fits other (List.mem_append_left _ before) (earlier other before)
      apply start_le
      · exact earliest_le (ready last (by simp)) earlier
      · rw [busy_eq_zero elapsed]
        exact service.width_pos

namespace Follows

theorem finish_le_of_started (follows : service.Follows submissions now unit started running waiting)
    (fits : service.Fits submissions now) :
    ∀ booking ∈ started, booking.finish ≤ horizon ∧ booking.start * service.clock.period ≤ now := by
  intro booking member
  have known := follows.mem_bookings_of_started member
  have past := follows.past booking member
  have within := follows.within
  have positive := service.clock.period_pos
  have early : booking.start ≤ horizon := by
    by_contra late
    have reached : horizon * service.clock.period ≤ now := by
      rwa [Nat.min_eq_right (by omega)] at past
    refine late (start_le_horizon ?_ ?_ booking known)
    · intro submission among
      have tick := follows.known submission among
      have longer := Nat.le_mul_of_pos_right horizon positive
      exact Clock.cycleAtOrAfter_le_iff.mpr (by omega)
    · intro other among start
      exact fits other among (Nat.le_trans (Nat.mul_le_mul_right _ start) reached)
  rw [Nat.min_eq_left early] at past
  exact ⟨fits booking known past, past⟩

theorem occupied_eq (follows : service.Follows submissions now unit started running waiting)
    (fits : service.Fits submissions now) (cycle : Nat) :
    unit.occupied cycle = (running.filter (cycle < ·.finish)).length := by
  have live : ∀ booking ∈ running, ((service.startedJob booking).isExecuting &&
      !(service.startedJob booking).finishedBy cycle) = decide (cycle < booking.finish) := by
    intro booking member
    have elapsed : (service.startedJob booking).finishedBy cycle =
        decide (min booking.finish horizon ≤ cycle) := rfl
    have ends := (follows.finish_le_of_started fits booking (follows.remaining.subset member)).1
    rw [elapsed, Nat.min_eq_left ends, ← decide_not]
    exact decide_eq_decide.mpr Nat.not_le
  have idle : ((fun job : Job => job.isExecuting && !job.finishedBy cycle) ∘ service.waitingJob) =
      fun _ => false := rfl
  unfold Coprocessor.occupied
  rw [follows.queue, List.countP_append, List.countP_map, List.countP_map, idle, List.countP_false,
    ← List.countP_eq_length_filter]
  refine List.countP_congr ?_
  intro booking member
  rw [Function.comp_apply, live booking member]

theorem start_le_of_ready
    (follows : service.Follows submissions now unit started running waiting)
    (fits : service.Fits submissions now) {cycle : Nat} (future : now ≤ cycle * service.clock.period)
    (free : unit.occupied cycle < unit.issueWidth) {booking : Booking} (member : booking ∈ waiting)
    (ready : service.clock.cycleAtOrAfter booking.submission.tick ≤ cycle) :
    ∃ first ∈ waiting, first.start ≤ cycle := by
  have positive := service.clock.period_pos
  have booked := follows.booked
  cases waiting with
  | nil => cases member
  | cons first rest =>
    refine ⟨first, by simp, ?_⟩
    have order : first.submission.tick ≤ booking.submission.tick := by
      have ordered := follows.ordered
      rw [← service.map_submission_bookings submissions, booked, List.map_append, List.map_cons] at ordered
      rcases List.mem_cons.mp member with rfl | behind
      · exact Nat.le_refl _
      · exact (List.pairwise_cons.mp (List.pairwise_append.mp ordered).2.1).1 _
          (List.mem_map_of_mem behind)
    have due : service.clock.cycleAtOrAfter first.submission.tick ≤ cycle := by
      have reached := Clock.cycleAtOrAfter_le_iff.mp ready
      exact Clock.cycleAtOrAfter_le_iff.mpr (Nat.le_trans order reached)
    have begun : ∀ other ∈ started, other.start ≤ cycle := by
      intro other among
      have past := (follows.finish_le_of_started fits other among).2
      exact Nat.le_of_mul_le_mul_right (Nat.le_trans past future) positive
    have distinct : started.Nodup := by
      have distinct := List.Nodup.of_map _ follows.distinct
      rw [booked] at distinct
      exact (List.nodup_append.mp distinct).1
    -- what has left the queue ended by now, so nothing but the queue takes up places
    have busy : busy started cycle ≤ unit.occupied cycle := by
      rw [follows.occupied_eq fits]
      refine busy_le_of_gone distinct ?_
      intro other among absent
      have gone := follows.gone other among absent
      have ends := (follows.finish_le_of_started fits other among).1
      rw [Nat.min_eq_left ends] at gone
      exact Nat.le_of_mul_le_mul_right (Nat.le_trans gone future) positive
    rw [eq_book_of_bookings booked]
    exact start_le (earliest_le due begun) (Nat.lt_of_le_of_lt busy (follows.width ▸ free))

theorem wakesBy_of_canAct (follows : service.Follows submissions now unit started running waiting)
    (fits : service.Fits submissions now) {cycle : Nat} (future : now ≤ cycle * service.clock.period)
    (near : cycle * service.clock.period ≤ horizon) (act : unit.CanAct cycle) :
    unit.WakesBy (cycle * service.clock.period) := by
  have later : ∀ earlier, earlier ≤ cycle →
      earlier * service.clock.period ≤ cycle * service.clock.period :=
    fun earlier order => Nat.mul_le_mul_right _ order
  obtain ⟨job, member, acts⟩ := act
  rw [follows.queue] at member
  rcases List.mem_append.mp member with runs | waits
  · obtain ⟨booking, among, rfl⟩ := List.mem_map.mp runs
    rcases acts with elapsed | ⟨idle, -⟩
    · have ends := (follows.finish_le_of_started fits booking (follows.remaining.subset among)).1
      have reached : booking.finish ≤ cycle := by
        have bound : min booking.finish horizon ≤ cycle := of_decide_eq_true elapsed
        rwa [Nat.min_eq_left ends] at bound
      have scaled := later _ reached
      obtain ⟨edge, asked, order⟩ := follows.finishing booking among (Nat.le_trans scaled near)
      exact ⟨edge, asked, Nat.le_trans order scaled⟩
    · cases idle
  · obtain ⟨booking, among, rfl⟩ := List.mem_map.mp waits
    rcases acts with elapsed | ⟨-, ready, free⟩
    · cases elapsed
    · obtain ⟨first, waits, start⟩ := follows.start_le_of_ready fits future free among ready
      have scaled := later _ start
      obtain ⟨edge, asked, order⟩ := follows.starting first waits (Nat.le_trans scaled near)
      exact ⟨edge, asked, Nat.le_trans order scaled⟩

end Follows

theorem OnSchedule.wakesBy_of_canAct (schedule : service.OnSchedule submissions now unit)
    (fits : service.Fits submissions now) {cycle : Nat} (future : now ≤ cycle * unit.clock.period)
    (near : cycle * unit.clock.period ≤ horizon) (act : unit.CanAct cycle) :
    ∃ edge, unit.nextEdge = some edge ∧ now ≤ edge ∧ edge ≤ cycle * unit.clock.period := by
  obtain ⟨started, running, waiting, follows⟩ := schedule
  rw [follows.clock] at future near ⊢
  obtain ⟨edge, asked, order⟩ := follows.wakesBy_of_canAct fits future near act
  exact ⟨edge, asked, (follows.edge edge asked).1, order⟩

end Service

end CoreTiming
