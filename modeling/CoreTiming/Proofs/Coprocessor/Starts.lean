import CoreTiming.Proofs.Coprocessor.Service
import CoreTiming.Proofs.Coprocessor.Steps
import Mathlib.Data.List.Perm.Subperm

namespace CoreTiming

namespace Service

def ofSpec (spec : CoprocessorSpec) : Service where
  clock := spec.clock
  width := match spec.issue with
    | .single => 1
    | .multi => max spec.issueWidth 1
  width_pos := by
    cases spec.issue
    · exact Nat.one_pos
    · exact Nat.le_max_right ..

theorem width_of_single {spec : CoprocessorSpec} (single : spec.issue = .single) :
    (ofSpec spec).width = 1 := by
  show (match spec.issue with
    | .single => 1
    | .multi => max spec.issueWidth 1) = 1
  rw [single]

def waitingJob (service : Service) (booking : Booking) : Job where
  handle := booking.submission.handle
  work := booking.submission.work
  submittedAt := booking.submission.tick
  readyCycle := service.clock.cycleAtOrAfter booking.submission.tick

/-- A job that has started ends in the cycle that is booked, or at the horizon. -/
def startedJob (service : Service) (booking : Booking) : Job :=
  { service.waitingJob booking with finishCycle := some (min booking.finish horizon) }

theorem busy_le_of_gone {started running : List Booking} {cycle : Nat} (distinct : started.Nodup)
    (gone : ∀ booking ∈ started, booking ∉ running → booking.finish ≤ cycle) :
    busy started cycle ≤ (running.filter (cycle < ·.finish)).length := by
  have among : started.filter (·.covers cycle) ⊆ running.filter (cycle < ·.finish) := by
    intro booking member
    obtain ⟨known, covered⟩ := List.mem_filter.mp member
    have unfinished := (Booking.covers_iff.mp covered).2
    refine List.mem_filter.mpr ⟨?_, decide_eq_true unfinished⟩
    by_contra absent
    have elapsed := gone booking known absent
    omega
  have counted := (List.subperm_of_subset (distinct.filter _) among).length_le
  rwa [← List.countP_eq_length_filter] at counted

/-- What is known of all bookings in a cycle once the jobs that are over have left: those that have
    started, those of them that execute, and those that wait. -/
structure Standing (service : Service) (submissions : List Submission) (cycle : Nat)
    (started running waiting : List Booking) : Prop where
  within : cycle ≤ horizon
  booked : service.bookings submissions = started ++ waiting
  distinct : (service.bookings submissions).Nodup
  remaining : running.Sublist started
  past : ∀ booking ∈ started, min booking.start horizon ≤ cycle
  gone : ∀ booking ∈ started, booking ∉ running → min booking.finish horizon ≤ cycle
  live : ∀ booking ∈ running, cycle < booking.finish
  ahead : ∀ booking ∈ waiting, cycle ≤ booking.start

namespace Standing

variable {service : Service} {submissions : List Submission} {cycle : Nat}
  {started running waiting : List Booking} {booking : Booking}

theorem busy_le (standing : service.Standing submissions cycle started running waiting)
    (early : cycle < horizon) : busy started cycle ≤ running.length := by
  have distinct := standing.distinct
  rw [standing.booked] at distinct
  refine Nat.le_trans (busy_le_of_gone (List.nodup_append.mp distinct).1 ?_) (List.length_filter_le ..)
  intro booking member absent
  have elapsed := standing.gone booking member absent
  omega

theorem start_eq (standing : service.Standing submissions cycle started running (booking :: waiting))
    (room : running.length < service.width)
    (ready : service.clock.cycleAtOrAfter booking.submission.tick ≤ cycle) :
    min booking.start horizon = cycle := by
  have within := standing.within
  have ahead := standing.ahead booking (by simp)
  rcases Nat.lt_or_ge cycle horizon with early | late
  · have begun : ∀ other ∈ started, other.start ≤ cycle := by
      intro other member
      have := standing.past other member
      omega
    have free := Nat.lt_of_le_of_lt (standing.busy_le early) room
    have bound := start_le (earliest_le ready begun) free
    rw [← eq_book_of_bookings standing.booked] at bound
    omega
  · omega

theorem exists_finish_le (standing : service.Standing submissions cycle started running waiting)
    (full : service.width ≤ running.length) (member : booking ∈ waiting) :
    ∃ other ∈ running, other.finish ≤ booking.start := by
  -- otherwise all that execute would still cover the booked start, which is too many
  by_contra none
  obtain ⟨before, after, rfl⟩ := List.append_of_mem member
  have split := standing.booked
  rw [← List.append_assoc] at split
  have free : busy (started ++ before) booking.start < service.width := by
    have free := @busy_start_lt service (started ++ before) booking.submission
    rwa [← eq_book_of_bookings split] at free
  have sublist : running.Sublist (started ++ before) :=
    standing.remaining.trans (List.sublist_append_left _ _)
  have covered : running.countP (·.covers booking.start) = running.length := by
    refine List.countP_eq_length.mpr ?_
    intro other executing
    have order := start_le_of_split split (sublist.subset executing)
    have unfinished : booking.start < other.finish := by
      by_contra elapsed
      exact none ⟨other, executing, Nat.not_lt.mp elapsed⟩
    exact Booking.covers_iff.mpr ⟨order, unfinished⟩
  have counted := @List.Sublist.countP_le _ (·.covers booking.start) _ _ sublist
  unfold busy at free
  omega

theorem lt_start_of_full (standing : service.Standing submissions cycle started running waiting)
    (full : service.width ≤ running.length) (member : booking ∈ waiting) : cycle < booking.start := by
  obtain ⟨other, executing, order⟩ := standing.exists_finish_le full member
  have unfinished := standing.live other executing
  omega

theorem lt_start_of_not_ready
    (standing : service.Standing submissions cycle started running (booking :: waiting))
    (early : cycle < service.clock.cycleAtOrAfter booking.submission.tick) {other : Booking}
    (member : other ∈ booking :: waiting) : cycle < other.start := by
  have ready : service.clock.cycleAtOrAfter booking.submission.tick ≤ booking.start := by
    refine @ready_le_of_mem service submissions booking ?_
    rw [standing.booked]
    simp
  have order : booking.start ≤ other.start := by
    have pairwise := service.pairwise_start submissions
    rw [standing.booked] at pairwise
    rcases List.mem_cons.mp member with rfl | behind
    · exact Nat.le_refl _
    · exact (List.pairwise_cons.mp (List.pairwise_append.mp pairwise).2.1).1 other behind
  omega

theorem begin (standing : service.Standing submissions cycle started running (booking :: waiting))
    (begun : min booking.start horizon = cycle) :
    service.Standing submissions cycle (started ++ [booking]) (running ++ [booking]) waiting where
  within := standing.within
  booked := by simpa using standing.booked
  distinct := standing.distinct
  remaining := standing.remaining.append (List.Sublist.refl _)
  past other member := by
    rcases List.mem_append.mp member with member | single
    · exact standing.past other member
    · rw [List.mem_singleton.mp single]
      exact Nat.le_of_eq begun
  gone other member absent := by
    simp only [List.mem_append, List.mem_singleton, not_or] at absent
    rcases List.mem_append.mp member with member | single
    · exact standing.gone other member absent.1
    · exact absurd (List.mem_singleton.mp single) absent.2
  live other member := by
    rcases List.mem_append.mp member with member | single
    · exact standing.live other member
    · rw [List.mem_singleton.mp single]
      exact Nat.lt_of_le_of_lt (standing.ahead booking (by simp)) booking.start_lt_finish
  ahead other member := standing.ahead other (by simp [member])

theorem exists_begun (standing : service.Standing submissions cycle started running waiting) :
    ∃ begun rest, waiting = begun ++ rest ∧
      (Coprocessor.start service.width cycle running.length (waiting.map service.waitingJob)).1 =
        begun.map service.startedJob ++ rest.map service.waitingJob ∧
      service.Standing submissions cycle (started ++ begun) (running ++ begun) rest ∧
      ∀ booking ∈ rest, cycle < booking.start := by
  -- on the jobs that wait; those that start move to the front, and `Standing` holds for them again
  induction waiting generalizing started running with
  | nil => exact ⟨[], [], rfl, rfl, by simpa using standing, by simp⟩
  | cons booking waiting ih =>
    by_cases full : service.width ≤ running.length
    · refine ⟨[], booking :: waiting, rfl, ?_, by simpa using standing, ?_⟩
      · simp [Coprocessor.start, full]
      · intro other member
        exact standing.lt_start_of_full full member
    · by_cases early : cycle < service.clock.cycleAtOrAfter booking.submission.tick
      · refine ⟨[], booking :: waiting, rfl, ?_, by simpa using standing, ?_⟩
        · simp [Coprocessor.start, Job.isExecuting, waitingJob, full, early]
        · intro other member
          exact standing.lt_start_of_not_ready early member
      · have begun := standing.start_eq (Nat.not_le.mp full) (Nat.not_lt.mp early)
        obtain ⟨others, rest, rfl, jobs, after, later⟩ := ih (standing.begin begun)
        have finish : addUpToHorizon cycle (service.waitingJob booking).duration =
            min booking.finish horizon := by
          have same : booking.finish = booking.start + (service.waitingJob booking).duration := rfl
          unfold addUpToHorizon
          omega
        refine ⟨booking :: others, rest, rfl, ?_, by simpa using after, later⟩
        rw [List.length_append, List.length_singleton] at jobs
        rw [List.map_cons, Coprocessor.start_cons full rfl early, finish, jobs]
        rfl

end Standing

end Service

end CoreTiming
