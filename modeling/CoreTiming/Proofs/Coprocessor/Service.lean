import CoreTiming.Coprocessor
import CoreTiming.Proofs.Time.Edges
import Mathlib.Data.List.Basic
import Mathlib.Data.List.Induction
import Mathlib.Data.Nat.Find
import Mathlib.Tactic.Common

namespace CoreTiming

structure Submission where
  handle : Nat
  tick : Nat
  work : Offload
  deriving DecidableEq, Repr

structure Booking where
  submission : Submission
  start : Nat
  deriving DecidableEq, Repr

namespace Booking

def duration (booking : Booking) : Nat :=
  max booking.submission.work.cycles 1

def finish (booking : Booking) : Nat :=
  booking.start + booking.duration

def covers (booking : Booking) (cycle : Nat) : Bool :=
  booking.start ≤ cycle && cycle < booking.finish

theorem start_lt_finish (booking : Booking) : booking.start < booking.finish := by
  unfold finish duration
  omega

theorem covers_iff {booking : Booking} {cycle : Nat} :
    booking.covers cycle = true ↔ booking.start ≤ cycle ∧ cycle < booking.finish := by
  simp [covers]

end Booking

structure Service where
  clock : Clock
  width : Nat
  width_pos : 0 < width

namespace Service

def busy (earlier : List Booking) (cycle : Nat) : Nat :=
  earlier.countP (·.covers cycle)

theorem exists_bound (earlier : List Booking) : ∃ bound, ∀ booking ∈ earlier, booking.finish ≤ bound := by
  induction earlier with
  | nil => exact ⟨0, by simp⟩
  | cons first rest ih =>
    obtain ⟨bound, limit⟩ := ih
    refine ⟨max first.finish bound, ?_⟩
    intro booking member
    rcases List.mem_cons.mp member with rfl | member
    · exact Nat.le_max_left ..
    · exact Nat.le_trans (limit booking member) (Nat.le_max_right ..)

theorem busy_eq_zero {earlier : List Booking} {cycle : Nat}
    (elapsed : ∀ booking ∈ earlier, booking.finish ≤ cycle) : busy earlier cycle = 0 := by
  refine List.countP_eq_zero.mpr ?_
  intro booking member covered
  have := (Booking.covers_iff.mp covered).2
  have := elapsed booking member
  omega

theorem exists_free (service : Service) (earlier : List Booking) (earliest : Nat) :
    ∃ cycle, earliest ≤ cycle ∧ busy earlier cycle < service.width := by
  obtain ⟨bound, limit⟩ := exists_bound earlier
  refine ⟨max earliest bound, Nat.le_max_left .., ?_⟩
  rw [busy_eq_zero fun booking member => Nat.le_trans (limit booking member) (Nat.le_max_right ..)]
  exact service.width_pos

/-- The least cycle from `earliest` on in which fewer than `width` of the earlier offloads execute. -/
def firstFree (service : Service) (earlier : List Booking) (earliest : Nat) : Nat :=
  Nat.find (service.exists_free earlier earliest)

/-- No offload starts before it is ready, or before the one submitted before it. -/
def earliest (service : Service) (earlier : List Booking) (submission : Submission) : Nat :=
  max (service.clock.cycleAtOrAfter submission.tick) ((earlier.getLast?.map Booking.start).getD 0)

def book (service : Service) (earlier : List Booking) (submission : Submission) : Booking :=
  ⟨submission, service.firstFree earlier (service.earliest earlier submission)⟩

def bookings (service : Service) (submissions : List Submission) : List Booking :=
  submissions.foldl (fun earlier submission => earlier ++ [service.book earlier submission]) []

variable {service : Service} {earlier : List Booking} {submission : Submission}

theorem earliest_le_start : service.earliest earlier submission ≤ (service.book earlier submission).start :=
  (Nat.find_spec (service.exists_free earlier (service.earliest earlier submission))).1

theorem busy_start_lt : busy earlier (service.book earlier submission).start < service.width :=
  (Nat.find_spec (service.exists_free earlier (service.earliest earlier submission))).2

theorem start_le {cycle : Nat} (late : service.earliest earlier submission ≤ cycle)
    (free : busy earlier cycle < service.width) : (service.book earlier submission).start ≤ cycle :=
  Nat.find_min' _ ⟨late, free⟩

theorem ready_le_start :
    service.clock.cycleAtOrAfter submission.tick ≤ (service.book earlier submission).start :=
  Nat.le_trans (Nat.le_max_left ..) earliest_le_start

theorem earliest_le {cycle : Nat} (ready : service.clock.cycleAtOrAfter submission.tick ≤ cycle)
    (started : ∀ booking ∈ earlier, booking.start ≤ cycle) :
    service.earliest earlier submission ≤ cycle := by
  refine Nat.max_le.mpr ⟨ready, ?_⟩
  cases last : earlier.getLast? with
  | none => exact Nat.zero_le _
  | some booking => exact started booking (List.mem_of_getLast? last)

theorem bookings_nil : service.bookings [] = [] := rfl

theorem bookings_concat (submissions : List Submission) (submission : Submission) :
    service.bookings (submissions ++ [submission]) =
      service.bookings submissions ++ [service.book (service.bookings submissions) submission] := by
  simp only [bookings, List.foldl_append, List.foldl_cons, List.foldl_nil]

theorem bookings_prefix (submissions later : List Submission) :
    service.bookings submissions <+: service.bookings (submissions ++ later) := by
  induction later using List.reverseRecOn with
  | nil => simp
  | append_singleton later last ih =>
    rw [← List.append_assoc, bookings_concat]
    exact ih.trans (List.prefix_append ..)

theorem map_submission_bookings (submissions : List Submission) :
    (service.bookings submissions).map Booking.submission = submissions := by
  induction submissions using List.reverseRecOn with
  | nil => rfl
  | append_singleton submissions submission ih =>
    rw [bookings_concat, List.map_append, ih]
    rfl

theorem submission_mem {submissions : List Submission} {booking : Booking}
    (member : booking ∈ service.bookings submissions) : booking.submission ∈ submissions := by
  have among := List.mem_map_of_mem (f := Booking.submission) member
  rwa [map_submission_bookings] at among

theorem eq_book_of_bookings {submissions : List Submission} {before after : List Booking}
    {booking : Booking} (split : service.bookings submissions = before ++ booking :: after) :
    booking = service.book before booking.submission := by
  induction submissions using List.reverseRecOn generalizing after with
  | nil => simp [bookings_nil] at split
  | append_singleton submissions submission ih =>
    rw [bookings_concat] at split
    rcases List.eq_nil_or_concat' after with rfl | ⟨inner, last, rfl⟩
    · obtain ⟨same, single⟩ := List.append_inj' split rfl
      rw [← List.singleton_inj.mp single, same]
      rfl
    · have shorter := (List.append_inj' (split.trans
        (List.append_assoc before (booking :: inner) [last]).symm) rfl).1
      exact ih shorter

theorem eq_bookings_of_split {submissions : List Submission} {before after : List Booking}
    {booking : Booking} (split : service.bookings submissions = before ++ booking :: after) :
    before = service.bookings (before.map Booking.submission) := by
  induction submissions using List.reverseRecOn generalizing after with
  | nil => simp [bookings_nil] at split
  | append_singleton submissions submission ih =>
    rw [bookings_concat] at split
    rcases List.eq_nil_or_concat' after with rfl | ⟨inner, last, rfl⟩
    · obtain ⟨same, -⟩ := List.append_inj' split rfl
      rw [← same, map_submission_bookings]
    · have shorter := (List.append_inj' (split.trans
        (List.append_assoc before (booking :: inner) [last]).symm) rfl).1
      exact ih shorter

theorem pairwise_start (submissions : List Submission) :
    (service.bookings submissions).Pairwise fun first second => first.start ≤ second.start := by
  induction submissions using List.reverseRecOn with
  | nil => exact .nil
  | append_singleton submissions submission ih =>
    rw [bookings_concat]
    refine List.pairwise_append.mpr ⟨ih, List.pairwise_singleton .., ?_⟩
    intro first member second single
    rw [List.mem_singleton.mp single]
    refine Nat.le_trans ?_ earliest_le_start
    refine Nat.le_trans ?_ (Nat.le_max_right ..)
    rcases List.eq_nil_or_concat' (service.bookings submissions) with empty | ⟨inner, last, same⟩
    · simp [empty] at member
    · rw [same] at ih member ⊢
      rw [List.getLast?_append]
      rcases List.mem_append.mp member with member | member
      · exact (List.pairwise_append.mp ih).2.2 first member last (by simp)
      · rw [List.mem_singleton.mp member]
        exact Nat.le_refl _

theorem start_le_of_split {submissions : List Submission} {before after : List Booking}
    {first booking : Booking} (split : service.bookings submissions = before ++ booking :: after)
    (member : first ∈ before) : first.start ≤ booking.start := by
  have pairwise := service.pairwise_start submissions
  rw [split] at pairwise
  exact (List.pairwise_append.mp pairwise).2.2 first member booking (by simp)

theorem ready_le_of_mem {submissions : List Submission} {booking : Booking}
    (member : booking ∈ service.bookings submissions) :
    service.clock.cycleAtOrAfter booking.submission.tick ≤ booking.start := by
  obtain ⟨before, after, split⟩ := List.append_of_mem member
  rw [eq_book_of_bookings split]
  exact ready_le_start

theorem tick_lt_finish {submissions : List Submission} {booking : Booking}
    (member : booking ∈ service.bookings submissions) :
    booking.submission.tick < booking.finish * service.clock.period := by
  have ready := Clock.cycleAtOrAfter_le_iff.mp (ready_le_of_mem member)
  have positive := service.clock.period_pos
  have longer := Nat.mul_lt_mul_of_pos_right booking.start_lt_finish positive
  omega

theorem pairwise_finish_le (single : service.width = 1) (submissions : List Submission) :
    (service.bookings submissions).Pairwise fun first second => first.finish ≤ second.start := by
  induction submissions using List.reverseRecOn with
  | nil => exact .nil
  | append_singleton submissions submission ih =>
    have ordered := service.pairwise_start (submissions ++ [submission])
    rw [bookings_concat] at ordered ⊢
    refine List.pairwise_append.mpr ⟨ih, List.pairwise_singleton .., ?_⟩
    intro first member second last
    rw [List.mem_singleton.mp last]
    have started := (List.pairwise_append.mp ordered).2.2 first member _ (List.mem_singleton_self _)
    have free : busy (service.bookings submissions)
        (service.book (service.bookings submissions) submission).start = 0 := by
      have := @busy_start_lt service (service.bookings submissions) submission
      omega
    have uncovered := List.countP_eq_zero.mp free first member
    rw [Booking.covers_iff] at uncovered
    omega

theorem start_of_single (single : service.width = 1) (submissions : List Submission)
    (submission : Submission) :
    (service.book (service.bookings submissions) submission).start =
      max (service.clock.cycleAtOrAfter submission.tick)
        (((service.bookings submissions).getLast?.map Booking.finish).getD 0) := by
  -- at the end of the last booking the one place is free, and no earlier
  have disjoint := pairwise_finish_le single (submissions ++ [submission])
  have inner := pairwise_finish_le single submissions
  rw [bookings_concat] at disjoint
  apply Nat.le_antisymm
  · rcases List.eq_nil_or_concat' (service.bookings submissions) with empty | ⟨before, last, same⟩
    · rw [empty]
      exact start_le (Nat.le_refl _) service.width_pos
    · rw [same] at inner ⊢
      have elapsed : ∀ booking ∈ before ++ [last], booking.finish ≤ last.finish := by
        intro booking member
        rcases List.mem_append.mp member with member | member
        · have earlier := (List.pairwise_append.mp inner).2.2 booking member last (by simp)
          exact Nat.le_trans earlier (Nat.le_of_lt last.start_lt_finish)
        · rw [List.mem_singleton.mp member]
      have newest : ((before ++ [last]).getLast?.map Booking.finish).getD 0 = last.finish := by simp
      rw [newest]
      have limit := Nat.le_max_right (service.clock.cycleAtOrAfter submission.tick) last.finish
      refine start_le (earliest_le (Nat.le_max_left ..) fun booking member => ?_) ?_
      · exact Nat.le_trans (Nat.le_of_lt booking.start_lt_finish)
          (Nat.le_trans (elapsed booking member) limit)
      · rw [busy_eq_zero fun booking member => Nat.le_trans (elapsed booking member) limit]
        exact service.width_pos
  · refine Nat.max_le.mpr ⟨ready_le_start, ?_⟩
    cases last : (service.bookings submissions).getLast? with
    | none => exact Nat.zero_le _
    | some booking =>
      exact (List.pairwise_append.mp disjoint).2.2 booking (List.mem_of_getLast? last) _
        (List.mem_singleton_self _)

theorem start_of_single_of_split (single : service.width = 1) {submissions : List Submission}
    {before after : List Booking} {booking : Booking}
    (split : service.bookings submissions = before ++ booking :: after) :
    booking.start = max (service.clock.cycleAtOrAfter booking.submission.tick)
      ((before.getLast?.map Booking.finish).getD 0) := by
  have start := start_of_single single (before.map Booking.submission) booking.submission
  rw [← eq_bookings_of_split split] at start
  rw [← start]
  exact congrArg Booking.start (eq_book_of_bookings split)

end Service

end CoreTiming
