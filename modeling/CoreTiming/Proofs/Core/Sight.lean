import CoreTiming.Proofs.Core.Issuing

namespace CoreTiming

namespace Service

variable {service : Service} {submissions : List Submission} {now : Nat} {unit : Coprocessor}

def completedAt (service : Service) (submissions : List Submission) (handle : Nat) : Nat :=
  match (service.bookings submissions).find? (·.submission.handle = handle) with
  | some booking => (service.result booking).completedAt
  | none => 0

theorem OnSchedule.completedAt_eq (schedule : service.OnSchedule submissions now unit) {booking : Booking}
    (member : booking ∈ service.bookings submissions) :
    service.completedAt submissions booking.submission.handle = (service.result booking).completedAt := by
  unfold completedAt
  cases found : (service.bookings submissions).find? (·.submission.handle = booking.submission.handle) with
  | none => exact absurd (decide_eq_true rfl) (List.find?_eq_none.mp found booking member)
  | some other =>
    have named : other.submission.handle = booking.submission.handle := by
      simpa using List.find?_some found
    rw [schedule.eq_of_handle (List.mem_of_find?_eq_some found) member named]

/-- Only the horizon makes a result look as if it had come earlier. -/
theorem finishTick_eq {booking : Booking} (early : (service.result booking).completedAt < horizon) :
    service.finishTick booking = (service.result booking).completedAt := by
  have positive := service.clock.period_pos
  change min (min booking.finish horizon * service.clock.period) horizon < horizon at early
  show booking.finish * service.clock.period =
    min (min booking.finish horizon * service.clock.period) horizon
  rcases Nat.le_total booking.finish horizon with short | long
  · rw [Nat.min_eq_left short] at early ⊢
    omega
  · rw [Nat.min_eq_right long] at early
    have past := Nat.le_mul_of_pos_right horizon positive
    omega

end Service

theorem Ledger.Balanced.exists_booking {service : Service} {submissions : List Submission} {now : Nat}
    {unit : Coprocessor} {ledger : Ledger} (balanced : ledger.Balanced service submissions now unit)
    {handle : Nat} (outstanding : handle ∈ ledger.outstanding) :
    ∃ booking ∈ service.bookings submissions, booking.submission.handle = handle := by
  have less := balanced.schedule.consistent.held_lt (balanced.held.mem_iff.mp outstanding)
  have known : handle ∈ submissions.map Submission.handle := by
    rw [balanced.schedule.consistent.numbered]
    exact List.mem_range.mpr less
  rw [← service.map_submission_bookings submissions, List.map_map] at known
  obtain ⟨booking, member, named⟩ := List.mem_map.mp known
  exact ⟨booking, member, named⟩

namespace Ledger.Balanced

variable {service : Service} {submissions : List Submission} {now : Nat} {unit : Coprocessor}
  {ledger : Ledger}

theorem mem_pollAll (balanced : ledger.Balanced service submissions now unit) {handle : Nat}
    (outstanding : handle ∈ ledger.outstanding)
    (early : service.completedAt submissions handle < horizon) :
    handle ∈ (ledger.pollAll now).outstanding ↔ now < service.completedAt submissions handle := by
  obtain ⟨booking, member, rfl⟩ := balanced.exists_booking outstanding
  obtain ⟨after, polled, same, kept, taken, new, completions, results⟩ := balanced.pollAll
  rw [balanced.schedule.completedAt_eq member] at early ⊢
  have ends := Service.finishTick_eq early
  constructor
  · intro still
    by_contra elapsed
    exact taken booking member outstanding (by omega) (by omega) still
  · intro later
    by_contra gone
    -- the handle was not complete before the polls, so one of them has taken it
    have before := balanced.accounted.nodup_iff.mpr List.nodup_range
    have numbered : after.nextHandle = unit.nextHandle :=
      polled.accepted.symm.trans (same.trans balanced.accepted)
    have listed : booking.submission.handle ∈
        (ledger.pollAll now).completions.map OffloadResult.handle := by
      have among : booking.submission.handle ∈ List.range after.nextHandle := by
        rw [numbered]
        exact balanced.accounted.mem_iff.mp (List.mem_append_right _ outstanding)
      exact (List.mem_append.mp (polled.accounted.mem_iff.mpr among)).resolve_right gone
    rw [completions, List.map_append] at listed
    rcases List.mem_append.mp listed with old | latest
    · exact List.disjoint_of_nodup_append before old outstanding
    · obtain ⟨result, among, named⟩ := List.mem_map.mp latest
      obtain ⟨other, known, -, rfl, elapsed⟩ := results result among
      rw [balanced.schedule.eq_of_handle known member named] at elapsed
      omega

end Ledger.Balanced

namespace Turn

variable {turn : Turn} {spec : Option CoprocessorSpec} {made : CoprocessorSpec} {notes : Notes}
  {since : Nat} {agenda : List (Nat × Event)} {log : List Log.Line}

theorem ledger_polled : turn.polled.ledger = turn.ledger.pollAll turn.now :=
  ledger_pollAll (turn.setCore { turn.core with nextEdge := none })

theorem balanced_of_stands (stands : turn.core.Stands (some made) notes since turn.now agenda log
    turn.coprocessor) : ∃ unit, turn.ledger.Balanced (.ofSpec made) notes.submissions turn.now unit ∧
      turn.core.Books (.ofSpec made) notes since turn.now unit := by
  obtain ⟨unit, attached, books⟩ := stands.books made rfl
  refine ⟨unit, ?_, books⟩
  unfold ledger
  rw [attached]
  exact books.balanced

theorem sees_of_stands (stands : turn.core.Stands (some made) notes since turn.now agenda log
    turn.coprocessor) : turn.Sees ((Service.ofSpec made).completedAt notes.submissions) := by
  obtain ⟨unit, balanced, -⟩ := balanced_of_stands stands
  have outstanding : turn.polled.core.outstanding = (turn.ledger.pollAll turn.now).outstanding :=
    congrArg Ledger.outstanding ledger_polled
  constructor
  · obtain ⟨-, -, -, kept, -⟩ := balanced.pollAll
    rw [outstanding]
    exact kept
  · intro handle member early
    rw [outstanding]
    exact balanced.mem_pollAll member early

theorem exists_polled_unit (stands : turn.core.Stands (some made) notes since turn.now agenda log
    turn.coprocessor) : ∃ unit, turn.polled.coprocessor = some unit := by
  obtain ⟨unit, balanced, -⟩ := balanced_of_stands stands
  obtain ⟨after, polled, -⟩ := balanced.pollAll
  exact ⟨after, (congrArg Ledger.coprocessor ledger_polled).trans polled.attached⟩

theorem exists_seen (stands : turn.core.Stands (some made) notes since turn.now agenda log
    turn.coprocessor) {handle : Nat} (submitted : handle ∈ notes.submissions.map Submission.handle)
    (gone : handle ∉ turn.polled.core.outstanding) :
    ∃ result ∈ turn.polled.core.completions, result.handle = handle ∧
      result.completedAt = (Service.ofSpec made).completedAt notes.submissions handle := by
  obtain ⟨unit, balanced, books⟩ := balanced_of_stands stands
  obtain ⟨after, polled, same, -, -, new, completions, results⟩ := balanced.pollAll
  rw [← ledger_polled] at polled same completions
  have known : handle ∈ turn.polled.core.completions.map OffloadResult.handle := by
    rw [polled.schedule.consistent.numbered] at submitted
    exact (List.mem_append.mp (polled.accounted.mem_iff.mpr submitted)).resolve_right gone
  obtain ⟨result, among, rfl⟩ := List.mem_map.mp known
  obtain ⟨booking, booked, rfl⟩ : ∃ booking ∈ (Service.ofSpec made).bookings notes.submissions,
      result = (Service.ofSpec made).result booking := by
    have listed : result ∈ turn.core.completions ++ new := completions ▸ among
    rcases List.mem_append.mp listed with old | latest
    · rw [← books.observed] at old
      obtain ⟨observation, noted, rfl⟩ := List.mem_map.mp old
      exact books.booked observation noted
    · obtain ⟨booking, known, -, same, -⟩ := results result latest
      exact ⟨booking, known, same⟩
  exact ⟨_, among, rfl, (balanced.schedule.completedAt_eq booked).symm⟩

theorem sees_of_idle (idle : turn.core.outstanding = []) (finish : Nat → Nat) : turn.Sees finish where
  kept := by
    rw [turn.polled_of_idle idle]
    exact List.Subset.refl _
  seen := by
    intro handle member
    rw [idle] at member
    cases member

end Turn

end CoreTiming
