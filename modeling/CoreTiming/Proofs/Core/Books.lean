import CoreTiming.Proofs.Core.Balance

namespace CoreTiming

/-- The offloads accepted from a core, and the results that it saw with their ticks. -/
structure Notes where
  submissions : List Submission := []
  observations : List (Nat × OffloadResult) := []

def Notes.extend (notes : Notes) (now : Nat) (before after : Core) : Notes where
  submissions := notes.submissions ++ before.submissions after now
  observations := notes.observations ++
    (after.completions.drop before.completions.length).map (now, ·)

theorem Notes.extend_of_same {notes : Notes} {now : Nat} {before after : Core}
    (outstanding : after.outstanding = before.outstanding)
    (completions : after.completions = before.completions) : notes.extend now before after = notes := by
  unfold Notes.extend
  rw [Turn.submissions_of_subset now (by rw [outstanding]; exact List.Subset.refl _), completions,
    List.drop_length]
  simp

theorem Notes.submissions_extend {notes : Notes} {now : Nat} {before after : Core}
    (kept : after.outstanding ⊆ before.outstanding) :
    (notes.extend now before after).submissions = notes.submissions := by
  unfold Notes.extend
  rw [Turn.submissions_of_subset now kept, List.append_nil]

namespace Core

/-- The result is seen at the first edge at which it is complete, which is after its submission. -/
def SeesInTime (core : Core) (observation : Nat × OffloadResult) : Prop :=
  core.clock.edgeAtOrAfter? observation.2.completedAt = some observation.1 ∧
    observation.2.submittedAt < observation.2.completedAt

/-- The books of a core that has looked for results at the tick `since` for the last time. -/
structure Books (service : Service) (notes : Notes) (since now : Nat) (core : Core) (unit : Coprocessor) :
    Prop where
  balanced : (core.ledger (some unit)).Balanced service notes.submissions now unit
  later : ∀ booking ∈ service.bookings notes.submissions,
    booking.submission.handle ∈ core.outstanding → service.finishTick booking ≤ horizon →
      since < service.finishTick booking
  early : core.isHalted = false → ∀ submission ∈ notes.submissions, submission.tick < horizon
  observed : notes.observations.map Prod.snd = core.completions
  booked : ∀ observation ∈ notes.observations, ∃ booking ∈ service.bookings notes.submissions,
    observation.2 = service.result booking
  prompt : ∀ observation ∈ notes.observations, core.SeesInTime observation

namespace Books

variable {service : Service} {notes : Notes} {since now : Nat} {core : Core} {unit : Coprocessor}

theorem ofSpec (spec : CoreSpec) (workload : Workload) (made : CoprocessorSpec) :
    (Core.ofSpec spec workload).Books (.ofSpec made) {} 0 0 (.ofSpec spec.id made) where
  balanced := {
    attached := rfl
    schedule := Service.onSchedule_ofSpec spec.id made
    ascending := List.Pairwise.nil
    held := List.Perm.refl _
    accepted := rfl
    refused := rfl
    counted := rfl
    accounted := List.Perm.refl _
    answered := by simp [Core.ledger, Core.ofSpec] }
  later := by simp [Service.bookings_nil]
  early := by simp
  observed := rfl
  booked := by simp
  prompt := by simp

theorem wait (books : core.Books service notes since now unit) {later : Nat} (order : now ≤ later)
    (within : later ≤ horizon) (waits : ∀ edge, unit.nextEdge = some edge → later ≤ edge) :
    core.Books service notes since later unit :=
  { books with balanced := books.balanced.wait order within waits }

theorem keep (books : core.Books service notes since now unit) {after : Core} {from_now : Nat}
    (ledger : after.ledger (some unit) = core.ledger (some unit)) (clock : after.clock = core.clock)
    (halted : core.isHalted = true → after.isHalted = true)
    (choice : from_now = since ∨ core.outstanding = []) :
    after.Books service (notes.extend now core after) from_now now unit := by
  have outstanding : after.outstanding = core.outstanding := congrArg Ledger.outstanding ledger
  have completions : after.completions = core.completions := congrArg Ledger.completions ledger
  rw [Notes.extend_of_same outstanding completions]
  refine {
    balanced := ledger ▸ books.balanced
    later := ?_
    early := ?_
    observed := books.observed.trans completions.symm
    booked := books.booked
    prompt := ?_ }
  · intro booking member among near
    rw [outstanding] at among
    rcases choice with rfl | idle
    · exact books.later booking member among near
    · rw [idle] at among
      cases among
  · intro awake
    cases still : core.isHalted with
    | false => exact books.early still
    | true =>
      rw [halted still] at awake
      cases awake
  · intro observation member
    unfold SeesInTime
    rw [clock]
    exact books.prompt observation member

theorem advance (books : core.Books service notes since now unit) :
    core.Books service notes since now (unit.edge now).1 :=
  { books with balanced := books.balanced.advance }

theorem seesInTime (books : core.Books service notes since now unit) (awake : core.isHalted = false)
    (onEdge : core.clock.period ∣ now) (near : now ≤ core.clock.nextEdgeAfter since) {booking : Booking}
    (member : booking ∈ service.bookings notes.submissions)
    (outstanding : booking.submission.handle ∈ core.outstanding)
    (elapsed : (service.result booking).completedAt ≤ now) :
    core.SeesInTime (now, service.result booking) := by
  have within := books.balanced.schedule.within
  by_cases bound : service.finishTick booking ≤ horizon
  · have stamp := Service.completedAt_result bound
    have after := books.later booking member outstanding bound
    have reached := Service.finishTick_le_of_result bound elapsed
    have first : core.clock.firstEdge (service.finishTick booking) = now :=
      Nat.le_antisymm (Clock.firstEdge_le_of_dvd onEdge reached)
        (Nat.le_trans near (Clock.nextEdgeAfter_le_firstEdge after))
    constructor
    · show core.clock.edgeAtOrAfter? (service.result booking).completedAt = some now
      rw [stamp, Clock.edgeAtOrAfter?_of_le (by omega), first]
    · show booking.submission.tick < (service.result booking).completedAt
      rw [stamp]
      exact Service.tick_lt_finish member
  · -- the stamp is cut off at the horizon, so this edge is the last one
    have cut : (service.result booking).completedAt = horizon := by
      unfold Service.finishTick at bound
      show min (min booking.finish horizon * service.clock.period) horizon = horizon
      apply Nat.min_eq_right
      rcases Nat.le_total booking.finish horizon with short | long
      · rw [Nat.min_eq_left short]
        omega
      · rw [Nat.min_eq_right long]
        exact Nat.le_mul_of_pos_right _ service.clock.period_pos
    have last : now = horizon := by omega
    have first : core.clock.firstEdge horizon = horizon :=
      Nat.le_antisymm (Clock.firstEdge_le_of_dvd (last ▸ onEdge) (Nat.le_refl _)) (Clock.le_firstEdge _)
    constructor
    · show core.clock.edgeAtOrAfter? (service.result booking).completedAt = some now
      rw [cut, Clock.edgeAtOrAfter?_of_le (by omega), first, last]
    · show booking.submission.tick < (service.result booking).completedAt
      rw [cut]
      exact books.early awake booking.submission (Service.submission_mem member)

end Books

end Core

namespace Turn

variable {service : Service} {notes : Notes} {since : Nat} {unit : Coprocessor} {turn : Turn}

theorem books_coreEdge (books : turn.core.Books service notes since turn.now unit)
    (attached : turn.coprocessor = some unit) (awake : turn.core.isHalted = false)
    (onEdge : turn.core.clock.period ∣ turn.now) (due : turn.core.nextEdge = some turn.now)
    (near : turn.core.outstanding ≠ [] → turn.now ≤ turn.core.clock.nextEdgeAfter since)
    (clock : turn.coreEdge.core.clock = turn.core.clock) :
    ∃ after, turn.coreEdge.coprocessor = some after ∧ turn.coreEdge.core.Books service
      (notes.extend turn.now turn.core turn.coreEdge.core) turn.now turn.now after := by
  have balanced : turn.ledger.Balanced service notes.submissions turn.now unit := by
    unfold ledger
    rw [attached]
    exact books.balanced
  obtain ⟨after, kept, later, early, new, completions, results⟩ := balanced_coreEdge balanced due awake
  have still : turn.coreEdge.coprocessor = some after := kept.attached
  have added : turn.coreEdge.core.completions.drop turn.core.completions.length = new := by
    rw [completions, List.drop_left]
  unfold ledger at kept
  rw [still] at kept
  refine ⟨after, still, {
    balanced := kept
    later := later
    early := ?early
    observed := ?observed
    booked := ?booked
    prompt := ?prompt }⟩
  case early =>
    intro active submission member
    rcases List.mem_append.mp member with old | latest
    · exact books.early awake submission old
    · rcases early submission latest with before | halted
      · exact before
      · rw [active] at halted
        cases halted
  case observed =>
    unfold Notes.extend
    rw [added, List.map_append, books.observed, completions, List.map_map]
    exact congrArg (turn.core.completions ++ ·) (List.map_id new)
  case booked =>
    intro observation member
    unfold Notes.extend at member
    rw [added] at member
    rcases List.mem_append.mp member with old | latest
    · obtain ⟨booking, known, same⟩ := books.booked observation old
      exact ⟨booking, (Service.bookings_prefix ..).subset known, same⟩
    · obtain ⟨result, among, rfl⟩ := List.mem_map.mp latest
      obtain ⟨booking, known, -, same, -⟩ := results result among
      exact ⟨booking, (Service.bookings_prefix ..).subset known, same⟩
  -- this edge is the first one behind its end, since the core has polled at every edge before
  case prompt =>
    intro observation member
    unfold Notes.extend at member
    rw [added] at member
    unfold Core.SeesInTime
    rw [clock]
    rcases List.mem_append.mp member with old | latest
    · exact books.prompt observation old
    · obtain ⟨result, among, rfl⟩ := List.mem_map.mp latest
      obtain ⟨booking, known, outstanding, rfl, elapsed⟩ := results result among
      have some_left : turn.core.outstanding ≠ [] := List.ne_nil_of_mem outstanding
      exact books.seesInTime awake onEdge (near some_left) known outstanding elapsed

end Turn

end CoreTiming
