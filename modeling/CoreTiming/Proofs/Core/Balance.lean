import CoreTiming.Proofs.Coprocessor.Collection
import CoreTiming.Proofs.Core.Ledger

namespace CoreTiming

namespace Ledger

structure Balanced (service : Service) (submissions : List Submission) (now : Nat) (unit : Coprocessor)
    (ledger : Ledger) : Prop where
  attached : ledger.coprocessor = some unit
  schedule : service.OnSchedule submissions now unit
  ascending : ledger.outstanding.Pairwise (· < ·)
  held : ledger.outstanding.Perm unit.held
  accepted : ledger.submitted = unit.nextHandle
  refused : ledger.stalls = unit.counters.rejected
  counted : ledger.completed = ledger.completions.length
  accounted : (ledger.completions.map OffloadResult.handle ++ ledger.outstanding).Perm
    (List.range unit.nextHandle)
  answered : ∀ result ∈ ledger.completions, ∃ submission ∈ submissions, result.Answers submission

variable {service : Service} {submissions : List Submission} {now : Nat} {unit : Coprocessor}
  {ledger : Ledger}

/-- What a round of polls over some handles does to a ledger: all results that were ready are taken,
    each from an offload that was outstanding. -/
structure Polled (service : Service) (submissions : List Submission) (now : Nat) (handles : List Nat)
    (before after : Ledger) : Prop where
  same : after.submitted = before.submitted
  kept : after.outstanding ⊆ before.outstanding
  taken : ∀ booking ∈ service.bookings submissions, booking.submission.handle ∈ handles →
    service.finishTick booking ≤ horizon → service.finishTick booking ≤ now →
      booking.submission.handle ∉ after.outstanding
  results : ∃ new, after.completions = before.completions ++ new ∧ ∀ result ∈ new,
    ∃ booking ∈ service.bookings submissions, booking.submission.handle ∈ before.outstanding ∧
      result = service.result booking ∧ result.completedAt ≤ now

namespace Balanced

theorem wait (balanced : ledger.Balanced service submissions now unit) {later : Nat}
    (order : now ≤ later) (within : later ≤ horizon)
    (waits : ∀ edge, unit.nextEdge = some edge → later ≤ edge) :
    ledger.Balanced service submissions later unit :=
  { balanced with schedule := balanced.schedule.wait order within waits }

theorem advance (balanced : ledger.Balanced service submissions now unit) :
    (ledger.advance now).Balanced service submissions now (unit.edge now).1 := by
  have counters : (unit.edge now).1.nextHandle = unit.nextHandle ∧
      (unit.edge now).1.counters.rejected = unit.counters.rejected := by
    by_cases due : unit.nextEdge = some now
    · rw [(Coprocessor.edge_of_eq due).1]
      exact ⟨rfl, rfl⟩
    · rw [Coprocessor.edge_of_ne due]
      exact ⟨rfl, rfl⟩
  exact {
    attached := by rw [Ledger.advance, balanced.attached]; rfl
    schedule := balanced.schedule.edge
    ascending := balanced.ascending
    held := balanced.held.trans (unit.held_edge now).symm
    accepted := balanced.accepted.trans counters.1.symm
    refused := balanced.refused.trans counters.2.symm
    counted := balanced.counted
    accounted := by rw [counters.1]; exact balanced.accounted
    answered := balanced.answered }

theorem collect (balanced : ledger.Balanced service submissions now unit) {handle : Nat}
    {result : OffloadResult} {after : Coprocessor} {effects : Effects}
    (polled : unit.poll? handle now = some (result, after, effects)) :
    ({ ledger with
      outstanding := ledger.outstanding.erase handle
      completions := ledger.completions ++ [result]
      completed := ledger.completed + 1
      coprocessor := some after } : Ledger).Balanced service submissions now after := by
  obtain ⟨-, taken, answers, called⟩ := balanced.schedule.consistent.poll polled
  have outstanding : handle ∈ ledger.outstanding :=
    balanced.held.mem_iff.mpr (taken.mem_iff.mpr (List.mem_cons_self ..))
  have counters : after.nextHandle = unit.nextHandle ∧
      after.counters.rejected = unit.counters.rejected := by
    obtain ⟨-, ⟨-, -, -, rfl⟩ | ⟨-, -, -, -, -, -, -, -, rfl⟩⟩ := Coprocessor.poll?_eq_some polled
    all_goals exact ⟨rfl, rfl⟩
  refine {
    attached := rfl
    schedule := (balanced.schedule.poll?_eq_some polled).1
    ascending := balanced.ascending.sublist List.erase_sublist
    held := ?held
    accepted := balanced.accepted.trans counters.1.symm
    refused := balanced.refused.trans counters.2.symm
    counted := ?counted
    accounted := ?accounted
    answered := ?answered }
  case held =>
    have shorter := (balanced.held.trans taken).erase handle
    rwa [List.erase_cons_head] at shorter
  case counted =>
    rw [List.length_append, balanced.counted]
    rfl
  case accounted =>
    rw [counters.1, List.map_append, List.append_assoc, List.map_singleton, called]
    exact ((List.perm_cons_erase outstanding).symm.append_left _).trans balanced.accounted
  case answered =>
    intro other member
    rcases List.mem_append.mp member with member | single
    · exact balanced.answered other member
    · rw [List.mem_singleton.mp single]
      exact answers

theorem poll (balanced : ledger.Balanced service submissions now unit) (handle : Nat) :
    ∃ after, (ledger.poll now handle).Balanced service submissions now after ∧
      Polled service submissions now [handle] ledger (ledger.poll now handle) := by
  have consistent := balanced.schedule.consistent
  unfold Ledger.poll
  rw [balanced.attached, Option.bind_some]
  cases polled : unit.poll? handle now with
  | none =>
    refine ⟨unit, balanced, ⟨rfl, List.Subset.refl _, ?_, ⟨[], by simp, by simp⟩⟩⟩
    intro booking member named near elapsed outstanding
    rw [List.mem_singleton] at named
    have held := balanced.held.mem_iff.mp outstanding
    obtain ⟨outcome, found⟩ := balanced.schedule.exists_poll? member held near elapsed
    rw [named, polled] at found
    cases found
  | some outcome =>
    obtain ⟨result, after, effects⟩ := outcome
    obtain ⟨-, booking, booked, named, same, elapsed⟩ := balanced.schedule.poll?_eq_some polled
    obtain ⟨-, taken, -, called⟩ := consistent.poll polled
    have outstanding : handle ∈ ledger.outstanding :=
      balanced.held.mem_iff.mpr (taken.mem_iff.mpr (List.mem_cons_self ..))
    have fresh : handle ∉ ledger.outstanding.erase handle := by
      have distinct := balanced.held.nodup_iff.mpr consistent.distinct
      exact distinct.not_mem_erase
    simp only [called]
    refine ⟨after, balanced.collect polled, rfl, List.erase_subset, ?taken, [result], rfl, ?results⟩
    case taken =>
      intro other _ asked _ _
      rw [List.mem_singleton.mp asked]
      exact fresh
    case results =>
      intro other single
      rw [List.mem_singleton.mp single]
      exact ⟨booking, booked, named ▸ outstanding, same, elapsed⟩

theorem foldl_poll (handles : List Nat) (balanced : ledger.Balanced service submissions now unit) :
    ∃ after, (handles.foldl (Ledger.poll now) ledger).Balanced service submissions now after ∧
      Polled service submissions now handles ledger (handles.foldl (Ledger.poll now) ledger) := by
  induction handles generalizing ledger unit with
  | nil => exact ⟨unit, balanced, rfl, List.Subset.refl _, by simp, [], by simp, by simp⟩
  | cons handle handles ih =>
    obtain ⟨middle, first, same, kept, taken, new, results, stamped⟩ := balanced.poll handle
    obtain ⟨after, rest, laterSame, laterKept, laterTaken, laterNew, laterResults, laterStamped⟩ := ih first
    rw [List.foldl_cons]
    refine ⟨after, rest, laterSame.trans same, List.Subset.trans laterKept kept, ?_, new ++ laterNew, ?_, ?_⟩
    · intro booking member asked near elapsed outstanding
      rcases List.mem_cons.mp asked with same | among
      · exact taken booking member (List.mem_singleton.mpr same) near elapsed (laterKept outstanding)
      · exact laterTaken booking member among near elapsed outstanding
    · rw [laterResults, results, List.append_assoc]
    · intro result member
      rcases List.mem_append.mp member with early | late
      · exact stamped result early
      · obtain ⟨booking, booked, outstanding, stamp⟩ := laterStamped result late
        exact ⟨booking, booked, kept outstanding, stamp⟩

theorem pollAll (balanced : ledger.Balanced service submissions now unit) :
    ∃ after, (ledger.pollAll now).Balanced service submissions now after ∧
      Polled service submissions now ledger.outstanding ledger (ledger.pollAll now) :=
  balanced.foldl_poll ledger.outstanding

theorem refuse (balanced : ledger.Balanced service submissions now unit)
    (full : unit.capacity ≤ unit.occupancy) (work : Offload) :
    ({ ledger with
      stalls := ledger.stalls + 1
      coprocessor := some (unit.submit now work).2.1 } : Ledger).Balanced service submissions now
        (unit.submit now work).2.1 := by
  have schedule : service.OnSchedule submissions now (unit.submit now work).2.1 := by
    rcases balanced.schedule.submit work with ⟨-, -, kept⟩ | ⟨accepted, -⟩
    · exact kept
    · rw [Coprocessor.submit_of_full full] at accepted
      cases accepted
  rw [Coprocessor.submit_of_full full] at schedule ⊢
  exact {
    attached := rfl
    schedule := schedule
    ascending := balanced.ascending
    held := balanced.held
    accepted := balanced.accepted
    refused := congrArg (· + 1) balanced.refused
    counted := balanced.counted
    accounted := balanced.accounted
    answered := balanced.answered }

theorem accept (balanced : ledger.Balanced service submissions now unit)
    (room : ¬ unit.capacity ≤ unit.occupancy) (work : Offload) :
    ({ ledger with
      outstanding := ledger.outstanding ++ [unit.nextHandle]
      submitted := ledger.submitted + 1
      coprocessor := some (unit.submit now work).2.1 } : Ledger).Balanced service
        (submissions ++ [⟨unit.nextHandle, now, work⟩]) now (unit.submit now work).2.1 := by
  have consistent := balanced.schedule.consistent
  obtain ⟨outcome, -⟩ := Coprocessor.submit_of_room room now work
  have schedule : service.OnSchedule (submissions ++ [⟨unit.nextHandle, now, work⟩]) now
      (unit.submit now work).2.1 := by
    rcases balanced.schedule.submit work with ⟨refusal, refused, -⟩ | ⟨-, kept⟩
    · cases outcome.symm.trans refused
    · exact kept
  have held : (unit.submit now work).2.1.held.Perm (unit.nextHandle :: unit.held) := by
    rcases unit.held_submit now work with ⟨refusal, refused, -⟩ | ⟨-, held⟩
    · cases outcome.symm.trans refused
    · exact held
  obtain ⟨edge, same⟩ := Coprocessor.submit_of_room_eq room now work
  rw [same] at schedule held ⊢
  refine {
    attached := rfl
    schedule := schedule
    ascending := ?ascending
    held := (List.perm_append_singleton ..).trans ((balanced.held.cons _).trans held.symm)
    accepted := congrArg (· + 1) balanced.accepted
    refused := balanced.refused
    counted := balanced.counted
    accounted := ?accounted
    answered := ?answered }
  case ascending =>
    refine List.pairwise_append.mpr ⟨balanced.ascending, List.pairwise_singleton .., ?_⟩
    intro handle member last single
    rw [List.mem_singleton.mp single]
    exact consistent.held_lt (balanced.held.mem_iff.mp member)
  case accounted =>
    show (_ ++ (_ ++ [_])).Perm (List.range (unit.nextHandle + 1))
    rw [← List.append_assoc, List.range_succ]
    exact balanced.accounted.append_right _
  case answered =>
    intro result member
    obtain ⟨submission, known, answers⟩ := balanced.answered result member
    exact ⟨submission, List.mem_append_left _ known, answers⟩

theorem submit (balanced : ledger.Balanced service submissions now unit) (work : Offload) :
    ∃ after, ((ledger.submit now work).outstanding = ledger.outstanding ∧
        (ledger.submit now work).completions = ledger.completions ∧
        (ledger.submit now work).Balanced service submissions now after) ∨
      ((ledger.submit now work).outstanding = ledger.outstanding ++ [unit.nextHandle] ∧
        (ledger.submit now work).completions = ledger.completions ∧
        (ledger.submit now work).Balanced service
          (submissions ++ [⟨unit.nextHandle, now, work⟩]) now after) := by
  refine ⟨(unit.submit now work).2.1, ?_⟩
  unfold Ledger.submit
  simp only [balanced.attached]
  by_cases full : unit.capacity ≤ unit.occupancy
  · have outcome : (unit.submit now work).1 = .error ⟨unit.capacity⟩ :=
      congrArg Prod.fst (Coprocessor.submit_of_full full now work)
    simp only [outcome]
    exact .inl ⟨trivial, trivial, balanced.refuse full work⟩
  · obtain ⟨outcome, -⟩ := Coprocessor.submit_of_room full now work
    simp only [outcome]
    exact .inr ⟨trivial, trivial, balanced.accept full work⟩

end Balanced

end Ledger

/-- The offload that was accepted while a core went from one state to another, if there was one. -/
def Core.submissions (before after : Core) (now : Nat) : List Submission :=
  (after.outstanding.filter (· ∉ before.outstanding)).filterMap fun handle =>
    before.offer?.map fun work => ⟨handle, now, work⟩

namespace Turn

variable {service : Service} {submissions : List Submission} {unit : Coprocessor} {turn : Turn}

theorem submissions_of_subset {before after : Core} (now : Nat)
    (subset : after.outstanding ⊆ before.outstanding) : before.submissions after now = [] := by
  unfold Core.submissions
  rw [List.filter_eq_nil_iff.mpr, List.filterMap_nil]
  intro handle member absent
  exact of_decide_eq_true absent (subset member)

theorem submissions_of_append {before after : Core} {kept : List Nat} {handle now : Nat} {work : Offload}
    (appended : after.outstanding = kept ++ [handle]) (subset : kept ⊆ before.outstanding)
    (fresh : handle ∉ before.outstanding) (offered : before.offer? = some work) :
    before.submissions after now = [⟨handle, now, work⟩] := by
  have old : kept.filter (· ∉ before.outstanding) = [] := by
    refine List.filter_eq_nil_iff.mpr ?_
    intro other member absent
    exact of_decide_eq_true absent (subset member)
  have new : [handle].filter (· ∉ before.outstanding) = [handle] :=
    List.filter_eq_self.mpr (by simpa using fresh)
  unfold Core.submissions
  rw [appended, List.filter_append, old, new, offered]
  rfl

/-- A clock edge that is due keeps the books. What is outstanding then ends later, and what was taken
    had been outstanding. At the horizon a core that has submitted halts. -/
theorem balanced_coreEdge (balanced : turn.ledger.Balanced service submissions turn.now unit)
    (due : turn.core.nextEdge = some turn.now) (awake : turn.core.isHalted = false) :
    ∃ after, turn.coreEdge.ledger.Balanced service
        (submissions ++ turn.core.submissions turn.coreEdge.core turn.now) turn.now after ∧
      (∀ booking ∈ service.bookings (submissions ++ turn.core.submissions turn.coreEdge.core turn.now),
        booking.submission.handle ∈ turn.coreEdge.core.outstanding →
          service.finishTick booking ≤ horizon → turn.now < service.finishTick booking) ∧
      (∀ submission ∈ turn.core.submissions turn.coreEdge.core turn.now,
        submission.tick < horizon ∨ turn.coreEdge.core.isHalted = true) ∧
      ∃ new, turn.coreEdge.core.completions = turn.core.completions ++ new ∧ ∀ result ∈ new,
        ∃ booking ∈ service.bookings submissions, booking.submission.handle ∈ turn.core.outstanding ∧
          result = service.result booking ∧ result.completedAt ≤ turn.now := by
  obtain ⟨polled, middle, same, kept, taken, results⟩ := balanced.pollAll
  have later : ∀ booking ∈ service.bookings submissions,
      booking.submission.handle ∈ (turn.ledger.pollAll turn.now).outstanding →
        service.finishTick booking ≤ horizon → turn.now < service.finishTick booking := by
    intro booking member outstanding near
    by_contra elapsed
    exact taken booking member (kept outstanding) near (Nat.not_lt.mp elapsed) outstanding
  have unchanged : ∀ ledger : Ledger, turn.coreEdge.ledger = ledger →
      turn.coreEdge.core.outstanding = ledger.outstanding ∧
        turn.coreEdge.core.completions = ledger.completions :=
    fun ledger equal => ⟨congrArg Ledger.outstanding equal, congrArg Ledger.completions equal⟩
  -- behind the polls an edge submits at most one offload
  rcases turn.ledger_coreEdge due awake with equal | ⟨work, offered, equal, last⟩
  · obtain ⟨outstanding, completions⟩ := unchanged _ equal
    rw [submissions_of_subset turn.now (outstanding ▸ kept), List.append_nil, equal, outstanding,
      completions]
    exact ⟨polled, middle, later, by simp, results⟩
  · obtain ⟨outstanding, completions⟩ := unchanged _ equal
    obtain ⟨after, ⟨refused, results', books⟩ | ⟨accepted, results', books⟩⟩ := middle.submit work
    · rw [refused] at outstanding
      rw [submissions_of_subset turn.now (outstanding ▸ kept), List.append_nil, equal, outstanding,
        completions, results']
      exact ⟨after, books, later, by simp, results⟩
    · rw [accepted] at outstanding
      have equipped : turn.coprocessor.isSome := by
        rw [show turn.coprocessor = some unit from balanced.attached]
        rfl
      have numbered : polled.nextHandle = unit.nextHandle :=
        middle.accepted.symm.trans (same.trans balanced.accepted)
      have fresh : polled.nextHandle ∉ turn.core.outstanding := by
        intro member
        have less := balanced.schedule.consistent.held_lt (balanced.held.mem_iff.mp member)
        omega
      rw [submissions_of_append outstanding kept fresh offered, equal, completions, results']
      refine ⟨after, books, ?_, ?_, results⟩
      · intro booking member among near
        have submitted := Service.tick_lt_finish member
        rw [Service.bookings_concat] at member
        rw [outstanding] at among
        rcases List.mem_append.mp member with member | single
        · have less := middle.schedule.consistent.handle_lt (Service.submission_mem member)
          rcases List.mem_append.mp among with among | newest
          · exact later booking member among near
          · have equal := List.mem_singleton.mp newest
            omega
        · rw [List.mem_singleton.mp single] at submitted ⊢
          exact submitted
      · intro submission single
        rw [List.mem_singleton.mp single]
        rcases Nat.lt_or_ge turn.now horizon with early | late
        · exact .inl early
        · exact .inr (last equipped late)

end Turn

end CoreTiming
