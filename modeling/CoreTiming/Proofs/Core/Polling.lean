import CoreTiming.Proofs.Coprocessor.Readiness
import CoreTiming.Proofs.Core.Sight

namespace CoreTiming

namespace Ledger

/-- The offloads that have completed are the first ones, in the order of submission. -/
def Straight (ledger : Ledger) : Prop :=
  ledger.completions.map OffloadResult.handle ++ ledger.outstanding = List.range ledger.submitted

variable {service : Service} {submissions : List Submission} {now : Nat} {unit : Coprocessor}
  {ledger : Ledger}

theorem Straight.map_handle (straight : ledger.Straight) :
    ledger.completions.map OffloadResult.handle = List.range ledger.completions.length := by
  unfold Straight at straight
  have cut := congrArg (List.take ledger.completions.length) straight
  have shorter : ledger.completions.length ≤ ledger.submitted := by
    have lengths := congrArg List.length straight
    simp at lengths
    omega
  rw [List.take_append_of_le_length (by simp), List.take_of_length_le (by simp), List.take_range,
    Nat.min_eq_left shorter] at cut
  exact cut

theorem Straight.pairwise_handle (straight : ledger.Straight) :
    ledger.completions.Pairwise fun first second => first.handle < second.handle := by
  have ascending : (ledger.completions.map OffloadResult.handle).Pairwise (· < ·) :=
    straight.map_handle ▸ List.pairwise_lt_range
  exact List.pairwise_map.mp ascending

namespace Balanced

theorem straight_of_fresh (balanced : ledger.Balanced service [] now unit) : ledger.Straight := by
  have none_yet : unit.nextHandle = 0 := by
    have lengths := congrArg List.length balanced.schedule.consistent.numbered
    simpa using lengths.symm
  have accounted := balanced.accounted
  rw [none_yet] at accounted
  unfold Straight
  rw [accounted.eq_nil, balanced.accepted, none_yet]
  rfl

theorem poll_cases (balanced : ledger.Balanced service submissions now unit) (handle : Nat) :
    unit.poll? handle now = none ∧ ledger.poll now handle = ledger ∨
      ∃ result after effects, unit.poll? handle now = some (result, after, effects) ∧
        result.handle = handle ∧ (ledger.poll now handle).Balanced service submissions now after ∧
        ledger.poll now handle = { ledger with
          outstanding := ledger.outstanding.erase handle
          completions := ledger.completions ++ [result]
          completed := ledger.completed + 1
          coprocessor := some after } := by
  unfold Ledger.poll
  rw [balanced.attached, Option.bind_some]
  cases polled : unit.poll? handle now with
  | none => exact .inl ⟨rfl, rfl⟩
  | some outcome =>
    obtain ⟨result, after, effects⟩ := outcome
    obtain ⟨-, -, -, called⟩ := balanced.schedule.consistent.poll polled
    simp only [called]
    exact .inr ⟨result, after, effects, rfl, called, balanced.collect polled, rfl⟩

theorem foldl_poll_of_not_ready (balanced : ledger.Balanced service submissions now unit)
    {handles : List Nat} (silent : ∀ handle ∈ handles, ¬ unit.Ready now handle) :
    handles.foldl (Ledger.poll now) ledger = ledger := by
  induction handles with
  | nil => rfl
  | cons handle handles ih =>
    rcases balanced.poll_cases handle with ⟨-, same⟩ | ⟨result, after, effects, polled, -⟩
    · rw [List.foldl_cons, same]
      exact ih fun other member => silent other (by simp [member])
    · exact absurd (Coprocessor.ready_of_poll? polled) (silent handle (by simp))

/-- A round of polls sees what is ready in the order of the round, and makes nothing else ready. -/
theorem sweep (balanced : ledger.Balanced service submissions now unit) (handles : List Nat) :
    ∃ after new, (handles.foldl (Ledger.poll now) ledger).Balanced service submissions now after ∧
      (handles.foldl (Ledger.poll now) ledger).completions = ledger.completions ++ new ∧
      (new.map OffloadResult.handle).Sublist handles ∧
      (∀ other, after.Ready now other → unit.Ready now other) ∧
      ∀ handle ∈ handles, ¬ after.Ready now handle := by
  induction handles generalizing ledger unit with
  | nil => exact ⟨unit, [], balanced, by simp, .slnil, fun _ ready => ready, by simp⟩
  | cons handle handles ih =>
    have consistent := balanced.schedule.consistent
    rw [List.foldl_cons]
    rcases balanced.poll_cases handle with ⟨polled, same⟩ | ⟨result, middle, effects, polled, named, kept, same⟩
    · obtain ⟨after, new, rest, completions, sublist, fewer, done⟩ := ih balanced
      have missing := consistent.not_ready_of_poll? polled
      rw [same]
      refine ⟨after, new, rest, completions, sublist.cons handle, fewer, ?_⟩
      intro other member ready
      rcases List.mem_cons.mp member with rfl | among
      · exact missing (fewer other ready)
      · exact done other among ready
    · obtain ⟨after, new, rest, completions, sublist, fewer, done⟩ := ih kept
      obtain ⟨gone, others⟩ := consistent.ready_of_poll? polled
      refine ⟨after, result :: new, rest, ?_, ?_, fun other ready => others other (fewer other ready), ?_⟩
      · rw [completions, same]
        simp
      · rw [List.map_cons, named]
        exact sublist.cons_cons handle
      · intro other member ready
        rcases List.mem_cons.mp member with rfl | among
        · exact gone (fewer other ready)
        · exact done other among ready

theorem straight_pollAll (balanced : ledger.Balanced service submissions now unit)
    (single : service.width = 1) (straight : ledger.Straight) : (ledger.pollAll now).Straight := by
  unfold Ledger.pollAll
  generalize same : ledger.outstanding = handles
  induction handles generalizing ledger unit with
  | nil => exact straight
  | cons handle handles ih =>
    have ascending := balanced.ascending
    rw [List.foldl_cons]
    rcases balanced.poll_cases handle with ⟨polled, still⟩ | ⟨result, after, effects, polled, named, kept, moved⟩
    · have missing := balanced.schedule.consistent.not_ready_of_poll? polled
      rw [still, balanced.foldl_poll_of_not_ready]
      · exact straight
      · intro other member ready
        obtain ⟨started, running, waiting, follows⟩ := balanced.schedule
        have held : handle ∈ unit.held := balanced.held.mem_iff.mp (by simp [same])
        rw [same] at ascending
        exact missing (follows.ready_of_ready single held
          ((List.pairwise_cons.mp ascending).1 other member) ready)
    · refine ih kept ?_ ?_
      · unfold Straight at straight ⊢
        rw [moved, ← straight, same]
        simp [named]
      · rw [moved]
        simp [same]

theorem submit_eq (balanced : ledger.Balanced service submissions now unit) (work : Offload) :
    (ledger.submit now work).coprocessor = some (unit.submit now work).2.1 ∧
      (ledger.submit now work).completions = ledger.completions := by
  unfold Ledger.submit
  simp only [balanced.attached]
  split <;> exact ⟨rfl, rfl⟩

theorem straight_submit (balanced : ledger.Balanced service submissions now unit)
    (straight : ledger.Straight) (work : Offload) : (ledger.submit now work).Straight := by
  unfold Ledger.submit
  simp only [balanced.attached]
  by_cases full : unit.capacity ≤ unit.occupancy
  · simp only [Coprocessor.submit_of_full full]
    exact straight
  · obtain ⟨outcome, -⟩ := Coprocessor.submit_of_room full now work
    simp only [outcome]
    show ledger.completions.map OffloadResult.handle ++ (ledger.outstanding ++ [unit.nextHandle]) =
      List.range (ledger.submitted + 1)
    rw [← List.append_assoc, straight, balanced.accepted, List.range_succ]

end Balanced

end Ledger

namespace Turn

variable {service : Service} {submissions : List Submission} {unit : Coprocessor} {turn : Turn}

/-- A clock edge sees its results in the order of their handles, and after it no result is ready. If none
    was ready before, it sees none. -/
theorem sweep_coreEdge (balanced : turn.ledger.Balanced service submissions turn.now unit)
    (due : turn.core.nextEdge = some turn.now) (awake : turn.core.isHalted = false) :
    ∃ after new, turn.coreEdge.coprocessor = some after ∧
      turn.coreEdge.core.completions = turn.core.completions ++ new ∧
      (new.map OffloadResult.handle).Pairwise (· < ·) ∧ (∀ handle, ¬ after.Ready turn.now handle) ∧
      ((∀ handle, ¬ unit.Ready turn.now handle) → new = []) := by
  obtain ⟨polled, new, middle, completions, sublist, fewer, done⟩ := balanced.sweep turn.core.outstanding
  have ascending := balanced.ascending.sublist sublist
  have idle : ∀ handle, ¬ polled.Ready turn.now handle := by
    intro handle ready
    exact done handle (balanced.held.mem_iff.mpr (fewer handle ready).held) ready
  have silent : (∀ handle, ¬ unit.Ready turn.now handle) → new = [] := by
    intro none_ready
    rw [balanced.foldl_poll_of_not_ready fun handle _ => none_ready handle] at completions
    simpa using completions
  rcases turn.ledger_coreEdge due awake with equal | ⟨work, -, equal, -⟩
  · refine ⟨polled, new, ?_, ?_, ascending, idle, silent⟩
    · exact (congrArg Ledger.coprocessor equal).trans middle.attached
    · exact (congrArg Ledger.completions equal).trans completions
  · obtain ⟨coprocessor, unseen⟩ := middle.submit_eq work
    refine ⟨(polled.submit turn.now work).2.1, new, ?_, ?_, ascending, ?_, silent⟩
    · exact (congrArg Ledger.coprocessor equal).trans coprocessor
    · exact (congrArg Ledger.completions equal).trans (unseen.trans completions)
    · exact fun handle ready => idle handle (Coprocessor.ready_of_submit work ready)

theorem straight_coreEdge (balanced : turn.ledger.Balanced service submissions turn.now unit)
    (single : service.width = 1) (straight : turn.ledger.Straight)
    (due : turn.core.nextEdge = some turn.now) (awake : turn.core.isHalted = false) :
    turn.coreEdge.ledger.Straight := by
  have polled := balanced.straight_pollAll single straight
  obtain ⟨after, kept, -⟩ := balanced.pollAll
  rcases turn.ledger_coreEdge due awake with equal | ⟨work, -, equal, -⟩
  · rw [equal]
    exact polled
  · rw [equal]
    exact kept.straight_submit polled work

section takes

variable {spec : Option CoprocessorSpec} {notes : Notes} {rest : List (Nat × Event)} {log : List Log.Line}
  {event : Event}

theorem Takes.ledger_deliver (takes : turn.Takes spec notes rest log event)
    (other : ∀ core, event ≠ .coprocessorEdge core) :
    (turn.deliver event).ledger = turn.ledger ∨ event = .coreEdge turn.core.id ∧
      turn.core.nextEdge = some turn.now ∧ turn.core.isHalted = false := by
  cases event with
  | coreEdge core =>
    obtain rfl : core = turn.core.id := takes.own
    cases awake : turn.core.isHalted with
    | true =>
      obtain ⟨edge, same⟩ := coreEdge_of_halted awake
      refine .inl ?_
      show turn.coreEdge.ledger = turn.ledger
      rw [same]
      rfl
    | false =>
      obtain ⟨since, due⟩ := takes.due awake
      exact .inr ⟨rfl, due.asked, rfl⟩
  | coprocessorEdge core => exact absurd rfl (other core)
  | response core address kind issuedAt => exact .inl (turn.ledger_response address kind issuedAt)
  | fault core fault => exact .inl (turn.ledger_fault fault)

theorem Takes.straight_deliver {made : CoprocessorSpec} (takes : turn.Takes (some made) notes rest log event)
    (single : made.issue = .single) (straight : turn.ledger.Straight) :
    (turn.deliver event).ledger.Straight := by
  by_cases edge : ∃ core, event = .coprocessorEdge core
  · obtain ⟨core, rfl⟩ := edge
    have same : turn.coprocessorEdge.core = turn.core := turn.frame_coprocessorEdge.1
    unfold Ledger.Straight ledger deliver at *
    rw [same]
    exact straight
  · rcases takes.ledger_deliver fun core same => edge ⟨core, same⟩ with same | ⟨rfl, due, awake⟩
    · rw [same]
      exact straight
    · obtain ⟨since, stands⟩ := takes.stands
      obtain ⟨unit, balanced, -⟩ := balanced_of_stands stands
      exact straight_coreEdge balanced (Service.width_of_single single) straight due awake

end takes

end Turn

end CoreTiming
