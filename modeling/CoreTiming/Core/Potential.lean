import CoreTiming.Coprocessor.Weight
import CoreTiming.Core.Delivery

namespace CoreTiming

/-- More than the weight of three events. -/
@[irreducible]
def operationWeight : Nat := 3 * (2 * horizon + 2) + 1

theorem operationWeight_eq : operationWeight = 3 * (2 * horizon + 2) + 1 := by
  unfold operationWeight
  rfl

/-- Operations still to be done. One in the stream counts twice, since it may be refused first. -/
def Core.work (core : Core) : Nat :=
  2 * core.workload.remaining + if core.refused.isSome then 1 else 0

namespace Turn

def potential (turn : Turn) : Nat :=
  operationWeight * turn.core.work + turn.effects.weight

theorem now_emit (turn : Turn) (effects : Effects) : (turn.emit effects).now = turn.now := rfl

theorem now_setCore (turn : Turn) (core : Core) : (turn.setCore core).now = turn.now := rfl

theorem potential_emit (turn : Turn) (effects : Effects) :
    (turn.emit effects).potential = turn.potential + effects.weight := by
  simp only [potential, emit, Effects.weight_append]
  omega

theorem potential_setCore (turn : Turn) (core : Core) :
    (turn.setCore core).potential + operationWeight * turn.core.work =
      turn.potential + operationWeight * core.work := by
  simp only [potential, setCore]
  omega

theorem potential_note (turn : Turn) (condition : Bool) (severity : Log.Severity) (message : String)
    (fields : List Log.Field) :
    (turn.note condition severity message fields).potential = turn.potential := by
  rw [note, potential_emit, Effects.weight_of_posts (Effects.posts_lineIf _ _)]
  rfl

theorem potential_setPhase (turn : Turn) (phase : Phase) :
    (turn.setPhase phase).potential = turn.potential := rfl

theorem potential_count (turn : Turn) (change : CoreCounters → CoreCounters) :
    (turn.count change).potential = turn.potential := rfl

theorem potential_retire (turn : Turn) : turn.retire.potential = turn.potential := rfl

theorem potential_halt_le (turn : Turn) : turn.halt.potential ≤ turn.potential := by
  unfold halt
  split
  · exact Nat.le_refl _
  · rw [potential_note]
    refine Nat.add_le_add_right (Nat.mul_le_mul_left _ ?_) _
    exact Nat.add_le_add_left (Nat.zero_le _) _

theorem potential_haltAtHorizon_le (turn : Turn) : turn.haltAtHorizon.potential ≤ turn.potential := by
  unfold haltAtHorizon
  exact Nat.le_trans (potential_halt_le _) (Nat.le_of_eq (potential_note ..))

theorem potential_requestEdge_le (turn : Turn) (tick : Nat) :
    (turn.requestEdge tick).potential ≤ turn.potential + (2 * (horizon - tick) + 1) := by
  unfold requestEdge
  split
  · omega
  · rw [potential_emit, Effects.weight_post]
    exact Nat.le_refl _

theorem potential_requestNextEdge_le (turn : Turn) :
    turn.requestNextEdge.potential ≤ turn.potential + 2 * (horizon - turn.now) := by
  unfold requestNextEdge requestEdgeOrHalt
  split
  · rename_i edge found
    have later := Clock.lt_of_edgeAfter? found
    have := potential_requestEdge_le turn edge
    omega
  · exact Nat.le_trans (potential_haltAtHorizon_le turn) (Nat.le_add_right _ _)

theorem potential_requestFirstEdge_le (turn : Turn) :
    turn.requestFirstEdge.potential ≤ turn.potential + (2 * (horizon - turn.now) + 1) := by
  unfold requestFirstEdge requestEdgeOrHalt
  split
  · rename_i edge found
    have later := Clock.le_of_edgeAtOrAfter? found
    have := potential_requestEdge_le turn edge
    omega
  · exact Nat.le_trans (potential_haltAtHorizon_le turn) (Nat.le_add_right _ _)

theorem potential_keepPolling_le (turn : Turn) :
    turn.keepPolling.potential ≤ turn.potential + 2 * (horizon - turn.now) := by
  unfold keepPolling
  split
  · omega
  · exact potential_requestNextEdge_le turn

theorem potential_sleepUntil_le (turn : Turn) (resume : Nat) :
    (turn.sleepUntil resume).potential ≤ turn.potential + (2 * horizon + 1) := by
  unfold sleepUntil
  split <;> refine Nat.le_trans (potential_requestEdge_le ..) ?_ <;> omega

theorem potential_sleepUntil_of_lt {turn : Turn} {resume : Nat} (later : turn.now < resume)
    (bounded : resume ≤ horizon) :
    (turn.sleepUntil resume).potential ≤ turn.potential + 2 * (horizon - turn.now) := by
  unfold sleepUntil
  split
  · rename_i edge found
    have := Clock.lt_of_edgeAfter? found
    refine Nat.le_trans (potential_requestEdge_le ..) ?_
    split <;> omega
  · refine Nat.le_trans (potential_requestEdge_le ..) ?_
    omega

theorem potential_drainThenHalt_le (turn : Turn) :
    turn.drainThenHalt.potential ≤ turn.potential + 2 * (horizon - turn.now) := by
  unfold drainThenHalt
  split
  · exact Nat.le_trans (potential_halt_le turn) (Nat.le_add_right _ _)
  · exact potential_requestNextEdge_le (turn.setPhase (.waitOffloads true))

theorem potential_raise_le (turn : Turn) (fault : Fault) :
    (turn.raise fault).potential ≤ turn.potential + (2 * horizon + 2) := by
  rw [raise, potential_emit, Effects.weight_post, potential_setPhase]
  have := Event.weight_le turn.now (.fault turn.core.id fault)
  exact Nat.add_le_add_left this _

theorem potential_request_le (turn : Turn) (address : Nat) (kind : AccessKind) :
    (turn.request address kind).1.potential ≤ turn.potential + (2 * horizon + 2) := by
  unfold request
  simp only
  split
  · exact potential_raise_le ..
  · split
    · exact Nat.le_add_right _ _
    · rw [potential_emit, Effects.weight_append, Effects.weight_post]
      refine Nat.add_le_add (Nat.le_of_eq rfl) ?_
      rw [Effects.weight_of_posts (Effects.posts_record ..), Nat.zero_add]
      exact Event.weight_le ..

theorem potential_load_le (turn : Turn) (address : Nat) :
    (turn.load address).potential ≤ turn.potential + 2 * (2 * horizon + 2) := by
  have requested := potential_request_le turn address .load
  unfold load
  simp only
  split
  · have := potential_keepPolling_le ((turn.request address .load).1.setPhase .waitMemory)
    rw [potential_setPhase] at this
    omega
  · omega

theorem potential_store_le (turn : Turn) (address : Nat) :
    (turn.store address).potential ≤ turn.potential + 2 * (2 * horizon + 2) := by
  have requested := potential_request_le turn address .store
  unfold store
  simp only
  split
  · refine Nat.le_trans (potential_requestNextEdge_le _) ?_
    have same : ∀ (turn : Turn) (count : Nat),
        (turn.setCore { turn.core.retire with storesInFlight := count }).potential = turn.potential :=
      fun _ _ => rfl
    rw [same]
    omega
  · omega

theorem potential_compute_le (turn : Turn) (cycle cycles : Nat) :
    (turn.compute cycle cycles).potential ≤ turn.potential + 2 * (2 * horizon + 2) := by
  refine Nat.le_trans (potential_sleepUntil_le ..) ?_
  rw [potential_setPhase]
  omega

theorem potential_wait_le (turn : Turn) :
    turn.wait.potential ≤ turn.potential + 2 * (2 * horizon + 2) := by
  unfold wait
  simp only
  split <;> refine Nat.le_trans (potential_requestNextEdge_le _) ?_
  · rw [potential_retire]
    omega
  · rw [potential_setPhase, potential_retire]
    omega

theorem work_keep_le (core : Core) (work : Offload) : (core.keep work).work ≤ core.work + 1 := by
  simp only [Core.keep, Core.count, Core.work, Option.isSome_some, if_true]
  omega

theorem potential_keep_le (turn : Turn) (work : Offload) :
    (turn.setCore (turn.core.keep work)).potential ≤ turn.potential + operationWeight := by
  have sum := potential_setCore turn (turn.core.keep work)
  have bound := Nat.mul_le_mul_left operationWeight (work_keep_le turn.core work)
  rw [Nat.mul_succ] at bound
  omega

theorem potential_offload_le (turn : Turn) (work : Offload) :
    (turn.offload work).potential ≤
      turn.potential + operationWeight + 2 * (horizon - turn.now) := by
  have large := operationWeight_eq
  unfold offload
  split
  · have := potential_raise_le turn (.noCoprocessor turn.core.id work.instruction)
    omega
  · rename_i unit _
    have submitted := Coprocessor.weight_submit_le unit turn.now work
    generalize unit.submit turn.now work = result at submitted
    obtain ⟨outcome, unit, effects⟩ := result
    have handed := potential_emit { turn with coprocessor := some unit } effects
    have same : { turn with coprocessor := some unit }.potential = turn.potential := rfl
    rw [same] at handed
    have time : ({ turn with coprocessor := some unit }.emit effects).now = turn.now := rfl
    simp only
    generalize { turn with coprocessor := some unit }.emit effects = lent at handed time
    cases outcome with
    | ok handle =>
      refine Nat.le_trans (potential_requestNextEdge_le _) ?_
      have accepted : (lent.setCore (lent.core.accept handle)).potential = lent.potential := rfl
      rw [accepted, now_setCore]
      simp only at submitted
      omega
    | error refusal =>
      refine Nat.le_trans (potential_requestNextEdge_le _) ?_
      rw [potential_note]
      have kept := potential_keep_le lent work
      simp only [note, now_setCore, now_emit]
      simp only at submitted
      omega

theorem potential_execute_le (turn : Turn) (cycle : Nat) (operation : Operation) :
    (turn.execute cycle operation).potential ≤
      turn.potential + operationWeight + 2 * (horizon - turn.now) := by
  have large := operationWeight_eq
  have noted := potential_note turn turn.core.logsOperations .trace "issue"
    [.ofNat "pc" turn.core.pc, ⟨"op", operation.text, false⟩]
  unfold execute
  simp only
  rw [← noted]
  generalize issued : turn.note turn.core.logsOperations .trace "issue"
    [.ofNat "pc" turn.core.pc, ⟨"op", operation.text, false⟩] = logged
  have time : turn.now = logged.now := by rw [← issued]; rfl
  rw [time]
  cases operation with
  | compute cycles =>
    have := potential_compute_le logged cycle cycles
    simp only
    omega
  | load address =>
    have := potential_load_le logged address
    simp only
    omega
  | store address =>
    have := potential_store_le logged address
    simp only
    omega
  | offload work => exact potential_offload_le logged work
  | wait =>
    have := potential_wait_le logged
    simp only
    omega
  | halt =>
    have := potential_drainThenHalt_le logged.retire
    rw [potential_retire] at this
    have same : logged.retire.now = logged.now := rfl
    rw [same] at this
    simp only
    omega

theorem potential_issue_le (turn : Turn) (cycle : Nat) :
    (turn.issue cycle).potential ≤ turn.potential + 2 * (horizon - turn.now) := by
  unfold issue
  split
  · rename_i work found
    have taken := potential_setCore turn { turn.core with refused := none }
    have less : turn.core.work = { turn.core with refused := none }.work + 1 := by
      simp [Core.work, found]
    rw [less, Nat.mul_succ] at taken
    have := potential_execute_le (turn.setCore { turn.core with refused := none }) cycle (.offload work)
    rw [now_setCore] at this
    omega
  · split
    · rename_i operation workload found
      have taken := potential_setCore turn (turn.core.advance workload)
      have shorter := Workload.remaining_next? found
      have less : turn.core.work = (turn.core.advance workload).work + 2 := by
        have refused : (turn.core.advance workload).refused = turn.core.refused := rfl
        have stream : (turn.core.advance workload).workload = workload := rfl
        unfold Core.work
        rw [refused, stream]
        omega
      rw [less, Nat.mul_add] at taken
      have := potential_execute_le (turn.setCore (turn.core.advance workload)) cycle operation
      rw [now_setCore] at this
      omega
    · exact potential_drainThenHalt_le turn

theorem potential_poll (turn : Turn) (handle : Nat) : (turn.poll handle).potential = turn.potential := by
  unfold poll
  split
  · rfl
  · rename_i result after effects found
    obtain ⟨unit, _, found⟩ := Option.bind_eq_some_iff.1 found
    have posts : effects.posts = [] := by
      unfold Coprocessor.poll? at found
      split at found
      · split at found
        · cases found
          rfl
        · cases found
      · obtain ⟨job, _, same⟩ := Option.map_eq_some_iff.1 found
        cases same
        exact Coprocessor.posts_completionLine ..
    simp only
    rw [potential_note, potential_emit, Effects.weight_of_posts (Effects.posts_record ..)]
    have handed := potential_emit { turn with coprocessor := some after } effects
    rw [Effects.weight_of_posts posts] at handed
    exact handed

theorem now_poll (turn : Turn) (handle : Nat) : (turn.poll handle).now = turn.now := by
  unfold poll
  split <;> rfl

theorem potential_pollAll (turn : Turn) :
    turn.pollAll.potential = turn.potential ∧ turn.pollAll.now = turn.now := by
  have fold : ∀ (handles : List Nat) (turn : Turn),
      (handles.foldl poll turn).potential = turn.potential ∧
        (handles.foldl poll turn).now = turn.now := by
    intro handles
    induction handles with
    | nil => exact fun _ => ⟨rfl, rfl⟩
    | cons handle handles ih =>
      intro turn
      have rest := ih (turn.poll handle)
      exact ⟨rest.1.trans (potential_poll turn handle), rest.2.trans (now_poll turn handle)⟩
  exact fold _ _

theorem potential_proceed_le (turn : Turn) :
    turn.proceed.potential ≤ turn.potential + 2 * (horizon - turn.now) := by
  unfold proceed
  simp only
  split
  · omega
  · omega
  · exact potential_keepPolling_le turn
  · split
    · exact potential_sleepUntil_of_lt (by assumption) (Clock.tickOfCycle_le_horizon ..)
    · exact potential_issue_le (turn.retire.setPhase .running) _
  · split
    · exact potential_keepPolling_le turn
    · split
      · exact Nat.le_trans (potential_halt_le turn) (Nat.le_add_right _ _)
      · exact potential_issue_le (turn.setPhase .running) _
  · exact potential_issue_le turn _

theorem potential_coreEdge_le (turn : Turn) :
    turn.coreEdge.potential ≤ turn.potential + 2 * (horizon - turn.now) := by
  unfold coreEdge
  split
  · omega
  · simp only
    split
    · exact Nat.le_add_right _ _
    · have polled := potential_pollAll (turn.setCore { turn.core with nextEdge := none })
      have := potential_proceed_le (turn.setCore { turn.core with nextEdge := none }).pollAll
      rw [polled.1, polled.2] at this
      exact this

theorem potential_coprocessorEdge_le (turn : Turn) :
    turn.coprocessorEdge.potential ≤ turn.potential + 2 * (horizon - turn.now) := by
  unfold coprocessorEdge
  split
  · omega
  · rename_i unit _
    rw [potential_emit]
    exact Nat.add_le_add (Nat.le_of_eq rfl) (Coprocessor.weight_edge_le unit turn.now)

theorem potential_response_le (turn : Turn) (address : Nat) (kind : AccessKind) (issuedAt : Nat) :
    (turn.response address kind issuedAt).potential ≤
      turn.potential + (2 * (horizon - turn.now) + 1) := by
  have noted := potential_note turn turn.core.logsOperations .trace "memory response" [
    .ofNat "address" address, ⟨"kind", kind.name, false⟩,
    .ofNat "latency_ticks" (turn.now - issuedAt)]
  unfold response
  simp only
  rw [← noted]
  split
  · exact Nat.le_add_right _ _
  · split
    · exact potential_requestFirstEdge_le _
    · exact Nat.le_add_right _ _

theorem potential_fault_le (turn : Turn) (fault : Fault) :
    (turn.fault fault).potential ≤ turn.potential + 2 * (horizon - turn.now) := by
  have noted := potential_note
    (turn.count fun counters => { counters with faults := counters.faults + 1 }) true .warn
    fault.message [.ofNat "pc" turn.core.pc, ⟨"policy", policyName turn.core.faultPolicy, false⟩]
  rw [potential_count] at noted
  unfold Turn.fault
  simp only
  rw [← noted]
  split
  · exact Nat.le_trans (potential_halt_le _) (Nat.le_add_right _ _)
  · exact potential_requestNextEdge_le _

theorem potential_deliver_lt (turn : Turn) (event : Event) :
    (turn.deliver event).potential < turn.potential + event.weight turn.now := by
  cases event with
  | coreEdge core =>
    have := potential_coreEdge_le turn
    simp only [deliver, Event.weight, Event.rank]
    omega
  | coprocessorEdge core =>
    have := potential_coprocessorEdge_le turn
    simp only [deliver, Event.weight, Event.rank]
    omega
  | response core address kind issuedAt =>
    have := potential_response_le turn address kind issuedAt
    simp only [deliver, Event.weight, Event.rank]
    omega
  | fault core fault =>
    have := potential_fault_le turn fault
    simp only [deliver, Event.weight, Event.rank]
    omega

end Turn

end CoreTiming
