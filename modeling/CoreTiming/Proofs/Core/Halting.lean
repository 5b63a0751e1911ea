import CoreTiming.Proofs.Core.Pausing

namespace CoreTiming

namespace Core

structure Ready (core : Core) : Prop where
  awake : core.isHalted = false
  asleep : core.nextEdge = none

def Quiet (core : Core) : Prop :=
  core.isHalted = true → core.nextEdge = none

/-- Stores may have been answered, but nothing else has changed. -/
structure Frozen (before after : Core) : Prop where
  same : after = { before with storesInFlight := after.storesInFlight }
  fewer : after.storesInFlight ≤ before.storesInFlight

variable {core : Core}

theorem quiet_of_awake (awake : core.isHalted = false) : core.Quiet := by
  intro halted
  rw [awake] at halted
  cases halted

theorem Quiet.stores (quiet : core.Quiet) (stores : Nat) :
    ({ core with storesInFlight := stores } : Core).Quiet :=
  quiet

theorem Frozen.refl (core : Core) : core.Frozen core :=
  ⟨rfl, Nat.le_refl _⟩

theorem Frozen.trans {first second third : Core} (one : first.Frozen second)
    (other : second.Frozen third) : first.Frozen third where
  same := by
    rw [other.same, one.same]
  fewer := Nat.le_trans other.fewer one.fewer

theorem Frozen.isHalted {before after : Core} (frozen : before.Frozen after) :
    after.isHalted = before.isHalted := by
  rw [frozen.same]
  rfl

theorem Frozen.quiet {before after : Core} (frozen : before.Frozen after) (quiet : before.Quiet) :
    after.Quiet := by
  rw [frozen.same]
  exact quiet.stores _

end Core

namespace Turn

variable {turn : Turn}

theorem nextEdge_halt (turn : Turn) : turn.halt.core.nextEdge = turn.core.nextEdge := by
  unfold halt
  split <;> rfl

theorem isHalted_requestEdge (turn : Turn) (tick : Nat) :
    (turn.requestEdge tick).core.isHalted = turn.core.isHalted := by
  unfold requestEdge
  split <;> rfl

section ready

variable (ready : turn.core.Ready)

include ready

theorem quiet_requestEdge (tick : Nat) : (turn.requestEdge tick).core.Quiet :=
  Core.quiet_of_awake ((turn.isHalted_requestEdge tick).trans ready.awake)

theorem quiet_requestEdgeOrHalt (edge : Option Nat) : (turn.requestEdgeOrHalt edge).core.Quiet := by
  cases edge with
  | none => exact fun _ => (nextEdge_halt _).trans ready.asleep
  | some tick => exact quiet_requestEdge ready tick

theorem quiet_requestNextEdge : turn.requestNextEdge.core.Quiet :=
  quiet_requestEdgeOrHalt ready _

theorem quiet_keepPolling : turn.keepPolling.core.Quiet := by
  unfold keepPolling
  split
  · exact Core.quiet_of_awake ready.awake
  · exact quiet_requestNextEdge ready

theorem quiet_sleepUntil (resume : Nat) : (turn.sleepUntil resume).core.Quiet := by
  unfold sleepUntil
  split <;> exact quiet_requestEdge ready _

theorem quiet_halt : turn.halt.core.Quiet :=
  fun _ => turn.nextEdge_halt.trans ready.asleep

theorem quiet_drainThenHalt : turn.drainThenHalt.core.Quiet := by
  unfold drainThenHalt
  split
  · exact quiet_halt ready
  · exact @quiet_requestNextEdge (turn.setPhase _) ⟨rfl, ready.asleep⟩

theorem ready_request (address : Nat) (kind : AccessKind) : (turn.request address kind).1.core.Ready := by
  unfold request
  simp only
  split
  · exact ⟨rfl, ready.asleep⟩
  · split
    · exact ready
    · exact ⟨ready.awake, ready.asleep⟩

theorem quiet_load (address : Nat) : (turn.load address).core.Quiet := by
  have requested := ready_request ready address .load
  unfold load
  simp only
  split
  · exact @quiet_keepPolling (Turn.setPhase _ _) ⟨rfl, requested.asleep⟩
  · exact Core.quiet_of_awake requested.awake

theorem quiet_store (address : Nat) : (turn.store address).core.Quiet := by
  have requested := ready_request ready address .store
  unfold store
  simp only
  split
  · exact @quiet_requestNextEdge (Turn.setCore _ _) ⟨requested.awake, requested.asleep⟩
  · exact Core.quiet_of_awake requested.awake

theorem quiet_offload (work : Offload) : (turn.offload work).core.Quiet := by
  unfold offload
  cases turn.coprocessor with
  | none => exact Core.quiet_of_awake rfl
  | some unit =>
    simp only
    cases (unit.submit turn.now work).1 with
    | ok handle => exact quiet_requestNextEdge ⟨ready.awake, ready.asleep⟩
    | error refusal => exact quiet_requestNextEdge ⟨ready.awake, ready.asleep⟩

theorem quiet_wait : turn.wait.core.Quiet := by
  unfold wait
  simp only
  split
  · exact quiet_requestNextEdge ⟨ready.awake, ready.asleep⟩
  · exact quiet_requestNextEdge ⟨rfl, ready.asleep⟩

theorem quiet_execute (cycle : Nat) (operation : Operation) : (turn.execute cycle operation).core.Quiet := by
  unfold execute
  generalize noted : turn.note _ _ _ _ = issued
  have still : issued.core.Ready := noted ▸ ready
  cases operation with
  | compute cycles => exact @quiet_sleepUntil (issued.setPhase (.busy _)) ⟨rfl, still.asleep⟩ _
  | load address => exact quiet_load still address
  | store address => exact quiet_store still address
  | offload work => exact quiet_offload still work
  | wait => exact quiet_wait still
  | halt => exact @quiet_drainThenHalt issued.retire ⟨still.awake, still.asleep⟩

theorem quiet_issue (cycle : Nat) : (turn.issue cycle).core.Quiet := by
  unfold issue
  split
  · refine quiet_execute ?_ cycle _
    exact ⟨ready.awake, ready.asleep⟩
  · split
    · refine quiet_execute ?_ cycle _
      exact ⟨ready.awake, ready.asleep⟩
    · exact quiet_drainThenHalt ready

theorem quiet_proceed : turn.proceed.core.Quiet := by
  unfold proceed
  simp only
  split
  · exact Core.quiet_of_awake ready.awake
  · exact Core.quiet_of_awake ready.awake
  · exact quiet_keepPolling ready
  · split
    · exact quiet_sleepUntil ready _
    · exact @quiet_issue (turn.retire.setPhase .running) ⟨rfl, ready.asleep⟩ _
  · split
    · exact quiet_keepPolling ready
    · split
      · exact quiet_halt ready
      · exact @quiet_issue (turn.setPhase .running) ⟨rfl, ready.asleep⟩ _
  · exact quiet_issue ready _

end ready

theorem quiet_coreEdge (quiet : turn.core.Quiet) : turn.coreEdge.core.Quiet := by
  by_cases due : turn.core.nextEdge = some turn.now
  · have awake : turn.core.isHalted = false := by
      by_contra halted
      have asleep := quiet (Bool.not_eq_false _ ▸ halted)
      cases asleep.symm.trans due
    have keeps := turn.keeps_polled
    have still : turn.polled.core.isHalted = turn.core.isHalted :=
      congrArg (fun phase => decide (phase = Phase.halted)) keeps.phase
    rw [coreEdge_of_eq turn due awake]
    exact @quiet_proceed turn.polled ⟨still.trans awake, keeps.nextEdge⟩
  · unfold coreEdge
    rw [if_pos due]
    exact quiet

section takes

variable {spec : Option CoprocessorSpec} {notes : Notes} {rest : List (Nat × Event)}
  {log : List Log.Line} {event : Event}

theorem Takes.quiet_deliver (takes : turn.Takes spec notes rest log event) (quiet : turn.core.Quiet) :
    (turn.deliver event).core.Quiet := by
  cases takes.reaches with
  | quiet event same agenda latency stores core =>
    rw [core]
    exact quiet.stores stores
  | edge since same resumes => exact quiet_coreEdge quiet
  | response address issuedAt since same resumes =>
    obtain ⟨line, -, same⟩ := @response_load_eq turn address issuedAt
    show (turn.response address .load issuedAt).core.Quiet
    rw [same]
    split
    · rename_i waits
      have awake : turn.core.isHalted = false := by simp [Core.isHalted, waits]
      rcases (resumes.at_response awake).2 with ⟨asleep, -⟩ | ⟨asked, -, within, -⟩
      · refine quiet_requestEdgeOrHalt ?_ _
        exact ⟨rfl, asleep⟩
      · rw [@requestFirstEdge_of_asked (((turn.emit line).retire).setPhase .running) asked within]
        exact Core.quiet_of_awake rfl
    · exact quiet
  | fault fault since same resumes =>
    obtain ⟨-, waits, asleep, -⟩ := resumes.at_fault
    show (turn.fault fault).core.Quiet
    unfold Turn.fault
    simp only
    split
    · exact fun _ => (nextEdge_halt _).trans asleep
    · refine quiet_requestNextEdge ?_
      exact ⟨rfl, asleep⟩

/-- Whatever reaches a core that has halted can at most answer a store: its edges are over, a load has
    nobody to wait for it, and there is no fault for it. -/
theorem Takes.frozen_deliver (takes : turn.Takes spec notes rest log event)
    (halted : turn.core.isHalted = true) (quiet : turn.core.Quiet) :
    turn.core.Frozen (turn.deliver event).core := by
  have stopped : turn.core.phase = .halted := by simpa [Core.isHalted] using halted
  cases event with
  | coreEdge core =>
    have stale : turn.coreEdge = turn := if_pos (by simp [quiet halted])
    show turn.core.Frozen turn.coreEdge.core
    rw [stale]
    exact .refl _
  | coprocessorEdge core =>
    show turn.core.Frozen turn.coprocessorEdge.core
    rw [turn.frame_coprocessorEdge.1]
    exact .refl _
  | response core address kind issuedAt =>
    cases kind with
    | store => exact ⟨rfl, Nat.sub_le ..⟩
    | load =>
      obtain ⟨line, -, same⟩ := @response_load_eq turn address issuedAt
      rw [if_neg (by simp [stopped])] at same
      show turn.core.Frozen (turn.response address .load issuedAt).core
      rw [same]
      exact .refl _
  | fault core fault =>
    obtain rfl : core = turn.core.id := takes.own
    cases takes.reaches with
    | quiet _ awaited => simp [Turn.awaited, Event.resumes] at awaited
    | fault _ since _ resumes => cases stopped.symm.trans resumes.at_fault.2.1

end takes

end Turn

end CoreTiming
