import CoreTiming.Proofs.Core.Pausing

namespace CoreTiming

namespace Workload

/-- What is left of a stream once some operations have been taken from it, if it has as many. -/
def after? (given : Workload) : Nat → Option Workload
  | 0 => some given
  | taken + 1 => (given.after? taken).bind fun rest => rest.next?.map Prod.snd

variable {given rest : Workload} {taken : Nat}

theorem after?_succ (reached : given.after? taken = some rest) {operation : Operation} {workload : Workload}
    (found : rest.next? = some (operation, workload)) : given.after? (taken + 1) = some workload := by
  rw [after?, reached, Option.bind_some, found]
  rfl

theorem add_remaining_of_after? (reached : given.after? taken = some rest) :
    taken + rest.remaining = given.remaining := by
  induction taken generalizing rest with
  | zero =>
    cases reached
    exact Nat.zero_add _
  | succ taken ih =>
    obtain ⟨middle, earlier, last⟩ := Option.bind_eq_some_iff.mp reached
    obtain ⟨⟨operation, _⟩, found, rfl⟩ := Option.map_eq_some_iff.mp last
    have whole := ih earlier
    have one_less : _ + 1 = middle.remaining := remaining_next? found
    simp only
    omega

end Workload

namespace Core

/-- The operation that takes time, waits for memory or has led to a fault, or else the one that was
    refused. -/
def inHand (core : Core) : Nat :=
  match core.phase with
  | .busy _ | .waitMemory | .waitFault => 1
  | _ => if core.refused.isSome then 1 else 0

/-- The core has halted at a tick after which its clock has no edge, and this was logged. -/
def RanOut (log : List Log.Line) (core : Core) : Prop :=
  core.LastEdge log ∧ ∃ tick, core.haltedAt = some tick ∧ core.clock.edgeAfter? tick = none

section tallied

variable (spec : CoreSpec) (given : Workload) (log : List Log.Line) (taken : Nat) (core : Core)

structure HasTaken : Prop where
  isa : core.isa = spec.isa
  stream : given.after? taken = some core.workload
  pc : core.pc = (spec.startAddress + operationBytes * taken) % Nat.pow 2 spec.isa.width.bits

structure Working : Prop extends core.HasTaken spec given taken where
  awake : core.isHalted = false
  again : core.refused ≠ none → core.phase = .running
  counted : core.counters.retired + core.counters.faults + core.inHand = taken

structure Stopped : Prop extends core.HasTaken spec given taken where
  halted : core.isHalted = true
  counted : core.counters.retired + core.counters.faults = taken ∨
    core.counters.retired + core.counters.faults + 1 = taken ∧ core.RanOut log

/-- All operations that the core has taken are accounted for. -/
def Tallied : Prop :=
  core.Working spec given taken ∨ core.Stopped spec given log taken

/-- The core goes about the operations that it has taken, `owed` of which have not been counted. -/
structure Executing (owed : Nat) : Prop extends core.HasTaken spec given taken where
  running : core.phase = .running
  fresh : core.refused = none
  counted : core.counters.retired + core.counters.faults + owed = taken

end tallied

variable {spec : CoreSpec} {given : Workload} {log : List Log.Line} {taken : Nat} {core : Core}

theorem inHand_le_one (core : Core) : core.inHand ≤ 1 := by
  unfold inHand
  split
  case h_4 => split <;> omega
  all_goals omega

theorem Executing.retire (executing : core.Executing spec given taken 1) :
    core.retire.Executing spec given taken 0 :=
  { executing with
    counted := by
      have counted := executing.counted
      show core.counters.retired + 1 + core.counters.faults + 0 = taken
      omega }

theorem Executing.awake {owed : Nat} (executing : core.Executing spec given taken owed) :
    core.isHalted = false := by
  simp [isHalted, executing.running]

theorem Executing.working (executing : core.Executing spec given taken 0) : core.Working spec given taken :=
  { executing with
    awake := executing.awake
    again := fun _ => executing.running
    counted := by
      rw [inHand, executing.running, executing.fresh]
      exact executing.counted }

theorem Working.refused_eq_none (working : core.Working spec given taken) (other : core.phase ≠ .running) :
    core.refused = none := by
  by_contra again
  exact other (working.again again)

theorem Working.finish (working : core.Working spec given taken)
    (occupied : core.phase = .waitMemory ∨ ∃ last, core.phase = .busy last) :
    ({ core.retire with phase := .running } : Core).Executing spec given taken 0 := by
  have held : core.inHand = 1 := by
    rcases occupied with phase | ⟨last, phase⟩ <;> simp [inHand, phase]
  have counted := working.counted
  rw [held] at counted
  exact { working with
    running := rfl
    fresh := working.refused_eq_none (by rcases occupied with phase | ⟨last, phase⟩ <;> simp [phase])
    counted := by
      show core.counters.retired + 1 + core.counters.faults + 0 = taken
      omega }

theorem Executing.advance (executing : core.Executing spec given taken 0) {operation : Operation}
    {workload : Workload} (found : core.workload.next? = some (operation, workload)) :
    (core.advance workload).Executing spec given (taken + 1) 1 where
  isa := executing.isa
  stream := Workload.after?_succ executing.stream found
  pc := by
    show (core.pc + operationBytes) % Nat.pow 2 core.isa.width.bits = _
    rw [executing.pc, executing.isa, Nat.mod_add_mod, Nat.mul_succ, Nat.add_assoc]
  running := executing.running
  fresh := executing.fresh
  counted := by
    have counted := executing.counted
    show core.counters.retired + core.counters.faults + 1 = taken + 1
    omega

theorem Executing.occupied (executing : core.Executing spec given taken 1) {phase : Phase}
    (occupied : phase = .waitMemory ∨ phase = .waitFault ∨ ∃ last, phase = .busy last) :
    ({ core with phase := phase } : Core).Working spec given taken := by
  have fresh := executing.fresh
  have counted := executing.counted
  rcases occupied with rfl | rfl | ⟨last, rfl⟩
  · exact { executing with awake := rfl, again := fun again => absurd fresh again }
  · exact { executing with awake := rfl, again := fun again => absurd fresh again }
  · exact { executing with awake := rfl, again := fun again => absurd fresh again }

theorem Executing.keep (executing : core.Executing spec given taken 1) (work : Offload) :
    (core.keep work).Working spec given taken :=
  { executing with
    awake := executing.awake
    again := fun _ => executing.running
    counted := by
      have held : (core.keep work).inHand = 1 := by
        show (match core.phase with
          | .busy _ | .waitMemory | .waitFault => 1
          | _ => 1) = 1
        rw [executing.running]
      rw [held]
      exact executing.counted }

theorem Executing.waiting (executing : core.Executing spec given taken 0) (thenHalt : Bool) :
    ({ core with phase := .waitOffloads thenHalt } : Core).Working spec given taken :=
  { executing with
    awake := rfl
    again := fun again => absurd executing.fresh again
    counted := by
      show _ + (if core.refused.isSome then 1 else 0) = taken
      rw [executing.fresh]
      exact executing.counted }

theorem Stopped.mono (stopped : core.Stopped spec given log taken) {longer : List Log.Line}
    (subset : log ⊆ longer) : core.Stopped spec given longer taken :=
  { stopped with counted := stopped.counted.imp_right fun ⟨counted, ⟨line, member, same⟩, last⟩ =>
      ⟨counted, ⟨line, subset member, same⟩, last⟩ }

theorem Tallied.mono (tallied : core.Tallied spec given log taken) {longer : List Log.Line}
    (subset : log ⊆ longer) : core.Tallied spec given longer taken :=
  tallied.imp_right fun stopped => stopped.mono subset

end Core

namespace Turn

variable {spec : CoreSpec} {given : Workload} {log : List Log.Line} {taken : Nat} {turn : Turn}

def Tallied (spec : CoreSpec) (given : Workload) (log : List Log.Line) (taken : Nat) (turn : Turn) : Prop :=
  turn.core.Tallied spec given (log ++ turn.effects.log) taken

theorem halt_of_awake (awake : turn.core.isHalted = false) : turn.halt.core = { turn.core with
    phase := .halted
    haltedAt := some turn.now
    refused := none } := by
  unfold halt
  rw [if_neg (by simp [awake])]
  rfl

theorem tallied_halt (has : turn.core.HasTaken spec given taken) (awake : turn.core.isHalted = false)
    (counted : turn.core.counters.retired + turn.core.counters.faults = taken) :
    turn.halt.Tallied spec given log taken := by
  unfold Tallied
  rw [halt_of_awake awake]
  exact .inr { has with
    halted := rfl
    counted := .inl counted }

section working

variable (working : turn.core.Working spec given taken)

include working

theorem working_requestEdge (tick : Nat) : (turn.requestEdge tick).core.Working spec given taken := by
  unfold requestEdge
  split
  · exact working
  · exact { working with }

theorem working_sleepUntil (resume : Nat) : (turn.sleepUntil resume).core.Working spec given taken := by
  unfold sleepUntil
  split
  · exact working_requestEdge working _
  · exact working_requestEdge working _

theorem tallied_haltAtHorizon (last : turn.core.clock.edgeAfter? turn.now = none) :
    turn.haltAtHorizon.Tallied spec given log taken := by
  have counted := working.counted
  have few := turn.core.inHand_le_one
  have stopped : turn.haltAtHorizon.core = { turn.core with
      phase := .halted
      haltedAt := some turn.now
      refused := none } :=
    @halt_of_awake (turn.note true .warn _ _) working.awake
  have logged : turn.core.LastEdge (log ++ turn.haltAtHorizon.effects.log) :=
    ⟨_, List.mem_append_right _ ((extends_halt _).log.subset
      (List.mem_append_right _ (List.mem_singleton_self _))), rfl, rfl⟩
  unfold Tallied
  rw [stopped]
  refine .inr { working with
    halted := rfl
    counted := ?_ }
  rcases Nat.le_one_iff_eq_zero_or_eq_one.mp few with idle | owed
  · rw [idle] at counted
    exact .inl counted
  · rw [owed] at counted
    exact .inr ⟨counted, logged, turn.now, rfl, last⟩

theorem tallied_requestNextEdge : turn.requestNextEdge.Tallied spec given log taken := by
  unfold requestNextEdge
  cases found : turn.core.clock.edgeAfter? turn.now with
  | none => exact tallied_haltAtHorizon working found
  | some tick => exact .inl (working_requestEdge working tick)

theorem tallied_requestFirstEdge : turn.requestFirstEdge.Tallied spec given log taken := by
  unfold requestFirstEdge
  cases found : turn.core.clock.edgeAtOrAfter? turn.now with
  | none => exact tallied_haltAtHorizon working (Clock.edgeAfter?_of_edgeAtOrAfter? found)
  | some tick => exact .inl (working_requestEdge working tick)

theorem tallied_keepPolling : turn.keepPolling.Tallied spec given log taken := by
  unfold keepPolling
  split
  · exact .inl working
  · exact tallied_requestNextEdge working

end working

section executing

variable (executing : turn.core.Executing spec given taken 1)

include executing

theorem working_raise (fault : Fault) : (turn.raise fault).core.Working spec given taken :=
  executing.occupied (.inr (.inl rfl))

theorem working_compute (cycle cycles : Nat) : (turn.compute cycle cycles).core.Working spec given taken :=
  @working_sleepUntil _ _ _ (turn.setPhase _) (executing.occupied (.inr (.inr ⟨_, rfl⟩))) _

theorem executing_request (known : turn.core.id < turn.latency.sources.length) (address : Nat)
    (kind : AccessKind) : (turn.request address kind).2 = false ∧
        (turn.request address kind).1.core.Working spec given taken ∨
      (turn.request address kind).2 = true ∧
        (turn.request address kind).1.core.Executing spec given taken 1 := by
  unfold request
  simp only
  split
  · exact .inl ⟨rfl, working_raise executing _⟩
  · cases drawn : turn.latency.draw? turn.core.id with
    | none => exact absurd known (Nat.not_lt.mpr (LatencyModel.draw?_eq_none drawn))
    | some outcome =>
      refine .inr ⟨rfl, ?_⟩
      cases kind <;> exact { executing with }

theorem tallied_load (known : turn.core.id < turn.latency.sources.length) (address : Nat) :
    (turn.load address).Tallied spec given log taken := by
  unfold load
  rcases executing_request executing known address .load with ⟨refused, working⟩ | ⟨granted, requested⟩
  · simp only [refused, Bool.false_eq_true, if_false]
    exact .inl working
  · simp only [granted, if_true]
    exact tallied_keepPolling (requested.occupied (.inl rfl))

theorem tallied_store (known : turn.core.id < turn.latency.sources.length) (address : Nat) :
    (turn.store address).Tallied spec given log taken := by
  unfold store
  rcases executing_request executing known address .store with ⟨refused, working⟩ | ⟨granted, requested⟩
  · simp only [refused, Bool.false_eq_true, if_false]
    exact .inl working
  · simp only [granted, if_true]
    exact tallied_requestNextEdge { requested.retire.working with }

theorem tallied_offload (work : Offload) : (turn.offload work).Tallied spec given log taken := by
  unfold offload
  cases attached : turn.coprocessor with
  | none => exact .inl (working_raise executing _)
  | some unit =>
    simp only
    cases (unit.submit turn.now work).1 with
    | ok handle => exact tallied_requestNextEdge { executing.retire.working with }
    | error refusal => exact tallied_requestNextEdge { executing.keep work with }

theorem tallied_wait : turn.wait.Tallied spec given log taken := by
  unfold wait
  apply tallied_requestNextEdge
  split
  · exact executing.retire.working
  · exact executing.retire.waiting false

end executing

theorem tallied_drainThenHalt (executing : turn.core.Executing spec given taken 0) :
    turn.drainThenHalt.Tallied spec given log taken := by
  unfold drainThenHalt
  split
  · exact tallied_halt executing.toHasTaken executing.awake executing.counted
  · exact tallied_requestNextEdge (executing.waiting true)

theorem tallied_execute (executing : turn.core.Executing spec given taken 1)
    (known : turn.core.id < turn.latency.sources.length) (cycle : Nat) (operation : Operation) :
    (turn.execute cycle operation).Tallied spec given log taken := by
  unfold execute
  generalize noted : turn.note _ _ _ _ = issued
  have still : issued.core.Executing spec given taken 1 := noted ▸ executing
  have registered : issued.core.id < issued.latency.sources.length := noted ▸ known
  cases operation with
  | compute cycles => exact .inl (working_compute still cycle cycles)
  | load address => exact tallied_load still registered address
  | store address => exact tallied_store still registered address
  | offload work => exact tallied_offload still work
  | wait => exact tallied_wait still
  | halt => exact tallied_drainThenHalt { still.retire with }

section working

variable (working : turn.core.Working spec given taken) (known : turn.core.id < turn.latency.sources.length)

include working known

theorem tallied_issue (running : turn.core.phase = .running) (cycle : Nat) :
    ∃ later, (turn.issue cycle).Tallied spec given log later := by
  have counted := working.counted
  rw [Core.inHand, running] at counted
  unfold issue
  cases refused : turn.core.refused with
  | some work =>
    rw [refused] at counted
    have again : (turn.setCore { turn.core with refused := none }).core.Executing spec given taken 1 :=
      { working with
        running := running
        fresh := rfl
        counted := counted }
    exact ⟨taken, tallied_execute again known cycle (.offload work)⟩
  | none =>
    rw [refused] at counted
    have idle : turn.core.Executing spec given taken 0 := { working with
      running := running
      fresh := refused
      counted := counted }
    cases found : turn.core.workload.next? with
    | some next =>
      obtain ⟨operation, workload⟩ := next
      have begun : (turn.setCore (turn.core.advance workload)).core.Executing spec given (taken + 1) 1 :=
        idle.advance found
      exact ⟨taken + 1, tallied_execute begun known cycle operation⟩
    | none => exact ⟨taken, tallied_drainThenHalt idle⟩

theorem tallied_proceed : ∃ later, turn.proceed.Tallied spec given log later := by
  unfold proceed
  simp only
  split
  · exact ⟨taken, .inl working⟩
  · exact ⟨taken, .inl working⟩
  · exact ⟨taken, tallied_keepPolling working⟩
  · rename_i last phase
    split
    · exact ⟨taken, .inl (working_sleepUntil working _)⟩
    · have done : (turn.retire.setPhase .running).core.Executing spec given taken 0 :=
        working.finish (.inr ⟨last, phase⟩)
      exact tallied_issue done.working known rfl _
  · rename_i thenHalt phase
    have fresh := working.refused_eq_none (by simp [phase])
    have counted : turn.core.counters.retired + turn.core.counters.faults = taken := by
      simpa [Core.inHand, phase, fresh] using working.counted
    split
    · exact ⟨taken, tallied_keepPolling working⟩
    · split
      · exact ⟨taken, tallied_halt working.toHasTaken working.awake counted⟩
      · have done : (turn.setPhase .running).core.Executing spec given taken 0 := { working with
          running := rfl
          fresh := fresh
          counted := counted }
        exact tallied_issue done.working known rfl _
  · rename_i phase
    exact tallied_issue working known phase _

end working

theorem working_polled (working : turn.core.Working spec given taken) :
    turn.polled.core.Working spec given taken := by
  refine @pollAll_induction _ (fun before after => before.core.Working spec given taken →
    after.core.Working spec given taken) ?_ ?_ ?_ { working with }
  · exact fun _ working => working
  · exact fun one other working => other (one working)
  · intro turn handle working
    unfold poll
    split
    · exact working
    · exact { working with }

section tallied

variable (tallied : turn.core.Tallied spec given log taken)

include tallied

theorem tallied_coreEdge (known : turn.core.id < turn.latency.sources.length) :
    ∃ later, turn.coreEdge.Tallied spec given log later := by
  rcases tallied with working | stopped
  · by_cases due : turn.core.nextEdge = some turn.now
    · have keeps := turn.keeps_polled
      have registered : turn.polled.core.id < turn.polled.latency.sources.length := by
        rw [keeps.id, keeps.latency]
        exact known
      rw [coreEdge_of_eq turn due working.awake]
      exact tallied_proceed (working_polled working) registered
    · unfold coreEdge
      rw [if_pos due]
      exact ⟨taken, .inl working⟩
  · obtain ⟨edge, same⟩ := coreEdge_of_halted stopped.halted
    rw [same]
    exact ⟨taken, .inr { stopped.mono (List.subset_append_left _ _) with }⟩

theorem tallied_response (address : Nat) (kind : AccessKind) (issuedAt : Nat) :
    (turn.response address kind issuedAt).Tallied spec given log taken := by
  cases kind with
  | store =>
    rcases tallied with working | stopped
    · exact .inl { working with }
    · exact .inr { stopped.mono (List.subset_append_left _ _) with }
  | load =>
    obtain ⟨line, -, same⟩ := @response_load_eq turn address issuedAt
    rw [same]
    split
    · rename_i waits
      rcases tallied with working | stopped
      · exact tallied_requestFirstEdge (working.finish (.inl waits)).working
      · have halted := stopped.halted
        simp [Core.isHalted, waits] at halted
    · rcases tallied with working | stopped
      · exact .inl working
      · exact .inr (stopped.mono (List.subset_append_left _ _))

theorem tallied_fault (waits : turn.core.phase = .waitFault) (fault : Fault) :
    (turn.fault fault).Tallied spec given log taken := by
  rcases tallied with working | stopped
  · have fresh := working.refused_eq_none (by simp [waits])
    have counted : turn.core.counters.retired + (turn.core.counters.faults + 1) = taken := by
      simpa [Core.inHand, waits, Nat.add_assoc] using working.counted
    unfold Turn.fault
    simp only
    split
    · exact tallied_halt { working with } working.awake counted
    · have done : ((turn.count fun counters => { counters with faults := counters.faults + 1 }).setPhase
          .running).core.Executing spec given taken 0 := { working with
        running := rfl
        fresh := fresh
        counted := counted }
      exact tallied_requestNextEdge { done.working with }
  · have halted := stopped.halted
    simp [Core.isHalted, waits] at halted

theorem tallied_coprocessorEdge : turn.coprocessorEdge.Tallied spec given log taken := by
  unfold Tallied
  rw [turn.frame_coprocessorEdge.1]
  exact tallied.mono (List.subset_append_left _ _)

end tallied

theorem Takes.tallied_deliver {lent : Option CoprocessorSpec} {notes : Notes} {rest : List (Nat × Event)}
    {event : Event} (takes : turn.Takes lent notes rest log event)
    (tallied : turn.core.Tallied spec given log taken) :
    ∃ later, (turn.deliver event).Tallied spec given log later := by
  cases event with
  | coreEdge core => exact tallied_coreEdge tallied takes.proper.known
  | coprocessorEdge core => exact ⟨taken, tallied_coprocessorEdge tallied⟩
  | response core address kind issuedAt => exact ⟨taken, tallied_response tallied address kind issuedAt⟩
  | fault core fault =>
    refine ⟨taken, tallied_fault tallied ?_ fault⟩
    cases takes.reaches with
    | quiet _ awaited =>
      simp [Turn.awaited, Event.resumes, show core = turn.core.id from takes.own] at awaited
    | fault _ since _ resumes => exact resumes.at_fault.2.1

end Turn

end CoreTiming
