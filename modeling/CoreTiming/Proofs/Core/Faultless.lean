import CoreTiming.Proofs.Core.Pausing

namespace CoreTiming

def Operation.Safe (memory : MemoryMap) (attached : Bool) : Operation → Prop
  | .load address | .store address => memory.contains address = true
  | .offload _ => attached = true
  | .compute _ | .wait | .halt => True

def Workload.Safe (memory : MemoryMap) (attached : Bool) (workload : Workload) : Prop :=
  ∀ count, ∀ operation ∈ (workload.take count).1, operation.Safe memory attached

theorem Workload.Safe.next {memory : MemoryMap} {attached : Bool} {workload rest : Workload}
    {operation : Operation} (safe : workload.Safe memory attached)
    (found : workload.next? = some (operation, rest)) :
    operation.Safe memory attached ∧ rest.Safe memory attached := by
  have taken : ∀ count, (workload.take (count + 1)).1 = operation :: (rest.take count).1 := by
    intro count
    rw [Workload.take, found]
  refine ⟨safe 1 operation ?_, fun count other member => safe (count + 1) other ?_⟩
  · rw [taken]
    exact List.mem_cons_self ..
  · rw [taken]
    exact List.mem_cons_of_mem _ member

/-- The core has met no fault, waits for none, and has nothing ahead that could lead to one. -/
structure Core.Clean (memory : MemoryMap) (attached : Bool) (core : Core) : Prop where
  calm : core.phase ≠ .waitFault
  faults : core.counters.faults = 0
  ahead : core.workload.Safe memory attached
  again : core.refused ≠ none → attached = true

theorem Core.clean_ofSpec {memory : MemoryMap} {attached : Bool} (spec : CoreSpec) {workload : Workload}
    (safe : workload.Safe memory attached) : (Core.ofSpec spec workload).Clean memory attached where
  calm := nofun
  faults := rfl
  ahead := safe
  again := fun refused => absurd rfl refused

namespace Turn

variable {memory : MemoryMap} {attached : Bool} {turn : Turn}

section clean

variable (clean : turn.core.Clean memory attached)

include clean

theorem clean_setPhase {phase : Phase} (calm : phase ≠ .waitFault) :
    (turn.setPhase phase).core.Clean memory attached :=
  { clean with calm := calm }

theorem clean_retire : turn.retire.core.Clean memory attached :=
  { clean with }

theorem clean_halt : turn.halt.core.Clean memory attached := by
  unfold halt
  split
  · exact clean
  · exact { clean with
      calm := nofun
      again := fun refused => absurd rfl refused }

theorem clean_requestEdge (tick : Nat) : (turn.requestEdge tick).core.Clean memory attached := by
  unfold requestEdge
  split
  · exact clean
  · exact { clean with }

theorem clean_requestEdgeOrHalt (edge : Option Nat) :
    (turn.requestEdgeOrHalt edge).core.Clean memory attached := by
  cases edge with
  | none => exact @clean_halt _ _ (turn.note _ _ _ _) clean
  | some tick => exact clean_requestEdge clean tick

theorem clean_requestNextEdge : turn.requestNextEdge.core.Clean memory attached :=
  clean_requestEdgeOrHalt clean _

theorem clean_keepPolling : turn.keepPolling.core.Clean memory attached := by
  unfold keepPolling
  split
  · exact clean
  · exact clean_requestNextEdge clean

theorem clean_sleepUntil (resume : Nat) : (turn.sleepUntil resume).core.Clean memory attached := by
  unfold sleepUntil
  split <;> exact clean_requestEdge clean _

theorem clean_drainThenHalt : turn.drainThenHalt.core.Clean memory attached := by
  unfold drainThenHalt
  split
  · exact clean_halt clean
  · exact clean_requestNextEdge (clean_setPhase clean nofun)

theorem clean_request {address : Nat} (inside : turn.memory.contains address = true) (kind : AccessKind) :
    (turn.request address kind).1.core.Clean memory attached := by
  unfold request MemoryMap.check
  simp only [inside, if_true]
  cases turn.latency.draw? turn.core.id with
  | none => exact clean
  | some outcome => cases kind <;> exact { clean with }

theorem clean_load {address : Nat} (inside : turn.memory.contains address = true) :
    (turn.load address).core.Clean memory attached := by
  have requested := clean_request clean inside .load
  unfold load
  simp only
  split
  · exact clean_keepPolling (clean_setPhase requested nofun)
  · exact requested

theorem clean_store {address : Nat} (inside : turn.memory.contains address = true) :
    (turn.store address).core.Clean memory attached := by
  have requested := clean_request clean inside .store
  unfold store
  simp only
  split
  · exact clean_requestNextEdge { requested with }
  · exact requested

theorem clean_offload (lent : attached = true) (equipped : turn.coprocessor.isSome = true) (work : Offload) :
    (turn.offload work).core.Clean memory attached := by
  obtain ⟨unit, present⟩ := Option.isSome_iff_exists.mp equipped
  unfold offload
  simp only [present]
  cases (unit.submit turn.now work).1 with
  | ok handle => exact clean_requestNextEdge { clean with }
  | error refusal => exact clean_requestNextEdge { clean with again := fun _ => lent }

theorem clean_wait : turn.wait.core.Clean memory attached := by
  have retired := clean_retire clean
  unfold wait
  apply clean_requestNextEdge
  split
  · exact retired
  · exact clean_setPhase retired nofun

theorem clean_polled : turn.polled.core.Clean memory attached := by
  have keeps := turn.keeps_polled
  constructor
  · rw [keeps.phase]
    exact clean.calm
  · rw [keeps.counters]
    exact clean.faults
  · rw [keeps.workload]
    exact clean.ahead
  · rw [keeps.refused]
    exact clean.again

end clean

section issuing

variable (clean : turn.core.Clean memory attached) (within : turn.memory = memory)
  (equipped : attached = true → turn.coprocessor.isSome = true)

include clean within equipped

theorem clean_execute (cycle : Nat) {operation : Operation} (safe : operation.Safe memory attached) :
    (turn.execute cycle operation).core.Clean memory attached := by
  subst within
  unfold execute
  generalize noted : turn.note _ _ _ _ = issued
  have still : issued.core.Clean turn.memory attached := noted ▸ clean
  have same : issued.memory = turn.memory := noted ▸ rfl
  have lent : attached = true → issued.coprocessor.isSome = true := noted ▸ equipped
  cases operation with
  | compute cycles => exact @clean_sleepUntil _ _ (issued.setPhase (.busy _)) (clean_setPhase still nofun) _
  | load address => exact clean_load still (same ▸ safe)
  | store address => exact clean_store still (same ▸ safe)
  | offload work => exact clean_offload still safe (lent safe) work
  | wait => exact clean_wait still
  | halt => exact clean_drainThenHalt (clean_retire still)

theorem clean_issue (cycle : Nat) : (turn.issue cycle).core.Clean memory attached := by
  unfold issue
  cases refused : turn.core.refused with
  | some work =>
    have again : (turn.setCore { turn.core with refused := none }).core.Clean memory attached :=
      { clean with again := fun refused => absurd rfl refused }
    exact clean_execute again within equipped cycle (clean.again (by simp [refused]))
  | none =>
    cases found : turn.core.workload.next? with
    | none => exact clean_drainThenHalt clean
    | some next =>
      obtain ⟨operation, workload⟩ := next
      obtain ⟨safe, ahead⟩ := clean.ahead.next found
      have begun : (turn.setCore (turn.core.advance workload)).core.Clean memory attached :=
        { clean with ahead := ahead }
      exact clean_execute begun within equipped cycle safe

theorem clean_proceed : turn.proceed.core.Clean memory attached := by
  unfold proceed
  simp only
  split
  · exact clean
  · exact clean
  · exact clean_keepPolling clean
  · split
    · exact clean_sleepUntil clean _
    · have done : (turn.retire.setPhase .running).core.Clean memory attached :=
        clean_setPhase (clean_retire clean) nofun
      exact clean_issue done within equipped _
  · split
    · exact clean_keepPolling clean
    · split
      · exact clean_halt clean
      · have done : (turn.setPhase .running).core.Clean memory attached := clean_setPhase clean nofun
        exact clean_issue done within equipped _
  · exact clean_issue clean within equipped _

theorem clean_coreEdge : turn.coreEdge.core.Clean memory attached := by
  by_cases due : turn.core.nextEdge = some turn.now
  · cases awake : turn.core.isHalted with
    | true =>
      obtain ⟨edge, same⟩ := coreEdge_of_halted awake
      rw [same]
      exact { clean with }
    | false =>
      have still : turn.polled.coprocessor.isSome = turn.coprocessor.isSome :=
        (extends_pollAll (turn.setCore { turn.core with nextEdge := none })).equipped
      rw [coreEdge_of_eq turn due awake]
      refine clean_proceed (clean_polled clean) (turn.keeps_polled.memory.trans within) ?_
      intro lent
      exact still.trans (equipped lent)
  · unfold coreEdge
    rw [if_pos due]
    exact clean

end issuing

theorem clean_response (clean : turn.core.Clean memory attached) (address : Nat) (kind : AccessKind)
    (issuedAt : Nat) : (turn.response address kind issuedAt).core.Clean memory attached := by
  cases kind with
  | store => exact { clean with }
  | load =>
    obtain ⟨line, -, same⟩ := @response_load_eq turn address issuedAt
    rw [same]
    split
    · refine clean_requestEdgeOrHalt ?_ _
      exact { clean with calm := nofun }
    · exact clean

/-- Whatever reaches a core that has only safe operations ahead, it is not a fault and leads to none. -/
theorem Takes.clean_deliver {spec : Option CoprocessorSpec} {notes : Notes} {rest : List (Nat × Event)}
    {log : List Log.Line} {event : Event} (takes : turn.Takes spec notes rest log event)
    (within : turn.memory = memory) (clean : turn.core.Clean memory spec.isSome) :
    (turn.deliver event).core.Clean memory spec.isSome := by
  cases takes.reaches with
  | quiet event awaited agenda latency stores core =>
    rw [core]
    exact { clean with }
  | edge =>
    refine clean_coreEdge clean within fun lent => ?_
    obtain ⟨made, given⟩ := Option.isSome_iff_exists.mp lent
    obtain ⟨since, stands⟩ := takes.stands
    obtain ⟨unit, attached, -⟩ := stands.books made given
    rw [attached]
    rfl
  | response address issuedAt => exact clean_response clean address .load issuedAt
  | fault fault since awaited resumes => exact absurd resumes.at_fault.2.1 clean.calm

end Turn

end CoreTiming
