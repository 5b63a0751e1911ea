import CoreTiming.Proofs.Core.Sight

namespace CoreTiming

/-- A core that does nothing but its operations. -/
structure Reference where
  cycle : Nat := 0
  source : LatencySource
  counters : CoreCounters := {}

namespace Reference

def retire (cycles : Nat) (state : Reference) : Reference :=
  { state with
    cycle := state.cycle + cycles
    counters := { state.counters with retired := state.counters.retired + 1 } }

def fault (policy : FaultPolicy) (state : Reference) : Reference × Bool :=
  let faulted := { state with
    counters := { state.counters with faults := state.counters.faults + 1 } }
  match policy with
  | .halt => (faulted, false)
  | .continue => ({ faulted with cycle := state.cycle + 1 }, true)

/-- One operation, and whether the core goes on after it. Only an access within memory draws a latency,
    and only a load takes as long. -/
def step (memory : MemoryMap) (policy : FaultPolicy) (state : Reference) : Operation → Reference × Bool
  | .compute cycles => (state.retire (max cycles 1), true)
  | .load address =>
    if memory.contains address then
      ({ state with
        source := state.source.draw.2
        counters := { state.counters with
          loads := state.counters.loads + 1
          latency := state.counters.latency + state.source.draw.1 } }.retire state.source.draw.1, true)
    else state.fault policy
  | .store address =>
    if memory.contains address then
      ({ state with
        source := state.source.draw.2
        counters := { state.counters with
          stores := state.counters.stores + 1
          latency := state.counters.latency + state.source.draw.1 } }.retire 1, true)
    else state.fault policy
  | .offload _ => state.fault policy
  | .wait => (state.retire 1, true)
  | .halt => (state.retire 0, false)

/-- The operations up to the one at which the core stops, or all of them. -/
def run (memory : MemoryMap) (policy : FaultPolicy) : List Operation → Reference → Reference
  | [], state => state
  | operation :: rest, state =>
    match state.step memory policy operation with
    | (next, true) => run memory policy rest next
    | (last, false) => last

variable {memory : MemoryMap} {policy : FaultPolicy} {state next : Reference}

theorem fault_eq_true (goes : state.fault policy = (next, true)) :
    policy = .continue ∧ next = ⟨state.cycle + 1, state.source,
      { state.counters with faults := state.counters.faults + 1 }⟩ := by
  cases policy with
  | halt => cases goes
  | «continue» =>
    cases goes
    exact ⟨rfl, rfl⟩

theorem fault_eq_false (stops : state.fault policy = (next, false)) :
    policy = .halt ∧ next = ⟨state.cycle, state.source,
      { state.counters with faults := state.counters.faults + 1 }⟩ := by
  cases policy with
  | halt =>
    cases stops
    exact ⟨rfl, rfl⟩
  | «continue» => cases stops

theorem cycle_le_fault (policy : FaultPolicy) (state : Reference) :
    state.cycle ≤ (state.fault policy).1.cycle := by
  cases policy with
  | halt => exact Nat.le_refl _
  | «continue» => exact Nat.le_succ _

theorem cycle_le_step (memory : MemoryMap) (policy : FaultPolicy) (state : Reference)
    (operation : Operation) : state.cycle ≤ (state.step memory policy operation).1.cycle := by
  cases operation with
  | load address | store address =>
    unfold step
    simp only
    split
    · exact Nat.le_add_right ..
    · exact state.cycle_le_fault policy
  | offload work => exact state.cycle_le_fault policy
  | compute | wait | halt => exact Nat.le_add_right ..

theorem cycle_le_run (memory : MemoryMap) (policy : FaultPolicy) (operations : List Operation)
    (state : Reference) : state.cycle ≤ (run memory policy operations state).cycle := by
  induction operations generalizing state with
  | nil => exact Nat.le_refl _
  | cons operation rest ih =>
    have first := state.cycle_le_step memory policy operation
    unfold run
    split
    · rename_i next stepped
      rw [stepped] at first
      exact Nat.le_trans first (ih next)
    · rename_i last stepped
      rwa [stepped] at first

end Reference

/-- What is left for a core to do ends like this. -/
inductive Core.Tracks (memory : MemoryMap) (final : Reference) (agenda : List (Nat × Event))
    (source : Option LatencySource) (core : Core) : Prop
  | operation (back : Nat) (rest : List Operation) (next : LatencySource)
      (pauses : core.Pauses (fun _ => 0) agenda back) (listed : core.workload = .listed rest)
      (draws : source = some next)
      (ends : Reference.run memory core.faultPolicy rest ⟨back, next, core.upcoming⟩ = final)
  | fault (fault : Fault) (waits : core.phase = .waitFault) (policy : core.faultPolicy = .halt)
      (pending : (final.cycle * core.clock.period, .fault core.id fault) ∈ agenda)
      (counted : core.upcoming = final.counters)
  | halted (stopped : core.phase = .halted)
      (time : core.haltedAt = some (final.cycle * core.clock.period))
      (counted : core.counters = final.counters)

theorem Core.Tracks.of_isHalted {memory : MemoryMap} {final : Reference} {agenda : List (Nat × Event)}
    {source : Option LatencySource} {core : Core} (tracks : core.Tracks memory final agenda source)
    (halted : core.isHalted = true) :
    core.haltedAt = some (final.cycle * core.clock.period) ∧ core.counters = final.counters := by
  cases tracks with
  | operation back rest next pauses => cases halted.symm.trans pauses.returns.awake
  | fault fault waits => simp [Core.isHalted, waits] at halted
  | halted stopped time counted => exact ⟨time, counted⟩

namespace Turn

/-- The core has no coprocessor, and so it has no offloads. -/
structure Unaided (turn : Turn) : Prop where
  coprocessor : turn.coprocessor = none
  idle : turn.core.outstanding = []

def reference (source : LatencySource) (turn : Turn) : Reference :=
  ⟨turn.cycle, source, turn.core.counters⟩

variable {turn : Turn} {source : LatencySource} {operation : Operation} {next final : Reference}
  {rest : List (Nat × Event)} {finish : Nat → Nat}

theorem faulted?_of_fault (goes : (turn.reference source).fault turn.core.faultPolicy = (next, true)) :
    turn.faulted? = some ⟨next.cycle, next.counters, turn.latency⟩ ∧ next.source = source := by
  obtain ⟨policy, rfl⟩ := Reference.fault_eq_true goes
  unfold faulted?
  rw [policy]
  exact ⟨rfl, rfl⟩

theorem Unaided.outcome?_of_step (unaided : turn.Unaided)
    (draws : turn.latency.sources[turn.core.id]? = some source)
    (stepped : (turn.reference source).step turn.memory turn.core.faultPolicy operation = (next, true)) :
    ∃ model, turn.outcome? finish operation = some ⟨next.cycle, next.counters, model⟩ ∧
      model.sources[turn.core.id]? = some next.source := by
  obtain ⟨known, -⟩ := List.getElem?_eq_some_iff.mp draws
  have drawn : turn.latency.draw? turn.core.id =
      some (source.draw.1, ⟨turn.latency.sources.set turn.core.id source.draw.2⟩) := by
    unfold LatencyModel.draw?
    rw [draws]
    rfl
  have faulted : (turn.reference source).fault turn.core.faultPolicy = (next, true) →
      ∃ model, turn.faulted? = some ⟨next.cycle, next.counters, model⟩ ∧
        model.sources[turn.core.id]? = some next.source := by
    intro goes
    obtain ⟨outcome, same⟩ := faulted?_of_fault goes
    exact ⟨turn.latency, outcome, same ▸ draws⟩
  cases operation with
  | compute cycles =>
    cases stepped
    exact ⟨turn.latency, rfl, draws⟩
  | load address | store address =>
    unfold Reference.step at stepped
    unfold outcome?
    simp only at stepped ⊢
    split at stepped
    · rename_i inside
      cases stepped
      rw [if_pos inside, drawn]
      exact ⟨_, rfl, List.getElem?_set_self known⟩
    · rename_i outside
      rw [if_neg outside]
      exact faulted stepped
  | offload work =>
    unfold outcome?
    rw [unaided.coprocessor]
    exact faulted stepped
  | wait =>
    cases stepped
    refine ⟨turn.latency, ?_, draws⟩
    unfold outcome?
    rw [unaided.idle]
    rfl
  | halt => cases stepped

theorem core_halt (awake : turn.core.isHalted = false) :
    turn.halt.core = { turn.core with phase := .halted, haltedAt := some turn.now, refused := none } := by
  unfold halt
  rw [if_neg (by simp [awake])]
  rfl

theorem core_drainThenHalt (idle : turn.core.outstanding = []) (awake : turn.core.isHalted = false) :
    turn.drainThenHalt.core =
      { turn.core with phase := .halted, haltedAt := some turn.now, refused := none } := by
  unfold drainThenHalt
  rw [idle]
  exact core_halt awake

theorem Executes.awake (executes : turn.Executes rest) : turn.core.isHalted = false :=
  not_halted_of_active executes.active

theorem tracks_raise (executes : turn.Executes [])
    (stops : (turn.reference source).fault turn.core.faultPolicy = (final, false)) (fault : Fault)
    (later : Option LatencySource) :
    (turn.raise fault).core.Tracks turn.memory final ((turn.raise fault).agenda []) later := by
  obtain ⟨policy, rfl⟩ := Reference.fault_eq_false stops
  refine .fault fault rfl policy ?_ rfl
  show (turn.cycle * turn.core.clock.period, _) ∈ _
  rw [show turn.cycle * turn.core.clock.period = turn.now from executes.onEdge]
  exact mem_agenda_raise fault

theorem load_of_outside {address : Nat} (outside : ¬ turn.memory.contains address) :
    turn.load address = turn.raise (.address turn.core.id address .load turn.memory.size) := by
  unfold load
  rw [request_of_outside ((Bool.not_eq_true _).mp outside)]
  rfl

theorem store_of_outside {address : Nat} (outside : ¬ turn.memory.contains address) :
    turn.store address = turn.raise (.address turn.core.id address .store turn.memory.size) := by
  unfold store
  rw [request_of_outside ((Bool.not_eq_true _).mp outside)]
  rfl

theorem offload_of_unaided (unaided : turn.Unaided) (work : Offload) :
    turn.offload work = turn.raise (.noCoprocessor turn.core.id work.instruction) := by
  unfold offload
  rw [unaided.coprocessor]

theorem Unaided.tracks_execute (unaided : turn.Unaided) (executes : turn.Executes [])
    (stepped : (turn.reference source).step turn.memory turn.core.faultPolicy operation = (final, false))
    (later : Option LatencySource) :
    (turn.execute turn.cycle operation).core.Tracks turn.memory final
      ((turn.execute turn.cycle operation).agenda []) later := by
  have logged := executes.note turn.core.logsOperations .trace "issue"
    [.ofNat "pc" turn.core.pc, ⟨"op", operation.text, false⟩]
  unfold execute
  generalize same : turn.note turn.core.logsOperations .trace "issue"
    [.ofNat "pc" turn.core.pc, ⟨"op", operation.text, false⟩] = noted at logged
  have lone : noted.Unaided := same ▸ ⟨unaided.coprocessor, unaided.idle⟩
  have stepped : (noted.reference source).step noted.memory noted.core.faultPolicy operation =
      (final, false) := same ▸ stepped
  have memory : turn.memory = noted.memory := same ▸ rfl
  rw [memory]
  cases operation with
  -- behind these the fold always goes on
  | compute | wait => cases stepped
  | load address =>
    unfold Reference.step at stepped
    simp only at stepped ⊢
    split at stepped
    · cases stepped
    · rename_i outside
      rw [load_of_outside outside]
      exact tracks_raise logged stepped _ later
  | store address =>
    unfold Reference.step at stepped
    simp only at stepped ⊢
    split at stepped
    · cases stepped
    · rename_i outside
      rw [store_of_outside outside]
      exact tracks_raise logged stepped _ later
  | offload work =>
    simp only
    rw [offload_of_unaided lone]
    exact tracks_raise logged stepped _ later
  | halt =>
    cases stepped
    have last := @core_drainThenHalt noted.retire lone.idle logged.awake
    simp only
    rw [last]
    refine .halted rfl (congrArg some ?_) rfl
    exact logged.onEdge.symm

variable {spec : Option CoprocessorSpec} {notes : Notes} {log : List Log.Line} {event : Event}
  {back : Nat} {operations : List Operation}

theorem Unaided.ledger_deliver (unaided : turn.Unaided) (event : Event) :
    (turn.deliver event).ledger = turn.ledger := by
  have lone : turn.ledger.coprocessor = none := unaided.coprocessor
  cases event with
  | coreEdge core =>
    show turn.coreEdge.ledger = turn.ledger
    have polled : turn.ledger.pollAll turn.now = turn.ledger := by
      unfold Ledger.pollAll
      rw [show turn.ledger.outstanding = [] from unaided.idle]
      rfl
    by_cases due : turn.core.nextEdge = some turn.now
    · cases awake : turn.core.isHalted with
      | true =>
        obtain ⟨edge, same⟩ := coreEdge_of_halted awake
        rw [same]
        rfl
      | false =>
        rcases turn.ledger_coreEdge due awake with same | ⟨work, -, same, -⟩
        · exact same.trans polled
        · rw [same, polled]
          unfold Ledger.submit
          rw [lone]
    · unfold coreEdge
      rw [if_pos due]
  | coprocessorEdge core =>
    show turn.coprocessorEdge.ledger = turn.ledger
    unfold coprocessorEdge
    rw [unaided.coprocessor]
  | response core address kind issuedAt => exact turn.ledger_response ..
  | fault core fault => exact turn.ledger_fault fault

theorem Unaided.deliver (unaided : turn.Unaided) (event : Event) : (turn.deliver event).Unaided where
  coprocessor := (congrArg Ledger.coprocessor (unaided.ledger_deliver event)).trans unaided.coprocessor
  idle := (congrArg Ledger.outstanding (unaided.ledger_deliver event)).trans unaided.idle

theorem Unaided.issuing_eq (unaided : turn.Unaided) : turn.issuing = turn.setCore { turn.core with
    phase := .running
    nextEdge := none
    counters := turn.core.upcoming } := by
  unfold issuing
  rw [turn.polled_of_idle unaided.idle]
  rfl

theorem Unaided.issuing (unaided : turn.Unaided) : turn.issuing.Unaided := by
  rw [unaided.issuing_eq]
  exact ⟨unaided.coprocessor, unaided.idle⟩

theorem AsksStream.coreEdge_of_end (asks : turn.AsksStream) (ended : turn.core.workload.next? = none) :
    turn.coreEdge = turn.issuing.drainThenHalt := by
  have keeps := turn.keeps_polled
  have refused : turn.issuing.core.refused = none := keeps.refused.trans asks.fresh
  have workload : turn.issuing.core.workload = turn.core.workload := keeps.workload
  rw [coreEdge_of_free asks.due asks.free]
  unfold issue
  rw [refused, workload, ended]

section asks

variable (asks : turn.AsksStream) (takes : turn.Takes spec notes rest log (.coreEdge turn.core.id))
  (unaided : turn.Unaided)

include asks unaided in
theorem tracks_of_end (ended : turn.core.workload.next? = none)
    (onEdge : turn.now = turn.cycle * turn.core.clock.period) (agenda : List (Nat × Event))
    (later : Option LatencySource) :
    turn.coreEdge.core.Tracks turn.memory ⟨turn.cycle, source, turn.core.upcoming⟩ agenda later := by
  rw [asks.coreEdge_of_end ended, core_drainThenHalt unaided.issuing.idle rfl]
  have now : turn.issuing.now = turn.now := turn.keeps_polled.now
  have clock : turn.issuing.core.clock = turn.core.clock := turn.keeps_polled.clock
  refine .halted rfl (congrArg some ?_) ?_
  · rw [now, onEdge]
    exact congrArg (turn.cycle * ·.period) clock.symm
  · rw [unaided.issuing_eq]
    rfl

include asks takes unaided in
theorem tracks_of_stop {workload : Workload} (taken : turn.core.workload.next? = some (operation, workload))
    (stepped : Reference.step turn.memory turn.core.faultPolicy ⟨turn.cycle, source, turn.core.upcoming⟩
      operation = (final, false)) (later : Option LatencySource) :
    turn.coreEdge.core.Tracks turn.memory final (turn.coreEdge.agenda rest) later := by
  obtain ⟨rfl, executes⟩ := executes_issuing takes asks.free
  obtain ⟨pc, same⟩ := (asks.performs taken).coreEdge_eq
  have performing : (turn.performing workload pc).Executes [] :=
    executes.setCore rfl executes.asleep rfl rfl
  have cycle : (turn.performing workload pc).cycle = turn.cycle := cycle_issuing
  have memory : (turn.performing workload pc).memory = turn.memory := turn.keeps_polled.memory
  have lone : (turn.performing workload pc).Unaided := ⟨unaided.issuing.coprocessor, unaided.issuing.idle⟩
  have tracks := @Unaided.tracks_execute _ source operation final lone performing ?_ later
  · rwa [cycle, memory, ← same] at tracks
  · unfold Turn.performing
    rw [unaided.issuing_eq]
    exact stepped

include asks takes unaided in
theorem tracks_of_next (taken : turn.core.workload.next? = some (operation, .listed operations))
    (draws : turn.latency.sources[turn.core.id]? = some source)
    (stepped : Reference.step turn.memory turn.core.faultPolicy ⟨turn.cycle, source, turn.core.upcoming⟩
      operation = (next, true)) (within : next.cycle ≤ turn.core.clock.lastCycle) :
    turn.coreEdge.core.Tracks turn.memory
      (Reference.run turn.memory turn.core.faultPolicy operations next) (turn.coreEdge.agenda rest)
      turn.coreEdge.latency.sources[turn.core.id]? := by
  obtain ⟨-, -, policy⟩ := takes.frame_deliver
  obtain ⟨model, found, drawn⟩ : ∃ model,
      turn.issuing.outcome? (fun _ => 0) operation = some ⟨next.cycle, next.counters, model⟩ ∧
        model.sources[turn.core.id]? = some next.source := by
    rw [unaided.issuing_eq]
    exact Unaided.outcome?_of_step ⟨unaided.coprocessor, unaided.idle⟩ draws stepped
  obtain ⟨rfl, begun⟩ := (asks.performs taken).begun takes found within
    (.inr ⟨unaided.issuing.coprocessor, unaided.issuing.idle⟩)
  refine .operation next.cycle operations next.source begun.pauses begun.workload ?_ ?_
  · rw [begun.latency]
    exact drawn
  · rw [begun.upcoming]
    exact congrArg (Reference.run turn.memory · operations next) policy

include asks takes unaided in
theorem AsksStream.tracks {agenda : List (Nat × Event)}
    (pauses : turn.core.Pauses (fun _ => 0) agenda back) (listed : turn.core.workload = .listed operations)
    (draws : turn.latency.sources[turn.core.id]? = some source)
    (ends : Reference.run turn.memory turn.core.faultPolicy operations
      ⟨back, source, turn.core.upcoming⟩ = final)
    (within : final.cycle ≤ turn.core.clock.lastCycle) :
    turn.coreEdge.core.Tracks turn.memory final (turn.coreEdge.agenda rest)
      turn.coreEdge.latency.sources[turn.core.id]? := by
  obtain ⟨since, due⟩ := takes.due pauses.returns.awake
  have now := asks.now_eq pauses due.onEdge (sees_of_idle unaided.idle _)
  -- the core asks in the cycle that the fold has reached
  obtain rfl : turn.cycle = back := by
    unfold cycle Clock.cycleAt
    rw [now, Nat.mul_div_cancel _ turn.core.clock.period_pos]
  have taken : turn.core.workload.next? = Workload.next? (.listed operations) := congrArg _ listed
  cases operations with
  | nil =>
    subst ends
    exact tracks_of_end asks unaided taken now _ _
  | cons operation operations =>
    unfold Reference.run at ends
    split at ends
    · rename_i next stepped
      subst ends
      have order := Reference.cycle_le_run turn.memory turn.core.faultPolicy operations next
      exact tracks_of_next asks takes unaided taken draws stepped (Nat.le_trans order within)
    · rename_i last stepped
      subst ends
      exact tracks_of_stop asks takes unaided taken stepped _

end asks

theorem core_fault_of_halt (policy : turn.core.faultPolicy = .halt) (awake : turn.core.isHalted = false)
    (fault : Fault) : (turn.fault fault).core = { turn.core with
      phase := .halted
      haltedAt := some turn.now
      refused := none
      counters := { turn.core.counters with faults := turn.core.counters.faults + 1 } } := by
  obtain ⟨line, same⟩ : ∃ line : Effects, turn.fault fault =
      ((turn.count fun counters => { counters with faults := counters.faults + 1 }).emit line).halt := by
    unfold Turn.fault
    simp only [policy]
    exact ⟨_, rfl⟩
  rw [same]
  refine (core_halt ?_).trans rfl
  exact awake

theorem Takes.core_of_halted (takes : turn.Takes spec notes rest log event)
    (stopped : turn.core.phase = .halted) : ∃ edge stores,
      (turn.deliver event).core = { turn.core with nextEdge := edge, storesInFlight := stores } := by
  have halted : turn.core.isHalted = true := by simp [Core.isHalted, stopped]
  cases takes.reaches with
  | quiet event same agenda latency stores core => exact ⟨turn.core.nextEdge, stores, core⟩
  | edge since same resumes =>
    obtain ⟨edge, same⟩ := coreEdge_of_halted halted
    refine ⟨edge, turn.core.storesInFlight, ?_⟩
    show turn.coreEdge.core = _
    rw [same]
    rfl
  | response address issuedAt since same resumes =>
    obtain ⟨line, -, same⟩ := @response_load_eq turn address issuedAt
    rw [if_neg (by simp [stopped])] at same
    refine ⟨turn.core.nextEdge, turn.core.storesInFlight, ?_⟩
    show (turn.response address .load issuedAt).core = _
    rw [same]
    rfl
  | fault fault since same resumes => cases stopped.symm.trans resumes.at_fault.2.1

theorem Takes.tracks_of_fault (takes : turn.Takes spec notes rest log event) {raised : Fault}
    (waits : turn.core.phase = .waitFault) (policy : turn.core.faultPolicy = .halt)
    (pending : (final.cycle * turn.core.clock.period, .fault turn.core.id raised) ∈ turn.awaited event rest)
    (counted : turn.core.upcoming = final.counters) {memory : MemoryMap} {later : Option LatencySource} :
    (turn.deliver event).core.Tracks memory final ((turn.deliver event).agenda rest) later := by
  have awake : turn.core.isHalted = false := by simp [Core.isHalted, waits]
  cases takes.reaches with
  | quiet event same agenda latency stores core =>
    rw [core, agenda]
    exact .fault raised waits policy (same ▸ pending) counted
  | edge since same resumes =>
    rcases (resumes.at_edge awake).kind with ⟨active, -⟩ | ⟨elsewhere, -⟩
    · unfold Core.Active at active
      rw [waits] at active
      cases active
    · cases waits.symm.trans elsewhere
  | response address issuedAt since same resumes => cases waits.symm.trans (resumes.at_response awake).1
  | fault fault since same resumes =>
    obtain ⟨-, -, -, rfl⟩ := resumes.at_fault
    rw [same] at pending
    obtain ⟨now, -⟩ := Prod.mk.inj (List.mem_singleton.mp pending)
    have core : (turn.deliver (.fault turn.core.id fault)).core = _ := core_fault_of_halt policy awake fault
    unfold Core.upcoming at counted
    rw [waits] at counted
    rw [core]
    exact .halted rfl (congrArg some now.symm) counted

/-- No event changes how the fold ends that a core without a coprocessor goes through. -/
theorem Takes.tracks_deliver (takes : turn.Takes spec notes rest log event) (unaided : turn.Unaided)
    (within : final.cycle ≤ turn.core.clock.lastCycle)
    (tracks : turn.core.Tracks turn.memory final (turn.awaited event rest)
      turn.latency.sources[turn.core.id]?) :
    (turn.deliver event).core.Tracks turn.memory final ((turn.deliver event).agenda rest)
      (turn.deliver event).latency.sources[turn.core.id]? := by
  cases tracks with
  | operation back operations next pauses listed draws ends =>
    -- all but one event of each operation leave the fold where it is
    by_cases asking : event = .coreEdge turn.core.id ∧ turn.AsksStream
    · obtain ⟨rfl, asks⟩ := asking
      exact asks.tracks takes unaided pauses listed draws ends within
    · obtain ⟨-, -, policy⟩ := takes.frame_deliver
      have busy : ∀ core, event = .coreEdge core → ¬ turn.AsksStream := by
        rintro core rfl asks
        exact asking ⟨congrArg Event.coreEdge takes.own, asks⟩
      obtain ⟨pauses, rests⟩ := takes.pauses_deliver pauses (sees_of_idle unaided.idle _) busy
      have upcoming : (turn.deliver event).core.upcoming = turn.core.upcoming := by
        rw [rests.upcoming, rests.idle unaided.idle, ← turn.core.upcoming_eq]
      refine .operation back operations next pauses (rests.workload.trans listed) ?_ ?_
      · rw [rests.latency]
        exact draws
      · rw [policy, upcoming]
        exact ends
  | fault fault waits policy pending counted => exact takes.tracks_of_fault waits policy pending counted
  | halted stopped time counted =>
    obtain ⟨edge, stores, core⟩ := takes.core_of_halted stopped
    rw [core]
    exact .halted stopped time counted

end Turn

end CoreTiming
