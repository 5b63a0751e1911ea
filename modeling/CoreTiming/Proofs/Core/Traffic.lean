import CoreTiming.Proofs.Core.Isolation
import CoreTiming.Proofs.Core.Issuing

namespace CoreTiming

def Event.answers (core : Nat) : Event → Bool
  | .response own _ _ _ => own = core
  | _ => false

theorem Event.core_of_answers {core : Nat} {event : Event} (answers : event.answers core = true) :
    event.core = core := by
  cases event <;> simp_all [Event.answers, Event.core]

theorem Event.edge_ne_of_answers {core : Nat} {event : Event} (answers : event.answers core = true)
    (other : Nat) : event ≠ .coreEdge other := by
  rintro rfl
  cases answers

def Event.answersStore : Event → Bool
  | .response _ _ .store _ => true
  | _ => false

theorem Event.answers_of_answersStore {event : Event} (answers : event.answersStore = true) :
    event.answers event.core = true := by
  cases event <;> simp_all [Event.answersStore, Event.answers, Event.core]

def Record.samples (component : String) (records : List Record) : List Nat :=
  (records.filter fun record =>
    record.component = component && record.statistic = .memoryLatency).map Record.value

@[simp] theorem Record.samples_append (component : String) (first second : List Record) :
    samples component (first ++ second) = samples component first ++ samples component second := by
  simp [samples]

theorem Record.samples_of_other {component : String} {records : List Record}
    (other : ∀ record ∈ records, record.component ≠ component ∨ record.statistic ≠ .memoryLatency) :
    samples component records = [] := by
  unfold samples
  rw [List.filter_eq_nil_iff.mpr, List.map_nil]
  intro record member
  have different := other record member
  rw [Bool.and_eq_true, decide_eq_true_eq, decide_eq_true_eq]
  rintro ⟨component, statistic⟩
  exact different.elim (· component) (· statistic)

@[ext]
structure Traffic where
  source : Option LatencySource
  loads : Nat
  stores : Nat
  latency : Nat
  storesInFlight : Nat
  samples : List Nat
  responses : List (Nat × Event)
  deriving DecidableEq, Repr

namespace Traffic

def accesses (traffic : Traffic) : Nat :=
  traffic.loads + traffic.stores

def access (kind : AccessKind) (source : LatencySource) (response : Nat × Event)
    (traffic : Traffic) : Traffic where
  source := some source.draw.2
  loads := traffic.loads + if kind = .load then 1 else 0
  stores := traffic.stores + if kind = .store then 1 else 0
  latency := traffic.latency + source.draw.1
  storesInFlight := traffic.storesInFlight + if kind = .store then 1 else 0
  samples := traffic.samples ++ [source.draw.1]
  responses := traffic.responses ++ [response]

end Traffic

def AccessKind.operation : AccessKind → Nat → Operation
  | .load, address => .load address
  | .store, address => .store address

theorem AccessKind.operation_ne_offload (kind : AccessKind) (address : Nat) (work : Offload) :
    .offload work ≠ kind.operation address := by
  cases kind <;> simp [operation]

theorem AccessKind.address_of_operation {kind other : AccessKind} {address place : Nat}
    (same : kind.operation address = other.operation place) : address = place := by
  cases kind <;> cases other <;> simp_all [operation]

def Core.traffic (core : Core) (source : Option LatencySource) (samples : List Nat)
    (responses : List (Nat × Event)) : Traffic where
  source := source
  loads := core.counters.loads
  stores := core.counters.stores
  latency := core.counters.latency
  storesInFlight := core.storesInFlight
  samples := samples
  responses := responses

namespace Turn

/-- The traffic of the core, with the samples and the responses of this turn. -/
def traffic (turn : Turn) : Traffic :=
  turn.core.traffic turn.latency.sources[turn.core.id]?
    (Record.samples turn.core.name turn.effects.records)
    (turn.effects.posts.filter (·.2.answers turn.core.id))

def reply (turn : Turn) (address : Nat) (kind : AccessKind) (latency : Nat) : Nat × Event :=
  (turn.core.clock.ticksAfter turn.now latency, .response turn.core.id address kind turn.now)

variable (turn : Turn)

theorem traffic_emit_of_silent {effects : Effects}
    (samples : Record.samples turn.core.name effects.records = [])
    (responses : effects.posts.filter (·.2.answers turn.core.id) = []) :
    (turn.emit effects).traffic = turn.traffic := by
  have recorded : Record.samples turn.core.name (turn.effects ++ effects).records =
      Record.samples turn.core.name turn.effects.records := by simp [samples]
  have posted : (turn.effects ++ effects).posts.filter (·.2.answers turn.core.id) =
      turn.effects.posts.filter (·.2.answers turn.core.id) := by simp [responses]
  unfold traffic emit
  rw [recorded, posted]

@[simp] theorem traffic_note (condition : Bool) (severity : Log.Severity) (message : String)
    (fields : List Log.Field) : (turn.note condition severity message fields).traffic = turn.traffic :=
  turn.traffic_emit_of_silent (by simp [Record.samples]) (by simp)

@[simp] theorem traffic_setPhase (phase : Phase) : (turn.setPhase phase).traffic = turn.traffic := rfl

@[simp] theorem traffic_retire : turn.retire.traffic = turn.traffic := rfl

@[simp] theorem traffic_halt : turn.halt.traffic = turn.traffic := by
  unfold halt
  split
  · rfl
  · exact traffic_note ..

@[simp] theorem traffic_haltAtHorizon : turn.haltAtHorizon.traffic = turn.traffic :=
  (traffic_halt _).trans (traffic_note ..)

@[simp] theorem traffic_requestEdge (tick : Nat) : (turn.requestEdge tick).traffic = turn.traffic := by
  unfold requestEdge
  split
  · rfl
  · exact traffic_emit_of_silent _ rfl rfl

@[simp] theorem traffic_requestEdgeOrHalt (tick : Option Nat) :
    (turn.requestEdgeOrHalt tick).traffic = turn.traffic := by
  cases tick with
  | none => exact turn.traffic_haltAtHorizon
  | some tick => exact turn.traffic_requestEdge tick

@[simp] theorem traffic_requestNextEdge : turn.requestNextEdge.traffic = turn.traffic :=
  traffic_requestEdgeOrHalt ..

@[simp] theorem traffic_requestFirstEdge : turn.requestFirstEdge.traffic = turn.traffic :=
  traffic_requestEdgeOrHalt ..

@[simp] theorem traffic_keepPolling : turn.keepPolling.traffic = turn.traffic := by
  unfold keepPolling
  split <;> simp

@[simp] theorem traffic_sleepUntil (resume : Nat) : (turn.sleepUntil resume).traffic = turn.traffic := by
  unfold sleepUntil
  split <;> exact traffic_requestEdge ..

@[simp] theorem traffic_drainThenHalt : turn.drainThenHalt.traffic = turn.traffic := by
  unfold drainThenHalt
  split <;> simp

@[simp] theorem traffic_raise (fault : Fault) : (turn.raise fault).traffic = turn.traffic :=
  traffic_emit_of_silent _ rfl rfl

@[simp] theorem traffic_compute (cycle cycles : Nat) : (turn.compute cycle cycles).traffic = turn.traffic :=
  traffic_sleepUntil ..

@[simp] theorem traffic_wait : turn.wait.traffic = turn.traffic := by
  unfold wait
  simp only [traffic_requestNextEdge]
  split <;> rfl

theorem traffic_lend {unit : Coprocessor} {effects : Effects}
    (samples : Record.samples turn.core.name effects.records = [])
    (edges : ∀ post ∈ effects.posts, ∃ owner, post.2 = .coprocessorEdge owner) :
    ({ turn with coprocessor := some unit }.emit effects).traffic = turn.traffic := by
  refine traffic_emit_of_silent { turn with coprocessor := some unit } samples ?_
  rw [List.filter_eq_nil_iff]
  intro post member
  obtain ⟨owner, same⟩ := edges post member
  simp [same, Event.answers]

@[simp] theorem traffic_offload (work : Offload) : (turn.offload work).traffic = turn.traffic := by
  unfold offload
  cases attached : turn.coprocessor with
  | none => exact turn.traffic_raise _
  | some unit =>
    have lent : ({ turn with coprocessor := some (unit.submit turn.now work).2.1 }.emit
        (unit.submit turn.now work).2.2).traffic = turn.traffic := by
      apply turn.traffic_lend
      · rw [unit.records_submit]
        rfl
      · exact fun post member => ⟨_, ((unit.asks_submit turn.now work).2 post member).2.2⟩
    simp only
    cases (unit.submit turn.now work).1 with
    | ok handle => exact (traffic_requestNextEdge _).trans lent
    | error refusal => exact (traffic_requestNextEdge _).trans ((traffic_note ..).trans lent)

section access

variable {address : Nat}

theorem traffic_request_of_outside (outside : turn.memory.contains address = false) (kind : AccessKind) :
    (turn.request address kind).2 = false ∧ (turn.request address kind).1.traffic = turn.traffic := by
  have refused : turn.memory.check turn.core.id address kind =
      .error (.address turn.core.id address kind turn.memory.size) := by
    simp [MemoryMap.check, outside]
  unfold request
  simp only [refused]
  exact ⟨trivial, turn.traffic_raise _⟩

variable {source : LatencySource}

theorem traffic_request_of_inside (inside : turn.memory.contains address = true)
    (found : turn.traffic.source = some source) (kind : AccessKind) :
    (turn.request address kind).2 = true ∧
      (turn.request address kind).1.core.storesInFlight = turn.core.storesInFlight ∧
      (turn.request address kind).1.traffic = { turn.traffic.access kind source
        (turn.reply address kind source.draw.1) with storesInFlight := turn.core.storesInFlight } := by
  have granted : turn.memory.check turn.core.id address kind = .ok () := by
    simp [MemoryMap.check, inside]
  have found : turn.latency.sources[turn.core.id]? = some source := found
  obtain ⟨known, -⟩ := List.getElem?_eq_some_iff.mp found
  have drawn : turn.latency.draw? turn.core.id =
      some (source.draw.1, ⟨turn.latency.sources.set turn.core.id source.draw.2⟩) := by
    simp [LatencyModel.draw?, found]
  have sample : Record.samples turn.core.name [⟨turn.core.name, .memoryLatency, source.draw.1⟩] =
      [source.draw.1] := by simp [Record.samples]
  have posted : [turn.reply address kind source.draw.1].filter (·.2.answers turn.core.id) =
      [turn.reply address kind source.draw.1] := by simp [reply, Event.answers]
  unfold request
  simp only [granted, drawn]
  refine ⟨trivial, ?_, ?_⟩
  · cases kind <;> rfl
  · apply Traffic.ext
    · exact List.getElem?_set_self known
    · cases kind <;> rfl
    · cases kind <;> rfl
    · cases kind <;> rfl
    · cases kind <;> rfl
    · exact (Record.samples_append ..).trans (congrArg _ sample)
    · exact (List.filter_append ..).trans (congrArg _ posted)

theorem traffic_load (address : Nat) :
    (turn.load address).traffic = (turn.request address .load).1.traffic := by
  unfold load
  simp only
  split <;> simp

theorem traffic_store_of_inside (inside : turn.memory.contains address = true)
    (found : turn.traffic.source = some source) :
    (turn.store address).traffic =
      turn.traffic.access .store source (turn.reply address .store source.draw.1) := by
  obtain ⟨granted, inFlight, requested⟩ := turn.traffic_request_of_inside inside found .store
  have counted : ((turn.request address .store).1.setCore
      { (turn.request address .store).1.core.retire with
        storesInFlight := (turn.request address .store).1.core.retire.storesInFlight + 1 }).traffic =
      { (turn.request address .store).1.traffic with
        storesInFlight := (turn.request address .store).1.core.storesInFlight + 1 } := rfl
  unfold store
  simp only [granted, if_true, traffic_requestNextEdge]
  rw [counted, requested, inFlight]
  rfl

theorem traffic_store_of_outside (outside : turn.memory.contains address = false) :
    (turn.store address).traffic = turn.traffic := by
  obtain ⟨refused, same⟩ := turn.traffic_request_of_outside outside .store
  unfold store
  simp [refused, same]

def issued (operation : Operation) : Turn :=
  turn.note turn.core.logsOperations .trace "issue"
    [.ofNat "pc" turn.core.pc, ⟨"op", operation.text, false⟩]

theorem traffic_issued (operation : Operation) : (turn.issued operation).traffic = turn.traffic :=
  traffic_note ..

theorem traffic_execute_of_inside (inside : turn.memory.contains address = true)
    (found : turn.traffic.source = some source) (cycle : Nat) (kind : AccessKind) :
    (turn.execute cycle (kind.operation address)).traffic =
      turn.traffic.access kind source (turn.reply address kind source.draw.1) := by
  have still := (congrArg Traffic.source (turn.traffic_issued (kind.operation address))).trans found
  rw [← turn.traffic_issued (kind.operation address)]
  cases kind with
  | load =>
    refine (traffic_load _ address).trans ?_
    exact (traffic_request_of_inside (turn.issued _) inside still .load).2.2
  | store => exact traffic_store_of_inside (turn.issued _) inside still

theorem traffic_execute_of_outside (outside : turn.memory.contains address = false) (cycle : Nat)
    (kind : AccessKind) : (turn.execute cycle (kind.operation address)).traffic = turn.traffic := by
  rw [← turn.traffic_issued (kind.operation address)]
  cases kind with
  | load =>
    refine (traffic_load _ address).trans ?_
    exact (traffic_request_of_outside (turn.issued _) outside .load).2
  | store => exact traffic_store_of_outside (turn.issued _) outside

end access

theorem traffic_execute_of_other (cycle : Nat) {operation : Operation}
    (other : ∀ kind address, operation ≠ AccessKind.operation kind address) :
    (turn.execute cycle operation).traffic = turn.traffic := by
  rw [← turn.traffic_issued operation]
  cases operation with
  | load address => exact absurd rfl (other .load address)
  | store address => exact absurd rfl (other .store address)
  | compute cycles => exact traffic_compute ..
  | offload work => exact traffic_offload ..
  | wait => exact traffic_wait _
  | halt => exact traffic_drainThenHalt _

theorem traffic_poll (handle : Nat) : (turn.poll handle).traffic = turn.traffic := by
  unfold poll
  cases found : turn.coprocessor.bind (·.poll? handle turn.now) with
  | none => rfl
  | some outcome =>
    obtain ⟨result, unit, effects⟩ := outcome
    obtain ⟨former, -, polled⟩ := Option.bind_eq_some_iff.mp found
    have lent : ({ turn with coprocessor := some unit }.emit effects).traffic = turn.traffic := by
      apply turn.traffic_lend
      · rw [Coprocessor.records_poll? polled]
        rfl
      · rw [(Coprocessor.asks_poll? polled).2.2]
        simp
    refine (traffic_note ..).trans ((traffic_emit_of_silent _ ?_ rfl).trans lent)
    apply Record.samples_of_other
    simp [Effects.record, Statistic.offloadLatency, Statistic.memoryLatency]

theorem traffic_polled : turn.polled.traffic = turn.traffic := by
  refine @pollAll_induction _ (fun before after => after.traffic = before.traffic) ?_ ?_ traffic_poll
  · exact fun _ => rfl
  · exact fun one other => other.trans one

theorem traffic_proceed_of_busy (busy : ¬ turn.core.IsFree turn.now) :
    turn.proceed.traffic = turn.traffic := by
  unfold Core.IsFree at busy
  unfold proceed
  cases phase : turn.core.phase with
  | halted | waitFault => rfl
  | waitMemory => exact turn.traffic_keepPolling
  | running => simp [phase] at busy
  | busy last =>
    simp only [phase, Nat.not_le] at busy
    simp [busy]
  | waitOffloads thenHalt =>
    simp only [phase] at busy
    simp only
    split
    · exact turn.traffic_keepPolling
    · rename_i idle
      split
      · exact turn.traffic_halt
      · rename_i stays
        exact absurd ⟨by simpa using stays, by simpa using idle⟩ busy

theorem traffic_issuing : turn.issuing.traffic = turn.traffic := by
  refine .trans ?_ turn.traffic_polled
  unfold issuing Core.resumed Core.upcoming
  cases turn.polled.core.phase <;> rfl

theorem traffic_coreEdge : turn.coreEdge.traffic = turn.traffic ∨
    ∃ kind address workload, turn.Performs (AccessKind.operation kind address) workload := by
  by_cases due : turn.core.nextEdge = some turn.now
  · by_cases free : turn.polled.core.IsFree turn.now
    · have keeps := turn.keeps_polled
      have refused : turn.issuing.core.refused = turn.core.refused := keeps.refused
      have workload : turn.issuing.core.workload = turn.core.workload := keeps.workload
      rw [coreEdge_of_free due free, ← turn.traffic_issuing]
      unfold issue
      rw [refused, workload]
      cases again : turn.core.refused with
      | some work =>
        refine .inl (traffic_execute_of_other _ _ ?_)
        exact fun kind address => kind.operation_ne_offload address work
      | none =>
        cases taken : turn.core.workload.next? with
        | none => exact .inl (traffic_drainThenHalt _)
        | some next =>
          obtain ⟨operation, rest⟩ := next
          -- only a load or a store asks the memory
          by_cases access : ∃ kind address, operation = AccessKind.operation kind address
          · obtain ⟨kind, address, rfl⟩ := access
            exact .inr ⟨kind, address, rest, due, free, .inl ⟨again, taken⟩⟩
          · refine .inl (traffic_execute_of_other _ _ ?_)
            exact fun kind address same => access ⟨kind, address, same⟩
    · left
      unfold coreEdge
      simp only [due, ne_eq, not_true_eq_false, if_false]
      split
      · rfl
      · have now : turn.polled.now = turn.now := turn.keeps_polled.now
        exact (traffic_proceed_of_busy _ (now.symm ▸ free)).trans turn.traffic_polled
  · left
    unfold coreEdge
    rw [if_pos due]

section performs

variable {turn} {kind : AccessKind} {address : Nat} {workload : Workload}

theorem traffic_performing (workload : Workload) (pc : Nat) :
    (turn.performing workload pc).traffic = turn.traffic :=
  turn.traffic_issuing

theorem Performs.traffic_of_inside (performs : turn.Performs (kind.operation address) workload)
    (inside : turn.memory.contains address = true) {source : LatencySource}
    (found : turn.traffic.source = some source) :
    turn.coreEdge.traffic = turn.traffic.access kind source (turn.reply address kind source.draw.1) := by
  obtain ⟨pc, same⟩ := performs.coreEdge_eq
  have keeps := turn.keeps_polled
  have memory : (turn.performing workload pc).memory = turn.memory := keeps.memory
  have reply : (turn.performing workload pc).reply address kind source.draw.1 =
      turn.reply address kind source.draw.1 := by
    have clock : (turn.performing workload pc).core.clock = turn.core.clock := keeps.clock
    have now : (turn.performing workload pc).now = turn.now := keeps.now
    have id : (turn.performing workload pc).core.id = turn.core.id := keeps.id
    unfold reply
    rw [clock, now, id]
  rw [same, traffic_execute_of_inside _ (memory ▸ inside) _ _ kind, traffic_performing, reply]
  exact (congrArg Traffic.source (traffic_performing workload pc)).trans found

theorem Performs.traffic_of_outside (performs : turn.Performs (kind.operation address) workload)
    (outside : turn.memory.contains address = false) : turn.coreEdge.traffic = turn.traffic := by
  obtain ⟨pc, same⟩ := performs.coreEdge_eq
  have memory : (turn.performing workload pc).memory = turn.memory := turn.keeps_polled.memory
  rw [same, traffic_execute_of_outside _ (memory ▸ outside), traffic_performing]

end performs

theorem traffic_coprocessorEdge : turn.coprocessorEdge.traffic = turn.traffic := by
  unfold coprocessorEdge
  cases turn.coprocessor with
  | none => rfl
  | some unit =>
    apply turn.traffic_lend
    · apply Record.samples_of_other
      intro record member
      obtain ⟨duration, rfl⟩ := Coprocessor.of_mem_records_edge member
      exact .inr (by simp [Statistic.executionCycles, Statistic.memoryLatency])
    · exact fun post member => ⟨_, ((unit.asks_edge turn.now).2 post member).2.2⟩

theorem traffic_fault (fault : Fault) : (turn.fault fault).traffic = turn.traffic := by
  unfold Turn.fault
  simp only
  split <;> simp only [traffic_halt, traffic_requestNextEdge, traffic_setPhase, traffic_note] <;> rfl

theorem traffic_response_load (address issuedAt : Nat) :
    (turn.response address .load issuedAt).traffic = turn.traffic := by
  unfold response
  simp only
  split <;> simp

theorem traffic_response_store (address issuedAt : Nat) :
    (turn.response address .store issuedAt).traffic =
      { turn.traffic with storesInFlight := turn.traffic.storesInFlight - 1 } := by
  have noted := turn.traffic_note turn.core.logsOperations .trace "memory response" [
    .ofNat "address" address, ⟨"kind", AccessKind.store.name, false⟩,
    .ofNat "latency_ticks" (turn.now - issuedAt)]
  rw [← noted]
  rfl

/-- What an event does to the traffic of its core. -/
inductive Serves (turn : Turn) (event : Event) : Prop
  | nothing (silent : event.answersStore = false) (same : (turn.deliver event).traffic = turn.traffic)
  | store (answered : event.answersStore = true) (same : (turn.deliver event).traffic =
      { turn.traffic with storesInFlight := turn.traffic.storesInFlight - 1 })
  | access (core : Nat) (edge : event = .coreEdge core) (kind : AccessKind) (address : Nat)
      (workload : Workload) (performs : turn.Performs (kind.operation address) workload)
      (inside : turn.memory.contains address = true) (source : LatencySource)
      (found : turn.traffic.source = some source)
      (same : (turn.deliver event).traffic =
        turn.traffic.access kind source (turn.reply address kind source.draw.1))

theorem serves_deliver (known : turn.core.id < turn.latency.sources.length) (event : Event) :
    turn.Serves event := by
  cases event with
  | coreEdge core =>
    rcases turn.traffic_coreEdge with same | ⟨kind, address, workload, performs⟩
    · exact .nothing rfl same
    · cases inside : turn.memory.contains address with
      | false => exact .nothing rfl (performs.traffic_of_outside inside)
      | true =>
        have found : turn.traffic.source = some turn.latency.sources[turn.core.id] :=
          List.getElem?_eq_getElem known
        exact .access core rfl kind address workload performs inside _ found
          (performs.traffic_of_inside inside found)
  | coprocessorEdge core => exact .nothing rfl turn.traffic_coprocessorEdge
  | fault core fault => exact .nothing rfl (turn.traffic_fault fault)
  | response core address kind issuedAt =>
    cases kind with
    | load => exact .nothing rfl (turn.traffic_response_load address issuedAt)
    | store => exact .store rfl (turn.traffic_response_store address issuedAt)

theorem Performs.eq {turn : Turn} {one other : Operation} {workload rest : Workload}
    (performs : turn.Performs one workload) (also : turn.Performs other rest) : one = other := by
  rcases performs.chosen with ⟨fresh, taken⟩ | ⟨work, again, rfl, -⟩
  · rcases also.chosen with ⟨-, same⟩ | ⟨work, again, -, -⟩
    · simp_all
    · simp_all
  · rcases also.chosen with ⟨fresh, -⟩ | ⟨second, same, rfl, -⟩
    · simp_all
    · simp_all

end Turn

end CoreTiming
