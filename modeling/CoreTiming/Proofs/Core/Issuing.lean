import CoreTiming.Proofs.Core.Pausing

namespace CoreTiming

structure Core.Retries (work : Offload) (again : Nat) (core : Core) : Prop where
  refused : core.refused = some work
  phase : core.phase = .running
  asked : core.nextEdge = some (again * core.clock.period)

theorem Core.Retries.awake {work : Offload} {again : Nat} {core : Core}
    (retries : core.Retries work again) : core.isHalted = false := by
  unfold isHalted
  rw [retries.phase]
  rfl

/-- What becomes of an operation: the cycle in which the core is done with it, and what the core has then
    counted and draws from. -/
structure Outcome where
  cycle : Nat
  counters : CoreCounters
  latency : LatencyModel

namespace Turn

def cycle (turn : Turn) : Nat :=
  turn.core.clock.cycleAt turn.now

/-- The core has begun with something that it is done with in cycle `back`. It will then have these
    counters, and what it draws and takes next is known. -/
structure Begun (finish : Nat → Nat) (back : Nat) (counters : CoreCounters) (latency : LatencyModel)
    (workload : Workload) (turn : Turn) : Prop where
  pauses : turn.core.Pauses finish (turn.agenda []) back
  upcoming : turn.core.upcoming = counters
  latency : turn.latency = latency
  workload : turn.core.workload = workload

def faulted? (turn : Turn) : Option Outcome :=
  match turn.core.faultPolicy with
  | .halt => none
  | .continue => some ⟨turn.cycle + 1,
      { turn.core.counters with faults := turn.core.counters.faults + 1 }, turn.latency⟩

/-- The outcome of an operation that a core has taken, if the core goes on after it and does not have to
    try it again. An offload with some handle is complete at the tick `finish` says. -/
def outcome? (finish : Nat → Nat) (turn : Turn) : Operation → Option Outcome
  | .compute cycles => some ⟨turn.cycle + max cycles 1, turn.core.retire.counters, turn.latency⟩
  | .load address =>
    if turn.memory.contains address then
      (turn.latency.draw? turn.core.id).map fun drawn => ⟨turn.cycle + drawn.1, { turn.core.counters with
        retired := turn.core.counters.retired + 1
        loads := turn.core.counters.loads + 1
        latency := turn.core.counters.latency + drawn.1 }, drawn.2⟩
    else turn.faulted?
  | .store address =>
    if turn.memory.contains address then
      (turn.latency.draw? turn.core.id).map fun drawn => ⟨turn.cycle + 1, { turn.core.counters with
        retired := turn.core.counters.retired + 1
        stores := turn.core.counters.stores + 1
        latency := turn.core.counters.latency + drawn.1 }, drawn.2⟩
    else turn.faulted?
  | .offload _ =>
    match turn.coprocessor with
    | none => turn.faulted?
    | some unit =>
      if unit.occupancy < unit.capacity then some ⟨turn.cycle + 1, { turn.core.counters with
        retired := turn.core.counters.retired + 1
        submitted := turn.core.counters.submitted + 1 }, turn.latency⟩
      else none
  | .wait =>
    ((turn.cycle + 1) :: turn.core.outstanding.map fun handle =>
      turn.core.clock.cycleAtOrAfter (finish handle)).max?.map fun back =>
        ⟨back, turn.core.retire.counters, turn.latency⟩
  | .halt => none

variable {turn : Turn} {finish : Nat → Nat} {back : Nat}

theorem AsksEdge.begun {edge : Option Nat} {after : Turn} (asks : turn.AsksEdge edge after)
    (fresh : turn.core.refused = none) (within : back ≤ turn.core.clock.lastCycle)
    (early : turn.core.outstanding ≠ [] → back < turn.core.clock.lastCycle)
    (returns : ({ turn.core with nextEdge := edge } : Core).Returns finish (after.agenda []) back) :
    after.Begun finish back turn.core.upcoming turn.latency turn.core.workload := by
  obtain ⟨core, latency⟩ := asks
  refine ⟨?_, ?_, latency, ?_⟩
  · rw [core]
    exact ⟨fresh, within, early, returns⟩
  · rw [core]
    rfl
  · rw [core]

theorem upcoming_of_running {core : Core} (running : core.phase = .running) :
    core.upcoming = core.counters := by
  unfold Core.upcoming
  rw [running]

theorem asksEdge_next (asleep : turn.core.nextEdge = none)
    (within : turn.cycle + 1 ≤ turn.core.clock.lastCycle) :
    turn.AsksEdge (some ((turn.cycle + 1) * turn.core.clock.period)) turn.requestNextEdge :=
  turn.asksEdge_requestNextEdge asleep (Clock.le_lastCycle_iff.mp within)

theorem begun_requestNextEdge {cycle : Nat} {counters : CoreCounters} {latency : LatencyModel}
    {workload : Workload} (running : turn.core.phase = .running) (asleep : turn.core.nextEdge = none)
    (fresh : turn.core.refused = none) (present : turn.cycle = cycle)
    (counted : turn.core.counters = counters) (drawn : turn.latency = latency)
    (taken : turn.core.workload = workload) (within : cycle + 1 ≤ turn.core.clock.lastCycle)
    (early : turn.core.outstanding ≠ [] → cycle + 1 < turn.core.clock.lastCycle) :
    turn.requestNextEdge.Begun finish (cycle + 1) counters latency workload := by
  subst present counted drawn taken
  rw [← upcoming_of_running running]
  exact (asksEdge_next asleep within).begun fresh within early (.running running rfl)

theorem request_of_inside {address latency : Nat} {model : LatencyModel}
    (inside : turn.memory.contains address = true)
    (drawn : turn.latency.draw? turn.core.id = some (latency, model)) (kind : AccessKind) :
    ∃ effects, effects.posts = [(turn.core.clock.ticksAfter turn.now latency,
        .response turn.core.id address kind turn.now)] ∧
      turn.request address kind =
        (({ turn with latency := model }.countAccess kind latency).emit effects, true) := by
  unfold request MemoryMap.check
  simp only [inside, if_true, drawn]
  exact ⟨_, rfl, rfl⟩

theorem request_of_outside {address : Nat} (outside : turn.memory.contains address = false)
    (kind : AccessKind) : turn.request address kind =
      (turn.raise (.address turn.core.id address kind turn.memory.size), false) := by
  unfold request MemoryMap.check
  simp only [outside, Bool.false_eq_true, if_false]

theorem mem_agenda_raise (fault : Fault) :
    (turn.now, .fault turn.core.id fault) ∈ (turn.raise fault).agenda [] := by
  unfold raise
  rw [agenda_emit_post (Effects.posts_post ..)]
  · exact Queue.mem_insertLate.mpr (.inl rfl)
  · simp [Event.resumes, setPhase, setCore]

theorem begun_raise {outcome : Outcome} (fresh : turn.core.refused = none)
    (found : turn.faulted? = some outcome) (within : outcome.cycle ≤ turn.core.clock.lastCycle)
    (early : turn.core.outstanding ≠ [] → outcome.cycle < turn.core.clock.lastCycle) (fault : Fault) :
    (turn.raise fault).Begun finish outcome.cycle outcome.counters outcome.latency turn.core.workload := by
  unfold faulted? at found
  cases policy : turn.core.faultPolicy with
  | halt =>
    rw [policy] at found
    cases found
  | «continue» =>
    rw [policy] at found
    obtain rfl := Option.some.inj found
    exact ⟨⟨fresh, within, early, .fault turn.now fault rfl policy (mem_agenda_raise fault) rfl⟩,
      rfl, rfl, rfl⟩

theorem ticksAfter_eq {clock : Clock} {now cycle cycles : Nat} (edge : cycle * clock.period = now)
    (within : cycle + cycles ≤ clock.lastCycle) :
    clock.ticksAfter now cycles = (cycle + cycles) * clock.period := by
  have bound := Clock.le_lastCycle_iff.mp within
  rw [Nat.add_mul, edge] at bound ⊢
  rw [Clock.ticksAfter_eq_min]
  exact Nat.min_eq_left bound

namespace Executes

variable {outcome : Outcome} (executes : turn.Executes []) (fresh : turn.core.refused = none)
  (within : outcome.cycle ≤ turn.core.clock.lastCycle)
  (early : turn.core.outstanding ≠ [] → outcome.cycle < turn.core.clock.lastCycle)

include executes fresh within early

theorem begun_compute {cycles : Nat} (found : turn.outcome? finish (.compute cycles) = some outcome) :
    (turn.compute turn.cycle cycles).Begun finish outcome.cycle outcome.counters outcome.latency
      turn.core.workload := by
  obtain rfl := Option.some.inj found
  have last : turn.core.clock.tickOfCycle (turn.cycle + max cycles 1) =
      (turn.cycle + max cycles 1) * turn.core.clock.period :=
    Clock.tickOfCycle_of_le (Clock.le_lastCycle_iff.mp within)
  unfold Turn.compute
  simp only [Nat.min_eq_left within, last]
  obtain ⟨edge, soon, asks⟩ := (turn.setPhase (.busy (turn.cycle + max cycles 1))).asksEdge_sleepUntil
    executes.asleep ((turn.cycle + max cycles 1) * turn.core.clock.period)
  exact asks.begun fresh within early (.busy edge rfl rfl soon)

theorem begun_load {address : Nat} (found : turn.outcome? finish (.load address) = some outcome) :
    (turn.load address).Begun finish outcome.cycle outcome.counters outcome.latency
      turn.core.workload := by
  simp only [outcome?] at found
  unfold Turn.load
  cases inside : turn.memory.contains address with
  | false =>
    rw [inside, if_neg Bool.false_ne_true] at found
    rw [request_of_outside inside]
    exact begun_raise fresh found within early _
  | true =>
    rw [inside, if_pos rfl] at found
    obtain ⟨⟨latency, model⟩, drawn, rfl⟩ := Option.map_eq_some_iff.mp found
    obtain ⟨effects, posts, same⟩ := request_of_inside inside drawn .load
    have large := ((LatencyModel.draw?_eq_some drawn).2.2 executes.positive).1
    have next : turn.core.clock.nextEdgeAfter turn.now ≤ horizon :=
      Clock.le_lastCycle_iff.mp (Nat.le_trans (Nat.add_le_add_left large _) within)
    have arrives : turn.core.clock.ticksAfter turn.now latency =
        (turn.cycle + latency) * turn.core.clock.period := ticksAfter_eq executes.onEdge within
    rw [same]
    simp only [if_true]
    obtain ⟨edge, asks⟩ := Turn.asksEdge_keepPolling
      ((({ turn with latency := model }.countAccess .load latency).emit effects).setPhase .waitMemory)
        executes.asleep next
    have posted : ((turn.cycle + latency) * turn.core.clock.period,
        .response turn.core.id address .load turn.now) ∈
          (({ turn with latency := model }.countAccess .load latency).emit effects).agenda [] := by
      rw [agenda_emit_post posts, ← arrives]
      · exact Queue.mem_insertLate.mpr (.inl rfl)
      · exact decide_eq_true rfl
    exact asks.begun fresh within early
      (.memory address turn.now rfl (Extends.mem_agenda (extends_keepPolling _) posted))

theorem begun_store {address : Nat} (found : turn.outcome? finish (.store address) = some outcome) :
    (turn.store address).Begun finish outcome.cycle outcome.counters outcome.latency
      turn.core.workload := by
  simp only [outcome?] at found
  unfold Turn.store
  cases inside : turn.memory.contains address with
  | false =>
    rw [inside, if_neg Bool.false_ne_true] at found
    rw [request_of_outside inside]
    exact begun_raise fresh found within early _
  | true =>
    rw [inside, if_pos rfl] at found
    obtain ⟨⟨latency, model⟩, drawn, rfl⟩ := Option.map_eq_some_iff.mp found
    obtain ⟨effects, -, same⟩ := request_of_inside inside drawn .store
    rw [same]
    simp only [if_true]
    exact begun_requestNextEdge executes.phase executes.asleep fresh rfl rfl rfl rfl within early

theorem begun_wait (found : turn.outcome? finish .wait = some outcome) :
    turn.wait.Begun finish outcome.cycle outcome.counters outcome.latency turn.core.workload := by
  simp only [outcome?] at found
  obtain ⟨back, latest, rfl⟩ := Option.map_eq_some_iff.mp found
  obtain ⟨member, bound⟩ := List.max?_eq_some_iff.mp latest
  have next : turn.cycle + 1 ≤ back := bound _ (List.mem_cons_self ..)
  unfold Turn.wait
  simp only
  split
  · rename_i idle
    have idle : turn.core.outstanding = [] := List.isEmpty_iff.mp idle
    rw [idle] at member
    obtain rfl := List.mem_singleton.mp member
    exact begun_requestNextEdge executes.phase executes.asleep fresh rfl rfl rfl rfl within early
  · have asks := @asksEdge_next (turn.retire.setPhase (.waitOffloads false)) executes.asleep
      (Nat.le_trans next within)
    refine asks.begun fresh within early (.offloads _ rfl rfl ?_ ?_ ?_)
    · exact Nat.mul_le_mul_right _ next
    · intro handle among
      exact bound _ (List.mem_cons_of_mem _ (List.mem_map_of_mem among))
    · rcases List.mem_cons.mp member with rfl | last
      · exact .inl rfl
      · exact .inr (List.mem_map.mp last)

omit early in
theorem begun_offload {work : Offload} (found : turn.outcome? finish (.offload work) = some outcome)
    (early : outcome.cycle < turn.core.clock.lastCycle ∨
      turn.coprocessor = none ∧ turn.core.outstanding = []) :
    (turn.offload work).Begun finish outcome.cycle outcome.counters outcome.latency
      turn.core.workload := by
  simp only [outcome?] at found
  unfold Turn.offload
  cases attached : turn.coprocessor with
  | none =>
    rw [attached] at found
    exact begun_raise fresh found within
      (fun outstanding => early.resolve_right fun alone => outstanding alone.2) _
  | some unit =>
    rw [attached] at found early
    simp only at found ⊢
    split at found
    · rename_i room
      obtain rfl := Option.some.inj found
      obtain ⟨outcome, -⟩ := Coprocessor.submit_of_room (Nat.not_le.mpr room) turn.now work
      rw [outcome]
      have before := early.resolve_right fun alone => by cases alone.1
      exact begun_requestNextEdge executes.phase executes.asleep fresh rfl rfl rfl rfl within
        fun _ => before
    · cases found

omit early in
theorem begun_execute {operation : Operation} (found : turn.outcome? finish operation = some outcome)
    (early : outcome.cycle < turn.core.clock.lastCycle ∨
      turn.coprocessor = none ∧ turn.core.outstanding = []) :
    (turn.execute turn.cycle operation).Begun finish outcome.cycle outcome.counters outcome.latency
      turn.core.workload := by
  have logged := executes.note turn.core.logsOperations .trace "issue"
    [.ofNat "pc" turn.core.pc, ⟨"op", operation.text, false⟩]
  have sooner : turn.core.outstanding ≠ [] → outcome.cycle < turn.core.clock.lastCycle :=
    fun outstanding => early.resolve_right fun alone => outstanding alone.2
  unfold Turn.execute
  cases operation with
  | compute cycles => exact logged.begun_compute fresh within sooner found
  | load address => exact logged.begun_load fresh within sooner found
  | store address => exact logged.begun_store fresh within sooner found
  | offload work => exact logged.begun_offload fresh within found early
  | wait => exact logged.begun_wait fresh within sooner found
  | halt => cases found

omit fresh within early in
theorem core_offload_of_full {unit : Coprocessor} (attached : turn.coprocessor = some unit)
    (full : unit.capacity ≤ unit.occupancy) (work : Offload)
    (within : turn.cycle + 1 ≤ turn.core.clock.lastCycle) :
    (turn.offload work).core = { turn.core.keep work with
      nextEdge := some ((turn.cycle + 1) * turn.core.clock.period) } := by
  have outcome : (unit.submit turn.now work).1 = .error ⟨unit.capacity⟩ :=
    congrArg Prod.fst (Coprocessor.submit_of_full full turn.now work)
  unfold Turn.offload
  simp only [attached, outcome]
  refine (AsksEdge.core (asksEdge_next ?_ ?_)).trans rfl
  · exact executes.asleep
  · exact within

end Executes

/-- The turn of a core once its polls are over and it has come to the end of what it was in. -/
def issuing (turn : Turn) : Turn :=
  turn.polled.setCore turn.polled.core.resumed

/-- At an edge the core performs an operation, the next one of its stream or one that was refused. -/
structure Performs (operation : Operation) (workload : Workload) (turn : Turn) : Prop where
  due : turn.core.nextEdge = some turn.now
  free : turn.polled.core.IsFree turn.now
  chosen : turn.core.refused = none ∧ turn.core.workload.next? = some (operation, workload) ∨
    ∃ work, turn.core.refused = some work ∧ operation = .offload work ∧ turn.core.workload = workload

theorem AsksStream.performs (asks : turn.AsksStream) {operation : Operation} {workload : Workload}
    (taken : turn.core.workload.next? = some (operation, workload)) :
    turn.Performs operation workload :=
  ⟨asks.due, asks.free, .inl ⟨asks.fresh, taken⟩⟩

def performing (workload : Workload) (pc : Nat) (turn : Turn) : Turn :=
  turn.issuing.setCore { turn.issuing.core with
    refused := none
    workload := workload
    pc := pc }

section edges

variable {spec : Option CoprocessorSpec} {notes : Notes} {rest : List (Nat × Event)} {log : List Log.Line}
  {operation : Operation} {work : Offload} {workload : Workload}

theorem awake_of_free (free : turn.polled.core.IsFree turn.now) : turn.core.isHalted = false := by
  unfold Core.IsFree at free
  rw [show turn.polled.core.phase = turn.core.phase from turn.keeps_polled.phase] at free
  unfold Core.isHalted
  cases phase : turn.core.phase <;> simp_all

theorem cycle_issuing : turn.issuing.cycle = turn.cycle := by
  have keeps := turn.keeps_polled
  show turn.polled.core.clock.cycleAt turn.polled.now = turn.core.clock.cycleAt turn.now
  rw [keeps.clock, keeps.now]
  rfl

theorem coreEdge_of_free (due : turn.core.nextEdge = some turn.now)
    (free : turn.polled.core.IsFree turn.now) : turn.coreEdge = turn.issuing.issue turn.issuing.cycle := by
  rw [coreEdge_of_eq turn due (awake_of_free free)]
  have now : turn.polled.now = turn.now := turn.keeps_polled.now
  exact turn.polled.proceed_of_free (now.symm ▸ free)

theorem executes_issuing (takes : turn.Takes spec notes rest log (.coreEdge turn.core.id))
    (free : turn.polled.core.IsFree turn.now) : rest = [] ∧ turn.issuing.Executes [] := by
  obtain ⟨since, due⟩ := takes.due (awake_of_free free)
  have fresh := takes.fresh
  have proper := takes.proper
  have keeps := turn.keeps_polled
  have quiet : rest = [] := by
    rcases due.kind with ⟨-, quiet⟩ | ⟨waits, -⟩
    · exact quiet
    · unfold Core.IsFree at free
      rw [show turn.polled.core.phase = turn.core.phase from keeps.phase, waits] at free
      cases free
  refine ⟨quiet, {
    phase := rfl
    asleep := keeps.nextEdge
    quiet := agenda_of_fresh (keeps.posts.trans fresh)
    onEdge := ?_
    within := Nat.le_trans (Nat.le_of_eq keeps.now) proper.within
    positive := keeps.latency.symm ▸ proper.positive
    known := ?_ }⟩
  · show turn.polled.core.clock.cycleAt turn.polled.now * turn.polled.core.clock.period = turn.polled.now
    rw [keeps.clock, keeps.now]
    exact Nat.div_mul_cancel due.onEdge
  · show turn.polled.core.id < turn.polled.latency.sources.length
    rw [keeps.id, keeps.latency]
    exact proper.known

theorem Performs.coreEdge_eq (performs : turn.Performs operation workload) : ∃ pc,
    turn.coreEdge = (turn.performing workload pc).execute turn.cycle operation := by
  obtain ⟨due, free, chosen⟩ := performs
  have keeps := turn.keeps_polled
  have refused : turn.issuing.core.refused = turn.core.refused := keeps.refused
  have workloads : turn.issuing.core.workload = turn.core.workload := keeps.workload
  rw [coreEdge_of_free due free, cycle_issuing]
  unfold issue
  rw [refused, workloads]
  rcases chosen with ⟨fresh, taken⟩ | ⟨work, again, rfl, rfl⟩
  · have advanced : turn.issuing.core.advance workload = { turn.issuing.core with
        refused := none
        workload := workload
        pc := (turn.issuing.core.advance workload).pc } := by
      rw [← fresh, ← refused]
      rfl
    rw [fresh, taken]
    exact ⟨_, congrArg (fun core => (turn.issuing.setCore core).execute turn.cycle operation) advanced⟩
  · rw [again]
    refine ⟨turn.issuing.core.pc, ?_⟩
    unfold performing
    rw [← workloads]

theorem Performs.begun (performs : turn.Performs operation workload)
    (takes : turn.Takes spec notes rest log (.coreEdge turn.core.id)) {outcome : Outcome}
    (found : turn.issuing.outcome? finish operation = some outcome)
    (within : outcome.cycle ≤ turn.core.clock.lastCycle)
    (early : outcome.cycle < turn.core.clock.lastCycle ∨
      turn.polled.coprocessor = none ∧ turn.polled.core.outstanding = []) :
    rest = [] ∧
      turn.coreEdge.Begun finish outcome.cycle outcome.counters outcome.latency workload := by
  obtain ⟨pc, same⟩ := performs.coreEdge_eq
  obtain ⟨quiet, executes⟩ := executes_issuing takes performs.free
  have performing : (turn.performing workload pc).Executes [] :=
    executes.setCore rfl executes.asleep rfl rfl
  have clock : (turn.performing workload pc).core.clock = turn.core.clock := turn.keeps_polled.clock
  rw [same, ← cycle_issuing]
  refine ⟨quiet, performing.begun_execute rfl ?_ found ?_⟩
  · rwa [clock]
  · rwa [clock]

theorem Performs.retries (performs : turn.Performs (.offload work) workload)
    (takes : turn.Takes spec notes rest log (.coreEdge turn.core.id)) {unit : Coprocessor}
    (attached : turn.polled.coprocessor = some unit) (full : unit.capacity ≤ unit.occupancy)
    (within : turn.cycle + 1 ≤ turn.core.clock.lastCycle) :
    rest = [] ∧ turn.coreEdge.core.Retries work (turn.cycle + 1) ∧
      turn.coreEdge.core.outstanding = turn.polled.core.outstanding ∧
      turn.coreEdge.core.counters = { turn.issuing.core.counters with
        stalls := turn.issuing.core.counters.stalls + 1 } := by
  obtain ⟨pc, same⟩ := performs.coreEdge_eq
  obtain ⟨quiet, executes⟩ := executes_issuing takes performs.free
  have performing : (turn.performing workload pc).Executes [] :=
    executes.setCore rfl executes.asleep rfl rfl
  have clock : turn.polled.core.clock = turn.core.clock := turn.keeps_polled.clock
  have logged := performing.note (turn.performing workload pc).core.logsOperations .trace "issue"
    [.ofNat "pc" (turn.performing workload pc).core.pc, ⟨"op", (Operation.offload work).text, false⟩]
  have core := logged.core_offload_of_full attached full work ?_
  · rw [← cycle_issuing] at same ⊢
    have core := (congrArg Turn.core same).trans core
    rw [core]
    exact ⟨quiet, ⟨rfl, rfl, rfl⟩, rfl, rfl⟩
  · show turn.issuing.cycle + 1 ≤ turn.polled.core.clock.lastCycle
    rwa [cycle_issuing, clock]

end edges

end Turn

end CoreTiming
