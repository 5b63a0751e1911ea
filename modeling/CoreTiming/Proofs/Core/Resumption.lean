import CoreTiming.Proofs.Core.Extension

namespace CoreTiming

def Event.resumes (core : Nat) : Event → Bool
  | .coreEdge other => other = core
  | .response other _ .load _ => other = core
  | .fault other _ => other = core
  | _ => false

namespace Core

/-- The core goes on at an edge. A burst ends within the horizon. -/
def Active (core : Core) : Prop :=
  match core.phase with
  | .running | .waitOffloads _ => True
  | .busy last => last ≤ core.clock.lastCycle
  | _ => False

def LastEdge (core : Core) (log : List Log.Line) : Prop :=
  ∃ line ∈ log, line.message = "no clock edge left before the tick horizon" ∧
    line.fields.head? = some ⟨"core", core.name, false⟩

/-- Only a fault, or the horizon, makes a core halt while offloads are outstanding. -/
def Excused (core : Core) (log : List Log.Line) : Prop :=
  core.outstanding = [] ∨ core.faultPolicy = .halt ∧ 0 < core.counters.faults ∨ core.LastEdge log

/-- The core waits for what is on its agenda, since the tick of its last edge or fault. -/
inductive Resumes (since : Nat) (core : Core) (agenda : List (Nat × Event)) (log : List Log.Line) : Prop
  | halted (stopped : core.phase = .halted) (ended : core.haltedAt = some since)
      (calm : ∀ item ∈ agenda, ∀ fault, item.2 ≠ .fault core.id fault) (excused : core.Excused log)
  | edge (tick : Nat) (active : core.Active) (asked : core.nextEdge = some tick)
      (pending : agenda = [(tick, .coreEdge core.id)]) (future : since ≤ tick) (within : tick ≤ horizon)
      (onEdge : core.clock.period ∣ tick)
      (prompt : core.outstanding ≠ [] → tick ≤ core.clock.nextEdgeAfter since)
  | memory (tick address issuedAt : Nat) (waits : core.phase = .waitMemory) (asleep : core.nextEdge = none)
      (idle : core.outstanding = [])
      (pending : agenda = [(tick, .response core.id address .load issuedAt)])
  | polling (tick address issuedAt : Nat) (waits : core.phase = .waitMemory)
      (asked : core.nextEdge = some (core.clock.nextEdgeAfter since))
      (pending : agenda = Queue.insertLate (core.clock.nextEdgeAfter since, .coreEdge core.id)
        [(tick, .response core.id address .load issuedAt)])
      (within : core.clock.nextEdgeAfter since ≤ horizon)
      (near : core.clock.nextEdgeAfter since ≤ core.clock.firstEdge tick)
  | fault (fault : Fault) (waits : core.phase = .waitFault) (asleep : core.nextEdge = none)
      (pending : agenda = [(since, .fault core.id fault)])

end Core

namespace Turn

/-- What the core waits for once the posts of the turn have joined what it waited for before. -/
def agenda (rest : List (Nat × Event)) (turn : Turn) : List (Nat × Event) :=
  (turn.effects.posts.filter (·.2.resumes turn.core.id)).foldl
    (fun list item => Queue.insertLate item list) rest

def Resumes (rest : List (Nat × Event)) (turn : Turn) : Prop :=
  turn.core.Resumes turn.now (turn.agenda rest) turn.effects.log

variable {turn : Turn} {rest : List (Nat × Event)}

theorem agenda_setCore {core : Core} (same : core.id = turn.core.id) :
    (turn.setCore core).agenda rest = turn.agenda rest := by
  unfold agenda setCore
  rw [same]

theorem agenda_emit (effects : Effects) :
    (turn.emit effects).agenda rest = (effects.posts.filter (·.2.resumes turn.core.id)).foldl
      (fun list item => Queue.insertLate item list) (turn.agenda rest) := by
  show ((turn.effects ++ effects).posts.filter _).foldl _ _ = _
  rw [Effects.posts_append, List.filter_append, List.foldl_append]
  rfl

theorem agenda_emit_of_silent {effects : Effects}
    (silent : ∀ post ∈ effects.posts, post.2.resumes turn.core.id = false) :
    (turn.emit effects).agenda rest = turn.agenda rest := by
  rw [agenda_emit, List.filter_eq_nil_iff.mpr, List.foldl_nil]
  intro post member
  rw [silent post member]
  exact Bool.false_ne_true

theorem agenda_emit_post {effects : Effects} {tick : Nat} {event : Event}
    (posts : effects.posts = [(tick, event)]) (resumes : event.resumes turn.core.id = true) :
    (turn.emit effects).agenda rest = Queue.insertLate (tick, event) (turn.agenda rest) := by
  rw [agenda_emit, posts, List.filter_cons_of_pos (by simpa using resumes)]
  rfl

theorem agenda_note (condition : Bool) (severity : Log.Severity) (message : String)
    (fields : List Log.Field) :
    (turn.note condition severity message fields).agenda rest = turn.agenda rest := by
  refine agenda_emit_of_silent ?_
  intro post member
  rw [Effects.posts_lineIf] at member
  cases member

theorem resumes_halt (awake : turn.core.isHalted = false)
    (calm : ∀ item ∈ turn.agenda rest, ∀ fault, item.2 ≠ .fault turn.core.id fault)
    (excused : turn.core.Excused turn.effects.log) : turn.halt.Resumes rest := by
  unfold halt
  rw [if_neg (by simpa using awake)]
  have log := Effects.log_prefix turn.effects (.lineIf (0 < turn.core.verbose) {
    severity := .info
    message := "core halted"
    fields := turn.field [.ofNat "retired" turn.core.counters.retired,
      .ofNat "abandoned_offloads" turn.core.outstanding.length] })
  refine .halted rfl rfl ?_ ?_
  · rw [agenda_note, agenda_setCore]
    · exact calm
    · rfl
  · rcases excused with idle | faulted | ⟨line, member, same⟩
    · exact .inl idle
    · exact .inr (.inl faulted)
    · exact .inr (.inr ⟨line, log.subset member, same⟩)

theorem resumes_haltAtHorizon (awake : turn.core.isHalted = false)
    (calm : ∀ item ∈ turn.agenda rest, ∀ fault, item.2 ≠ .fault turn.core.id fault) :
    turn.haltAtHorizon.Resumes rest := by
  refine resumes_halt awake ?_ (.inr (.inr ?_))
  · rw [agenda_note]
    exact calm
  · exact ⟨_, List.mem_append_right _ (List.mem_singleton_self _), rfl, rfl⟩

theorem requestEdge_of_none (asleep : turn.core.nextEdge = none) (tick : Nat) :
    turn.requestEdge tick = (turn.setCore { turn.core with nextEdge := some tick }).emit
      (.post tick (.coreEdge turn.core.id)) := by
  unfold requestEdge
  rw [asleep]
  rfl

theorem agenda_requestEdge (asleep : turn.core.nextEdge = none) (tick : Nat) :
    (turn.requestEdge tick).agenda rest =
      Queue.insertLate (tick, .coreEdge turn.core.id) (turn.agenda rest) := by
  rw [requestEdge_of_none asleep, agenda_emit_post (Effects.posts_post ..), agenda_setCore]
  · rfl
  · simp [Event.resumes, setCore]

theorem resumes_requestEdge (active : turn.core.Active) (asleep : turn.core.nextEdge = none)
    (quiet : turn.agenda rest = []) {tick : Nat} (future : turn.now ≤ tick) (within : tick ≤ horizon)
    (onEdge : turn.core.clock.period ∣ tick)
    (prompt : turn.core.outstanding ≠ [] → tick ≤ turn.core.clock.nextEdgeAfter turn.now) :
    (turn.requestEdge tick).Resumes rest := by
  have agenda := @agenda_requestEdge turn rest asleep tick
  rw [quiet] at agenda
  unfold Resumes
  rw [agenda, requestEdge_of_none asleep]
  exact .edge tick active rfl rfl future within onEdge prompt

theorem not_halted_of_active {core : Core} (active : core.Active) : core.isHalted = false := by
  unfold Core.Active at active
  unfold Core.isHalted
  cases phase : core.phase <;> simp_all

theorem resumes_requestNextEdge (active : turn.core.Active) (asleep : turn.core.nextEdge = none)
    (quiet : turn.agenda rest = []) : turn.requestNextEdge.Resumes rest := by
  unfold requestNextEdge
  cases found : turn.core.clock.edgeAfter? turn.now with
  | none =>
    refine resumes_haltAtHorizon (not_halted_of_active active) ?_
    rw [quiet]
    intro item member
    cases member
  | some tick =>
    obtain ⟨rfl, within⟩ := Clock.edgeAfter?_eq_some found
    exact resumes_requestEdge active asleep quiet (Nat.le_of_lt (Clock.lt_nextEdgeAfter _)) within
      (Clock.period_dvd_nextEdgeAfter _) fun _ => Nat.le_refl _

theorem resumes_requestFirstEdge (active : turn.core.Active) (asleep : turn.core.nextEdge = none)
    (idle : turn.core.outstanding = []) (quiet : turn.agenda rest = []) :
    turn.requestFirstEdge.Resumes rest := by
  unfold requestFirstEdge
  cases found : turn.core.clock.edgeAtOrAfter? turn.now with
  | none =>
    refine resumes_haltAtHorizon (not_halted_of_active active) ?_
    rw [quiet]
    intro item member
    cases member
  | some tick =>
    obtain ⟨rfl, within⟩ := Clock.edgeAtOrAfter?_eq_some found
    exact resumes_requestEdge active asleep quiet (Clock.le_firstEdge _) within
      (Clock.period_dvd_firstEdge _) fun outstanding => absurd idle outstanding

theorem resumes_keepPolling (tick address issuedAt : Nat) (waits : turn.core.phase = .waitMemory)
    (asleep : turn.core.nextEdge = none)
    (quiet : turn.agenda rest = [(tick, .response turn.core.id address .load issuedAt)])
    (later : turn.core.clock.nextEdgeAfter turn.now ≤ horizon → turn.now < tick) :
    turn.keepPolling.Resumes rest := by
  unfold keepPolling
  split
  · rename_i idle
    exact .memory tick address issuedAt waits asleep (List.isEmpty_iff.mp idle) quiet
  · unfold requestNextEdge
    cases found : turn.core.clock.edgeAfter? turn.now with
    | none =>
      refine resumes_haltAtHorizon (by simp [Core.isHalted, waits]) ?_
      rw [quiet]
      intro item member fault
      rw [List.mem_singleton.mp member]
      simp
    | some edge =>
      obtain ⟨rfl, within⟩ := Clock.edgeAfter?_eq_some found
      have agenda := @agenda_requestEdge turn rest asleep (turn.core.clock.nextEdgeAfter turn.now)
      rw [quiet] at agenda
      have near := @Clock.nextEdgeAfter_le_firstEdge turn.core.clock _ _ (later within)
      show Core.Resumes _ _ ((turn.requestEdge _).agenda rest) _
      rw [agenda, requestEdgeOrHalt, requestEdge_of_none asleep]
      exact .polling tick address issuedAt waits rfl rfl within near

theorem resumes_sleepUntil (active : turn.core.Active) (asleep : turn.core.nextEdge = none)
    (quiet : turn.agenda rest = []) {resume : Nat} (future : turn.now ≤ resume)
    (within : resume ≤ horizon) (onEdge : turn.core.clock.period ∣ resume) :
    (turn.sleepUntil resume).Resumes rest := by
  unfold sleepUntil
  cases found : turn.core.clock.edgeAfter? turn.now with
  | none =>
    refine resumes_requestEdge active asleep quiet future within onEdge fun _ => ?_
    exact Nat.le_of_lt (Nat.lt_of_le_of_lt within (Clock.edgeAfter?_eq_none found))
  | some edge =>
    obtain ⟨rfl, bound⟩ := Clock.edgeAfter?_eq_some found
    have later := @Clock.lt_nextEdgeAfter turn.core.clock turn.now
    simp only
    split
    · rename_i idle
      exact resumes_requestEdge active asleep quiet future within onEdge
        fun outstanding => absurd (List.isEmpty_iff.mp idle) outstanding
    · refine resumes_requestEdge active asleep quiet (by omega) (by omega) ?_ fun _ => Nat.min_le_left ..
      rcases Nat.le_total (turn.core.clock.nextEdgeAfter turn.now) resume with first | first
      · rw [Nat.min_eq_left first]
        exact Clock.period_dvd_nextEdgeAfter _
      · rw [Nat.min_eq_right first]
        exact onEdge

theorem resumes_drainThenHalt (active : turn.core.Active) (asleep : turn.core.nextEdge = none)
    (quiet : turn.agenda rest = []) : turn.drainThenHalt.Resumes rest := by
  unfold drainThenHalt
  split
  · rename_i idle
    refine resumes_halt (not_halted_of_active active) ?_ (.inl (List.isEmpty_iff.mp idle))
    rw [quiet]
    intro item member
    cases member
  · exact resumes_requestNextEdge trivial asleep quiet

theorem resumes_raise (asleep : turn.core.nextEdge = none) (quiet : turn.agenda rest = [])
    (fault : Fault) : (turn.raise fault).Resumes rest := by
  refine .fault fault rfl asleep ?_
  unfold raise
  rw [agenda_emit_post (Effects.posts_post ..)]
  · show Queue.insertLate _ (turn.agenda rest) = _
    rw [quiet]
    rfl
  · simp [Event.resumes, setPhase, setCore]

/-- The core executes an operation: it is running, waits for nothing, and no event is pending for it. -/
structure Executes (rest : List (Nat × Event)) (turn : Turn) : Prop where
  phase : turn.core.phase = .running
  asleep : turn.core.nextEdge = none
  quiet : turn.agenda rest = []
  onEdge : turn.core.clock.cycleAt turn.now * turn.core.clock.period = turn.now
  within : turn.now ≤ horizon
  positive : turn.latency.Positive
  known : turn.core.id < turn.latency.sources.length

namespace Executes

theorem active (executes : turn.Executes rest) : turn.core.Active := by
  unfold Core.Active
  rw [executes.phase]
  trivial

theorem request (executes : turn.Executes rest) (address : Nat) (kind : AccessKind) :
    (turn.request address kind).2 = false ∧ (turn.request address kind).1.Resumes rest ∨
      (turn.request address kind).2 = true ∧ ∃ model counters effects tick,
        (turn.request address kind).1 = ({ turn with
          core := { turn.core with counters := counters }
          latency := model } : Turn).emit effects ∧
        effects.posts = [(tick, .response turn.core.id address kind turn.now)] ∧
          (turn.now < horizon → turn.now < tick) := by
  unfold Turn.request
  simp only
  split
  · exact .inl ⟨rfl, resumes_raise executes.asleep executes.quiet _⟩
  · cases drawn : turn.latency.draw? turn.core.id with
    | none => exact absurd executes.known (Nat.not_lt.mpr (LatencyModel.draw?_eq_none drawn))
    | some outcome =>
      obtain ⟨latency, model⟩ := outcome
      have large := ((LatencyModel.draw?_eq_some drawn).2.2 executes.positive).1
      refine .inr ⟨rfl, model, _, _, turn.core.clock.ticksAfter turn.now latency, rfl, ?_, ?_⟩
      · rfl
      · intro early
        have longer : 0 < latency * turn.core.clock.period := Nat.mul_pos large turn.core.clock.period_pos
        rw [Clock.ticksAfter_eq_min]
        omega

theorem load (executes : turn.Executes rest) (address : Nat) : (turn.load address).Resumes rest := by
  unfold Turn.load
  rcases executes.request address .load with ⟨refused, resumes⟩ |
    ⟨granted, model, counters, effects, tick, same, posts, later⟩
  · simp only [refused, Bool.false_eq_true, if_false]
    exact resumes
  · simp only [granted, if_true, same]
    refine resumes_keepPolling tick address turn.now rfl executes.asleep ?_ ?_
    · refine (agenda_setCore ?_).trans ((agenda_emit_post posts ?_).trans ?_)
      · rfl
      · simp [Event.resumes]
      · show Queue.insertLate _ (turn.agenda rest) = _
        rw [executes.quiet]
        rfl
    · intro near
      refine later (Nat.lt_of_lt_of_le ?_ near)
      exact Clock.lt_nextEdgeAfter turn.now

theorem store (executes : turn.Executes rest) (address : Nat) : (turn.store address).Resumes rest := by
  unfold Turn.store
  rcases executes.request address .store with ⟨refused, resumes⟩ |
    ⟨granted, model, counters, effects, tick, same, posts, -⟩
  · simp only [refused, Bool.false_eq_true, if_false]
    exact resumes
  · simp only [granted, if_true, same]
    refine resumes_requestNextEdge executes.active executes.asleep ?_
    refine (agenda_setCore ?_).trans ((agenda_emit_of_silent ?_).trans executes.quiet)
    · rfl
    · intro post member
      rw [posts] at member
      rw [List.mem_singleton.mp member]
      rfl

theorem offload (executes : turn.Executes rest) (work : Offload) :
    (turn.offload work).Resumes rest := by
  unfold Turn.offload
  cases attached : turn.coprocessor with
  | none => exact resumes_raise executes.asleep executes.quiet _
  | some unit =>
    have quiet : ({ turn with coprocessor := some (unit.submit turn.now work).2.1 }.emit
        (unit.submit turn.now work).2.2).agenda rest = [] := by
      rw [agenda_emit_of_silent]
      · exact executes.quiet
      · intro post member
        rw [((unit.asks_submit turn.now work).2 post member).2.2]
        rfl
    simp only
    cases (unit.submit turn.now work).1 with
    | ok handle =>
      refine resumes_requestNextEdge executes.active executes.asleep ((agenda_setCore ?_).trans quiet)
      rfl
    | error refusal =>
      refine resumes_requestNextEdge executes.active executes.asleep
        ((agenda_note ..).trans ((agenda_setCore ?_).trans quiet))
      rfl

theorem compute (executes : turn.Executes rest) (cycles : Nat) :
    (turn.compute (turn.core.clock.cycleAt turn.now) cycles).Resumes rest := by
  obtain ⟨future, onEdge⟩ := turn.core.clock.burst_end executes.onEdge executes.within (max cycles 1)
  unfold Turn.compute
  refine resumes_sleepUntil ?_ ?_ ((agenda_setCore ?_).trans executes.quiet) ?_
    (Clock.tickOfCycle_le_horizon ..) ?_
  · exact Nat.min_le_right ..
  · exact executes.asleep
  · rfl
  · exact future
  · exact onEdge

theorem wait (executes : turn.Executes rest) : turn.wait.Resumes rest := by
  unfold Turn.wait
  simp only
  split
  · exact resumes_requestNextEdge executes.active executes.asleep executes.quiet
  · exact resumes_requestNextEdge trivial executes.asleep executes.quiet

theorem note (executes : turn.Executes rest) (condition : Bool) (severity : Log.Severity)
    (message : String) (fields : List Log.Field) :
    (turn.note condition severity message fields).Executes rest :=
  { executes with quiet := (agenda_note ..).trans executes.quiet }

theorem execute (executes : turn.Executes rest) (operation : Operation) :
    (turn.execute (turn.core.clock.cycleAt turn.now) operation).Resumes rest := by
  have logged := executes.note turn.core.logsOperations .trace "issue"
    [.ofNat "pc" turn.core.pc, ⟨"op", operation.text, false⟩]
  unfold Turn.execute
  cases operation with
  | compute cycles => exact logged.compute cycles
  | load address => exact logged.load address
  | store address => exact logged.store address
  | offload work => exact logged.offload work
  | wait => exact logged.wait
  | halt =>
    exact resumes_drainThenHalt logged.active logged.asleep logged.quiet

theorem setCore (executes : turn.Executes rest) {core : Core} (phase : core.phase = .running)
    (asleep : core.nextEdge = none) (id : core.id = turn.core.id) (clock : core.clock = turn.core.clock) :
    (turn.setCore core).Executes rest where
  phase := phase
  asleep := asleep
  quiet := (agenda_setCore id).trans executes.quiet
  onEdge := by
    show core.clock.cycleAt turn.now * core.clock.period = turn.now
    rw [clock]
    exact executes.onEdge
  within := executes.within
  positive := executes.positive
  known := by
    show core.id < _
    rw [id]
    exact executes.known

theorem issue (executes : turn.Executes rest) :
    (turn.issue (turn.core.clock.cycleAt turn.now)).Resumes rest := by
  unfold Turn.issue
  split
  · have taken : (turn.setCore { turn.core with refused := none }).Executes rest :=
      executes.setCore executes.phase executes.asleep rfl rfl
    exact taken.execute _
  · split
    · rename_i operation workload _
      have taken : (turn.setCore (turn.core.advance workload)).Executes rest :=
        executes.setCore executes.phase executes.asleep rfl rfl
      exact taken.execute _
    · exact resumes_drainThenHalt executes.active executes.asleep executes.quiet

end Executes

/-- The core has come to an edge: it is active and no event is pending for it, or it polls while it waits
    for a response that comes later. -/
structure AtEdge (rest : List (Nat × Event)) (turn : Turn) : Prop where
  onEdge : turn.core.clock.period ∣ turn.now
  within : turn.now ≤ horizon
  positive : turn.latency.Positive
  known : turn.core.id < turn.latency.sources.length
  kind : turn.core.Active ∧ turn.agenda rest = [] ∨
    turn.core.phase = .waitMemory ∧ ∃ tick address issuedAt,
      turn.agenda rest = [(tick, .response turn.core.id address .load issuedAt)] ∧ turn.now < tick

namespace AtEdge

theorem executes (edge : turn.AtEdge rest) (asleep : turn.core.nextEdge = none)
    (quiet : turn.agenda rest = []) {core : Core} (phase : core.phase = .running)
    (same : core.nextEdge = turn.core.nextEdge) (id : core.id = turn.core.id)
    (clock : core.clock = turn.core.clock) : (turn.setCore core).Executes rest where
  phase := phase
  asleep := same.trans asleep
  quiet := (agenda_setCore id).trans quiet
  onEdge := by
    show core.clock.cycleAt turn.now * core.clock.period = turn.now
    rw [clock]
    exact Nat.div_mul_cancel edge.onEdge
  within := edge.within
  positive := edge.positive
  known := by
    show core.id < _
    rw [id]
    exact edge.known

theorem proceed (edge : turn.AtEdge rest) (asleep : turn.core.nextEdge = none) :
    turn.proceed.Resumes rest := by
  unfold Turn.proceed
  rcases edge.kind with ⟨active, quiet⟩ | ⟨waits, tick, address, issuedAt, quiet, later⟩
  · -- every way on from here first puts the core into the running phase
    have started : ∀ core : Core, core.phase = .running → core.nextEdge = turn.core.nextEdge →
        core.id = turn.core.id → core.clock = turn.core.clock →
        ((turn.setCore core).issue (turn.core.clock.cycleAt turn.now)).Resumes rest := by
      intro core phase same id clock
      rw [← clock]
      exact (edge.executes asleep quiet phase same id clock).issue
    cases phase : turn.core.phase with
    | running => exact started turn.core phase rfl rfl rfl
    | busy last =>
      simp only
      split
      · rename_i early
        have bound : last ≤ turn.core.clock.lastCycle := by
          unfold Core.Active at active
          rwa [phase] at active
        refine resumes_sleepUntil active asleep quiet (Nat.le_of_lt early)
          (Clock.tickOfCycle_le_horizon ..) ?_
        rw [Clock.tickOfCycle_of_le (Clock.le_lastCycle_iff.mp bound)]
        exact Nat.dvd_mul_left ..
      · exact started { turn.core.retire with phase := .running } rfl rfl rfl rfl
    | waitOffloads thenHalt =>
      simp only
      split
      · rename_i outstanding
        unfold keepPolling
        rw [if_neg (by simpa using outstanding)]
        exact resumes_requestNextEdge active asleep quiet
      · rename_i idle
        split
        · refine resumes_halt (not_halted_of_active active) ?_ (.inl (by simpa using idle))
          rw [quiet]
          intro item member
          cases member
        · exact started { turn.core with phase := .running } rfl rfl rfl rfl
    | waitMemory | waitFault | halted =>
      unfold Core.Active at active
      rw [phase] at active
      cases active
  · simp only [waits]
    exact resumes_keepPolling tick address issuedAt waits asleep quiet fun _ => later

end AtEdge

theorem resumes_coreEdge (edge : turn.AtEdge rest) (due : turn.core.nextEdge = some turn.now) :
    turn.coreEdge.Resumes rest := by
  have awake : turn.core.isHalted = false := by
    rcases edge.kind with ⟨active, -⟩ | ⟨waits, -⟩
    · exact not_halted_of_active active
    · simp [Core.isHalted, waits]
  rw [coreEdge_of_eq turn due awake]
  obtain ⟨_, _, _, _, effects, frame, posts, -⟩ :=
    polls_pollAll (turn.setCore { turn.core with nextEdge := none })
  rw [frame]
  have same : ∀ after : Turn, after.core.id = turn.core.id → after.effects = effects →
      after.agenda rest = turn.agenda rest := by
    intro after id equal
    unfold agenda
    rw [id, equal, posts]
    rfl
  refine AtEdge.proceed ⟨edge.onEdge, edge.within, edge.positive, edge.known, ?_⟩ rfl
  rcases edge.kind with ⟨active, quiet⟩ | ⟨waits, tick, address, issuedAt, quiet, later⟩
  · refine .inl ⟨active, .trans (same _ ?_ ?_) quiet⟩ <;> rfl
  · refine .inr ⟨waits, tick, address, issuedAt, .trans (same _ ?_ ?_) quiet, later⟩ <;> rfl

theorem coreEdge_of_halted (halted : turn.core.isHalted = true) :
    ∃ edge, turn.coreEdge = turn.setCore { turn.core with nextEdge := edge } := by
  have still : (turn.setCore { turn.core with nextEdge := none }).core.isHalted = true := halted
  unfold coreEdge
  split
  · exact ⟨turn.core.nextEdge, rfl⟩
  · exact ⟨none, if_pos still⟩

theorem agenda_of_fresh (fresh : turn.effects.posts = []) : turn.agenda rest = rest := by
  unfold agenda
  rw [fresh]
  rfl

end Turn

end CoreTiming
