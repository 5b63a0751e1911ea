import CoreTiming.Core.Potential
import CoreTiming.Proofs.Coprocessor.Guise
import CoreTiming.Proofs.Core.Issuing

namespace CoreTiming

namespace Turn

variable (turn : Turn)

/-- The numbers that decide where a step of a turn leads, none of them cut at the horizon: a guise that has
    room for them shows the same step on its own clock. -/
def nextReckons : List Nat :=
  [turn.core.clock.nextEdgeAfter turn.now]

def pollingReckons : List Nat :=
  if turn.core.outstanding.isEmpty then [] else turn.nextReckons

def accessReckons (address : Nat) (kind : AccessKind) (following : List Nat) : List Nat :=
  match turn.memory.check turn.core.id address kind with
  | .error _ => []
  | .ok () =>
    match turn.latency.draw? turn.core.id with
    | none => []
    | some (latency, _) => (turn.now + latency * turn.core.clock.period) :: following

def offloadReckons : List Nat :=
  match turn.coprocessor with
  | none => []
  | some unit => unit.submissionReckons turn.now ++ turn.nextReckons

/-- The cycle in which a burst would end, and the tick at which it ends, which is cut at the last edge. -/
def burstReckons (last : Nat) : List Nat :=
  last :: min last turn.core.clock.lastCycle * turn.core.clock.period :: turn.nextReckons

def executeReckons (cycle : Nat) : Operation → List Nat
  | .compute cycles => turn.burstReckons (cycle + max cycles 1)
  | .load address => turn.accessReckons address .load turn.pollingReckons
  | .store address => turn.accessReckons address .store turn.nextReckons
  | .offload _ => turn.offloadReckons
  | .wait => turn.nextReckons
  | .halt => turn.pollingReckons

def issueReckons (cycle : Nat) : List Nat :=
  match turn.core.refused with
  | some work => (turn.setCore { turn.core with refused := none }).executeReckons cycle (.offload work)
  | none =>
    match turn.core.workload.next? with
    | some (operation, workload) => (turn.setCore (turn.core.advance workload)).executeReckons cycle operation
    | none => turn.pollingReckons

def proceedReckons : List Nat :=
  let cycle := turn.core.clock.cycleAt turn.now
  match turn.core.phase with
  | .halted | .waitFault => []
  | .waitMemory => turn.pollingReckons
  | .busy last =>
    -- A burst in progress ends at an edge that exists, so this one is within the horizon in every run.
    last * turn.core.clock.period ::
      if turn.now < turn.core.clock.tickOfCycle last then turn.nextReckons
      else (turn.retire.setPhase .running).issueReckons cycle
  | .waitOffloads thenHalt =>
    if !turn.core.outstanding.isEmpty then turn.pollingReckons
    else if thenHalt then []
    else (turn.setPhase .running).issueReckons cycle
  | .running => turn.issueReckons cycle

def coreEdgeReckons : List Nat :=
  if turn.core.nextEdge ≠ some turn.now then []
  else
    let turn := turn.setCore { turn.core with nextEdge := none }
    if turn.core.isHalted then [] else turn.pollAll.proceedReckons

def reckons : Event → List Nat
  | .coreEdge _ => turn.coreEdgeReckons
  | .coprocessorEdge _ =>
    match turn.coprocessor with
    | none => []
    | some unit => unit.edgeReckons turn.now
  | .response _ _ .store _ => []
  | .response _ _ .load _ =>
    if turn.core.phase = .waitMemory then [turn.core.clock.firstEdge turn.now] else []
  | .fault _ _ =>
    match turn.core.faultPolicy with
    | .halt => []
    | .continue => turn.nextReckons

theorem reckons_request (address : Nat) (kind : AccessKind) :
    (turn.request address kind).1.nextReckons = turn.nextReckons ∧
      (turn.request address kind).1.pollingReckons = turn.pollingReckons := by
  unfold request
  simp only
  split
  · exact ⟨rfl, rfl⟩
  · split <;> exact ⟨rfl, rfl⟩

theorem sleepUntil_eq {resume : Nat} (within : resume ≤ horizon) :
    turn.sleepUntil resume = turn.requestEdge (if turn.core.outstanding.isEmpty then resume
      else min (turn.core.clock.nextEdgeAfter turn.now) resume) := by
  unfold sleepUntil
  cases found : turn.core.clock.edgeAfter? turn.now with
  | some edge =>
    obtain ⟨rfl, -⟩ := Clock.edgeAfter?_eq_some found
    rfl
  | none =>
    have late := Clock.edgeAfter?_eq_none found
    simp only
    rw [Nat.min_eq_right (Nat.le_of_lt (Nat.lt_of_le_of_lt within late)), ite_self]

end Turn

namespace Guise

def core (guise : Guise) (core : Core) : Core :=
  { core with
    clock := guise.clock core.clock
    verbose := guise.coreVerbosity core.id core.verbose
    completions := core.completions.map guise.result
    nextEdge := core.nextEdge.map guise.tick
    haltedAt := core.haltedAt.map guise.tick }

def turn (guise : Guise) (log : List Log.Line) (turn : Turn) : Turn :=
  { turn with
    now := guise.tick turn.now
    core := guise.core turn.core
    coprocessor := turn.coprocessor.map guise.unit
    effects := guise.effects log turn.effects }

theorem now_turn (guise : Guise) (log : List Log.Line) (turn : Turn) :
    (guise.turn log turn).now = guise.tick turn.now := rfl

theorem coprocessor_turn (guise : Guise) (log : List Log.Line) (turn : Turn) :
    (guise.turn log turn).coprocessor = turn.coprocessor.map guise.unit := rfl

/-- A burst that the core begins at this edge is not cut at the last edge. -/
def Ends (guise : Guise) (turn : Turn) : Prop :=
  ∀ cycles workload, turn.Performs (.compute cycles) workload →
    guise.Whole turn.core.clock (turn.cycle + max cycles 1)

/-- The other turn is this one in the other guise, but for what it logs. -/
def Shows (guise : Guise) (turn other : Turn) : Prop :=
  ∃ log, other = guise.turn log turn

theorem accept_core (guise : Guise) (core : Core) (handle : Nat) :
    (guise.core core).accept handle = guise.core (core.accept handle) := rfl

theorem observe_core (guise : Guise) (core : Core) (result : OffloadResult) :
    (guise.core core).observe (guise.result result) = guise.core (core.observe result) := by
  simp only [Guise.core, Core.observe, Core.count, List.map_append, List.map_singleton]
  rfl

def coreSpec (guise : Guise) (spec : CoreSpec) : CoreSpec :=
  { spec with
    clock := guise.clock spec.clock
    verbose := guise.coreVerbosity spec.id spec.verbose }

theorem report_core (guise : Guise) (core : Core) (endTick : Nat) :
    (guise.core core).report (guise.tick endTick) = (core.report endTick).map guise.record := by
  have ended : (guise.core core).haltedAt.getD (guise.tick endTick) =
      guise.tick (core.haltedAt.getD endTick) := Option.getD_map ..
  simp only [Core.report, List.map_cons, List.map_nil]
  repeat rw [record_of_ne guise (by decide)]
  rw [ended, show (guise.core core).clock = guise.clock core.clock from rfl, cycleAt_clock]
  rfl

namespace Shows

variable {guise : Guise} {turn other : Turn}

theorem ite {condition watched : Prop} [Decidable condition] [Decidable watched] {yes no shown hidden : Turn}
    (same : watched ↔ condition) (one : condition → guise.Shows yes shown)
    (another : ¬ condition → guise.Shows no hidden) :
    guise.Shows (if condition then yes else no) (if watched then shown else hidden) := by
  by_cases holds : condition
  · rw [if_pos holds, if_pos (same.mpr holds)]
    exact one holds
  · rw [if_neg holds, if_neg fun seen => holds (same.mp seen)]
    exact another holds

variable (shows : guise.Shows turn other)

include shows

theorem setCore (core : Core) : guise.Shows (turn.setCore core) (other.setCore (guise.core core)) := by
  obtain ⟨log, rfl⟩ := shows
  exact ⟨log, rfl⟩

theorem emit {effects others : Effects} (mirrors : guise.Mirrors effects others) :
    guise.Shows (turn.emit effects) (other.emit others) := by
  obtain ⟨log, rfl⟩ := shows
  obtain ⟨later, same⟩ := Mirrors.append ⟨log, rfl⟩ mirrors
  exact ⟨later, congrArg (fun effects => { guise.turn log turn with effects := effects }) same⟩

theorem note (condition watched : Bool) (severity level : Log.Severity) (message text : String)
    (fields shown : List Log.Field) :
    guise.Shows (turn.note condition severity message fields) (other.note watched level text shown) :=
  shows.emit (.lineIf ..)

theorem setPhase (phase : Phase) : guise.Shows (turn.setPhase phase) (other.setPhase phase) := by
  obtain ⟨log, rfl⟩ := shows
  exact ⟨log, rfl⟩

theorem count (change : CoreCounters → CoreCounters) :
    guise.Shows (turn.count change) (other.count change) := by
  obtain ⟨log, rfl⟩ := shows
  exact ⟨log, rfl⟩

theorem retire : guise.Shows turn.retire other.retire :=
  shows.count _

theorem halt : guise.Shows turn.halt other.halt := by
  obtain ⟨log, rfl⟩ := shows
  refine ite Iff.rfl (fun _ => ⟨log, rfl⟩) fun _ => ?_
  exact note ⟨log, rfl⟩ ..

theorem haltAtHorizon : guise.Shows turn.haltAtHorizon other.haltAtHorizon :=
  (shows.note ..).halt

theorem requestEdge (tick : Nat) : guise.Shows (turn.requestEdge tick) (other.requestEdge (guise.tick tick)) := by
  obtain ⟨log, rfl⟩ := shows
  refine ite ?_ (fun _ => ⟨log, rfl⟩) fun _ => ?_
  · exact Eq.congr_left (guise.any_tick_le ..)
  · exact emit ⟨log, rfl⟩ ⟨[], rfl⟩

theorem requestEdgeOrHalt (tick : Option Nat) :
    guise.Shows (turn.requestEdgeOrHalt tick) (other.requestEdgeOrHalt (tick.map guise.tick)) := by
  cases tick with
  | none => exact shows.haltAtHorizon
  | some tick => exact shows.requestEdge tick

theorem requestNextEdge (fits : guise.FitsAll other.nextReckons) :
    guise.Shows turn.requestNextEdge other.requestNextEdge := by
  have next := shows.requestEdgeOrHalt (turn.core.clock.edgeAfter? turn.now)
  obtain ⟨log, rfl⟩ := shows
  unfold Turn.requestNextEdge
  rw [← edgeAfter?_clock (fits _ (List.mem_singleton_self _))] at next
  exact next

theorem requestFirstEdge (fits : guise.Fits (other.core.clock.firstEdge other.now)) :
    guise.Shows turn.requestFirstEdge other.requestFirstEdge := by
  have first := shows.requestEdgeOrHalt (turn.core.clock.edgeAtOrAfter? turn.now)
  obtain ⟨log, rfl⟩ := shows
  rw [← edgeAtOrAfter?_clock fits] at first
  exact first

theorem now : other.now = guise.tick turn.now := by
  obtain ⟨log, rfl⟩ := shows
  rfl

theorem core : other.core = guise.core turn.core := by
  obtain ⟨log, rfl⟩ := shows
  rfl

theorem coprocessor : other.coprocessor = turn.coprocessor.map guise.unit := by
  obtain ⟨log, rfl⟩ := shows
  rfl

theorem unregistered : other.unregistered = turn.unregistered := by
  obtain ⟨log, rfl⟩ := shows
  rfl

theorem phase : other.core.phase = turn.core.phase := by
  rw [shows.core]
  rfl

theorem outstanding : other.core.outstanding = turn.core.outstanding := by
  rw [shows.core]
  rfl

theorem keepPolling (fits : guise.FitsAll other.pollingReckons) :
    guise.Shows turn.keepPolling other.keepPolling := by
  unfold Turn.pollingReckons at fits
  unfold Turn.keepPolling
  refine ite (by rw [shows.outstanding]) (fun _ => shows) fun idle => shows.requestNextEdge ?_
  rw [shows.outstanding, if_neg idle] at fits
  exact fits

theorem sleepUntil {last : Nat} (fits : guise.Fits (last * other.core.clock.period)) :
    guise.Shows (turn.sleepUntil (turn.core.clock.tickOfCycle last))
      (other.sleepUntil (other.core.clock.tickOfCycle last)) := by
  rw [turn.sleepUntil_eq (Clock.tickOfCycle_le_horizon ..),
    other.sleepUntil_eq (Clock.tickOfCycle_le_horizon ..)]
  have asked := shows.requestEdge (if turn.core.outstanding.isEmpty then turn.core.clock.tickOfCycle last
    else min (turn.core.clock.nextEdgeAfter turn.now) (turn.core.clock.tickOfCycle last))
  obtain ⟨log, rfl⟩ := shows
  rw [apply_ite guise.tick, tick_min, ← nextEdgeAfter_clock, ← tickOfCycle_clock fits] at asked
  exact asked

theorem drainThenHalt (fits : guise.FitsAll other.pollingReckons) :
    guise.Shows turn.drainThenHalt other.drainThenHalt := by
  unfold Turn.pollingReckons at fits
  unfold Turn.drainThenHalt
  refine ite (by rw [shows.outstanding]) (fun _ => shows.halt) fun idle => ?_
  rw [shows.outstanding, if_neg idle] at fits
  exact (shows.setPhase _).requestNextEdge fits

theorem raise (fault : Fault) : guise.Shows (turn.raise fault) (other.raise fault) := by
  obtain ⟨log, rfl⟩ := shows
  exact emit (setPhase ⟨log, rfl⟩ _) ⟨[], rfl⟩

theorem request {address : Nat} {kind : AccessKind} {following : List Nat}
    (fits : guise.FitsAll (other.accessReckons address kind following)) :
    guise.Shows (turn.request address kind).1 (other.request address kind).1 ∧
      (other.request address kind).2 = (turn.request address kind).2 ∧
      ((turn.request address kind).2 = true → guise.FitsAll following) := by
  obtain ⟨log, rfl⟩ := shows
  unfold Turn.accessReckons at fits
  unfold Turn.request
  simp only [show (guise.turn log turn).memory = turn.memory from rfl,
    show (guise.turn log turn).core.id = turn.core.id from rfl,
    show (guise.turn log turn).latency = turn.latency from rfl] at fits ⊢
  cases checked : turn.memory.check turn.core.id address kind with
  | error fault => exact ⟨raise ⟨log, rfl⟩ fault, rfl, fun granted => absurd granted Bool.false_ne_true⟩
  | ok =>
    cases drawn : turn.latency.draw? turn.core.id with
    | none => exact ⟨⟨log, rfl⟩, rfl, fun granted => absurd granted Bool.false_ne_true⟩
    | some outcome =>
      obtain ⟨latency, model⟩ := outcome
      rw [checked, drawn] at fits
      obtain ⟨answers, follows⟩ := fitsAll_cons.mp fits
      have answer := ticksAfter_clock answers
      refine ⟨emit (count ⟨log, rfl⟩ _) (.append ⟨[], ?_⟩ ⟨[], ?_⟩), rfl, fun _ => follows⟩
      · exact congrArg (Effects.mk [] [·] []) (guise.record_of_ne (by decide) ..).symm
      · exact congrArg (Effects.post · _) answer

theorem load {address : Nat}
    (fits : guise.FitsAll (other.accessReckons address .load other.pollingReckons)) :
    guise.Shows (turn.load address) (other.load address) := by
  obtain ⟨requested, same, polls⟩ := shows.request fits
  refine ite (by rw [same]) (fun granted => ?_) fun _ => requested
  refine (requested.setPhase _).keepPolling ?_
  rw [← (other.reckons_request address .load).2] at polls
  exact polls granted

theorem store {address : Nat}
    (fits : guise.FitsAll (other.accessReckons address .store other.nextReckons)) :
    guise.Shows (turn.store address) (other.store address) := by
  obtain ⟨requested, same, next⟩ := shows.request fits
  rw [← (other.reckons_request address .store).1] at next
  unfold Turn.store
  generalize turn.request address .store = asked, other.request address .store = answered at *
  refine ite (by rw [same]) (fun granted => ?_) fun _ => requested
  refine requestNextEdge ?_ (next granted)
  obtain ⟨log, shown⟩ := requested
  rw [shown]
  exact ⟨log, rfl⟩

theorem lend (unit : Coprocessor) {effects others : Effects} (mirrors : guise.Mirrors effects others) :
    guise.Shows ({ turn with coprocessor := some unit }.emit effects)
      ({ other with coprocessor := some (guise.unit unit) }.emit others) := by
  obtain ⟨log, rfl⟩ := shows
  exact emit ⟨log, rfl⟩ mirrors

theorem offload {work : Offload} (fits : guise.FitsAll other.offloadReckons) :
    guise.Shows (turn.offload work) (other.offload work) := by
  obtain ⟨log, rfl⟩ := shows
  unfold Turn.offloadReckons at fits
  unfold Turn.offload
  simp only [coprocessor_turn, now_turn] at fits ⊢
  cases attached : turn.coprocessor with
  | none => exact raise ⟨log, rfl⟩ _
  | some unit =>
    rw [attached] at fits
    obtain ⟨submits, next⟩ := fitsAll_append.mp fits
    have submitted := @submit_unit guise unit _ work submits
    simp only [Option.map_some]
    generalize unit.submit turn.now work = told,
      (guise.unit unit).submit (guise.tick turn.now) work = heard at submitted
    obtain ⟨answer, after, effects⟩ := told
    obtain ⟨outcome, shown, others⟩ := heard
    simp only at submitted
    obtain ⟨rfl, rfl, mirrors⟩ := submitted
    have lent := @lend guise turn _ ⟨log, rfl⟩ after _ _ mirrors
    cases outcome with
    | ok handle =>
      have accepted := lent.setCore (turn.core.accept handle)
      rw [← accept_core] at accepted
      exact accepted.requestNextEdge next
    | error refusal => exact ((lent.setCore (turn.core.keep work)).note ..).requestNextEdge next

theorem compute {cycle cycles : Nat} (whole : guise.Whole other.core.clock (cycle + max cycles 1)) :
    guise.Shows (turn.compute cycle cycles) (other.compute cycle cycles) := by
  have last : min (cycle + max cycles 1) other.core.clock.lastCycle =
      min (cycle + max cycles 1) turn.core.clock.lastCycle := by
    obtain ⟨log, rfl⟩ := shows
    exact min_lastCycle_clock whole
  have ends : guise.Fits (min (cycle + max cycles 1) turn.core.clock.lastCycle * other.core.clock.period) :=
    .inr (last ▸ Clock.le_lastCycle_iff.mp (Nat.min_le_right ..))
  unfold Turn.compute
  simp only [last]
  exact (shows.setPhase _).sleepUntil ends

theorem wait (fits : guise.FitsAll other.nextReckons) : guise.Shows turn.wait other.wait := by
  have retired := shows.retire
  unfold Turn.wait
  refine requestNextEdge ?_ ?_
  · exact ite (by rw [retired.outstanding]) (fun _ => retired) fun _ => retired.setPhase _
  · split <;> exact fits

theorem execute {cycle : Nat} {operation : Operation}
    (fits : guise.FitsAll (other.executeReckons cycle operation))
    (whole : ∀ cycles, operation = .compute cycles → guise.Whole other.core.clock (cycle + max cycles 1)) :
    guise.Shows (turn.execute cycle operation) (other.execute cycle operation) := by
  have noted := shows.note turn.core.logsOperations other.core.logsOperations .trace .trace "issue" "issue"
    [.ofNat "pc" turn.core.pc, ⟨"op", operation.text, false⟩]
    [.ofNat "pc" other.core.pc, ⟨"op", operation.text, false⟩]
  cases operation with
  | compute cycles => exact noted.compute (whole cycles rfl)
  | load address => exact noted.load fits
  | store address => exact noted.store fits
  | offload work => exact noted.offload fits
  | wait => exact noted.wait fits
  | halt => exact noted.retire.drainThenHalt fits

theorem issue {cycle : Nat} (fits : guise.FitsAll (other.issueReckons cycle))
    (whole : ∀ cycles workload, other.core.refused = none →
      other.core.workload.next? = some (.compute cycles, workload) →
        guise.Whole other.core.clock (cycle + max cycles 1)) :
    guise.Shows (turn.issue cycle) (other.issue cycle) := by
  unfold Turn.issueReckons at fits
  unfold Turn.issue
  rw [show other.core.refused = turn.core.refused by rw [shows.core]; rfl,
    show other.core.workload = turn.core.workload by rw [shows.core]; rfl] at fits whole ⊢
  cases held : turn.core.refused with
  | some work =>
    rw [held] at fits
    refine execute ?_ fits nofun
    rw [shows.core]
    exact shows.setCore _
  | none =>
    rw [held] at fits
    cases taken : turn.core.workload.next? with
    | some outcome =>
      obtain ⟨operation, workload⟩ := outcome
      rw [taken] at fits
      refine execute ?_ fits ?_
      · rw [shows.core]
        exact shows.setCore _
      · rintro cycles rfl
        exact whole cycles workload held taken
    | none =>
      rw [taken] at fits
      exact shows.drainThenHalt fits

theorem poll (within : guise.Fits other.now) (handle : Nat) :
    guise.Shows (turn.poll handle) (other.poll handle) := by
  obtain ⟨log, rfl⟩ := shows
  unfold Turn.poll
  simp only [coprocessor_turn, now_turn] at within ⊢
  cases turn.coprocessor with
  | none => exact ⟨log, rfl⟩
  | some unit =>
    simp only [Option.map_some, Option.bind_some]
    rcases @poll?_unit guise unit handle _ within with ⟨polled, also⟩ |
      ⟨result, after, effects, others, polled, also, mirrors⟩
    · rw [polled, also]
      exact ⟨log, rfl⟩
    · rw [polled, also]
      have lent := @lend guise turn _ ⟨log, rfl⟩ after _ _ mirrors
      have observed := lent.setCore (turn.core.observe result)
      rw [← observe_core] at observed
      have waited : (⟨turn.core.name, .offloadLatency, guise.tick turn.now - guise.tick result.submittedAt⟩ :
          Record) = guise.record ⟨turn.core.name, .offloadLatency, turn.now - result.submittedAt⟩ := by
        rw [record_offloadLatency, tick_sub]
      exact (observed.emit ⟨[], congrArg (Effects.mk [] [·] []) waited⟩).note ..

theorem pollAll (within : guise.Fits other.now) : guise.Shows turn.pollAll other.pollAll := by
  have fold : ∀ (handles : List Nat) {turn other : Turn}, guise.Shows turn other → guise.Fits other.now →
      guise.Shows (handles.foldl Turn.poll turn) (handles.foldl Turn.poll other) := by
    intro handles
    induction handles with
    | nil => exact fun shows _ => shows
    | cons handle handles ih =>
      intro turn other shows within
      exact ih (shows.poll within handle) ((other.now_poll handle).symm ▸ within)
  unfold Turn.pollAll
  rw [shows.outstanding]
  exact fold _ shows within

theorem proceed (fits : guise.FitsAll other.proceedReckons)
    (whole : other.core.IsFree other.now → ∀ cycles workload, other.core.refused = none →
      other.core.workload.next? = some (.compute cycles, workload) →
        guise.Whole other.core.clock (other.cycle + max cycles 1)) :
    guise.Shows turn.proceed other.proceed := by
  have cycle : other.core.clock.cycleAt other.now = turn.core.clock.cycleAt turn.now := by
    rw [shows.core, shows.now]
    exact cycleAt_clock ..
  have begins : other.core.IsFree other.now → ∀ cycles workload, other.core.refused = none →
      other.core.workload.next? = some (.compute cycles, workload) →
        guise.Whole other.core.clock (turn.core.clock.cycleAt turn.now + max cycles 1) := cycle ▸ whole
  unfold Turn.proceedReckons at fits
  unfold Turn.proceed
  simp only [cycle, shows.phase, shows.outstanding] at fits ⊢
  cases stage : turn.core.phase with
  | halted | waitFault => exact shows
  | waitMemory =>
    simp only [stage] at fits
    exact shows.keepPolling fits
  | busy last =>
    simp only [stage] at fits
    obtain ⟨ends, following⟩ := fitsAll_cons.mp fits
    have burst : other.now < other.core.clock.tickOfCycle last ↔
        turn.now < turn.core.clock.tickOfCycle last := by
      rw [shows.core] at ends ⊢
      rw [shows.now, show (guise.core turn.core).clock = guise.clock turn.core.clock from rfl,
        tickOfCycle_clock ends, tick_lt_tick]
    refine ite burst (fun _ => shows.sleepUntil ends) fun past => ?_
    have ended := fun early => past (burst.mp early)
    rw [if_neg ended] at following
    refine (shows.retire.setPhase _).issue following (begins ?_)
    rw [Core.IsFree, shows.phase, stage]
    exact Nat.not_lt.mp ended
  | waitOffloads thenHalt =>
    simp only [stage] at fits
    refine ite Iff.rfl (fun busy => ?_) fun idle => ite Iff.rfl (fun _ => shows.halt) fun goes => ?_
    · rw [if_pos busy] at fits
      exact shows.keepPolling fits
    · rw [if_neg idle, if_neg goes] at fits
      refine (shows.setPhase _).issue fits (begins ?_)
      rw [Core.IsFree, shows.phase, stage, shows.outstanding]
      exact ⟨by simpa using goes, by simpa using idle⟩
  | running =>
    simp only [stage] at fits
    exact shows.issue fits (begins (Core.isFree_of_running (shows.phase.trans stage) _))

theorem coreEdge (within : guise.Fits other.now) (fits : guise.FitsAll other.coreEdgeReckons)
    (whole : guise.Ends other) : guise.Shows turn.coreEdge other.coreEdge := by
  have due : other.core.nextEdge = some other.now ↔ turn.core.nextEdge = some turn.now := by
    rw [shows.core, shows.now]
    exact guise.map_tick_eq_some turn.now
  have cleared : guise.Shows (turn.setCore { turn.core with nextEdge := none })
      (other.setCore { other.core with nextEdge := none }) := by
    obtain ⟨log, rfl⟩ := shows
    exact ⟨log, rfl⟩
  have halted : other.core.isHalted = turn.core.isHalted := by
    rw [shows.core]
    rfl
  unfold Turn.coreEdgeReckons at fits
  refine ite (not_congr due) (fun _ => shows) fun asked => ?_
  rw [if_neg fun early => asked ((not_congr due).mp early)] at fits
  refine ite (iff_of_eq (congrArg (· = true) halted)) (fun _ => cleared) fun awake => ?_
  have follows : guise.FitsAll (if other.core.isHalted then []
    else (other.setCore { other.core with nextEdge := none }).pollAll.proceedReckons) := fits
  rw [halted, if_neg (show ¬ turn.core.isHalted from awake)] at follows
  have keeps := other.keeps_polled
  refine (cleared.pollAll within).proceed follows fun free cycles workload fresh taken => ?_
  have performs : other.Performs (.compute cycles) workload := {
    due := due.mpr (Decidable.not_not.mp asked)
    free := keeps.now ▸ free
    chosen := .inl ⟨keeps.refused ▸ fresh, keeps.workload ▸ taken⟩ }
  have cycle : other.polled.cycle = other.cycle := Turn.cycle_issuing
  have clock : other.polled.core.clock = other.core.clock := keeps.clock
  have ends := whole cycles workload performs
  rw [← cycle, ← clock] at ends
  exact ends

theorem coprocessorEdge (within : guise.Fits other.now) (core : Nat)
    (fits : guise.FitsAll (other.reckons (.coprocessorEdge core))) :
    guise.Shows turn.coprocessorEdge other.coprocessorEdge := by
  obtain ⟨log, rfl⟩ := shows
  unfold Turn.reckons at fits
  unfold Turn.coprocessorEdge
  simp only [coprocessor_turn, now_turn] at within fits ⊢
  cases attached : turn.coprocessor with
  | none => exact ⟨log, rfl⟩
  | some unit =>
    rw [attached] at fits
    obtain ⟨after, mirrors⟩ := edge_unit within fits
    simp only [Option.map_some, after]
    exact lend ⟨log, rfl⟩ _ mirrors

theorem response {address issuedAt : Nat} {kind : AccessKind} (core : Nat)
    (fits : guise.FitsAll (other.reckons (.response core address kind (guise.tick issuedAt)))) :
    guise.Shows (turn.response address kind issuedAt) (other.response address kind (guise.tick issuedAt)) := by
  have noted := shows.note turn.core.logsOperations other.core.logsOperations .trace .trace
    "memory response" "memory response"
    [.ofNat "address" address, ⟨"kind", kind.name, false⟩, .ofNat "latency_ticks" (turn.now - issuedAt)]
    [.ofNat "address" address, ⟨"kind", kind.name, false⟩,
      .ofNat "latency_ticks" (other.now - guise.tick issuedAt)]
  cases kind with
  | store =>
    obtain ⟨log, rfl⟩ := shows
    exact noted.setCore _
  | load =>
    unfold Turn.reckons at fits
    refine ite (Eq.congr_left shows.phase) (fun waits => ?_) fun _ => noted
    rw [if_pos (shows.phase.trans waits)] at fits
    exact (noted.retire.setPhase _).requestFirstEdge (fits _ (List.mem_singleton_self _))

theorem fault {core : Nat} {fault : Fault} (fits : guise.FitsAll (other.reckons (.fault core fault))) :
    guise.Shows (turn.fault fault) (other.fault fault) := by
  have policy : other.core.faultPolicy = turn.core.faultPolicy := by
    rw [shows.core]
    rfl
  have counted := shows.count fun counters => { counters with faults := counters.faults + 1 }
  unfold Turn.reckons at fits
  unfold Turn.fault
  simp only [policy] at fits ⊢
  cases rule : turn.core.faultPolicy with
  | halt => exact (counted.note ..).halt
  | «continue» =>
    rw [rule] at fits
    exact ((counted.note ..).setPhase _).requestNextEdge fits

theorem deliver {event : Event} (within : guise.Fits other.now)
    (fits : guise.FitsAll (other.reckons (guise.event event)))
    (whole : ∀ core, event = .coreEdge core → guise.Ends other) :
    guise.Shows (turn.deliver event) (other.deliver (guise.event event)) := by
  cases event with
  | coreEdge core => exact shows.coreEdge within fits (whole core rfl)
  | coprocessorEdge core => exact shows.coprocessorEdge within core fits
  | response core address kind issuedAt => exact shows.response core fits
  | fault core fault => exact shows.fault fits

end Shows

end Guise

end CoreTiming
