import CoreTiming.Proofs.Core.Standing

namespace CoreTiming

namespace Core

/-- The counters of a core when it will be done with its present operation. -/
def upcoming (core : Core) : CoreCounters :=
  match core.phase with
  | .busy _ | .waitMemory => core.retire.counters
  | .waitFault => { core.counters with faults := core.counters.faults + 1 }
  | _ => core.counters

theorem upcoming_eq (core : Core) :
    core.upcoming = { core.upcoming with completed := core.counters.completed } := by
  unfold upcoming
  cases core.phase <;> rfl

theorem stalls_upcoming (core : Core) : core.upcoming.stalls = core.counters.stalls := by
  unfold upcoming
  cases core.phase <;> rfl

/-- The core is in no operation, or comes to the end of one by now. -/
def IsFree (core : Core) (now : Nat) : Prop :=
  match core.phase with
  | .running => True
  | .busy last => core.clock.tickOfCycle last ≤ now
  | .waitOffloads thenHalt => thenHalt = false ∧ core.outstanding = []
  | _ => False

theorem isFree_of_running {core : Core} (running : core.phase = .running) (now : Nat) :
    core.IsFree now := by
  unfold IsFree
  rw [running]
  trivial

def resumed (core : Core) : Core :=
  { core with phase := .running, counters := core.upcoming }

/-- The core goes on in cycle `back`. An offload with some handle is complete at the tick `finish` says,
    and edges that come before serve only for polls. -/
inductive Returns (finish : Nat → Nat) (agenda : List (Nat × Event)) (back : Nat) (core : Core) : Prop
  | running (phase : core.phase = .running) (asked : core.nextEdge = some (back * core.clock.period))
  | busy (edge : Nat) (phase : core.phase = .busy back) (asked : core.nextEdge = some edge)
      (soon : edge ≤ back * core.clock.period)
  | memory (address issuedAt : Nat) (phase : core.phase = .waitMemory)
      (pending : (back * core.clock.period, .response core.id address .load issuedAt) ∈ agenda)
  | fault (tick : Nat) (fault : Fault) (phase : core.phase = .waitFault)
      (policy : core.faultPolicy = .continue) (pending : (tick, .fault core.id fault) ∈ agenda)
      (next : core.clock.nextEdgeAfter tick = back * core.clock.period)
  | offloads (edge : Nat) (phase : core.phase = .waitOffloads false) (asked : core.nextEdge = some edge)
      (soon : edge ≤ back * core.clock.period)
      (bound : ∀ handle ∈ core.outstanding, core.clock.cycleAtOrAfter (finish handle) ≤ back)
      (last : edge = back * core.clock.period ∨
        ∃ handle ∈ core.outstanding, core.clock.cycleAtOrAfter (finish handle) = back)

/-- The core is done with its present operation in cycle `back`. There may be no edge after that one, but
    then no offload is outstanding. -/
structure Pauses (finish : Nat → Nat) (agenda : List (Nat × Event)) (back : Nat) (core : Core) : Prop where
  fresh : core.refused = none
  within : back ≤ core.clock.lastCycle
  early : core.outstanding ≠ [] → back < core.clock.lastCycle
  returns : core.Returns finish agenda back

end Core

namespace Turn

def polled (turn : Turn) : Turn :=
  (turn.setCore { turn.core with nextEdge := none }).pollAll

structure AsksStream (turn : Turn) : Prop where
  due : turn.core.nextEdge = some turn.now
  fresh : turn.core.refused = none
  free : turn.polled.core.IsFree turn.now

structure Keeps (before after : Turn) : Prop where
  now : after.now = before.now
  memory : after.memory = before.memory
  latency : after.latency = before.latency
  id : after.core.id = before.core.id
  clock : after.core.clock = before.core.clock
  policy : after.core.faultPolicy = before.core.faultPolicy
  phase : after.core.phase = before.core.phase
  refused : after.core.refused = before.core.refused
  workload : after.core.workload = before.core.workload
  nextEdge : after.core.nextEdge = before.core.nextEdge
  posts : after.effects.posts = before.effects.posts
  counters : after.core.counters =
    { before.core.counters with completed := after.core.counters.completed }

theorem Keeps.refl (turn : Turn) : turn.Keeps turn := by
  constructor <;> rfl

theorem Keeps.trans {first second third : Turn} (one : first.Keeps second) (other : second.Keeps third) :
    first.Keeps third where
  now := other.now.trans one.now
  memory := other.memory.trans one.memory
  latency := other.latency.trans one.latency
  id := other.id.trans one.id
  clock := other.clock.trans one.clock
  policy := other.policy.trans one.policy
  phase := other.phase.trans one.phase
  refused := other.refused.trans one.refused
  workload := other.workload.trans one.workload
  nextEdge := other.nextEdge.trans one.nextEdge
  posts := other.posts.trans one.posts
  counters := by
    rw [other.counters, one.counters]

variable (turn : Turn)

theorem keeps_poll (handle : Nat) : turn.Keeps (turn.poll handle) := by
  have silent : (turn.poll handle).effects.posts = turn.effects.posts := by
    obtain ⟨_, _, _, _, _, frame, posts, -⟩ := turn.polls_poll handle
    rw [frame]
    exact posts
  unfold poll at silent ⊢
  cases found : turn.coprocessor.bind (·.poll? handle turn.now) with
  | none => exact .refl turn
  | some outcome =>
    rw [found] at silent
    exact { Keeps.refl turn with
      posts := silent
      counters := rfl }

theorem keeps_pollAll : turn.Keeps turn.pollAll :=
  turn.pollAll_induction Keeps.refl Keeps.trans keeps_poll

theorem keeps_polled : (turn.setCore { turn.core with nextEdge := none }).Keeps turn.polled :=
  keeps_pollAll _

theorem polled_of_idle (idle : turn.core.outstanding = []) :
    turn.polled = turn.setCore { turn.core with nextEdge := none } := by
  unfold polled pollAll
  rw [show (turn.setCore { turn.core with nextEdge := none }).core.outstanding = [] from idle]
  rfl

theorem resumed_of_running {core : Core} (running : core.phase = .running) : core.resumed = core := by
  unfold Core.resumed Core.upcoming
  rw [running]
  cases core
  cases running
  rfl

theorem proceed_of_free (free : turn.core.IsFree turn.now) :
    turn.proceed = (turn.setCore turn.core.resumed).issue (turn.core.clock.cycleAt turn.now) := by
  unfold proceed
  unfold Core.IsFree at free
  cases phase : turn.core.phase with
  | running =>
    rw [resumed_of_running phase]
    rfl
  | busy last =>
    rw [phase] at free
    simp only
    rw [if_neg (Nat.not_lt.mpr free)]
    unfold Core.resumed Core.upcoming
    rw [phase]
    rfl
  | waitOffloads thenHalt =>
    rw [phase] at free
    obtain ⟨rfl, idle⟩ := free
    simp only [idle, List.isEmpty_nil, Bool.not_true, Bool.false_eq_true, if_false]
    unfold Core.resumed Core.upcoming
    rw [phase]
    rfl
  | waitMemory | waitFault | halted =>
    rw [phase] at free
    cases free

theorem mem_foldl_insertLate {item : Nat × Event} {list : List (Nat × Event)} (member : item ∈ list)
    (posts : List (Nat × Event)) :
    item ∈ posts.foldl (fun list item => Queue.insertLate item list) list := by
  induction posts generalizing list with
  | nil => exact member
  | cons post posts ih => exact ih (Queue.mem_insertLate.mpr (.inr member))

variable {turn} {rest : List (Nat × Event)}

theorem Extends.mem_agenda {before after : Turn} (extended : before.Extends after) {item : Nat × Event}
    (member : item ∈ before.agenda rest) : item ∈ after.agenda rest := by
  obtain ⟨more, posts⟩ := extended.posts
  unfold agenda
  rw [extended.id, ← posts, List.filter_append, List.foldl_append]
  exact mem_foldl_insertLate member _

structure AsksEdge (edge : Option Nat) (before after : Turn) : Prop where
  core : after.core = { before.core with nextEdge := edge }
  latency : after.latency = before.latency

section asks

variable (turn) (asleep : turn.core.nextEdge = none)

include asleep in
theorem asksEdge_sleepUntil (resume : Nat) :
    ∃ edge, edge ≤ resume ∧ turn.AsksEdge (some edge) (turn.sleepUntil resume) := by
  unfold sleepUntil
  split
  · rw [requestEdge_of_none asleep]
    refine ⟨_, ?_, rfl, rfl⟩
    split
    · exact Nat.le_refl _
    · exact Nat.min_le_right ..
  · rw [requestEdge_of_none asleep]
    exact ⟨_, Nat.le_refl _, rfl, rfl⟩

include asleep in
theorem asksEdge_requestNextEdge (within : turn.core.clock.nextEdgeAfter turn.now ≤ horizon) :
    turn.AsksEdge (some (turn.core.clock.nextEdgeAfter turn.now)) turn.requestNextEdge := by
  have found : turn.core.clock.edgeAfter? turn.now = some (turn.core.clock.nextEdgeAfter turn.now) :=
    Clock.tick?_of_le within
  unfold requestNextEdge
  rw [found, requestEdgeOrHalt, requestEdge_of_none asleep]
  exact ⟨rfl, rfl⟩

include asleep in
theorem asksEdge_requestFirstEdge (within : turn.core.clock.firstEdge turn.now ≤ horizon) :
    turn.AsksEdge (some (turn.core.clock.firstEdge turn.now)) turn.requestFirstEdge := by
  unfold requestFirstEdge
  rw [Clock.edgeAtOrAfter?_of_le within, requestEdgeOrHalt, requestEdge_of_none asleep]
  exact ⟨rfl, rfl⟩

include asleep in
theorem asksEdge_keepPolling (within : turn.core.clock.nextEdgeAfter turn.now ≤ horizon) :
    ∃ edge, turn.AsksEdge edge turn.keepPolling := by
  unfold keepPolling
  split
  · exact ⟨turn.core.nextEdge, rfl, rfl⟩
  · exact ⟨_, turn.asksEdge_requestNextEdge asleep within⟩

end asks

/-- An event that is no end of the present operation has reached the core. -/
structure Rests (before after : Turn) : Prop where
  workload : after.core.workload = before.core.workload
  latency : after.latency = before.latency
  upcoming : after.core.upcoming =
    { before.core.upcoming with completed := after.core.counters.completed }
  kept : after.core.outstanding ⊆ before.core.outstanding
  idle : before.core.outstanding = [] → after.core.counters.completed = before.core.counters.completed

structure Sees (finish : Nat → Nat) (turn : Turn) : Prop where
  kept : turn.polled.core.outstanding ⊆ turn.core.outstanding
  seen : ∀ handle ∈ turn.core.outstanding, finish handle < horizon →
    (handle ∈ turn.polled.core.outstanding ↔ turn.now < finish handle)

end Turn

namespace Core

variable {core : Core}

theorem Pauses.of_returns {finish : Nat → Nat} {agenda later : List (Nat × Event)} {back : Nat}
    (pauses : core.Pauses finish agenda back) {after : Core} (refused : after.refused = core.refused)
    (clock : after.clock = core.clock) (kept : after.outstanding ⊆ core.outstanding)
    (returns : after.Returns finish later back) : after.Pauses finish later back where
  fresh := refused.trans pauses.fresh
  within := clock ▸ pauses.within
  early := by
    intro outstanding
    rw [clock]
    refine pauses.early fun none => outstanding ?_
    rw [none] at kept
    exact List.eq_nil_of_subset_nil kept
  returns := returns

theorem Pauses.stores {finish : Nat → Nat} {agenda : List (Nat × Event)} {back : Nat}
    (pauses : core.Pauses finish agenda back) (stores : Nat) :
    ({ core with storesInFlight := stores } : Core).Pauses finish agenda back := by
  refine pauses.of_returns rfl rfl (List.Subset.refl _) ?_
  cases pauses.returns with
  | running phase asked => exact .running phase asked
  | busy edge phase asked soon => exact .busy edge phase asked soon
  | memory address issuedAt phase pending => exact .memory address issuedAt phase pending
  | fault tick fault phase policy pending next => exact .fault tick fault phase policy pending next
  | offloads edge phase asked soon bound last => exact .offloads edge phase asked soon bound last

theorem Returns.awake {finish : Nat → Nat} {agenda : List (Nat × Event)} {back : Nat}
    (returns : core.Returns finish agenda back) : core.isHalted = false := by
  unfold Core.isHalted
  cases returns <;> simp_all

end Core

namespace Turn

variable {turn : Turn} {rest : List (Nat × Event)} {finish : Nat → Nat} {back : Nat}

theorem upcoming_of_keeps {before after : Turn} (keeps : before.Keeps after) : after.core.upcoming =
    { before.core.upcoming with completed := after.core.counters.completed } := by
  unfold Core.upcoming
  rw [keeps.phase]
  cases before.core.phase with
  | running | waitOffloads | halted => exact keeps.counters
  | busy | waitMemory | waitFault =>
    simp only [Core.retire, Core.count]
    rw [keeps.counters]

theorem lt_horizon_of_near {clock : Clock} (near : back < clock.lastCycle) :
    back * clock.period < horizon := by
  have last : (back + 1) * clock.period ≤ horizon := Clock.le_lastCycle_iff.mp near
  have positive := clock.period_pos
  rw [Nat.succ_mul] at last
  omega

theorem Sees.mem_iff (sees : turn.Sees finish) {agenda : List (Nat × Event)}
    (pauses : turn.core.Pauses finish agenda back) {handle : Nat}
    (among : handle ∈ turn.core.outstanding)
    (ends : turn.core.clock.cycleAtOrAfter (finish handle) ≤ back) :
    handle ∈ turn.polled.core.outstanding ↔ turn.now < finish handle := by
  have near := lt_horizon_of_near (pauses.early (List.ne_nil_of_mem among))
  exact sees.seen handle among (Nat.lt_of_le_of_lt (Clock.cycleAtOrAfter_le_iff.mp ends) near)

theorem AsksStream.now_eq (asks : turn.AsksStream) {agenda : List (Nat × Event)}
    (pauses : turn.core.Pauses finish agenda back) (onEdge : turn.core.clock.period ∣ turn.now)
    (sees : turn.Sees finish) : turn.now = back * turn.core.clock.period := by
  have keeps := turn.keeps_polled
  have free := asks.free
  unfold Core.IsFree at free
  rw [show turn.polled.core.phase = turn.core.phase from keeps.phase,
    show turn.polled.core.clock = turn.core.clock from keeps.clock] at free
  cases pauses.returns with
  | running phase asked => exact Option.some.inj (asks.due.symm.trans asked)
  | busy edge phase asked soon =>
    obtain rfl := Option.some.inj (asks.due.symm.trans asked)
    rw [phase] at free
    have last := Clock.tickOfCycle_of_le (Clock.le_lastCycle_iff.mp pauses.within)
    exact Nat.le_antisymm soon (Nat.le_trans (Nat.le_of_eq last.symm) free)
  | memory address issuedAt phase =>
    rw [phase] at free
    cases free
  | fault tick fault phase =>
    rw [phase] at free
    cases free
  | offloads edge phase asked soon latest last =>
    obtain rfl := Option.some.inj (asks.due.symm.trans asked)
    rw [phase] at free
    rcases last with same | ⟨handle, among, ends⟩
    · exact same
    · -- the last offload is complete, so its cycle has come
      have elapsed : finish handle ≤ turn.now := by
        refine Nat.not_lt.mp fun later => ?_
        have still := (sees.mem_iff pauses among (latest handle among)).mpr later
        rw [free.2] at still
        cases still
      have reached := Clock.firstEdge_le_of_dvd onEdge elapsed
      unfold Clock.firstEdge at reached
      rw [ends] at reached
      exact Nat.le_antisymm soon reached

section poll

variable {agenda : List (Nat × Event)} (pauses : turn.core.Pauses finish agenda back)
  (sees : turn.Sees finish)

include pauses sees

theorem AsksEdge.waits_on {edge : Option Nat} {after : Turn} (asks : turn.polled.AsksEdge edge after)
    {later : List (Nat × Event)}
    (returns : ({ turn.polled.core with nextEdge := edge } : Core).Returns finish later back) :
    after.core.Pauses finish later back ∧ turn.Rests after := by
  obtain ⟨core, latency⟩ := asks
  have keeps := turn.keeps_polled
  have upcoming := upcoming_of_keeps keeps
  rw [core]
  refine ⟨pauses.of_returns keeps.refused keeps.clock sees.kept returns, {
    workload := ?_
    latency := latency.trans keeps.latency
    upcoming := ?_
    kept := ?_
    idle := ?_ }⟩
  · rw [core]
    exact keeps.workload
  · rw [core]
    exact upcoming
  · rw [core]
    exact sees.kept
  · intro idle
    rw [core, turn.polled_of_idle idle]
    rfl

theorem pauses_sleepUntil (busy : turn.core.phase = .busy back) :
    (turn.polled.sleepUntil (turn.polled.core.clock.tickOfCycle back)).core.Pauses finish
        ((turn.polled.sleepUntil (turn.polled.core.clock.tickOfCycle back)).agenda rest) back ∧
      turn.Rests (turn.polled.sleepUntil (turn.polled.core.clock.tickOfCycle back)) := by
  have keeps := turn.keeps_polled
  have last : turn.polled.core.clock.tickOfCycle back = back * turn.polled.core.clock.period := by
    rw [keeps.clock]
    exact Clock.tickOfCycle_of_le (Clock.le_lastCycle_iff.mp pauses.within)
  obtain ⟨edge, soon, asks⟩ :=
    turn.polled.asksEdge_sleepUntil keeps.nextEdge (turn.polled.core.clock.tickOfCycle back)
  exact asks.waits_on pauses sees (.busy edge (keeps.phase.trans busy) rfl (last ▸ soon))

theorem pauses_keepPolling {address issuedAt : Nat} (fresh : turn.effects.posts = [])
    (waits : turn.core.phase = .waitMemory) (later : turn.now < back * turn.core.clock.period) :
    turn.polled.keepPolling.core.Pauses finish (turn.polled.keepPolling.agenda
        [(back * turn.core.clock.period, .response turn.core.id address .load issuedAt)]) back ∧
      turn.Rests turn.polled.keepPolling := by
  have keeps := turn.keeps_polled
  have reached := Nat.le_trans (Clock.nextEdgeAfter_le_firstEdge later)
    (Clock.firstEdge_le_of_dvd (Nat.dvd_mul_left ..) (Nat.le_refl _))
  have next : turn.polled.core.clock.nextEdgeAfter turn.polled.now ≤ horizon := by
    rw [keeps.clock, keeps.now]
    exact Nat.le_trans reached (Clock.le_lastCycle_iff.mp pauses.within)
  have listed : turn.polled.agenda
      [(back * turn.core.clock.period, .response turn.core.id address .load issuedAt)] = _ :=
    agenda_of_fresh (keeps.posts.trans fresh)
  have member := turn.polled.extends_keepPolling.mem_agenda (listed ▸ List.mem_singleton_self _)
  obtain ⟨edge, asks⟩ := turn.polled.asksEdge_keepPolling keeps.nextEdge next
  refine asks.waits_on pauses sees (.memory address issuedAt (keeps.phase.trans waits) ?_)
  show (back * turn.polled.core.clock.period,
    Event.response turn.polled.core.id address .load issuedAt) ∈ _
  rw [keeps.clock, keeps.id]
  exact member

theorem pauses_requestNextEdge (waits : turn.core.phase = .waitOffloads false)
    (onEdge : turn.core.clock.period ∣ turn.now)
    (latest : ∀ handle ∈ turn.core.outstanding, turn.core.clock.cycleAtOrAfter (finish handle) ≤ back)
    (last : turn.now = back * turn.core.clock.period ∨
      ∃ handle ∈ turn.core.outstanding, turn.core.clock.cycleAtOrAfter (finish handle) = back)
    (some_left : turn.polled.core.outstanding ≠ []) :
    turn.polled.requestNextEdge.core.Pauses finish (turn.polled.requestNextEdge.agenda rest) back ∧
      turn.Rests turn.polled.requestNextEdge := by
  have keeps := turn.keeps_polled
  have clock : turn.polled.core.clock = turn.core.clock := keeps.clock
  have now : turn.polled.now = turn.now := keeps.now
  obtain ⟨handle, still⟩ := List.exists_mem_of_ne_nil _ some_left
  have among := sees.kept still
  have later := (sees.mem_iff pauses among (latest handle among)).mp still
  have next : turn.core.clock.nextEdgeAfter turn.now ≤ back * turn.core.clock.period :=
    Nat.le_trans (Clock.nextEdgeAfter_le_firstEdge later)
      (Clock.firstEdge_le_iff.mpr (Clock.cycleAtOrAfter_le_iff.mp (latest handle among)))
  have early : turn.now < back * turn.core.clock.period :=
    Nat.lt_of_lt_of_le (Clock.lt_nextEdgeAfter turn.now) next
  have asks := turn.polled.asksEdge_requestNextEdge keeps.nextEdge (by
    rw [clock, now]
    exact Nat.le_trans next (Clock.le_lastCycle_iff.mp pauses.within))
  rw [clock, now] at asks
  refine asks.waits_on pauses sees
    (.offloads _ (keeps.phase.trans waits) rfl (clock ▸ next) ?_ (.inr ?_))
  · intro other member
    show turn.polled.core.clock.cycleAtOrAfter (finish other) ≤ back
    rw [clock]
    exact latest other (sees.kept member)
  · -- the offload that ends last is not complete yet
    obtain ⟨last, outstanding, ends⟩ := last.resolve_left (Nat.ne_of_lt early)
    refine ⟨last, (sees.mem_iff pauses outstanding (latest last outstanding)).mpr ?_, ?_⟩
    · refine Nat.not_le.mp fun elapsed => ?_
      have reached := Clock.firstEdge_le_of_dvd onEdge elapsed
      unfold Clock.firstEdge at reached
      rw [ends] at reached
      exact Nat.not_le.mpr early reached
    · show turn.polled.core.clock.cycleAtOrAfter (finish last) = back
      rw [clock]
      exact ends

end poll

theorem pauses_coreEdge (fresh : turn.effects.posts = []) {since : Nat} {log : List Log.Line}
    (resumes : turn.core.Resumes since ((turn.now, .coreEdge turn.core.id) :: rest) log)
    (pauses : turn.core.Pauses finish ((turn.now, .coreEdge turn.core.id) :: rest) back)
    (sees : turn.Sees finish) (busy : ¬ turn.AsksStream) :
    turn.coreEdge.core.Pauses finish (turn.coreEdge.agenda rest) back ∧ turn.Rests turn.coreEdge := by
  have awake := pauses.returns.awake
  obtain ⟨due, onEdge, -, -, kind⟩ := resumes.at_edge awake
  have keeps := turn.keeps_polled
  have occupied : ¬ turn.polled.core.IsFree turn.now := fun free => busy ⟨due, pauses.fresh, free⟩
  unfold Core.IsFree at occupied
  have phases : turn.polled.core.phase = turn.core.phase := keeps.phase
  rw [phases, show turn.polled.core.clock = turn.core.clock from keeps.clock] at occupied
  rw [coreEdge_of_eq turn due awake]
  show turn.polled.proceed.core.Pauses finish (turn.polled.proceed.agenda rest) back ∧
    turn.Rests turn.polled.proceed
  unfold proceed
  rw [phases]
  -- the core takes no operation here, so it either sleeps on or polls and sleeps on
  cases pauses.returns with
  | running phase asked =>
    rw [phase] at occupied
    exact absurd trivial occupied
  | busy edge phase asked soon =>
    rw [phase] at occupied ⊢
    have early : turn.polled.now < turn.polled.core.clock.tickOfCycle back := by
      rw [keeps.clock, keeps.now]
      exact Nat.not_le.mp occupied
    simp only [if_pos early]
    exact pauses_sleepUntil pauses sees phase
  | memory address issuedAt phase pending =>
    rw [phase]
    rcases kind with ⟨active, -⟩ | ⟨-, tick, place, issued, rfl, later⟩
    · unfold Core.Active at active
      rw [phase] at active
      cases active
    · simp only [List.mem_cons, Prod.mk.injEq, reduceCtorEq, and_false, List.not_mem_nil, or_false,
        false_or] at pending
      obtain ⟨rfl, -⟩ := pending
      exact pauses_keepPolling pauses sees fresh phase later
  | fault tick fault phase =>
    rcases kind with ⟨active, -⟩ | ⟨waits, -⟩
    · unfold Core.Active at active
      rw [phase] at active
      cases active
    · cases phase.symm.trans waits
  | offloads edge phase asked soon latest last =>
    rw [phase] at occupied ⊢
    obtain rfl := Option.some.inj (due.symm.trans asked)
    have some_left : turn.polled.core.outstanding ≠ [] := fun none => occupied ⟨rfl, none⟩
    simp only [List.isEmpty_eq_false_iff.mpr some_left, Bool.not_false, if_true, keepPolling,
      Bool.false_eq_true, if_false]
    exact pauses_requestNextEdge pauses sees phase onEdge latest last some_left

theorem Rests.of_core {after : Turn} {phase : Phase} {edge : Option Nat} {counters : CoreCounters}
    {stores : Nat} (core : after.core = { turn.core with
      phase := phase
      nextEdge := edge
      counters := counters
      storesInFlight := stores }) (latency : after.latency = turn.latency)
    (counted : after.core.upcoming = turn.core.upcoming)
    (completed : counters.completed = turn.core.counters.completed) : turn.Rests after where
  workload := by rw [core]
  latency := latency
  upcoming := by
    rw [counted, core, completed]
    exact turn.core.upcoming_eq
  kept := by
    rw [core]
    exact List.Subset.refl _
  idle := by
    rw [core]
    exact fun _ => completed

theorem core_response {since address issuedAt : Nat} {log : List Log.Line}
    (resumes : turn.core.Resumes since
      ((turn.now, .response turn.core.id address .load issuedAt) :: rest) log)
    (awake : turn.core.isHalted = false) (within : turn.core.clock.firstEdge turn.now ≤ horizon) :
    (turn.response address .load issuedAt).core = { turn.core.retire with
        phase := .running
        nextEdge := some (turn.core.clock.firstEdge turn.now) } ∧
      (turn.response address .load issuedAt).latency = turn.latency := by
  obtain ⟨waits, asks⟩ := resumes.at_response awake
  obtain ⟨line, -, same⟩ := @response_load_eq turn address issuedAt
  rw [same, if_pos waits]
  rcases asks with ⟨asleep, -⟩ | ⟨asked, -⟩
  · have asks := Turn.asksEdge_requestFirstEdge (((turn.emit line).retire).setPhase .running) asleep within
    exact ⟨asks.core, asks.latency⟩
  · rw [@requestFirstEdge_of_asked (((turn.emit line).retire).setPhase .running) asked within, ← asked]
    exact ⟨rfl, rfl⟩

theorem pauses_response {since address issuedAt : Nat} {log : List Log.Line}
    (resumes : turn.core.Resumes since
      ((turn.now, .response turn.core.id address .load issuedAt) :: rest) log)
    (pauses : turn.core.Pauses finish
      ((turn.now, .response turn.core.id address .load issuedAt) :: rest) back)
    (agenda : List (Nat × Event)) :
    (turn.response address .load issuedAt).core.Pauses finish agenda back ∧
      turn.Rests (turn.response address .load issuedAt) := by
  have within := Clock.le_lastCycle_iff.mp pauses.within
  have awake := pauses.returns.awake
  obtain ⟨waits, asks⟩ := resumes.at_response awake
  have time : turn.now = back * turn.core.clock.period := by
    cases pauses.returns with
    | memory place issued phase pending =>
      rcases List.mem_cons.mp pending with same | behind
      · exact (congrArg Prod.fst same).symm
      · -- all that can be behind the response is an edge
        rcases asks with ⟨-, -, rfl⟩ | ⟨-, -, -, rfl⟩ <;> simp at behind
    | running phase => cases waits.symm.trans phase
    | busy edge phase => cases waits.symm.trans phase
    | fault tick fault phase => cases waits.symm.trans phase
    | offloads edge phase => cases waits.symm.trans phase
  have first : turn.core.clock.firstEdge turn.now = back * turn.core.clock.period :=
    Nat.le_antisymm (Clock.firstEdge_le_iff.mpr (Nat.le_of_eq time)) (time ▸ Clock.le_firstEdge turn.now)
  obtain ⟨core, latency⟩ := core_response resumes awake (first ▸ within)
  refine ⟨?_, Rests.of_core core latency ?_ rfl⟩
  · rw [core]
    exact pauses.of_returns rfl rfl (List.Subset.refl _) (.running rfl (congrArg some first))
  · unfold Core.upcoming
    rw [core, waits]

theorem fault_of_continue (policy : turn.core.faultPolicy = .continue) (fault : Fault) :
    ∃ line : Effects, turn.fault fault =
      (((turn.count fun counters => { counters with faults := counters.faults + 1 }).emit line).setPhase
        .running).requestNextEdge := by
  unfold Turn.fault
  simp only [policy]
  exact ⟨_, rfl⟩

theorem pauses_fault {since : Nat} {fault : Fault} {log : List Log.Line}
    (resumes : turn.core.Resumes since ((turn.now, .fault turn.core.id fault) :: rest) log)
    (pauses : turn.core.Pauses finish ((turn.now, .fault turn.core.id fault) :: rest) back)
    (agenda : List (Nat × Event)) :
    (turn.fault fault).core.Pauses finish agenda back ∧ turn.Rests (turn.fault fault) := by
  have within := Clock.le_lastCycle_iff.mp pauses.within
  obtain ⟨-, waits, asleep, rfl⟩ := resumes.at_fault
  cases pauses.returns with
  | running phase => cases waits.symm.trans phase
  | busy edge phase => cases waits.symm.trans phase
  | memory address issuedAt phase => cases waits.symm.trans phase
  | offloads edge phase => cases waits.symm.trans phase
  | fault tick other phase policy among next =>
    obtain ⟨rfl, -⟩ := Prod.mk.inj (List.mem_singleton.mp among)
    obtain ⟨line, same⟩ := fault_of_continue policy fault
    have asks := Turn.asksEdge_requestNextEdge (((turn.count fun counters =>
      { counters with faults := counters.faults + 1 }).emit line).setPhase .running) asleep
        (Nat.le_trans (Nat.le_of_eq next) within)
    rw [same]
    refine ⟨?_, Rests.of_core asks.core asks.latency ?_ rfl⟩
    · rw [asks.core]
      exact pauses.of_returns rfl rfl (List.Subset.refl _) (.running rfl (congrArg some next))
    · unfold Core.upcoming
      rw [asks.core, waits]
      rfl

def awaited (turn : Turn) (event : Event) (rest : List (Nat × Event)) : List (Nat × Event) :=
  if event.resumes turn.core.id then (turn.now, event) :: rest else rest

/-- An event of its own is about to reach a core in a run. -/
structure Takes (spec : Option CoprocessorSpec) (notes : Notes) (rest : List (Nat × Event))
    (log : List Log.Line) (event : Event) (turn : Turn) : Prop where
  fresh : turn.effects.posts = []
  proper : turn.Proper
  own : event.core = turn.core.id
  stands : ∃ since, turn.core.Stands spec notes since turn.now (turn.awaited event rest) log
    turn.coprocessor

theorem Takes.frame_deliver {spec : Option CoprocessorSpec} {notes : Notes} {log : List Log.Line}
    {event : Event} (takes : turn.Takes spec notes rest log event) :
    (turn.deliver event).core.id = turn.core.id ∧ (turn.deliver event).core.clock = turn.core.clock ∧
      (turn.deliver event).core.faultPolicy = turn.core.faultPolicy := by
  obtain ⟨fresh, proper, own, since, stands⟩ := takes
  by_cases edge : ∃ core, event = .coprocessorEdge core
  · obtain ⟨core, rfl⟩ := edge
    have same := turn.frame_coprocessorEdge.1
    exact ⟨congrArg Core.id same, congrArg Core.clock same, congrArg Core.faultPolicy same⟩
  · have others := fun core same => edge ⟨core, same⟩
    have extended := turn.extends_deliver others (fun due awake isEdge =>
      period_dvd_of_stands fresh proper own stands awake isEdge) proper.within
    exact ⟨extended.id, extended.clock, extended.policy⟩

/-- What an event is to the core that it reaches: an edge, a response or a fault, for which the core may be
    waiting, or something that can only end a store. -/
inductive Reaches (rest : List (Nat × Event)) (log : List Log.Line) (turn : Turn) : Event → Prop
  | quiet (event : Event) (awaited : turn.awaited event rest = rest)
      (agenda : (turn.deliver event).agenda rest = rest) (latency : (turn.deliver event).latency = turn.latency)
      (stores : Nat) (core : (turn.deliver event).core = { turn.core with storesInFlight := stores }) :
      Reaches rest log turn event
  | edge (since : Nat)
      (awaited : turn.awaited (.coreEdge turn.core.id) rest = (turn.now, .coreEdge turn.core.id) :: rest)
      (resumes : turn.core.Resumes since ((turn.now, .coreEdge turn.core.id) :: rest) log) :
      Reaches rest log turn (.coreEdge turn.core.id)
  | response (address issuedAt since : Nat)
      (awaited : turn.awaited (.response turn.core.id address .load issuedAt) rest =
        (turn.now, .response turn.core.id address .load issuedAt) :: rest)
      (resumes : turn.core.Resumes since
        ((turn.now, .response turn.core.id address .load issuedAt) :: rest) log) :
      Reaches rest log turn (.response turn.core.id address .load issuedAt)
  | fault (fault : Fault) (since : Nat)
      (awaited : turn.awaited (.fault turn.core.id fault) rest = (turn.now, .fault turn.core.id fault) :: rest)
      (resumes : turn.core.Resumes since ((turn.now, .fault turn.core.id fault) :: rest) log) :
      Reaches rest log turn (.fault turn.core.id fault)

section takes

variable {spec : Option CoprocessorSpec} {notes : Notes} {log : List Log.Line} {event : Event}

theorem Takes.reaches (takes : turn.Takes spec notes rest log event) : turn.Reaches rest log event := by
  obtain ⟨fresh, -, own, since, stands⟩ := takes
  have resumes := stands.resumes
  have unchanged : turn.agenda rest = rest := agenda_of_fresh fresh
  cases event with
  | coreEdge core =>
    obtain rfl : core = turn.core.id := own
    have same : turn.awaited (.coreEdge turn.core.id) rest = _ := if_pos (by simp [Event.resumes])
    exact .edge since same (same ▸ resumes)
  | coprocessorEdge core =>
    obtain ⟨same, latency, -⟩ := turn.frame_coprocessorEdge
    exact .quiet _ (if_neg (by simp [Event.resumes])) (agenda_coprocessorEdge.trans unchanged) latency
      turn.core.storesInFlight same
  | response core address kind issuedAt =>
    obtain rfl : core = turn.core.id := own
    cases kind with
    | load =>
      have same : turn.awaited (.response turn.core.id address .load issuedAt) rest = _ :=
        if_pos (by simp [Event.resumes])
      exact .response address issuedAt since same (same ▸ resumes)
    | store =>
      exact .quiet _ (if_neg (by simp [Event.resumes])) ((agenda_response_store ..).trans unchanged) rfl _ rfl
  | fault core fault =>
    obtain rfl : core = turn.core.id := own
    have same : turn.awaited (.fault turn.core.id fault) rest = _ := if_pos (by simp [Event.resumes])
    exact .fault fault since same (same ▸ resumes)

theorem Takes.due {core : Nat} (takes : turn.Takes spec notes rest log (.coreEdge core))
    (awake : turn.core.isHalted = false) : ∃ since, turn.core.Due since turn.now rest := by
  cases takes.reaches with
  | quiet _ awaited => simp [Turn.awaited, Event.resumes, show core = turn.core.id from takes.own] at awaited
  | edge since _ resumes => exact ⟨since, resumes.at_edge awake⟩

/-- Whatever reaches a core leaves it with the operation it is in, unless it asks its stream for the next
    one. -/
theorem Takes.pauses_deliver (takes : turn.Takes spec notes rest log event)
    (pauses : turn.core.Pauses finish (turn.awaited event rest) back) (sees : turn.Sees finish)
    (busy : ∀ core, event = .coreEdge core → ¬ turn.AsksStream) :
    (turn.deliver event).core.Pauses finish ((turn.deliver event).agenda rest) back ∧
      turn.Rests (turn.deliver event) := by
  cases takes.reaches with
  | quiet event same agenda latency stores core =>
    rw [same] at pauses
    refine ⟨?_, Rests.of_core core latency (by rw [core]; rfl) rfl⟩
    rw [core, agenda]
    exact pauses.stores stores
  | edge since same resumes =>
    rw [same] at pauses
    exact pauses_coreEdge takes.fresh resumes pauses sees (busy _ rfl)
  | response address issuedAt since same resumes =>
    rw [same] at pauses
    exact pauses_response resumes pauses _
  | fault fault since same resumes =>
    rw [same] at pauses
    exact pauses_fault resumes pauses _

end takes

end Turn

end CoreTiming
