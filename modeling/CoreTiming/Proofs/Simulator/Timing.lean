import CoreTiming.Proofs.Simulator.Turns

namespace CoreTiming

theorem StopCondition.includes_of_le {stop : StopCondition} {earlier later : Nat}
    (included : stop.excludes later = false) (order : earlier ≤ later) : stop.excludes earlier = false := by
  by_contra excluded
  rw [excludes_of_le (eq_true_of_ne_false excluded) order] at included
  cases included

namespace Core

variable {core : Core} {since : Nat} {agenda : List (Nat × Event)} {log : List Log.Line}

theorem Resumes.mem_of_nextEdge (resumes : core.Resumes since agenda log) (awake : core.isHalted = false)
    {edge : Nat} (asked : core.nextEdge = some edge) : (edge, .coreEdge core.id) ∈ agenda := by
  cases resumes with
  | halted stopped =>
    unfold Core.isHalted at awake
    simp [stopped] at awake
  | edge tick active same pending =>
    obtain rfl := Option.some.inj (asked.symm.trans same)
    rw [pending]
    exact List.mem_singleton_self _
  | memory tick address issuedAt waits asleep => cases asleep.symm.trans asked
  | polling tick address issuedAt waits same pending =>
    obtain rfl := Option.some.inj (asked.symm.trans same)
    rw [pending]
    exact Queue.mem_insertLate.mpr (.inl rfl)
  | fault fault waits asleep => cases asleep.symm.trans asked

theorem Pauses.exists_pending {finish : Nat → Nat} {back : Nat} (pauses : core.Pauses finish agenda back)
    (resumes : core.Resumes since agenda log) :
    ∃ tick event, (tick, event) ∈ agenda ∧ tick ≤ back * core.clock.period := by
  have awake := pauses.returns.awake
  cases pauses.returns with
  | running phase asked => exact ⟨_, _, resumes.mem_of_nextEdge awake asked, Nat.le_refl _⟩
  | busy edge phase asked soon => exact ⟨_, _, resumes.mem_of_nextEdge awake asked, soon⟩
  | memory address issuedAt phase pending => exact ⟨_, _, pending, Nat.le_refl _⟩
  | fault tick fault phase policy pending next =>
    exact ⟨_, _, pending, next ▸ Nat.le_of_lt (Clock.lt_nextEdgeAfter tick)⟩
  | offloads edge phase asked soon => exact ⟨_, _, resumes.mem_of_nextEdge awake asked, soon⟩

end Core

namespace Turn

def HasRoom (turn : Turn) : Prop :=
  ∃ unit, turn.polled.coprocessor = some unit ∧ unit.occupancy < unit.capacity

variable {turn : Turn}

theorem outcome?_congr {operation : Operation} (other : operation ≠ .wait) (finish later : Nat → Nat) :
    turn.outcome? finish operation = turn.outcome? later operation := by
  cases operation with
  | wait => exact absurd rfl other
  | compute | load | store | offload | halt => rfl

theorem Takes.core_of_running {spec : Option CoprocessorSpec} {notes : Notes} {rest : List (Nat × Event)}
    {log : List Log.Line} {event : Event} (takes : turn.Takes spec notes rest log event)
    (running : turn.core.phase = .running) (other : ∀ core, event ≠ .coreEdge core) :
    ∃ stores, (turn.deliver event).core = { turn.core with storesInFlight := stores } := by
  have awake : turn.core.isHalted = false := by simp [Core.isHalted, running]
  cases takes.reaches with
  | quiet event same agenda latency stores core => exact ⟨stores, core⟩
  | edge => exact absurd rfl (other _)
  | response address issuedAt since same resumes => cases running.symm.trans (resumes.at_response awake).1
  | fault fault since same resumes => cases running.symm.trans resumes.at_fault.2.1

theorem stalls_issuing : turn.issuing.core.counters.stalls = turn.core.counters.stalls := by
  refine turn.polled.core.stalls_upcoming.trans ?_
  rw [turn.keeps_polled.counters]
  rfl

theorem finish_le_of_wait {finish : Nat → Nat} {outcome : Outcome}
    (found : turn.issuing.outcome? finish .wait = some outcome) {handle : Nat}
    (outstanding : handle ∈ turn.polled.core.outstanding) :
    finish handle ≤ outcome.cycle * turn.core.clock.period := by
  simp only [outcome?] at found
  obtain ⟨back, latest, rfl⟩ := Option.map_eq_some_iff.mp found
  have bound := (List.max?_eq_some_iff.mp latest).2 _
    (List.mem_cons_of_mem _ (List.mem_map_of_mem outstanding))
  have clock : turn.issuing.core.clock = turn.core.clock := turn.keeps_polled.clock
  rw [clock] at bound
  exact Clock.cycleAtOrAfter_le_iff.mp bound

theorem outcome?_of_hasRoom (room : turn.HasRoom) (work : Offload) (finish : Nat → Nat) :
    turn.issuing.outcome? finish (.offload work) = some ⟨turn.cycle + 1, { turn.issuing.core.counters with
      retired := turn.issuing.core.counters.retired + 1
      submitted := turn.issuing.core.counters.submitted + 1 }, turn.issuing.latency⟩ := by
  obtain ⟨unit, attached, less⟩ := room
  have attached : turn.issuing.coprocessor = some unit := attached
  unfold outcome?
  simp only [attached]
  rw [if_pos less, cycle_issuing]

theorem performs_of_retries {again : Nat} {work : Offload} (retries : turn.core.Retries work again)
    (due : turn.core.nextEdge = some turn.now) :
    turn.Performs (.offload work) turn.core.workload := by
  have running : turn.polled.core.phase = .running := turn.keeps_polled.phase.trans retries.phase
  exact ⟨due, Core.isFree_of_running running _, .inr ⟨work, retries.refused, rfl, rfl⟩⟩

theorem outstanding_of_wait {workload : Workload} (performs : turn.Performs .wait workload) :
    turn.coreEdge.core.outstanding = turn.polled.core.outstanding := by
  obtain ⟨pc, same⟩ := performs.coreEdge_eq
  have ledger := (turn.performing workload pc).ledger_execute turn.cycle .wait
  rw [← same] at ledger
  exact congrArg Ledger.outstanding ledger

end Turn

namespace Simulator

/-- The core is in an operation that it is done with in cycle `back`, and then it has these counters. -/
def Engaged (spec : CoprocessorSpec) (index : Nat) (submissions : List Submission) (clock : Clock)
    (back : Nat) (counters : CoreCounters) (state : (Nat → Notes) × Simulator) : Prop :=
  ∃ station, state.2.stations[index]? = some station ∧ station.core.clock = clock ∧
    station.core.Pauses ((Service.ofSpec spec).completedAt submissions) (state.2.awaiting index) back ∧
    station.core.upcoming = { counters with completed := station.core.counters.completed } ∧
    (state.1 index).submissions = submissions

/-- The core will try a refused offload again, in cycle `again`. -/
def Retrying (index : Nat) (work : Offload) (clock : Clock) (again stalls : Nat)
    (state : (Nat → Notes) × Simulator) : Prop :=
  ∃ station, state.2.stations[index]? = some station ∧ station.core.clock = clock ∧
    station.core.Retries work again ∧ station.core.counters.stalls = stalls

def Asks (index : Nat) (state : (Nat → Notes) × Simulator) : Prop :=
  ∃ turn, state.2.edgeTurn? index = some turn ∧ turn.AsksStream

/-- After the event `earlier` the core next asks its stream at the event `later`. -/
structure NextAsk (first : Simulator) (index earlier later : Nat) (turn : Turn) : Prop where
  order : earlier < later
  edge : (first.states later).2.edgeTurn? index = some turn
  asks : turn.AsksStream
  between : ∀ events, earlier < events → events < later → ¬ Asks index (first.states events)

variable {notes : Nat → Notes} {sim next : Simulator} {platform : Platform} {first : Simulator}
  {spec : CoprocessorSpec} {index : Nat} {submissions : List Submission} {clock : Clock} {back : Nat}
  {counters : CoreCounters} {work : Offload} {again stalls : Nat}

theorem Sound.exists_handles (sound : sim.Sound notes) {turn : Turn}
    (edge : sim.edgeTurn? index = some turn) : ∃ next failed rest, sim.step? = some (next, failed) ∧
      Handles notes sim next index (.coreEdge index) rest turn := by
  cases stepped : sim.step? with
  | none =>
    obtain ⟨_, _, _, due, -⟩ := exists_of_edgeTurn? edge
    cases (Option.map_eq_none_iff.mp stepped).symm.trans due
  | some outcome =>
    obtain ⟨next, failed⟩ := outcome
    rcases sound.step_cases stepped index with passes | ⟨event, rest, other, handles⟩
    · cases passes.edge.symm.trans edge
    · have found := handles.edge.symm.trans edge
      split at found
      · rename_i same
        cases found
        exact ⟨next, failed, rest, rfl, same ▸ handles⟩
      · cases found

theorem Sound.not_elapsed (sound : sim.Sound notes) {tick : Nat} {event : Event} {bound : Nat}
    (pending : (tick, event) ∈ sim.awaiting index) (order : tick ≤ bound)
    (included : sim.platform.stop.excludes bound = false) : sim.step? ≠ none := by
  intro elapsed
  have passed : sim.HasPassed bound := .inr ⟨elapsed, included⟩
  exact Nat.not_lt.mpr order (passed.lt_of_agenda sound.ordered pending)

theorem Engaged.goes (engaged : Engaged spec index submissions clock back counters (notes, sim))
    (sound : sim.Sound notes) (included : sim.platform.stop.excludes (back * clock.period) = false) :
    sim.step? ≠ none := by
  obtain ⟨station, found, rfl, pauses, -, -⟩ := engaged
  have standing := sound.stations index station found
  obtain ⟨since, stands⟩ := standing.stands
  obtain ⟨tick, event, pending, order⟩ := pauses.exists_pending stands.resumes
  exact sound.not_elapsed pending order included

theorem Handles.sees {event : Event} {rest : List (Nat × Event)} {turn : Turn}
    (handles : Handles notes sim next index event rest turn) (lent : sim.platform.coprocessor = some spec) :
    turn.Sees ((Service.ofSpec spec).completedAt (notes index).submissions) := by
  obtain ⟨since, stands⟩ := handles.takes.stands
  rw [lent] at stands
  exact Turn.sees_of_stands stands

theorem Engaged.keeps (engaged : Engaged spec index submissions clock back counters (notes, sim))
    (sound : sim.Sound notes) (lent : sim.platform.coprocessor = some spec) {failed : Option Nat}
    (stepped : sim.step? = some (next, failed)) (silent : ¬ Asks index (notes, sim)) :
    Engaged spec index submissions clock back counters (noted notes sim next, next) := by
  obtain ⟨station, found, rfl, pauses, upcoming, rfl⟩ := engaged
  rcases sound.step_cases stepped index with passes | ⟨event, rest, turn, handles⟩
  · refine ⟨station, passes.station.trans found, rfl, ?_, upcoming, ?_⟩
    · rw [passes.awaiting]
      exact pauses
    · exact congrArg Notes.submissions passes.written
  · obtain rfl := Option.some.inj (found.symm.trans handles.station)
    rw [handles.awaited] at pauses
    have busy : ∀ core, event = .coreEdge core → ¬ turn.AsksStream := by
      rintro core rfl asks
      obtain rfl : core = index := handles.takes.own.trans handles.numbered
      exact silent ⟨turn, handles.edge.trans (if_pos rfl), asks⟩
    obtain ⟨after, rests⟩ := handles.takes.pauses_deliver pauses (handles.sees lent) busy
    refine ⟨_, handles.left, handles.takes.frame_deliver.2.1, ?_, ?_, ?_⟩
    · rw [handles.awaiting]
      exact after
    · rw [rests.upcoming, upcoming]
    · show (noted notes sim next index).submissions = _
      rw [handles.written]
      exact Notes.submissions_extend rests.kept

theorem Handles.submissions_of_wait {rest : List (Nat × Event)} {turn : Turn} {workload : Workload}
    (handles : Handles notes sim next index (.coreEdge index) rest turn)
    (lent : sim.platform.coprocessor = some spec) (performs : turn.Performs .wait workload) :
    (noted notes sim next index).submissions = (notes index).submissions := by
  have kept : turn.coreEdge.core.outstanding ⊆ turn.core.outstanding := by
    rw [Turn.outstanding_of_wait performs]
    exact (handles.sees lent).kept
  rw [handles.written]
  exact Notes.submissions_extend kept

theorem Handles.engaged {rest : List (Nat × Event)} {turn : Turn} {operation : Operation}
    {workload : Workload} (handles : Handles notes sim next index (.coreEdge index) rest turn)
    (lent : sim.platform.coprocessor = some spec) (performs : turn.Performs operation workload)
    {outcome : Outcome} (found : turn.issuing.outcome?
      ((Service.ofSpec spec).completedAt (notes index).submissions) operation = some outcome)
    (early : outcome.cycle < turn.core.clock.lastCycle) :
    Engaged spec index (noted notes sim next index).submissions turn.core.clock outcome.cycle
      outcome.counters (noted notes sim next, next) := by
  have takes := handles.takes
  rw [← handles.numbered] at takes
  have same : turn.issuing.outcome?
      ((Service.ofSpec spec).completedAt (noted notes sim next index).submissions) operation =
        some outcome := by
    by_cases waits : operation = .wait
    · -- nothing is submitted, so no offload is complete at another time than before
      subst waits
      rwa [handles.submissions_of_wait lent performs]
    · rwa [Turn.outcome?_congr waits]
  obtain ⟨rfl, begun⟩ := performs.begun takes same (Nat.le_of_lt early) (.inl early)
  refine ⟨_, handles.left, handles.takes.frame_deliver.2.1, ?_, ?_, rfl⟩
  · rw [handles.awaiting]
    exact begun.pauses
  · rw [← begun.upcoming]
    exact Core.upcoming_eq _

theorem Retrying.goes (retrying : Retrying index work clock again stalls (notes, sim))
    (sound : sim.Sound notes) (included : sim.platform.stop.excludes (again * clock.period) = false) :
    sim.step? ≠ none := by
  obtain ⟨station, found, rfl, retries, -⟩ := retrying
  obtain ⟨since, stands⟩ := (sound.stations index station found).stands
  exact sound.not_elapsed (stands.resumes.mem_of_nextEdge retries.awake retries.asked) (Nat.le_refl _) included

theorem Retrying.keeps (retrying : Retrying index work clock again stalls (notes, sim))
    (sound : sim.Sound notes) {failed : Option Nat} (stepped : sim.step? = some (next, failed))
    (quiet : sim.edgeTurn? index = none) :
    Retrying index work clock again stalls (noted notes sim next, next) := by
  obtain ⟨station, found, rfl, retries, rfl⟩ := retrying
  rcases sound.step_cases stepped index with passes | ⟨event, rest, turn, handles⟩
  · exact ⟨station, passes.station.trans found, rfl, retries, rfl⟩
  · obtain rfl := Option.some.inj (found.symm.trans handles.station)
    have other : ∀ core, event ≠ .coreEdge core := by
      rintro core rfl
      obtain rfl : core = index := handles.takes.own.trans handles.numbered
      have due := handles.edge.symm.trans quiet
      rw [if_pos rfl] at due
      cases due
    obtain ⟨stores, core⟩ := handles.takes.core_of_running retries.phase other
    refine ⟨_, handles.left, ?_, ?_, ?_⟩
    · rw [core]
    · rw [core]
      exact ⟨retries.refused, retries.phase, retries.asked⟩
    · rw [core]

theorem Handles.retrying {rest : List (Nat × Event)} {turn : Turn} {workload : Workload}
    (handles : Handles notes sim next index (.coreEdge index) rest turn)
    (lent : sim.platform.coprocessor = some spec) (performs : turn.Performs (.offload work) workload)
    (full : ¬ turn.HasRoom) (within : turn.cycle + 1 ≤ turn.core.clock.lastCycle) :
    Retrying index work turn.core.clock (turn.cycle + 1) (turn.core.counters.stalls + 1)
      (noted notes sim next, next) := by
  obtain ⟨since, stands⟩ := handles.takes.stands
  rw [lent] at stands
  obtain ⟨unit, attached⟩ := Turn.exists_polled_unit stands
  have full : unit.capacity ≤ unit.occupancy := Nat.not_lt.mp fun room => full ⟨unit, attached, room⟩
  have takes := handles.takes
  rw [← handles.numbered] at takes
  obtain ⟨rfl, retries, -, counters⟩ := performs.retries takes attached full within
  refine ⟨_, handles.left, handles.takes.frame_deliver.2.1, retries, ?_⟩
  show turn.coreEdge.core.counters.stalls = turn.core.counters.stalls + 1
  rw [counters, Turn.stalls_issuing]

section run

variable (prepared : first.Prepared platform) (fresh : first.dispatched = 0)
  (equipped : platform.coprocessor = some spec)

include prepared in
theorem platform_states {state : (Nat → Notes) × Simulator} (run : Run first state.1 state.2) :
    state.2.Sound state.1 ∧ state.2.platform = platform :=
  ⟨run.sound prepared, run.platform_eq prepared⟩

include prepared fresh equipped

theorem Engaged.exists_ask {begun : Nat}
    (engaged : Engaged spec index submissions clock back counters (first.states begun))
    (included : platform.stop.excludes (back * clock.period) = false) :
    ∃ later turn, begun ≤ later ∧ (first.states later).2.edgeTurn? index = some turn ∧
      turn.AsksStream ∧ turn.now = back * clock.period ∧
      turn.core.upcoming = { counters with completed := turn.core.counters.completed } ∧
      ((first.states later).1 index).submissions = submissions ∧
      ∀ events, begun ≤ events → events < later → ¬ Asks index (first.states events) := by
  obtain ⟨later, order, ⟨station, found, rfl, pauses, upcoming, rfl⟩, ⟨turn, edge, asks⟩, earlier⟩ :=
    exists_first prepared fresh engaged (Asks index)
      (fun state run engaged => by
        obtain ⟨sound, same⟩ := platform_states prepared run
        exact engaged.goes sound (same ▸ included))
      (fun state next run engaged silent stepped => by
        obtain ⟨sound, same⟩ := platform_states prepared run
        exact engaged.keeps sound (same ▸ equipped) stepped silent)
  obtain ⟨sound, same⟩ := platform_states prepared (run_states first later)
  obtain ⟨next, failed, rest, -, handles⟩ := sound.exists_handles edge
  obtain rfl := Option.some.inj (found.symm.trans handles.station)
  have sees := handles.sees (same ▸ equipped)
  obtain ⟨since, due⟩ := handles.takes.due (Turn.awake_of_free asks.free)
  exact ⟨later, turn, order, edge, asks, asks.now_eq pauses due.onEdge sees, upcoming, rfl,
    fun events after before => (earlier events after before).2⟩

omit equipped in
theorem Retrying.exists_try {begun : Nat}
    (retrying : Retrying index work clock again stalls (first.states begun))
    (included : platform.stop.excludes (again * clock.period) = false) :
    ∃ later turn, begun ≤ later ∧ (first.states later).2.edgeTurn? index = some turn ∧
      turn.core.clock = clock ∧ turn.cycle = again ∧ turn.core.refused = some work ∧
      turn.Performs (.offload work) turn.core.workload ∧ turn.core.counters.stalls = stalls ∧
      ∀ events, begun ≤ events → events < later → (first.states events).2.edgeTurn? index = none := by
  obtain ⟨later, order, ⟨station, found, rfl, retries, rfl⟩, awake, earlier⟩ :=
    exists_first prepared fresh retrying (fun state => state.2.edgeTurn? index ≠ none)
      (fun state run retrying => by
        obtain ⟨sound, same⟩ := platform_states prepared run
        exact retrying.goes sound (same ▸ included))
      (fun state next run retrying quiet stepped => by
        obtain ⟨sound, -⟩ := platform_states prepared run
        exact retrying.keeps sound stepped (Decidable.not_not.mp quiet))
  obtain ⟨turn, edge⟩ := Option.ne_none_iff_exists'.mp awake
  obtain ⟨sound, -⟩ := platform_states prepared (run_states first later)
  obtain ⟨next, failed, rest, -, handles⟩ := sound.exists_handles edge
  obtain rfl := Option.some.inj (found.symm.trans handles.station)
  obtain ⟨since, due⟩ := handles.takes.due retries.awake
  have now : turn.now = again * turn.core.clock.period :=
    Option.some.inj (due.asked.symm.trans retries.asked)
  have cycle : turn.cycle = again := by
    unfold Turn.cycle Clock.cycleAt
    rw [now, Nat.mul_div_cancel _ turn.core.clock.period_pos]
  exact ⟨later, turn, order, edge, rfl, cycle, retries.refused,
    Turn.performs_of_retries retries due.asked, rfl,
    fun events after before => Decidable.not_not.mp (earlier events after before).2⟩

theorem exists_try {begun : Nat} {turn : Turn}
    (edge : (first.states begun).2.edgeTurn? index = some turn) {workload : Workload}
    (performs : turn.Performs (.offload work) workload) {cycle : Nat} (from_now : turn.cycle ≤ cycle)
    (within : cycle ≤ turn.core.clock.lastCycle)
    (included : platform.stop.excludes (cycle * turn.core.clock.period) = false)
    (full : ∀ events other, begun ≤ events → (first.states events).2.edgeTurn? index = some other →
      other.cycle < cycle → ¬ other.HasRoom) :
    ∃ events other workload, begun ≤ events ∧ (first.states events).2.edgeTurn? index = some other ∧
      other.core.clock = turn.core.clock ∧ other.cycle = cycle ∧
      other.Performs (.offload work) workload ∧
      other.core.counters.stalls = turn.core.counters.stalls + (cycle - turn.cycle) ∧
      ∀ earlier, begun < earlier → earlier ≤ events → ¬ Asks index (first.states earlier) := by
  -- on the cycle: a refused offload asks again at the next edge, one stall later
  induction cycle, from_now using Nat.le_induction with
  | base =>
    exact ⟨begun, turn, workload, Nat.le_refl _, edge, rfl, rfl, performs, by omega, by omega⟩
  | succ cycle from_now ih =>
    have positive := turn.core.clock.period_pos
    have sooner : platform.stop.excludes (cycle * turn.core.clock.period) = false :=
      StopCondition.includes_of_le included (Nat.mul_le_mul_right _ (Nat.le_succ cycle))
    obtain ⟨events, other, workload, order, edge, clock, rfl, performs, stalls, silent⟩ :=
      ih (by omega) sooner fun events other after edge less => full events other after edge (by omega)
    have crowded := full events other order edge (Nat.lt_succ_self _)
    obtain ⟨sound, same⟩ := platform_states prepared (run_states first events)
    obtain ⟨next, failed, rest, stepped, handles⟩ := sound.exists_handles edge
    have retrying := handles.retrying (same ▸ equipped) performs crowded (clock ▸ within)
    obtain ⟨rfl, -⟩ := sound.step stepped
    rw [← states_succ stepped] at retrying
    obtain ⟨later, again, after, tried, ticks, now, refused, repeats, counted, quiet⟩ :=
      retrying.exists_try prepared fresh (clock ▸ included)
    refine ⟨later, again, _, by omega, tried, ticks.trans clock, now, repeats, by omega, ?_⟩
    rintro earlier past before ⟨asking, found, asks⟩
    rcases Nat.lt_trichotomy earlier later with less | rfl | more
    · by_cases settled : earlier ≤ events
      · exact silent earlier past settled ⟨asking, found, asks⟩
      · rw [quiet earlier (by omega) less] at found
        cases found
    · obtain rfl := Option.some.inj (found.symm.trans tried)
      cases asks.fresh.symm.trans refused
    · omega

omit fresh equipped in
theorem now_of_edgeTurn? {events : Nat} {turn : Turn}
    (edge : (first.states events).2.edgeTurn? index = some turn)
    (free : turn.polled.core.IsFree turn.now) : turn.now = turn.cycle * turn.core.clock.period := by
  obtain ⟨next, failed, rest, -, handles⟩ :=
    (platform_states prepared (run_states first events)).1.exists_handles edge
  obtain ⟨since, due⟩ := handles.takes.due (Turn.awake_of_free free)
  exact (Nat.div_mul_cancel due.onEdge).symm

omit fresh in
theorem Engaged.of_performs {begun : Nat} {turn : Turn}
    (edge : (first.states begun).2.edgeTurn? index = some turn) {operation : Operation}
    {workload : Workload} (performs : turn.Performs operation workload) {outcome : Outcome}
    (found : turn.issuing.outcome?
      ((Service.ofSpec spec).completedAt ((first.states begun).1 index).submissions) operation =
        some outcome) (early : outcome.cycle < turn.core.clock.lastCycle) :
    Engaged spec index ((first.states (begun + 1)).1 index).submissions turn.core.clock outcome.cycle
      outcome.counters (first.states (begun + 1)) := by
  obtain ⟨sound, same⟩ := platform_states prepared (run_states first begun)
  obtain ⟨next, failed, rest, stepped, handles⟩ := sound.exists_handles edge
  obtain ⟨rfl, -⟩ := sound.step stepped
  rw [states_succ stepped]
  exact handles.engaged (same ▸ equipped) performs found early

omit fresh in
theorem stands_of_edgeTurn? {events : Nat} {turn : Turn}
    (edge : (first.states events).2.edgeTurn? index = some turn) : ∃ since agenda log,
      turn.core.Stands (some spec) ((first.states events).1 index) since turn.now agenda log
        turn.coprocessor := by
  obtain ⟨sound, same⟩ := platform_states prepared (run_states first events)
  obtain ⟨next, failed, rest, -, handles⟩ := sound.exists_handles edge
  obtain ⟨since, stands⟩ := handles.takes.stands
  rw [same, equipped] at stands
  exact ⟨since, _, _, stands⟩

omit fresh in
theorem submissions_of_wait {begun : Nat} {turn : Turn}
    (edge : (first.states begun).2.edgeTurn? index = some turn) {workload : Workload}
    (performs : turn.Performs .wait workload) :
    ((first.states (begun + 1)).1 index).submissions = ((first.states begun).1 index).submissions := by
  obtain ⟨sound, same⟩ := platform_states prepared (run_states first begun)
  obtain ⟨next, failed, rest, stepped, handles⟩ := sound.exists_handles edge
  obtain ⟨rfl, -⟩ := sound.step stepped
  rw [states_succ stepped]
  exact handles.submissions_of_wait (same ▸ equipped) performs

omit fresh in
theorem exists_result_of_wait {begun later : Nat} {turn next : Turn}
    (edge : (first.states begun).2.edgeTurn? index = some turn)
    (asked : (first.states later).2.edgeTurn? index = some next)
    (same : ((first.states later).1 index).submissions = ((first.states begun).1 index).submissions)
    {outcome : Outcome} (found : turn.issuing.outcome?
      ((Service.ofSpec spec).completedAt ((first.states begun).1 index).submissions) .wait = some outcome)
    (early : outcome.cycle < turn.core.clock.lastCycle)
    (now : next.now = outcome.cycle * turn.core.clock.period) :
    ∀ handle ∈ turn.polled.core.outstanding, ∃ result ∈ next.polled.core.completions,
      result.handle = handle ∧ result.completedAt =
        (Service.ofSpec spec).completedAt ((first.states begun).1 index).submissions handle := by
  intro handle outstanding
  obtain ⟨_, _, _, stands⟩ := stands_of_edgeTurn? prepared equipped edge
  obtain ⟨unit, balanced, -⟩ := Turn.balanced_of_stands stands
  obtain ⟨booking, booked, named⟩ :=
    balanced.exists_booking ((Turn.sees_of_stands stands).kept outstanding)
  obtain ⟨_, _, _, stands⟩ := stands_of_edgeTurn? prepared equipped asked
  have sees := Turn.sees_of_stands stands
  rw [← same] at found booked ⊢
  have complete := Turn.finish_le_of_wait found outstanding
  have bound := Turn.lt_horizon_of_near early
  refine Turn.exists_seen stands ?_ ?_
  · exact named ▸ List.mem_map_of_mem (Service.submission_mem booked)
  · intro still
    have later := (sees.seen handle (sees.kept still) (by omega)).mp still
    omega

end run

/-- The ticks at which the offloads of a core will have been complete, of those accepted by now. -/
def completedAt (first : Simulator) (spec : CoprocessorSpec) (events index handle : Nat) : Nat :=
  (Service.ofSpec spec).completedAt ((first.states events).1 index).submissions handle

/-- A core with a coprocessor that takes an operation from its stream next asks its stream in the cycle
    that is foretold. After a wait it has then seen the results that it waited for. An offload is tried in
    each cycle up to the first one with room for it, is done with in the next cycle, and has then counted a
    stall for each cycle in which it was tried in vain. -/
theorem operations_take_their_time {config : Config} {platform : Platform}
    (built : config.build = .ok platform) {spec : CoprocessorSpec}
    (equipped : platform.coprocessor = some spec) {workloads : List Workload} {first : Simulator}
    (created : create platform workloads = .ok first) {events index : Nat} {turn : Turn}
    (edge : (first.states events).2.edgeTurn? index = some turn) (asks : turn.AsksStream)
    {operation : Operation} {workload : Workload}
    (taken : turn.core.workload.next? = some (operation, workload)) :
    turn.now = turn.cycle * turn.core.clock.period ∧
    (∀ outcome, turn.issuing.outcome? (first.completedAt spec events index) operation = some outcome →
      outcome.cycle < turn.core.clock.lastCycle →
      platform.stop.excludes (outcome.cycle * turn.core.clock.period) = false →
        ∃ later next, first.NextAsk index events later next ∧
          next.now = outcome.cycle * turn.core.clock.period ∧
          next.core.upcoming = { outcome.counters with completed := next.core.counters.completed } ∧
          (operation = .wait → ∀ handle ∈ turn.polled.core.outstanding,
            ∃ result ∈ next.polled.core.completions, result.handle = handle ∧
              result.completedAt = first.completedAt spec events index handle)) ∧
    ∀ work, operation = .offload work → ∀ cycle, turn.cycle ≤ cycle →
      cycle + 1 < turn.core.clock.lastCycle →
      platform.stop.excludes ((cycle + 1) * turn.core.clock.period) = false →
      (∀ between other, events ≤ between → (first.states between).2.edgeTurn? index = some other →
        other.cycle < cycle → ¬ other.HasRoom) →
      ∃ reached other, events ≤ reached ∧ (first.states reached).2.edgeTurn? index = some other ∧
        other.now = cycle * turn.core.clock.period ∧
        (other.HasRoom → ∃ later next, first.NextAsk index events later next ∧
          next.now = (cycle + 1) * turn.core.clock.period ∧
          next.core.counters.stalls = turn.core.counters.stalls + (cycle - turn.cycle)) := by
  have prepared := prepared_of_create (Config.sound_of_build built) created
  obtain ⟨fresh, -⟩ := potential_le_of_create created
  refine ⟨now_of_edgeTurn? prepared edge asks.free, ?_, ?_⟩
  · intro outcome found early included
    have engaged := Engaged.of_performs prepared equipped edge (asks.performs taken) found early
    obtain ⟨later, next, order, asked, again, now, upcoming, same, silent⟩ :=
      engaged.exists_ask prepared fresh equipped included
    refine ⟨later, next, ⟨order, asked, again, fun between after before => silent between after before⟩, now,
      upcoming, ?_⟩
    rintro rfl
    have waited := submissions_of_wait prepared equipped edge (asks.performs taken)
    exact exists_result_of_wait prepared equipped edge asked (same.trans waited) found early now
  · -- refused at each edge in between, the offload is still the one that the core has in hand
    rintro work rfl cycle from_now within included full
    have sooner : platform.stop.excludes (cycle * turn.core.clock.period) = false :=
      StopCondition.includes_of_le included (Nat.mul_le_mul_right _ (Nat.le_succ cycle))
    obtain ⟨reached, other, rest, order, tried, clock, rfl, performs, stalls, silent⟩ :=
      exists_try prepared fresh equipped edge (asks.performs taken) from_now (by omega) sooner full
    refine ⟨reached, other, order, tried, clock ▸ now_of_edgeTurn? prepared tried performs.free, ?_⟩
    intro room
    have found := other.outcome?_of_hasRoom room work (first.completedAt spec reached index)
    have engaged := Engaged.of_performs prepared equipped tried performs found (clock ▸ within)
    obtain ⟨later, next, past, asked, again, now, upcoming, -, quiet⟩ :=
      engaged.exists_ask prepared fresh equipped (clock ▸ included)
    refine ⟨later, next, ⟨by omega, asked, again, ?_⟩, clock ▸ now, ?_⟩
    · intro between after before
      by_cases early : between ≤ reached
      · exact silent between after early
      · exact quiet between (by omega) before
    · have counted := congrArg CoreCounters.stalls upcoming
      rw [next.core.stalls_upcoming] at counted
      exact counted.trans (Turn.stalls_issuing.trans stalls)

theorem exists_burst : ∃ platform, twoClocks.build = .ok platform ∧
    platform.coprocessor = some twoClocksCoprocessor ∧ platform.stop = .drain ∧
    ∃ first, create platform [twoClocksWorkload] = .ok first ∧
      ∃ turn, (first.states 2).2.edgeTurn? 0 = some turn ∧ turn.core.nextEdge = some turn.now ∧
        turn.core.refused = none ∧ turn.polled.core.phase = .running ∧
        turn.polled.core.outstanding = [0] ∧ turn.issuing.cycle = 1 ∧
        turn.core.clock = .ofPeriod 1000 ∧
        ∃ taken, turn.core.workload.next? = some taken ∧ taken.1 = .compute 2 := by
  decide +kernel

/-- The burst of two cycles that starts at tick 1000 ends at tick 3000, although the core polls for its
    offload in between. -/
theorem burst_ends_at_three_thousand : ∃ platform first turn later next,
    twoClocks.build = .ok platform ∧ create platform [twoClocksWorkload] = .ok first ∧
      (first.states 2).2.edgeTurn? 0 = some turn ∧ turn.polled.core.outstanding = [0] ∧
      turn.now = 1000 ∧ first.NextAsk 0 2 later next ∧ next.now = 3000 := by
  obtain ⟨platform, built, equipped, stop, first, created, turn, edge, due, fresh, running, outstanding,
    cycle, clock, ⟨operation, workload⟩, taken, rfl⟩ := exists_burst
  have asks : turn.AsksStream := ⟨due, fresh, Core.isFree_of_running running _⟩
  obtain ⟨now, foretold, -⟩ := operations_take_their_time built equipped created edge asks taken
  rw [clock] at now foretold
  rw [Turn.cycle_issuing] at cycle
  have early : turn.issuing.cycle + 2 < (Clock.ofPeriod 1000).lastCycle := by
    rw [Turn.cycle_issuing, cycle]
    decide
  obtain ⟨later, next, asked, ends, -⟩ := foretold ⟨turn.issuing.cycle + 2, _, _⟩ rfl early (by rw [stop]; rfl)
  simp only [Turn.cycle_issuing, cycle] at now ends
  exact ⟨platform, first, turn, later, next, built, created, edge, outstanding, now, asked, ends⟩

end Simulator

end CoreTiming
