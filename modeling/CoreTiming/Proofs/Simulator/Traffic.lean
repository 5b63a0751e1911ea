import CoreTiming.Proofs.Core.Traffic
import CoreTiming.Proofs.Memory.Range
import CoreTiming.Proofs.Simulator.Dispatch
import Mathlib.Algebra.GroupWithZero.Nat

namespace CoreTiming

namespace Sink

theorem samples_only (sink : Sink) (core : Core) :
    Record.samples core.name (sink.only core.id).records.toList =
      Record.samples core.name sink.records.toList := by
  unfold Record.samples only
  rw [Array.toList_filter, List.filter_filter]
  congr 1
  apply List.filter_congr
  intro record member
  by_cases own : record.component = core.name
  · have concerns := core.concerns_name record.statistic record.value
    rw [← own] at concerns
    simp [concerns]
  · simp [own]

theorem samples_addAll (sink : Sink) (component : String) (records : List Record) :
    Record.samples component (sink.addAll records).records.toList =
      Record.samples component sink.records.toList ++
        if Statistic.sampleLevel ≤ sink.level then Record.samples component records else [] := by
  rw [toList_addAll, Record.samples_append]
  congr 1
  unfold Record.samples
  rw [List.filter_filter]
  split
  · rename_i kept
    congr 1
    apply List.filter_congr
    intro record member
    by_cases sample : record.statistic = .memoryLatency
    · simp [sample, keeps, Statistic.memoryLatency, kept]
    · simp [sample]
  · rename_i dropped
    rw [List.filter_eq_nil_iff.mpr, List.map_nil]
    intro record member
    by_cases sample : record.statistic = .memoryLatency
    · simp [sample, keeps, Statistic.memoryLatency, dropped]
    · simp [sample]

end Sink

namespace Traffic

def cleared (traffic : Traffic) : Traffic :=
  { traffic with samples := [], responses := [] }

def gather (level : Nat) (before done : Traffic) : Traffic :=
  { done with
    samples := before.samples ++ if Statistic.sampleLevel ≤ level then done.samples else []
    responses := done.responses.foldl (fun list item => Queue.insertBehind item list) before.responses }

@[simp] theorem gather_cleared (level : Nat) (before : Traffic) : gather level before before.cleared = before := by
  simp [gather, cleared]

/-- The traffic is that of as many draws as there were accesses, and every store in flight has a response
    to come. -/
structure Drawn (start : LatencySource) (level : Nat) (traffic : Traffic) : Prop where
  source : traffic.source = some (start.drawMany traffic.accesses).2
  latency : traffic.latency = (start.drawMany traffic.accesses).1.sum
  samples : Statistic.sampleLevel ≤ level → traffic.samples = (start.drawMany traffic.accesses).1
  inFlight : traffic.storesInFlight = traffic.responses.countP (·.2.answersStore)

variable {start source : LatencySource} {level : Nat} {traffic : Traffic}

theorem accesses_access (kind : AccessKind) (source : LatencySource) (response : Nat × Event) :
    (traffic.access kind source response).accesses = traffic.accesses + 1 := by
  cases kind <;> simp [access, accesses] <;> omega

theorem Drawn.gather (drawn : traffic.Drawn start level) (found : traffic.source = some source)
    (kind : AccessKind) {response : Nat × Event}
    (store : response.2.answersStore = decide (kind = .store)) :
    (gather level traffic (traffic.cleared.access kind source response)).Drawn start level := by
  obtain ⟨same, latency, samples, inFlight⟩ := drawn
  obtain rfl : (start.drawMany traffic.accesses).2 = source := Option.some.inj (same.symm.trans found)
  have one_more : (Traffic.gather level traffic
      (traffic.cleared.access kind (start.drawMany traffic.accesses).2 response)).accesses =
        traffic.accesses + 1 :=
    @accesses_access traffic.cleared kind (start.drawMany traffic.accesses).2 response
  have next := start.drawMany_succ_eq traffic.accesses
  constructor
  · rw [one_more, next]
    rfl
  · rw [one_more, next, List.sum_append, ← latency]
    simp [Traffic.gather, access, cleared]
  · intro kept
    rw [one_more, next, ← samples kept]
    simp [Traffic.gather, access, cleared, kept]
  · have posted := (Queue.perm_insertBehind response traffic.responses).countP_eq (·.2.answersStore)
    show traffic.storesInFlight + _ = (Queue.insertBehind response traffic.responses).countP _
    rw [posted, List.countP_cons, store, inFlight]
    simp

end Traffic

def View.traffic (index : Nat) (view : View) : Traffic :=
  view.station.core.traffic view.latency.sources[index]?
    (Record.samples view.station.core.name view.sink.records.toList)
    (view.agenda.filter (·.2.answers index))

namespace Simulator

def traffic? (sim : Simulator) (index : Nat) : Option Traffic :=
  sim.stations[index]?.map fun station =>
    station.core.traffic sim.latency.sources[index]?
      (Record.samples station.core.name sim.timeline.sink.records.toList)
      (sim.timeline.queue.agenda (Event.answers index))

inductive Carries (sim : Simulator) (index : Nat) (before after : Traffic) : Prop
  | nothing (same : after = before)
  | response (other : sim.edgeTurn? index = none) (response : Nat × Event)
      (first : before.responses = response :: after.responses) (same : after = { before with
        storesInFlight := before.storesInFlight - if response.2.answersStore then 1 else 0
        responses := after.responses })
  | access (turn : Turn) (edge : sim.edgeTurn? index = some turn) (kind : AccessKind) (address : Nat)
      (workload : Workload) (performs : turn.Performs (kind.operation address) workload)
      (inside : turn.memory.contains address = true) (source : LatencySource)
      (found : before.source = some source) (same : after = .gather sim.timeline.sink.level before
        (before.cleared.access kind source (turn.reply address kind source.draw.1)))

variable {notes : Nat → Notes} {sim next : Simulator} {platform : Platform} {first : Simulator}
  {index : Nat} {before : Traffic}

theorem source_of_traffic? (seen : sim.traffic? index = some before) :
    before.source = sim.latency.sources[index]? := by
  obtain ⟨station, -, rfl⟩ := Option.map_eq_some_iff.mp seen
  rfl

theorem responses_of_traffic? (seen : sim.traffic? index = some before) :
    before.responses = sim.timeline.queue.agenda (Event.answers index) := by
  obtain ⟨station, -, rfl⟩ := Option.map_eq_some_iff.mp seen
  rfl

theorem traffic?_eq_view (numbered : ∀ station, sim.stations[index]? = some station → station.core.id = index) :
    sim.traffic? index = (sim.view? index).map (View.traffic index) := by
  unfold traffic? view?
  cases found : sim.stations[index]? with
  | none => rfl
  | some station =>
    refine congrArg some (Traffic.ext ?_ rfl rfl rfl rfl ?_ ?_)
    · exact (sim.latency.getElem?_only index).symm
    · rw [← numbered station found]
      exact (sim.timeline.sink.samples_only station.core).symm
    · apply Eq.symm
      apply @Queue.filter_agenda _ (Event.answers index) (Event.isFor index)
      exact fun event answers => decide_eq_true (Event.core_of_answers answers)

theorem traffic?_settle (ordered : sim.timeline.queue.Ordered) {station : Station}
    (found : sim.stations[index]? = some station) (number : station.core.id = index) {done : Turn}
    (id : done.core.id = index) (future : ∀ post ∈ done.effects.posts, sim.now ≤ post.1)
    (seen : sim.traffic? index = some before) :
    (sim.settle index done).traffic? index =
      some (.gather sim.timeline.sink.level before done.traffic) := by
  obtain ⟨known, -⟩ := List.getElem?_eq_some_iff.mp found
  have left : (sim.settle index done).stations[index]? = some ⟨done.core, done.coprocessor⟩ :=
    List.getElem?_set_self known
  have name : station.core.name = done.core.name := by
    unfold Core.name
    rw [number, id]
  have samples := sim.timeline.sink.samples_addAll done.core.name done.effects.records
  have responses := Queue.agenda_scheduleAll_eq ordered (Event.answers index) future
  unfold traffic? at seen ⊢
  rw [found] at seen
  rw [left]
  cases seen
  refine congrArg some (Traffic.ext ?_ rfl rfl rfl rfl ?_ ?_)
  · show done.latency.sources[index]? = done.latency.sources[done.core.id]?
    rw [id]
  · show Record.samples done.core.name _ = Record.samples station.core.name _ ++ _
    rw [name]
    exact samples
  · show (sim.timeline.queue.scheduleAll done.effects.posts).agenda (Event.answers index) =
      List.foldl _ _ (done.effects.posts.filter (·.2.answers done.core.id))
    rw [responses, id]
    rfl

theorem traffic?_withQueue (queue : Queue) : (sim.withQueue queue).traffic? index =
    (sim.traffic? index).map ({ · with responses := queue.agenda (Event.answers index) }) := by
  unfold traffic?
  show sim.stations[index]?.map _ = _
  cases sim.stations[index]? <;> rfl

theorem traffic_turn {station : Station} (found : sim.stations[index]? = some station)
    (number : station.core.id = index) (seen : sim.traffic? index = some before) (now : Nat) :
    (station.turn now sim.memory sim.latency).traffic = before.cleared := by
  unfold traffic? at seen
  rw [found] at seen
  cases seen
  refine Traffic.ext ?_ rfl rfl rfl rfl rfl rfl
  exact congrArg (sim.latency.sources[·]?) number

section next

variable (sound : sim.Sound notes) {pending : Pending} {queue : Queue} {station : Station} {done : Turn}
  (popped : sim.timeline.queue.pop? = some (pending, queue))
  (included : sim.platform.stop.excludes pending.tick = false)
  (found : sim.stations[pending.event.core]? = some station)
  (delivered : done = (station.turn pending.tick sim.memory sim.latency).deliver pending.event)

include sound popped found delivered

theorem Sound.traffic?_of_own (seen : sim.traffic? pending.event.core = some before) :
    ((sim.withQueue queue).settle pending.event.core done).traffic? pending.event.core =
      some (.gather sim.timeline.sink.level
        { before with responses := queue.agenda (Event.answers pending.event.core) } done.traffic) := by
  subst delivered
  obtain ⟨-, now, -⟩ := Queue.pop?_eq_some popped
  obtain ⟨ordered, -⟩ := sound.ordered.pop? popped
  obtain ⟨proper, id, -, -, time⟩ := sound.frame_turn popped found
  apply @traffic?_settle (sim.withQueue queue) _ _ ordered _ found (sound.stations _ station found).numbered _ id
  · intro post member
    refine Nat.le_trans (Nat.le_of_eq (now.trans time.symm)) ?_
    exact (proper.posts post member).1
  · rw [traffic?_withQueue, seen]
    rfl

include included

theorem Sound.carries_of_own (seen : sim.traffic? pending.event.core = some before) :
    ∃ after, ((sim.withQueue queue).settle pending.event.core done).traffic? pending.event.core = some after ∧
      sim.Carries pending.event.core before after := by
  have settled := sound.traffic?_of_own popped found delivered seen
  obtain ⟨-, known⟩ := sound.bounds_of_pop? popped found
  have number := (sound.stations _ station found).numbered
  have begun := traffic_turn found number seen pending.tick
  have responses := (responses_of_traffic? seen).trans
    (Queue.agenda_of_pop? (Event.answers pending.event.core) popped)
  have edge := @edgeTurn?_of_due? _ pending.event.core _ _ (due?_of_pop? popped included)
  subst delivered
  refine ⟨_, settled, ?_⟩
  cases answers : pending.event.answers pending.event.core with
  | false =>
    -- nothing was taken from the responses to come
    rw [answers] at responses
    rw [show ({ before with responses := queue.agenda _ } : Traffic) = before from
      Traffic.ext rfl rfl rfl rfl rfl rfl responses.symm]
    cases (station.turn pending.tick sim.memory sim.latency).serves_deliver (number ▸ known) pending.event with
    | nothing silent same =>
      rw [same, begun]
      exact .nothing (Traffic.gather_cleared ..)
    | store answered same => cases answers.symm.trans (Event.answers_of_answersStore answered)
    | access core isEdge kind address workload performs inside source drawn same =>
      obtain rfl : core = pending.event.core := by rw [isEdge]; rfl
      rw [begun] at drawn same
      rw [same]
      refine .access _ ?_ kind address workload performs inside source drawn rfl
      rw [edge, if_pos isEdge, found]
      rfl
  | true =>
    rw [answers] at responses
    rw [if_neg (Event.edge_ne_of_answers answers _)] at edge
    cases (station.turn pending.tick sim.memory sim.latency).serves_deliver (number ▸ known) pending.event with
    | nothing silent same =>
      rw [same, begun]
      refine .response edge _ responses ?_
      simp [silent, Traffic.gather, Traffic.cleared]
    | store answered same =>
      rw [same, begun]
      refine .response edge _ responses ?_
      simp [answered, Traffic.gather, Traffic.cleared]
    | access core isEdge => exact absurd isEdge (Event.edge_ne_of_answers answers core)

end next

theorem Sound.carries_step (sound : sim.Sound notes) {failed : Option Nat}
    (stepped : sim.step? = some (next, failed)) (seen : sim.traffic? index = some before) :
    ∃ after, next.traffic? index = some after ∧ sim.Carries index before after := by
  obtain ⟨pending, queue, station, done, popped, included, found, delivered, same, -⟩ :=
    sound.step?_eq_some stepped
  by_cases own : pending.event.core = index
  · subst own
    rw [same]
    exact sound.carries_of_own popped included found delivered seen
  · refine ⟨before, ?_, .nothing rfl⟩
    have numbered := fun standing member => (sound.stations index standing member).numbered
    have after := (sound.step stepped).2
    rw [traffic?_eq_view fun standing member => (after.stations index standing member).numbered,
      sound.view?_of_other stepped popped own, ← traffic?_eq_view numbered]
    exact seen

theorem Sound.level_step (sound : sim.Sound notes) {failed : Option Nat}
    (stepped : sim.step? = some (next, failed)) :
    next.timeline.sink.level = sim.timeline.sink.level := by
  obtain ⟨pending, queue, station, done, -, -, -, -, rfl, -⟩ := sound.step?_eq_some stepped
  exact Sink.level_addAll ..

theorem Sound.clock_step (sound : sim.Sound notes) {failed : Option Nat}
    (stepped : sim.step? = some (next, failed)) {clock : Clock}
    (kept : ∀ station, sim.stations[index]? = some station → station.core.clock = clock) :
    ∀ station, next.stations[index]? = some station → station.core.clock = clock := by
  intro station found
  rcases sound.step_cases stepped index with passes | ⟨event, rest, turn, handles⟩
  · exact kept station (passes.station.symm.trans found)
  · cases handles.left.symm.trans found
    exact handles.takes.frame_deliver.2.1.trans (kept _ handles.station)

/-- At an event of the run the core made the request that is answered, and drew a latency for it. -/
def Issues (first : Simulator) (index : Nat) (clock : Clock) (response : Nat × Event) (event : Nat) : Prop :=
  ∃ turn kind address workload source,
    (first.states event).2.edgeTurn? index = some turn ∧
    turn.Performs (AccessKind.operation kind address) workload ∧
    (first.states event).2.latency.sources[index]? = some source ∧
    (first.states (event + 1)).2.latency.sources[index]? = some source.draw.2 ∧
    response = (min (turn.now + source.draw.1 * clock.period) horizon,
      .response index address kind turn.now)

structure Accounted (first : Simulator) (platform : Platform) (core : CoreSpec) (index events : Nat)
    (traffic : Traffic) : Prop where
  seen : (first.states events).2.traffic? index = some traffic
  level : (first.states events).2.timeline.sink.level = platform.statisticLevel
  clock : ∀ station, (first.states events).2.stations[index]? = some station → station.core.clock = core.clock
  drawn : traffic.Drawn (LatencyModel.ofSpec platform.seed core) platform.statisticLevel
  issued : ∀ response ∈ traffic.responses, ∃ event < events, first.Issues index core.clock response event

theorem Carries.drawn {start : LatencySource} {after : Traffic} (carries : sim.Carries index before after)
    (drawn : before.Drawn start sim.timeline.sink.level) : after.Drawn start sim.timeline.sink.level := by
  cases carries with
  | nothing same => exact same ▸ drawn
  | response other response first same =>
    obtain ⟨source, latency, samples, inFlight⟩ := drawn
    rw [same]
    refine ⟨source, latency, samples, ?_⟩
    rw [first, List.countP_cons] at inFlight
    simp only [inFlight]
    omega
  | access turn edge kind address workload performs inside source found same =>
    rw [same]
    exact drawn.gather found kind (by cases kind <;> rfl)

theorem Carries.of_mem {after : Traffic} (carries : sim.Carries index before after)
    {response : Nat × Event} (member : response ∈ after.responses) : response ∈ before.responses ∨
      ∃ turn kind address workload source, sim.edgeTurn? index = some turn ∧
        turn.Performs (AccessKind.operation kind address) workload ∧ before.source = some source ∧
        after.source = some source.draw.2 ∧ response = turn.reply address kind source.draw.1 := by
  cases carries with
  | nothing same => exact .inl (same ▸ member)
  | response other answered first same =>
    rw [first]
    exact .inl (List.mem_cons_of_mem _ member)
  | access turn edge kind address workload performs inside source found same =>
    subst same
    rcases List.mem_cons.mp ((Queue.perm_insertBehind _ _).mem_iff.mp member) with new | old
    · exact .inr ⟨turn, kind, address, workload, source, edge, performs, found, rfl, new⟩
    · exact .inl old

theorem Sound.traffic?_of_outside (sound : sim.Sound notes) {failed : Option Nat}
    (stepped : sim.step? = some (next, failed)) (seen : sim.traffic? index = some before) {turn : Turn}
    (edge : sim.edgeTurn? index = some turn) {kind : AccessKind} {address : Nat} {workload : Workload}
    (performs : turn.Performs (kind.operation address) workload)
    (outside : sim.platform.memorySize ≤ address) : next.traffic? index = some before := by
  obtain ⟨after, left, carries⟩ := sound.carries_step stepped seen
  cases carries with
  | nothing same => rw [left, same]
  | response other => cases other.symm.trans edge
  | access also again kind' address' workload' performed inside =>
    obtain rfl : also = turn := Option.some.inj (again.symm.trans edge)
    obtain ⟨_, _, station, -, -, rfl⟩ := exists_of_edgeTurn? edge
    have same := AccessKind.address_of_operation (performs.eq performed)
    have less : address' < sim.platform.memorySize := of_decide_eq_true inside
    omega

section accounted

variable {core : CoreSpec} {events : Nat} {traffic : Traffic}

theorem accounted_zero (checked : platform.Sound) {workloads : List Workload}
    (created : create platform workloads = .ok first) (specified : platform.cores[index]? = some core) :
    ∃ traffic, first.Accounted platform core index 0 traffic := by
  have number := checked.numbered index core specified
  obtain ⟨known, -⟩ := List.getElem?_eq_some_iff.mp specified
  rw [← length_of_create created] at known
  have sound := (prepared_of_create checked created).sound
  have seen := view?_of_create checked created specified (List.getElem?_eq_getElem known)
  have source : ((LatencyModel.ofSpecs platform.cores platform.seed).only core.id).sources[index]? =
      some (LatencyModel.ofSpec platform.seed core) := by
    rw [number, LatencyModel.getElem?_only]
    simp [LatencyModel.ofSpecs, specified]
  have quiet : (first.traffic? index) = some ((Core.ofSpec core workloads[index]).traffic
      (some (LatencyModel.ofSpec platform.seed core)) [] []) := by
    rw [traffic?_eq_view fun station member => (sound.stations index station member).numbered, seen]
    exact congrArg some (Traffic.ext source rfl rfl rfl rfl rfl rfl)
  obtain ⟨station, found, view⟩ := Option.map_eq_some_iff.mp seen
  refine ⟨_, quiet, ?_, ?_, ⟨rfl, rfl, fun _ => rfl, rfl⟩, ?_⟩
  · exact congrArg (Sink.level ∘ View.sink) view
  · intro other same
    cases found.symm.trans same
    exact congrArg (Core.clock ∘ Station.core ∘ View.station) view
  · intro response member
    cases member

theorem Sound.reply_eq (sound : sim.Sound notes) {turn : Turn} (edge : sim.edgeTurn? index = some turn)
    {clock : Clock} (kept : ∀ station, sim.stations[index]? = some station → station.core.clock = clock)
    (address : Nat) (kind : AccessKind) (latency : Nat) : turn.reply address kind latency =
      (min (turn.now + latency * clock.period) horizon, .response index address kind turn.now) := by
  obtain ⟨_, _, station, -, standing, rfl⟩ := exists_of_edgeTurn? edge
  have number : station.core.id = index := (sound.stations index station standing).numbered
  have same : station.core.clock = clock := kept station standing
  rw [← number, ← same, ← Clock.ticksAfter_eq_min]
  rfl

theorem Accounted.succ (accounted : first.Accounted platform core index events traffic)
    (prepared : first.Prepared platform) :
    ∃ after, first.Accounted platform core index (events + 1) after := by
  have sound := (run_states first events).sound prepared
  obtain ⟨seen, level, clock, drawn, issued⟩ := accounted
  have earlier : ∀ response ∈ traffic.responses,
      ∃ event < events + 1, first.Issues index core.clock response event := by
    intro response member
    obtain ⟨event, before, issues⟩ := issued response member
    exact ⟨event, Nat.lt_succ_of_lt before, issues⟩
  rcases states_step prepared events with elapsed | ⟨next, stepped, same⟩
  · have still := states_of_elapsed elapsed 1
    exact ⟨traffic, still ▸ seen, still ▸ level, still ▸ clock, drawn, earlier⟩
  · obtain ⟨after, left, carries⟩ := sound.carries_step stepped seen
    have state : (first.states (events + 1)).2 = next := congrArg Prod.snd same
    refine ⟨after, state ▸ left, ?_, ?_, ?_, ?_⟩
    · rw [state, sound.level_step stepped, level]
    · rw [state]
      exact sound.clock_step stepped clock
    · rw [← level] at drawn ⊢
      exact carries.drawn drawn
    · intro response member
      rcases carries.of_mem member with old | ⟨turn, kind, address, workload, source, edge, performs, found,
        drawn, rfl⟩
      · exact earlier response old
      · refine ⟨events, Nat.lt_succ_self _, turn, kind, address, workload, source, edge, performs, ?_, ?_,
          sound.reply_eq edge clock ..⟩
        · rw [← source_of_traffic? seen, found]
        · rw [state, ← source_of_traffic? left, drawn]

theorem Prepared.exists_accounted (prepared : first.Prepared platform)
    (start : ∃ traffic, first.Accounted platform core index 0 traffic) (events : Nat) :
    ∃ traffic, first.Accounted platform core index events traffic := by
  induction events with
  | zero => exact start
  | succ events ih =>
    obtain ⟨traffic, accounted⟩ := ih
    exact accounted.succ prepared

end accounted

/-- The accounts of the memory accesses of one core, in every state of a run: as many latencies have been
    drawn as there were accesses; recorded one by one they lie within the range of the core, and their
    sum is the total; a store is in flight as long as its response is pending; each pending response comes
    the latency drawn for it after it was issued, or at the horizon; and an access outside memory touches
    none of these. -/
theorem accesses_accounted {config : Config} {platform : Platform} (built : config.build = .ok platform)
    {workloads : List Workload} {first : Simulator} (created : create platform workloads = .ok first)
    {index : Nat} {core : CoreSpec} (specified : platform.cores[index]? = some core) (events : Nat) :
    ∃ traffic, (first.states events).2.traffic? index = some traffic ∧
      (∃ source, traffic.source = some source ∧ source.drawn = traffic.loads + traffic.stores) ∧
      (Statistic.sampleLevel ≤ platform.statisticLevel →
        traffic.samples.length = traffic.loads + traffic.stores ∧
        (∀ latency ∈ traffic.samples, core.cost.least ≤ latency ∧ latency ≤ core.cost.most) ∧
        traffic.samples.sum = traffic.latency) ∧
      traffic.storesInFlight = traffic.responses.countP (·.2.answersStore) ∧
      (∀ response ∈ traffic.responses, ∃ event < events, first.Issues index core.clock response event) ∧
      ∀ turn kind address workload, (first.states events).2.edgeTurn? index = some turn →
        turn.Performs (AccessKind.operation kind address) workload → platform.memorySize ≤ address →
          (first.states (events + 1)).2.traffic? index = some traffic := by
  have checked := Config.sound_of_build built
  have prepared := prepared_of_create checked created
  obtain ⟨traffic, accounted⟩ :=
    prepared.exists_accounted (accounted_zero checked created specified) events
  obtain ⟨seen, level, clock, ⟨source, latency, samples, inFlight⟩, issued⟩ := accounted
  have within := Config.within_of_build built (List.mem_of_getElem? specified) platform.seed
  refine ⟨traffic, seen, ⟨_, source, ?_⟩, ?_, inFlight, issued, ?_⟩
  · rw [LatencySource.drawn_drawMany, LatencyModel.drawn_ofSpec, Nat.zero_add]
    rfl
  · intro kept
    rw [samples kept, LatencySource.length_drawMany]
    refine ⟨rfl, ?_, latency.symm⟩
    intro value member
    exact LatencyRange.contains_iff.mp (LatencySource.contains_drawMany within _ value member)
  · intro turn kind address workload edge performs outside
    rcases states_step prepared events with elapsed | ⟨next, stepped, same⟩
    · rw [states_of_elapsed elapsed 1]
      exact seen
    · have run := run_states first events
      rw [same]
      refine (run.sound prepared).traffic?_of_outside stepped seen edge performs ?_
      rwa [run.platform_eq prepared]

def twoCoresTable : Config :=
  { twoCores with cpu := { twoCores.cpu with
      memoryCostTable := some "[CORES:3|2]"
      faultPolicy := .continue } }

def accessProgram : List Operation :=
  [.load 0x40000000, .store 8, .store 16, .load 24]

/-- While the core waits for its second load, both stores are in flight. -/
theorem accounts_while_waiting : ∃ platform first traffic, twoCoresTable.build = .ok platform ∧
    create platform ([accessProgram, []].map .listed) = .ok first ∧
    (first.states 6).2.traffic? 0 = some traffic ∧ traffic.samples = [3, 2, 3] ∧
    traffic.latency = 8 ∧ (∃ source, traffic.source = some source ∧ source.drawn = 3) ∧
    traffic.responses.countP (·.2.answersStore) = 2 ∧
    ∀ response ∈ traffic.responses, ∃ event < 6, first.Issues 0 (.ofPeriod 1000) response event := by
  obtain ⟨platform, built, level, first, created, core, specified, clock, traffic, seen, samples, loads,
      stores, inFlight⟩ :
      ∃ platform, twoCoresTable.build = .ok platform ∧ platform.statisticLevel = 5 ∧
        ∃ first, create platform ([accessProgram, []].map .listed) = .ok first ∧
          ∃ core, platform.cores[0]? = some core ∧ core.clock = .ofPeriod 1000 ∧
            ∃ traffic, (first.states 6).2.traffic? 0 = some traffic ∧ traffic.samples = [3, 2, 3] ∧
              traffic.loads = 1 ∧ traffic.stores = 2 ∧ traffic.storesInFlight = 2 := by
    decide +kernel
  obtain ⟨same, found, ⟨source, drawn, count⟩, recorded, stored, issued, -⟩ :=
    accesses_accounted built created specified 6
  obtain rfl : traffic = same := Option.some.inj (seen.symm.trans found)
  obtain ⟨-, -, total⟩ := recorded (by rw [level]; decide)
  rw [samples] at total
  rw [clock] at issued
  exact ⟨platform, first, traffic, built, created, seen, samples, total.symm,
    ⟨source, drawn, by rw [count, loads, stores]⟩, stored.symm.trans inFlight, issued⟩

end Simulator

end CoreTiming
