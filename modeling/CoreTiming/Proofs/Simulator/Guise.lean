import CoreTiming.Proofs.Core.Guise
import CoreTiming.Proofs.Simulator.Dispatch

namespace CoreTiming

/-- The ticks that decide where the next event leads, uncut by the horizon, and its own tick. -/
def Simulator.reckons (sim : Simulator) : List Nat :=
  match sim.due? with
  | none => []
  | some (next, _) =>
    next.tick :: match sim.stations[next.event.core]? with
      | none => []
      | some station => (station.turn next.tick sim.memory sim.latency).reckons next.event

namespace Simulator

variable (first : Simulator)

theorem advance_states (events : Nat) :
    (first.states events).2.advance = (first.apply (.line first.startLine)).advance := by
  induction events with
  | zero => rfl
  | succ events ih =>
    refine Eq.trans ?_ ih
    rw [states]
    split
    · rename_i next stepped
      exact ((advance_eq _).trans (by rw [stepped])).symm
    · rfl

theorem exists_last : ∃ events, ∀ next, (first.states events).2.step? ≠ some (next, none) := by
  -- otherwise the potential would fall for ever
  by_contra endless
  simp only [not_exists, not_forall, not_not] at endless
  have falls : ∀ events, (first.states events).2.potential + events ≤ (first.states 0).2.potential := by
    intro events
    induction events with
    | zero => exact Nat.le_refl _
    | succ events ih =>
      obtain ⟨next, stepped⟩ := endless events
      obtain ⟨due, found, dispatched⟩ := Option.map_eq_some_iff.mp stepped
      have less := potential_dispatch_due_lt found dispatched
      rw [states_succ stepped]
      show next.potential + (events + 1) ≤ _
      omega
  have beyond := falls ((first.states 0).2.potential + 1)
  omega

end Simulator

namespace Guise

variable (guise : Guise)

def station (station : Station) : Station :=
  ⟨guise.core station.core, station.coprocessor.map guise.unit⟩

def pending (pending : Pending) : Pending :=
  { pending with
    tick := guise.tick pending.tick
    event := guise.event pending.event }

def queue (queue : Queue) : Queue :=
  { queue with
    pending := queue.pending.map guise.pending
    now := guise.tick queue.now }

def stop : StopCondition → StopCondition
  | .drain => .drain
  | .atTick limit => .atTick (guise.tick limit)

def summary (summary : Summary) : Summary :=
  { summary with endTick := guise.tick summary.endTick }

def platform (platform : Platform) : Platform :=
  { platform with
    timebase := guise.timebase
    stop := guise.stop platform.stop
    statisticLevel := guise.statisticLevel
    cores := platform.cores.map guise.coreSpec
    coprocessor := platform.coprocessor.map guise.unitSpec }

theorem report_station (station : Station) (endTick : Nat) :
    (guise.station station).report (guise.tick endTick) = (station.report endTick).map guise.record := by
  unfold Station.report Guise.station
  rw [report_core, List.map_append]
  cases station.coprocessor with
  | none => rfl
  | some unit => exact congrArg _ (guise.report_unit unit)

@[simp] theorem core_event (event : Event) : (guise.event event).core = event.core := by
  cases event <;> rfl

@[simp] theorem priority_event (event : Event) : (guise.event event).priority = event.priority := by
  cases event <;> rfl

theorem excludes_stop (stop : StopCondition) (tick : Nat) :
    (guise.stop stop).excludes (guise.tick tick) = stop.excludes tick := by
  cases stop with
  | drain => rfl
  | atTick limit => exact decide_eq_decide.mpr tick_lt_tick

theorem before_pending (one other : Pending) :
    (guise.pending one).Before (guise.pending other) ↔ one.Before other := by
  simp only [Pending.Before, Guise.pending, tick_lt_tick, tick_inj, priority_event]

theorem place_pending (new : Pending) (list : List Pending) :
    Queue.place (guise.pending new) (list.map guise.pending) = (Queue.place new list).map guise.pending := by
  induction list with
  | nil => rfl
  | cons next rest ih =>
    simp only [List.map_cons, Queue.place, before_pending, ih]
    split <;> rfl

theorem schedule_queue (queue : Queue) (tick : Nat) (event : Event) :
    (guise.queue queue).schedule (guise.tick tick) (guise.event event) =
      guise.queue (queue.schedule tick event) := by
  have placed := guise.place_pending ⟨max tick queue.now, queue.nextSequence, event⟩ queue.pending
  unfold Queue.schedule
  simp only [Guise.queue, ← tick_max, ← placed]
  rfl

theorem scheduleAll_queue (queue : Queue) (posts : List (Nat × Event)) :
    (guise.queue queue).scheduleAll (posts.map guise.post) = guise.queue (queue.scheduleAll posts) := by
  induction posts generalizing queue with
  | nil => rfl
  | cons post posts ih =>
    refine Eq.trans ?_ (ih (queue.schedule post.1 post.2))
    rw [← schedule_queue]
    rfl

theorem pop?_queue (queue : Queue) : (guise.queue queue).pop? =
    queue.pop?.map fun due => (guise.pending due.1, guise.queue due.2) := by
  unfold Queue.pop?
  rw [show (guise.queue queue).pending = queue.pending.map guise.pending from rfl]
  cases queue.pending <;> rfl

theorem statistic_record (record : Record) : (guise.record record).statistic = record.statistic := by
  unfold Guise.record
  split <;> rfl

/-- Both sinks have been offered the same records, and each keeps those up to its level. -/
structure Gathers (level : Nat) (sink other : Sink) : Prop where
  own : sink.level = level
  others : other.level = guise.statisticLevel
  offered : ∃ records : List Record,
    sink.records.toList = records.filter (·.statistic.level ≤ level) ∧
      other.records.toList = (records.map guise.record).filter (·.statistic.level ≤ guise.statisticLevel)

variable {guise}

theorem Gathers.addAll {level : Nat} {sink other : Sink} (gathers : guise.Gathers level sink other)
    (more : List Record) : guise.Gathers level (sink.addAll more) (other.addAll (more.map guise.record)) where
  own := (Sink.level_addAll ..).trans gathers.own
  others := (Sink.level_addAll ..).trans gathers.others
  offered := by
    obtain ⟨records, kept, also⟩ := gathers.offered
    refine ⟨records ++ more, ?_, ?_⟩
    · rw [Sink.toList_addAll, kept, List.filter_append]
      unfold Sink.keeps
      rw [gathers.own]
    · rw [Sink.toList_addAll, also, List.map_append, List.filter_append]
      unfold Sink.keeps
      rw [gathers.others]

theorem Gathers.filter {level : Nat} {sink other : Sink} (gathers : guise.Gathers level sink other)
    (order : level ≤ guise.statisticLevel) :
    sink.records.toList.map guise.record = other.records.toList.filter (·.statistic.level ≤ level) := by
  obtain ⟨records, kept, also⟩ := gathers.offered
  rw [kept, also, List.filter_filter, List.filter_map]
  refine congrArg (List.map guise.record) (List.filter_congr fun record _ => ?_)
  rw [Function.comp_apply, statistic_record, ← Bool.decide_and]
  exact decide_eq_decide.mpr ⟨fun low => ⟨low, Nat.le_trans low order⟩, And.left⟩

/-- The horizon does not come between the two timebases at the next event of the finer one. -/
structure Admits (guise : Guise) (sim : Simulator) : Prop where
  fits : guise.FitsAll sim.reckons
  whole : ∀ index turn, sim.edgeTurn? index = some turn → guise.Ends turn

/-- The other simulator is in the same state as the first one, in another guise and but for its log. -/
structure Resembles (guise : Guise) (platform : Platform) (sim other : Simulator) : Prop where
  own : sim.platform = platform
  others : other.platform = guise.platform platform
  queue : other.timeline.queue = guise.queue sim.timeline.queue
  gathers : guise.Gathers platform.statisticLevel sim.timeline.sink other.timeline.sink
  latency : other.latency = sim.latency
  stations : other.stations = sim.stations.map guise.station
  summary : other.summary = sim.summary.map guise.summary

namespace Resembles

variable {platform : Platform} {sim other : Simulator} (resembles : guise.Resembles platform sim other)

include resembles

theorem now : other.now = guise.tick sim.now :=
  congrArg Queue.now resembles.queue

theorem memory : other.memory = sim.memory := by
  unfold Simulator.memory
  rw [resembles.own, resembles.others]
  rfl

theorem apply_line (line entry : Log.Line) :
    guise.Resembles platform (sim.apply (.line line)) (other.apply (.line entry)) :=
  { resembles with }

theorem withQueue (queue : Queue) :
    guise.Resembles platform (sim.withQueue queue) (other.withQueue (guise.queue queue)) :=
  { resembles with queue := rfl }

theorem settle {done shown : Turn} (shows : guise.Shows done shown) (index : Nat) :
    guise.Resembles platform (sim.settle index done) (other.settle index shown) := by
  obtain ⟨log, rfl⟩ := shows
  exact { resembles with
    queue := by
      rw [show (other.settle index (guise.turn log done)).timeline.queue =
          other.timeline.queue.scheduleAll (done.effects.posts.map guise.post) from rfl,
        resembles.queue]
      exact guise.scheduleAll_queue ..
    gathers := resembles.gathers.addAll _
    latency := rfl
    stations := by
      rw [show (other.settle index (guise.turn log done)).stations =
          other.stations.set index (guise.station ⟨done.core, done.coprocessor⟩) from rfl,
        resembles.stations]
      exact List.map_set.symm }

theorem shows_turn (station : Station) (tick : Nat) :
    guise.Shows (station.turn tick sim.memory sim.latency)
      ((guise.station station).turn (guise.tick tick) other.memory other.latency) := by
  rw [resembles.memory, resembles.latency]
  exact ⟨[], rfl⟩

theorem due? : other.due? = sim.due?.map fun due => (guise.pending due.1, guise.queue due.2) := by
  unfold Simulator.due?
  rw [resembles.queue, resembles.own, resembles.others, pop?_queue]
  cases sim.timeline.queue.pop? with
  | none => rfl
  | some due =>
    simp only [Option.map_some]
    rw [show (guise.platform platform).stop.excludes (guise.pending due.1).tick = _ from
      guise.excludes_stop platform.stop due.1.tick]
    split <;> rfl

theorem dispatch {event : Event} (within : guise.Fits other.now)
    (fits : ∀ station, sim.stations[event.core]? = some station → guise.FitsAll
      (((guise.station station).turn other.now other.memory other.latency).reckons (guise.event event)))
    (whole : ∀ station core, sim.stations[core]? = some station → event = .coreEdge core →
      guise.Ends ((guise.station station).turn other.now other.memory other.latency)) :
    (other.dispatch (guise.event event)).2 = (sim.dispatch event).2 ∧
      guise.Resembles platform (sim.dispatch event).1 (other.dispatch (guise.event event)).1 := by
  unfold Simulator.dispatch
  rw [core_event, resembles.stations, List.getElem?_map]
  cases found : sim.stations[event.core]? with
  | none => exact ⟨rfl, resembles⟩
  | some station =>
    have receives : (guise.station station).receives (guise.event event) = station.receives event := by
      cases event with
      | coprocessorEdge core => exact Option.isSome_map
      | coreEdge | response | fault => rfl
    simp only [Option.map_some, receives]
    split
    · have shows := resembles.shows_turn station sim.now
      rw [← resembles.now] at shows
      have delivered := shows.deliver within (fits station found) fun core edge =>
        whole station core (by rw [edge] at found; exact found) edge
      exact ⟨delivered.unregistered, resembles.settle delivered event.core⟩
    · exact ⟨rfl, resembles⟩

theorem step (admits : guise.Admits other) :
    other.next? = sim.next?.map guise.pending ∧
      (sim.step? = none ∧ other.step? = none ∨ ∃ next after failed, sim.step? = some (next, failed) ∧
        other.step? = some (after, failed) ∧ guise.Resembles platform next after) := by
  have due := resembles.due?
  obtain ⟨fits, whole⟩ := admits
  unfold Simulator.reckons at fits
  unfold Simulator.next? Simulator.step?
  rw [due] at fits ⊢
  cases found : sim.due? with
  | none => exact ⟨rfl, .inl ⟨rfl, rfl⟩⟩
  | some outcome =>
    obtain ⟨next, queue⟩ := outcome
    have now : (other.withQueue (guise.queue queue)).now = guise.tick next.tick :=
      congrArg guise.tick (Queue.pop?_eq_some (Simulator.pop?_of_due? found)).2.1
    rw [found] at fits
    obtain ⟨within, decides⟩ := fitsAll_cons.mp fits
    -- the numbers that decide what follows are those of the turn of one station
    have delivers : ∀ station, sim.stations[next.event.core]? = some station → guise.FitsAll
        (((guise.station station).turn (other.withQueue (guise.queue queue)).now other.memory
          other.latency).reckons (guise.event next.event)) := by
      intro station among
      rw [show (guise.pending next).event.core = next.event.core from core_event .., resembles.stations,
        List.getElem?_map, among] at decides
      rw [now]
      exact decides
    have ends : ∀ station core, sim.stations[core]? = some station → next.event = .coreEdge core →
        guise.Ends ((guise.station station).turn (other.withQueue (guise.queue queue)).now other.memory
          other.latency) := by
      intro station core among edge
      refine whole core _ ?_
      have next_due : other.due? = some (guise.pending next, guise.queue queue) :=
        due.trans (congrArg (Option.map _) found)
      have same : (guise.pending next).event = .coreEdge core := congrArg guise.event edge
      rw [Simulator.edgeTurn?_of_due? next_due, if_pos same, resembles.stations, List.getElem?_map, among,
        now]
      rfl
    obtain ⟨same, left⟩ := (resembles.withQueue queue).dispatch (now ▸ within) delivers ends
    exact ⟨rfl, .inr ⟨_, _, _, rfl, congrArg some (Prod.ext rfl same), left⟩⟩

theorem ending : other.ending = guise.summary sim.ending := by
  unfold Simulator.ending
  rw [resembles.now, resembles.queue, resembles.own, resembles.others,
    show (guise.queue sim.timeline.queue).pending = sim.timeline.queue.pending.map guise.pending from rfl,
    show (guise.platform platform).stop = guise.stop platform.stop from rfl]
  cases platform.stop <;> cases sim.timeline.queue.pending <;> rfl

theorem register (spec : CoreSpec) (workload : Workload) : guise.Resembles platform
    (sim.register spec workload) (other.register (guise.coreSpec spec) workload) := by
  generalize new : (⟨.ofSpec spec workload, sim.platform.coprocessor.map (.ofSpec spec.id)⟩ : Station) =
    station
  have dressed : guise.station station =
      ⟨.ofSpec (guise.coreSpec spec) workload, other.platform.coprocessor.map (.ofSpec spec.id)⟩ := by
    rw [← new, resembles.own, resembles.others]
    unfold Guise.station Guise.platform
    simp only [Option.map_map]
    rfl
  obtain ⟨line, registered⟩ := @Simulator.register_eq sim spec workload station new.symm
  obtain ⟨entry, also⟩ := @Simulator.register_eq other (guise.coreSpec spec) workload _ dressed
  have enrolled : guise.Resembles platform (sim.enroll station) (other.enroll (guise.station station)) := {
    resembles with
    stations := by
      unfold Simulator.enroll
      simp only [resembles.stations, List.map_append, List.map_singleton] }
  -- the first edges of all clocks come at tick 0, which is the same in every timebase
  have begins := (resembles.shows_turn station 0).requestFirstEdge (.inr (by
    rw [guise.tick_zero]
    exact Nat.le_trans (Nat.le_of_eq (Clock.firstEdge_zero _)) (Nat.zero_le _)))
  have same : other.stations.length = sim.stations.length := by
    rw [resembles.stations, List.length_map]
  rw [registered, also, same]
  exact (enrolled.settle begins _).apply_line line entry

theorem foldl_register (cores : List (CoreSpec × Workload)) : guise.Resembles platform
    (cores.foldl (fun sim core => sim.register core.1 core.2) sim)
    ((cores.map fun core => (guise.coreSpec core.1, core.2)).foldl
      (fun sim core => sim.register core.1 core.2) other) := by
  induction cores generalizing sim other with
  | nil => exact resembles
  | cons core cores ih => exact ih (resembles.register core.1 core.2)

theorem records {summary : Summary} (ended : sim.summary = some summary) :
    guise.Gathers platform.statisticLevel sim.records other.records := by
  have also : other.summary = some (guise.summary summary) := by
    rw [resembles.summary, ended]
    rfl
  rw [Simulator.records_eq sim ended, Simulator.records_eq other also, resembles.stations]
  have gathers := resembles.gathers
  generalize sim.timeline.sink = sink, other.timeline.sink = shown at gathers
  induction sim.stations generalizing sink shown with
  | nil => exact gathers
  | cons station stations ih =>
    have reported := gathers.addAll (station.report summary.endTick)
    rw [← report_station] at reported
    exact ih _ _ reported

end Resembles

section runs

variable {platform : Platform} {first second : Simulator}

theorem resembles_of_create {workloads : List Workload}
    (created : Simulator.create platform workloads = .ok first)
    (also : Simulator.create (guise.platform platform) workloads = .ok second) :
    guise.Resembles platform first second := by
  have paired : (guise.platform platform).cores.zip workloads =
      (platform.cores.zip workloads).map fun core => (guise.coreSpec core.1, core.2) :=
    List.zip_map_left ..
  have fresh : guise.Resembles platform (.ofStations platform []) (.ofStations (guise.platform platform) []) := {
    own := rfl
    others := rfl
    queue := rfl
    gathers := ⟨rfl, rfl, [], rfl, rfl⟩
    latency := by
      refine congrArg LatencyModel.mk ?_
      rw [show (guise.platform platform).cores = platform.cores.map guise.coreSpec from rfl, List.map_map]
      rfl
    stations := rfl
    summary := rfl }
  unfold Simulator.create at created also
  split at created
  · cases created
  · split at also
    · cases also
    · cases created
      cases also
      rw [paired]
      exact fresh.foldl_register _

variable (resembles : guise.Resembles platform first second)
  (admits : ∀ events, guise.Admits (second.states events).2)

include resembles admits

theorem resembles_states (events : Nat) :
    guise.Resembles platform (first.states events).2 (second.states events).2 ∧
      second.history events = (first.history events).map guise.pending := by
  induction events with
  | zero => exact ⟨resembles.apply_line .., rfl⟩
  | succ events ih =>
    obtain ⟨same, histories⟩ := ih
    obtain ⟨due, outcome⟩ := same.step (admits events)
    refine ⟨?_, ?_⟩
    · unfold Simulator.states
      rcases outcome with ⟨past, also⟩ | ⟨next, after, failed, stepped, also, left⟩
      · rw [past, also]
        exact same
      · rw [stepped, also]
        cases failed with
        | none => exact left
        | some core => exact same
    · unfold Simulator.history
      rw [histories, due, List.map_append]
      cases (first.states events).2.next? <;> rfl

theorem run_resembles : guise.Resembles platform first.run.1 second.run.1 ∧
    second.run.2 = first.run.2.map guise.summary := by
  unfold Simulator.run
  rw [resembles.summary]
  cases first.summary with
  | some summary => exact ⟨resembles, rfl⟩
  | none =>
    obtain ⟨events, last⟩ := first.exists_last
    obtain ⟨same, -⟩ := resembles_states resembles admits events
    obtain ⟨-, outcome⟩ := same.step (admits events)
    simp only [Option.map_none]
    rw [← first.advance_states events, ← second.advance_states events, Simulator.advance_eq,
      Simulator.advance_eq]
    rcases outcome with ⟨past, also⟩ | ⟨next, after, failed, stepped, also, left⟩
    · have ending := same.ending
      rw [past, also]
      refine ⟨?_, congrArg Except.ok ending⟩
      exact { same with summary := congrArg some ending }
    · rw [stepped, also]
      cases failed with
      | none => exact absurd stepped (last next)
      | some core => exact ⟨left, rfl⟩

end runs

end Guise

end CoreTiming
