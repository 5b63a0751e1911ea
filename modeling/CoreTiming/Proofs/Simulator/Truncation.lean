import CoreTiming.Proofs.Simulator.Dispatch

namespace CoreTiming

namespace Sink

theorem records_addAll_prefix (sink : Sink) (records : List Record) :
    sink.records.toList <+: (sink.addAll records).records.toList := by
  rw [toList_addAll]
  exact List.prefix_append ..

end Sink

namespace Simulator

/-- Two simulators in the same state, but for what they have logged and when they stop. -/
structure Agrees (sim other : Simulator) : Prop where
  platform : { sim.platform with stop := other.platform.stop } = other.platform
  queue : sim.timeline.queue = other.timeline.queue
  sink : sim.timeline.sink = other.timeline.sink
  latency : sim.latency = other.latency
  stations : sim.stations = other.stations

variable {sim other next : Simulator} {notes : Nat → Notes}

namespace Agrees

theorem memory (agrees : sim.Agrees other) : sim.memory = other.memory :=
  congrArg (fun platform => MemoryMap.mk platform.memorySize) agrees.platform

theorem apply_line (agrees : sim.Agrees other) (line entry : Log.Line) :
    (sim.apply (.line line)).Agrees (other.apply (.line entry)) :=
  ⟨agrees.platform, agrees.queue, agrees.sink, agrees.latency, agrees.stations⟩

theorem withQueue (agrees : sim.Agrees other) (queue : Queue) :
    (sim.withQueue queue).Agrees (other.withQueue queue) :=
  ⟨agrees.platform, rfl, agrees.sink, agrees.latency, agrees.stations⟩

theorem settle (agrees : sim.Agrees other) (index : Nat) (done : Turn) :
    (sim.settle index done).Agrees (other.settle index done) where
  platform := agrees.platform
  queue := congrArg (Queue.scheduleAll · done.effects.posts) agrees.queue
  sink := congrArg (Sink.addAll · done.effects.records) agrees.sink
  latency := rfl
  stations := congrArg (fun stations : List Station => stations.set index ⟨done.core, done.coprocessor⟩)
    agrees.stations

theorem dispatch (agrees : sim.Agrees other) (event : Event) :
    (sim.dispatch event).2 = (other.dispatch event).2 ∧
      (sim.dispatch event).1.Agrees (other.dispatch event).1 := by
  have same : other.now = sim.now := congrArg Queue.now agrees.queue.symm
  unfold Simulator.dispatch
  rw [agrees.stations]
  cases other.stations[event.core]? with
  | none => exact ⟨rfl, agrees⟩
  | some station =>
    simp only
    split
    · rw [turn_eq, turn_eq, same, agrees.memory, agrees.latency]
      exact ⟨rfl, agrees.settle ..⟩
    · exact ⟨rfl, agrees⟩

theorem step (agrees : sim.Agrees other) {failed : Option Nat} (stepped : sim.step? = some (next, failed))
    (goes : ∀ tick, sim.platform.stop.excludes tick = false → other.platform.stop.excludes tick = false) :
    ∃ after, other.step? = some (after, failed) ∧ other.next? = sim.next? ∧ next.Agrees after := by
  obtain ⟨pending, queue, popped, included, taken⟩ := step?_eq_some stepped
  obtain ⟨outcome, left⟩ := (agrees.withQueue queue).dispatch pending.event
  rw [taken] at outcome left
  have due := due?_of_pop? (agrees.queue ▸ popped) (goes _ included)
  refine ⟨_, ?_, ?_, left⟩
  · unfold step?
    rw [due]
    exact congrArg some (Prod.ext rfl outcome.symm)
  · simp [next?, due, due?_of_pop? popped included]

theorem register (agrees : sim.Agrees other) (core : CoreSpec) (workload : Workload) :
    (sim.register core workload).Agrees (other.register core workload) := by
  have lent : sim.platform.coprocessor = other.platform.coprocessor := by
    rw [← agrees.platform]
  generalize new : (⟨.ofSpec core workload, sim.platform.coprocessor.map (.ofSpec core.id)⟩ : Station) =
    station
  obtain ⟨line, registered⟩ := @register_eq sim core workload station new.symm
  obtain ⟨entry, also⟩ := @register_eq other core workload station (lent ▸ new.symm)
  have enrolled : (sim.enroll station).Agrees (other.enroll station) :=
    { agrees with stations := congrArg (· ++ [station]) agrees.stations }
  rw [registered, also, agrees.memory, agrees.latency, agrees.stations]
  exact (enrolled.settle ..).apply_line line entry

theorem foldl_register (agrees : sim.Agrees other) (cores : List (CoreSpec × Workload)) :
    (cores.foldl (fun sim core => sim.register core.1 core.2) sim).Agrees
      (cores.foldl (fun sim core => sim.register core.1 core.2) other) := by
  induction cores generalizing sim other with
  | nil => exact agrees
  | cons core cores ih => exact ih (agrees.register core.1 core.2)

end Agrees

theorem agrees_of_create {platform : Platform} {stop : StopCondition} {workloads : List Workload}
    {first second : Simulator} (created : create platform workloads = .ok first)
    (also : create { platform with stop := stop } workloads = .ok second) : first.Agrees second := by
  unfold create at created also
  split at created
  · cases created
  · rename_i equal
    rw [if_neg equal] at also
    cases created
    cases also
    have fresh : (ofStations platform []).Agrees (ofStations { platform with stop := stop } []) :=
      ⟨rfl, rfl, rfl, rfl, rfl⟩
    exact fresh.foldl_register (platform.cores.zip workloads)

variable {platform : Platform} {first second : Simulator}

theorem mem_history_or_pending (prepared : first.Prepared platform) {events later : Nat}
    (order : events ≤ later) {pending : Pending}
    (member : pending ∈ (first.states events).2.timeline.queue.pending) :
    pending ∈ first.history later ∨ pending ∈ (first.states later).2.timeline.queue.pending := by
  refine prepared.history_induction (motive := fun history sim =>
    pending ∈ history ∨ pending ∈ sim.timeline.queue.pending) order (.inr member) ?_
  rintro history notes sim dispatched next sound advances (done | waiting)
  · exact .inl (List.mem_append_left _ done)
  · obtain ⟨latest, queue, station, turn, popped, included, -, -, rfl, -⟩ :=
      sound.step?_eq_some advances.stepped
    rw [(Queue.pop?_eq_some popped).1] at waiting
    rcases List.mem_cons.mp waiting with rfl | waiting
    · have due : sim.next? = some pending := by simp [next?, due?_of_pop? popped included]
      obtain rfl := Option.some.inj (due.symm.trans advances.due)
      exact .inl (List.mem_append_right _ List.mem_cons_self)
    · exact .inr (Queue.mem_scheduleAll_of_mem waiting)

theorem exists_late_history (prepared : first.Prepared platform) {events later limit : Nat}
    (order : events ≤ later)
    (late : ∀ pending ∈ (first.states events).2.timeline.queue.pending, limit < pending.tick) :
    (∀ pending ∈ (first.states later).2.timeline.queue.pending, limit < pending.tick) ∧
      ∃ rest, first.history later = first.history events ++ rest ∧
        ∀ dispatched ∈ rest, limit < dispatched.tick := by
  refine prepared.history_induction (motive := fun history sim =>
    (∀ pending ∈ sim.timeline.queue.pending, limit < pending.tick) ∧
      ∃ rest, history = first.history events ++ rest ∧ ∀ dispatched ∈ rest, limit < dispatched.tick)
    order ⟨late, [], by simp⟩ ?_
  rintro history notes sim latest next - advances ⟨waiting, rest, rfl, beyond⟩
  have last := waiting latest advances.waiting
  refine ⟨?_, rest ++ [latest], List.append_assoc .., ?_⟩
  · intro pending member
    exact Nat.lt_of_lt_of_le last (Queue.tick_le_of_before (advances.behind pending member))
  · intro dispatched member
    rcases List.mem_append.mp member with earlier | present
    · exact beyond dispatched earlier
    · rw [List.mem_singleton.mp present]
      exact last

theorem records_states_prefix (prepared : first.Prepared platform) {events later : Nat}
    (order : events ≤ later) : (first.states events).2.timeline.sink.records.toList <+:
      (first.states later).2.timeline.sink.records.toList := by
  refine prepared.history_induction (motive := fun _ sim =>
    (first.states events).2.timeline.sink.records.toList <+: sim.timeline.sink.records.toList)
    order List.prefix_rfl ?_
  intro history notes sim latest next sound advances earlier
  obtain ⟨_, queue, station, done, -, -, -, -, rfl, -⟩ := sound.step?_eq_some advances.stepped
  exact earlier.trans (Sink.records_addAll_prefix ..)

theorem included_of_history (prepared : first.Prepared platform) (events : Nat) :
    ∀ dispatched ∈ first.history events, platform.stop.excludes dispatched.tick = false := by
  intro dispatched member
  obtain ⟨index, found⟩ := List.getElem?_of_mem member
  obtain ⟨queue, due, -⟩ := dispatches_of_history prepared found
  rw [← (run_states first index).platform_eq prepared]
  exact included_of_due? due

theorem Sound.late_of_elapsed (sound : sim.Sound notes) (elapsed : sim.step? = none) {limit : Nat}
    (limited : sim.platform.stop = .atTick limit) :
    ∀ pending ∈ sim.timeline.queue.pending, limit < pending.tick := by
  intro pending member
  rcases pending_of_elapsed elapsed with ⟨-, empty⟩ | ⟨-, bound, next, rest, stop, first, late⟩
  · rw [empty] at member
    cases member
  · cases limited.symm.trans stop
    have sorted := sound.ordered.sorted
    rw [first] at member sorted
    rcases List.mem_cons.mp member with rfl | behind
    · exact late
    · exact Nat.lt_of_lt_of_le late (Queue.tick_le_of_before ((List.pairwise_cons.mp sorted).1 _ behind))

theorem step?_of_empty (empty : sim.timeline.queue.pending = []) : sim.step? = none := by
  simp [step?, due?, Queue.pop?, empty]

theorem ending_of_empty (empty : sim.timeline.queue.pending = []) :
    sim.ending = ⟨sim.now, .drained, sim.dispatched⟩ := by
  unfold ending
  rw [empty]
  cases sim.platform.stop <;> rfl

theorem ending_of_left {limit : Nat} (limited : sim.platform.stop = .atTick limit) {next : Pending}
    {rest : List Pending} (left : sim.timeline.queue.pending = next :: rest) :
    sim.ending = ⟨limit, .stopCondition, sim.dispatched⟩ := by
  unfold ending
  rw [left, limited]
  rfl

theorem run_of_summary {summary : Summary} (closed : sim.summary = some summary) :
    sim.run = (sim, .ok summary) := by
  unfold run
  rw [closed]

/-- The first events of a run, or those that are pending in some state, include one later than a tick. -/
def Exceeds (first : Simulator) (events : Nat) (last : Simulator) (limit : Nat) : Prop :=
  ∃ pending, (pending ∈ first.history events ∨ pending ∈ last.timeline.queue.pending) ∧
    limit < pending.tick

section truncated

variable {shared : Platform} (agrees : first.Agrees second) (prepared : first.Prepared platform)
  (also : second.Prepared shared)
  (goes : ∀ tick, platform.stop.excludes tick = false → shared.stop.excludes tick = false)

include agrees prepared also goes

theorem agrees_states {events : Nat} (going : ∀ earlier < events, (first.states earlier).2.step? ≠ none) :
    (first.states events).2.Agrees (second.states events).2 ∧
      second.history events = first.history events := by
  induction events with
  | zero => exact ⟨agrees.apply_line .., rfl⟩
  | succ events ih =>
    obtain ⟨same, histories⟩ := ih fun earlier less => going earlier (Nat.lt_succ_of_lt less)
    rcases states_step prepared events with elapsed | ⟨next, stepped, moved⟩
    · exact absurd elapsed (going events (Nat.lt_succ_self _))
    · have own := (run_states first events).platform_eq prepared
      have others := (run_states second events).platform_eq also
      obtain ⟨after, taken, due, left⟩ := same.step stepped (own.symm ▸ others.symm ▸ goes)
      rw [moved, states_succ taken]
      exact ⟨left, by rw [history, history, histories, due]⟩

theorem events_le_of_agrees {events longer : Nat}
    (going : ∀ earlier < events, (first.states earlier).2.step? ≠ none)
    (elapsed : (second.states longer).2.step? = none) : events ≤ longer := by
  by_contra order
  have early : longer < events := Nat.not_le.mp order
  obtain ⟨same, -⟩ := agrees_states agrees prepared also goes fun earlier less =>
    going earlier (Nat.lt_trans less early)
  rcases states_step prepared longer with stuck | ⟨next, stepped, -⟩
  · exact going longer early stuck
  · have own := (run_states first longer).platform_eq prepared
    have others := (run_states second longer).platform_eq also
    obtain ⟨after, taken, -⟩ := same.step stepped (own.symm ▸ others.symm ▸ goes)
    rw [elapsed] at taken
    cases taken

end truncated

theorem ending_of_agrees (also : second.Prepared platform) {limit : Nat} (elapsed : sim.step? = none)
    (limited : sim.platform.stop = .atTick limit) {events more : Nat}
    (same : sim.Agrees (second.states events).2)
    (within : ∀ dispatched ∈ second.history events, dispatched.tick ≤ limit)
    (closed : other = (second.states (events + more)).2) :
    second.Exceeds (events + more) other limit ∧ sim.ending = ⟨limit, .stopCondition, sim.dispatched⟩ ∨
      ¬ second.Exceeds (events + more) other limit ∧ sim.ending = other.ending ∧
        sim.ending.reason = .drained := by
  rcases pending_of_elapsed elapsed with ⟨drained, empty⟩ | ⟨-, bound, next, rest, stop, first, late⟩
  · have left : (second.states events).2.timeline.queue.pending = [] := same.queue ▸ empty
    have spent := step?_of_empty left
    rw [states_of_elapsed spent more] at closed
    refine .inr ⟨?_, ?_, drained⟩
    · rintro ⟨pending, done | waiting, beyond⟩
      · rw [history_of_elapsed spent more] at done
        exact Nat.not_le.mpr beyond (within pending done)
      · rw [closed, left] at waiting
        cases waiting
    · have now : sim.now = other.now := congrArg Queue.now (closed ▸ same.queue)
      have count : sim.dispatched = other.dispatched := congrArg Queue.dispatched (closed ▸ same.queue)
      rw [ending_of_empty empty, ending_of_empty (closed ▸ left), now, count]
  · cases limited.symm.trans stop
    have waiting : next ∈ (second.states events).2.timeline.queue.pending := by
      rw [← same.queue, first]
      exact List.mem_cons_self
    have later := mem_history_or_pending also (Nat.le_add_right events more) waiting
    rw [← closed] at later
    exact .inl ⟨⟨next, later, late⟩, ending_of_left limited first⟩

/-- A run that stops at a tick is the beginning of every run of the same platform that stops later or
    not at all: it dispatches the events up to that tick in the same order, and ends in the state in
    which the other run is after them. -/
theorem stop_truncates {config longer : Config} {platform : Platform} {limit : Nat} {stop : StopCondition}
    (built : config.build = .ok platform) (limited : platform.stop = .atTick limit)
    (also_built : longer.build = .ok { platform with stop := stop })
    (later : stop = .drain ∨ ∃ tick, limit ≤ tick ∧ stop = .atTick tick)
    {workloads : List Workload} {first second : Simulator}
    (created : create platform workloads = .ok first)
    (also_created : create { platform with stop := stop } workloads = .ok second) :
    ∃ last summary final outcome, first.run = (last, .ok summary) ∧ second.run = (final, .ok outcome) ∧
      first.history summary.events = (second.history outcome.events).filter (·.tick ≤ limit) ∧
      summary.events ≤ outcome.events ∧ last.Agrees (second.states summary.events).2 ∧
      last.timeline.sink.records.toList <+: final.timeline.sink.records.toList ∧
      (second.Exceeds outcome.events final limit ∧
          summary.reason = .stopCondition ∧ summary.endTick = limit ∨
        ¬ second.Exceeds outcome.events final limit ∧ summary.reason = .drained ∧
          summary.endTick = outcome.endTick ∧ summary.events = outcome.events) ∧
      (∀ events, ∀ dispatched ∈ first.history events, dispatched.tick ≤ limit) ∧
      last.run = (last, .ok summary) ∧ final.run = (final, .ok outcome) := by
  have prepared := prepared_of_create (Config.sound_of_build built) created
  have also := prepared_of_create (Config.sound_of_build also_built) also_created
  have agrees := agrees_of_create created also_created
  have goes : ∀ tick, platform.stop.excludes tick = false → stop.excludes tick = false := by
    intro tick included
    rw [limited] at included
    have early : ¬ limit < tick := of_decide_eq_false included
    rcases later with rfl | ⟨bound, order, rfl⟩
    · rfl
    · exact decide_eq_false (by omega)
  have within : ∀ events, ∀ dispatched ∈ first.history events, dispatched.tick ≤ limit := by
    intro events dispatched member
    have included := included_of_history prepared events dispatched member
    rw [limited] at included
    exact Nat.not_lt.mp (of_decide_eq_false included)
  obtain ⟨ended, summary, ran, ending, reached, elapsed, going⟩ :=
    prepared.run_eq (potential_le_of_create created).1
  obtain ⟨closed, outcome, also_ran, closing, left, spent, -⟩ :=
    also.run_eq (potential_le_of_create also_created).1
  -- up to the bound both runs dispatch the same events
  obtain ⟨same, histories⟩ := agrees_states agrees prepared also goes going
  have order := events_le_of_agrees agrees prepared also goes going (left ▸ spent)
  obtain ⟨more, count⟩ := Nat.exists_eq_add_of_le order
  have sound := (run_states first summary.events).sound prepared
  have stops := (run_states first summary.events).platform_eq prepared
  rw [← reached] at same sound stops
  rw [← stops] at limited
  rw [count] at left
  -- the longer run has only later events left
  have late := sound.late_of_elapsed elapsed limited
  rw [same.queue] at late
  obtain ⟨-, rest, extended, beyond⟩ := exists_late_history also (Nat.le_add_right _ more) late
  refine ⟨_, summary, _, outcome, ran, also_ran, ?filtered, order, ?state, ?records, ?ends, within,
    run_of_summary rfl, run_of_summary rfl⟩
  case filtered =>
    have early : (first.history summary.events).filter (·.tick ≤ limit) = first.history summary.events :=
      List.filter_eq_self.mpr fun dispatched member => decide_eq_true (within _ dispatched member)
    have none_left : rest.filter (·.tick ≤ limit) = [] :=
      List.filter_eq_nil_iff.mpr fun dispatched member => by simp [beyond dispatched member]
    rw [count, extended, List.filter_append, histories, early, none_left, List.append_nil]
  case state => exact ⟨same.platform, same.queue, same.sink, same.latency, same.stations⟩
  case records =>
    show ended.timeline.sink.records.toList <+: closed.timeline.sink.records.toList
    rw [same.sink, left]
    exact records_states_prefix also (Nat.le_add_right ..)
  case ends =>
    rw [count]
    rcases ending_of_agrees also elapsed limited same (histories ▸ within _) left with
      ⟨exceeds, cut⟩ | ⟨not_exceeds, equal, drained⟩
    · have stopped := ending.trans cut
      exact .inl ⟨exceeds, congrArg Summary.reason stopped, congrArg Summary.endTick stopped⟩
    · have summaries : summary = outcome := ending.trans (equal.trans closing.symm)
      exact .inr ⟨not_exceeds, (congrArg Summary.reason ending).trans drained,
        congrArg Summary.endTick summaries, (congrArg Summary.events summaries).trans count⟩

def twoCoresCut : Config :=
  { twoCores with options := { stopAtCycle := "1000" } }

theorem build_twoCoresCut :
    twoCoresCut.build.map (fun platform => { platform with stop := .drain }) = twoCores.build := rfl

/-- The edges at the stop tick are the last events, as they are the last ones up to that tick of the run
    that drains. -/
theorem twoCoresCut_truncates : ∃ platform first second last summary final outcome,
    twoCoresCut.build = .ok platform ∧
      create platform [twoClocksWorkload, twoClocksWorkload] = .ok first ∧
      create { platform with stop := .drain } [twoClocksWorkload, twoClocksWorkload] = .ok second ∧
      first.run = (last, .ok summary) ∧ second.run = (final, .ok outcome) ∧
      (first.states 6).2.step?.isNone = true ∧ (second.states 12).2.step?.isNone = true ∧
      first.history summary.events = (second.history outcome.events).filter (·.tick ≤ 1000) ∧
      last.Agrees (second.states summary.events).2 := by
  obtain ⟨platform, built, stop, first, created, elapsed, second, also_created, also_elapsed⟩ :
      ∃ platform, twoCoresCut.build = .ok platform ∧ platform.stop = .atTick 1000 ∧
        ∃ first, create platform [twoClocksWorkload, twoClocksWorkload] = .ok first ∧
          (first.states 6).2.step?.isNone = true ∧
          ∃ second, create { platform with stop := .drain } [twoClocksWorkload, twoClocksWorkload] =
            .ok second ∧ (second.states 12).2.step?.isNone = true := by
    decide +kernel
  have also_built : twoCores.build = .ok { platform with stop := .drain } := by
    rw [← build_twoCoresCut, built]
    rfl
  obtain ⟨last, summary, final, outcome, ran, also_ran, filtered, -, agrees, -⟩ :=
    stop_truncates built stop also_built (.inl rfl) created also_created
  exact ⟨platform, first, second, last, summary, final, outcome, built, created, also_created, ran,
    also_ran, elapsed, also_elapsed, filtered, agrees⟩

end Simulator

end CoreTiming
