import CoreTiming.Proofs.Simulator.Separation
import CoreTiming.Proofs.Simulator.Turns

namespace CoreTiming

namespace Event

theorem priority_eq (event : Event) : event.priority =
    if event = .coprocessorEdge event.core then 2 * event.core + 1 else 2 * event.core := by
  cases event <;> simp [priority, core]

theorem core_le_of_priority_le {event later : Event} (order : event.priority ≤ later.priority) :
    event.core ≤ later.core ∧ (event.core = later.core → event = .coprocessorEdge event.core →
      later = .coprocessorEdge later.core) := by
  rw [priority_eq event, priority_eq later] at order
  split at order
  · split at order
    · rename_i last
      exact ⟨by omega, fun _ _ => last⟩
    · exact ⟨by omega, fun same => by omega⟩
  · rename_i early
    refine ⟨?_, fun _ edge => absurd edge early⟩
    split at order <;> omega

end Event

/-- At a tick the cores come one after the other, and a coprocessor comes after its core. -/
def Pending.Turnwise (earlier later : Pending) : Prop :=
  earlier.tick = later.tick → earlier.event.core ≤ later.event.core ∧
    (earlier.event.core = later.event.core → earlier.event = .coprocessorEdge earlier.event.core →
      later.event = .coprocessorEdge later.event.core)

theorem Pending.Before.turnwise {earlier later : Pending} (before : earlier.Before later) :
    earlier.Turnwise later := by
  intro together
  apply Event.core_le_of_priority_le
  unfold Pending.Before at before
  omega

namespace Queue

theorem sequence_of_mem_scheduleAll {queue : Queue} {posts : List (Nat × Event)} {pending : Pending}
    (member : pending ∈ (queue.scheduleAll posts).pending) :
    pending ∈ queue.pending ∨ queue.nextSequence ≤ pending.sequence := by
  induction posts generalizing queue with
  | nil => exact .inl member
  | cons post posts ih =>
    rcases ih member with member | late
    · rcases mem_schedule.mp member with rfl | member
      · exact .inr (Nat.le_refl _)
      · exact .inl member
    · exact .inr (Nat.le_of_succ_le late)

theorem Ordered.before_of_mem_scheduleAll {queue after : Queue} {next : Pending} (ordered : queue.Ordered)
    (popped : queue.pop? = some (next, after)) {posts : List (Nat × Event)}
    (behind : ∀ post ∈ posts, ¬ Precedes post (next.tick, next.event)) {pending : Pending}
    (member : pending ∈ (after.scheduleAll posts).pending) : next.Before pending := by
  obtain ⟨first, now, sequence⟩ := pop?_eq_some popped
  rcases of_mem_scheduleAll member with before | ⟨post, among, tick, event⟩
  · exact ordered.before_of_pop? popped pending before
  · rcases sequence_of_mem_scheduleAll member with before | late
    · exact ordered.before_of_pop? popped pending before
    · have numbered : next.sequence < queue.nextSequence := ordered.numbered next (by simp [first])
      have order := behind post among
      refine before_of_not_before (by omega) ?_
      unfold Precedes at order
      unfold Pending.Before
      rw [tick, event, now]
      simp only at order
      omega

end Queue

theorem Turn.lt_of_mem_posts_coprocessorEdge {turn : Turn} (fresh : turn.effects = .none)
    {post : Nat × Event} (member : post ∈ turn.coprocessorEdge.effects.posts) : turn.now < post.1 := by
  unfold Turn.coprocessorEdge at member
  cases attached : turn.coprocessor with
  | none =>
    rw [attached, fresh] at member
    cases member
  | some unit =>
    rw [attached] at member
    have posted : post ∈ (unit.edge turn.now).2.posts := by
      simpa only [Turn.emit, fresh, Effects.posts_append, Effects.posts_none, List.nil_append] using member
    by_cases due : unit.nextEdge = some turn.now
    · rw [(Coprocessor.edge_of_eq due).2] at posted
      obtain ⟨tick, found, rfl⟩ := List.mem_map.mp posted
      exact (Coprocessor.nextEdge?_eq_some (Option.mem_toList.mp found)).1
    · rw [Coprocessor.edge_of_ne due] at posted
      cases posted

namespace Simulator

variable {notes : Nat → Notes} {sim next : Simulator} {platform : Platform} {first : Simulator}

def next? (sim : Simulator) : Option Pending :=
  sim.due?.map Prod.fst

def Dispatches (sim : Simulator) (dispatched : Pending) (next : Simulator) : Prop :=
  ∃ queue, sim.due? = some (dispatched, queue) ∧
    (sim.withQueue queue).dispatch dispatched.event = (next, none)

/-- The events that the first steps of a run dispatch, in their order. -/
def history (first : Simulator) : Nat → List Pending
  | 0 => []
  | events + 1 => first.history events ++ (first.states events).2.next?.toList

theorem Sound.not_precedes_turn (sound : sim.Sound notes) {pending : Pending} {queue : Queue}
    {station : Station} (popped : sim.timeline.queue.pop? = some (pending, queue))
    (found : sim.stations[pending.event.core]? = some station) {post : Nat × Event}
    (member : post ∈
      ((station.turn pending.tick sim.memory sim.latency).deliver pending.event).effects.posts) :
    ¬ Queue.Precedes post (pending.tick, pending.event) := by
  obtain ⟨proper, id, -, -, time⟩ := sound.frame_turn popped found
  obtain ⟨future, -, own, -⟩ := proper.posts post member
  rw [time] at future
  unfold Queue.Precedes
  simp only
  by_cases edge : ∃ core, pending.event = .coprocessorEdge core
  · obtain ⟨core, same⟩ := edge
    rw [same] at member
    have later : pending.tick < post.1 := Turn.lt_of_mem_posts_coprocessorEdge rfl member
    omega
  · -- the post is for the core of the event, and no event of a core comes before its other ones
    have early : pending.event.priority = 2 * pending.event.core := by
      rw [Event.priority_eq, if_neg fun same => edge ⟨_, same⟩]
    have late : 2 * post.2.core ≤ post.2.priority := by
      rw [Event.priority_eq]
      split <;> omega
    rw [own, id] at late
    omega

/-- A step, the event that it takes and what this says about the queue. -/
structure Advances (sim : Simulator) (dispatched : Pending) (next : Simulator) : Prop where
  stepped : sim.step? = some (next, none)
  due : sim.next? = some dispatched
  waiting : dispatched ∈ sim.timeline.queue.pending
  behind : ∀ pending ∈ next.timeline.queue.pending, dispatched.Before pending

theorem Sound.advances_of_step (sound : sim.Sound notes) (stepped : sim.step? = some (next, none)) :
    ∃ dispatched, sim.Advances dispatched next := by
  obtain ⟨dispatched, queue, station, done, popped, included, found, rfl, rfl, -⟩ :=
    sound.step?_eq_some stepped
  have first := (Queue.pop?_eq_some popped).1
  refine ⟨dispatched, stepped, ?_, by simp [first], ?_⟩
  · unfold next?
    rw [due?_of_pop? popped included]
    rfl
  · intro pending member
    refine sound.ordered.before_of_mem_scheduleAll popped ?_ member
    exact fun post among => sound.not_precedes_turn popped found among

theorem Advances.dispatches {dispatched : Pending} (advances : sim.Advances dispatched next) :
    sim.Dispatches dispatched next := by
  obtain ⟨⟨pending, queue⟩, same, taken⟩ := Option.map_eq_some_iff.mp advances.stepped
  obtain ⟨⟨_, other⟩, found, rfl⟩ := Option.map_eq_some_iff.mp advances.due
  cases same.symm.trans found
  exact ⟨queue, same, taken⟩

theorem next?_of_elapsed (elapsed : sim.step? = none) : sim.next? = none := by
  unfold next?
  rw [Option.map_eq_none_iff.mp elapsed]
  rfl

theorem history_succ {events : Nat} {dispatched : Pending}
    (due : (first.states events).2.next? = some dispatched) :
    first.history (events + 1) = first.history events ++ [dispatched] := by
  rw [history, due]
  rfl

theorem history_of_elapsed {events : Nat} (elapsed : (first.states events).2.step? = none) (more : Nat) :
    first.history (events + more) = first.history events := by
  induction more with
  | zero => rfl
  | succ more ih =>
    have still := states_of_elapsed elapsed more
    rw [← Nat.add_assoc, history, still, next?_of_elapsed elapsed, ih]
    exact List.append_nil _

theorem Prepared.history_step (prepared : first.Prepared platform) (events : Nat) :
    ((first.states events).2.step? = none ∧ first.history (events + 1) = first.history events ∧
        first.states (events + 1) = first.states events) ∨
      ∃ dispatched, (first.states events).2.Advances dispatched (first.states (events + 1)).2 ∧
        first.history (events + 1) = first.history events ++ [dispatched] := by
  rcases states_step prepared events with elapsed | ⟨next, stepped, same⟩
  · exact .inl ⟨elapsed, history_of_elapsed elapsed 1, states_of_elapsed elapsed 1⟩
  · obtain ⟨dispatched, advances⟩ := ((run_states first events).sound prepared).advances_of_step stepped
    rw [same]
    exact .inr ⟨dispatched, advances, history_succ advances.due⟩

theorem Prepared.history_induction (prepared : first.Prepared platform)
    {motive : List Pending → Simulator → Prop} {events later : Nat} (order : events ≤ later)
    (begun : motive (first.history events) (first.states events).2)
    (step : ∀ history notes sim dispatched next, Sound notes sim → sim.Advances dispatched next →
      motive history sim → motive (history ++ [dispatched]) next) :
    motive (first.history later) (first.states later).2 := by
  induction order with
  | refl => exact begun
  | @step later order ih =>
    rcases prepared.history_step later with ⟨-, histories, states⟩ | ⟨dispatched, advances, histories⟩
    · rw [histories, states]
      exact ih
    · rw [histories]
      exact step _ _ _ _ _ ((run_states first later).sound prepared) advances ih

theorem pairwise_history (prepared : first.Prepared platform) (events : Nat) :
    (first.history events).Pairwise Pending.Before ∧ ∀ dispatched ∈ first.history events,
      ∀ pending ∈ (first.states events).2.timeline.queue.pending, dispatched.Before pending := by
  refine prepared.history_induction (motive := fun history sim => history.Pairwise Pending.Before ∧
      ∀ dispatched ∈ history, ∀ pending ∈ sim.timeline.queue.pending, dispatched.Before pending)
    (Nat.zero_le events) ⟨.nil, by simp [history]⟩ ?_
  rintro history notes sim latest next sound advances ⟨sorted, before⟩
  have earlier : ∀ dispatched ∈ history, dispatched.Before latest :=
    fun dispatched member => before dispatched member latest advances.waiting
  refine ⟨List.pairwise_append.mpr ⟨sorted, List.pairwise_singleton .., by simpa using earlier⟩, ?_⟩
  intro dispatched member pending among
  rcases List.mem_append.mp member with old | present
  · exact Queue.before_trans (earlier dispatched old) (advances.behind pending among)
  · rw [List.mem_singleton.mp present]
    exact advances.behind pending among

theorem length_history (prepared : first.Prepared platform) (fresh : first.dispatched = 0) (events : Nat) :
    (first.history events).length = (first.states events).2.dispatched := by
  refine prepared.history_induction (motive := fun history sim => history.length = sim.dispatched)
    (Nat.zero_le events) fresh.symm ?_
  intro history notes sim latest next sound advances count
  rw [List.length_append, count, sound.dispatched_step advances.stepped]
  rfl

theorem length_history_of_step {events : Nat} {outcome : Simulator × Option Nat}
    (stepped : (first.states events).2.step? = some outcome) : (first.history events).length = events := by
  induction events generalizing outcome with
  | zero => rfl
  | succ events ih =>
    cases before : (first.states events).2.step? with
    | none =>
      rw [states_of_elapsed before 1, before] at stepped
      cases stepped
    | some earlier =>
      obtain ⟨due, same, -⟩ := Option.map_eq_some_iff.mp before
      have found : (first.states events).2.next? = some due.1 := by simp [next?, same]
      rw [history_succ found, List.length_append, ih before, List.length_singleton]

theorem dispatches_of_history (prepared : first.Prepared platform) {events index : Nat}
    {dispatched : Pending} (found : (first.history events)[index]? = some dispatched) :
    (first.states index).2.Dispatches dispatched (first.states (index + 1)).2 := by
  induction events with
  | zero => simp [history] at found
  | succ events ih =>
    rcases prepared.history_step events with ⟨-, histories, -⟩ | ⟨latest, advances, histories⟩
    · exact ih (histories ▸ found)
    · have length := length_history_of_step advances.stepped
      rw [histories] at found
      rcases Nat.lt_or_ge index events with early | late
      · rw [List.getElem?_append_left (by omega)] at found
        exact ih found
      · rw [List.getElem?_append_right (by omega), List.getElem?_singleton] at found
        split at found
        · cases found
          obtain rfl : index = events := by omega
          exact advances.dispatches
        · cases found

theorem Prepared.run_eq (prepared : first.Prepared platform) (fresh : first.dispatched = 0) :
    ∃ ended summary, first.run = ({ ended with summary := some summary }.apply
        (.line (ended.endLine summary)), .ok summary) ∧
      summary = ended.ending ∧ ended = (first.states summary.events).2 ∧ ended.step? = none ∧
      ∀ events < summary.events, (first.states events).2.step? ≠ none := by
  obtain ⟨notes, ended, reached, elapsed, same⟩ := prepared.exists_run
  have numbered : first.states ended.ending.events = (notes, ended) := reached.eq_states prepared fresh
  refine ⟨ended, ended.ending, same, rfl, ?_, elapsed, ?_⟩
  · rw [numbered]
  · intro events early stuck
    have count := dispatched_states_le prepared fresh events
    have still := states_of_elapsed stuck (ended.ending.events - events)
    rw [Nat.add_sub_of_le (Nat.le_of_lt early), numbered] at still
    rw [← still] at count
    exact Nat.not_le.mpr early count

/-- The events of a run are dispatched in the order of their ticks, priorities and numbers. So at each
    tick all events of a core come before the edges of its coprocessor, and those before all events of
    the next core. -/
theorem dispatched_in_order {config : Config} {platform : Platform} (built : config.build = .ok platform)
    {workloads : List Workload} {first : Simulator} (created : create platform workloads = .ok first) :
    (∀ events, (first.history events).Pairwise fun earlier later =>
      earlier.Before later ∧ earlier.Turnwise later) ∧
    ∃ last summary, first.run = (last, .ok summary) ∧
      (first.history summary.events).length = summary.events ∧
      (∀ index dispatched, (first.history summary.events)[index]? = some dispatched →
        (first.states index).2.Dispatches dispatched (first.states (index + 1)).2) ∧
      (first.states summary.events).2.step? = none := by
  have prepared := prepared_of_create (Config.sound_of_build built) created
  obtain ⟨fresh, -⟩ := potential_le_of_create created
  refine ⟨fun events => ?_, ?_⟩
  · exact (pairwise_history prepared events).1.imp fun before => ⟨before, before.turnwise⟩
  · obtain ⟨ended, summary, ran, rfl, same, elapsed, -⟩ := prepared.run_eq fresh
    refine ⟨_, _, ran, ?_, fun index dispatched found => dispatches_of_history prepared found, ?_⟩
    · rw [length_history prepared fresh, ← same]
      rfl
    · rw [← same]
      exact elapsed

/-- At tick 0 the edge of the first coprocessor is scheduled after that of the second core, and
    dispatched before it. -/
theorem coprocessor_precedes_second_core : ∃ platform first last summary,
    twoCores.build = .ok platform ∧ create platform [twoClocksWorkload, twoClocksWorkload] = .ok first ∧
      first.history 4 = [⟨0, 0, .coreEdge 0⟩, ⟨0, 2, .coprocessorEdge 0⟩, ⟨0, 1, .coreEdge 1⟩,
        ⟨0, 5, .coprocessorEdge 1⟩] ∧
      (first.history 4).Pairwise (fun earlier later => earlier.Before later ∧ earlier.Turnwise later) ∧
      first.run = (last, .ok summary) ∧ (first.history summary.events).length = summary.events := by
  obtain ⟨platform, built, first, created, begun⟩ : ∃ platform, twoCores.build = .ok platform ∧
      ∃ first, create platform [twoClocksWorkload, twoClocksWorkload] = .ok first ∧
        first.history 4 = [⟨0, 0, .coreEdge 0⟩, ⟨0, 2, .coprocessorEdge 0⟩, ⟨0, 1, .coreEdge 1⟩,
          ⟨0, 5, .coprocessorEdge 1⟩] := by
    decide +kernel
  obtain ⟨ordered, last, summary, ran, length, -⟩ := dispatched_in_order built created
  exact ⟨platform, first, last, summary, built, created, begun, ordered 4, ran, length⟩

end Simulator

end CoreTiming
