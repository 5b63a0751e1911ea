import CoreTiming.Proofs.Core.Sight
import CoreTiming.Proofs.Simulator.Observations
import CoreTiming.Proofs.Simulator.Termination
import CoreTiming.Proofs.Core.Isolation

namespace CoreTiming.Simulator

def awaiting (sim : Simulator) (index : Nat) : List (Nat × Event) :=
  sim.timeline.queue.agenda (Event.resumes index)

/-- The turn of a core at the next event, if that is an edge of the core. -/
def edgeTurn? (sim : Simulator) (index : Nat) : Option Turn :=
  match sim.due? with
  | none => none
  | some (next, _) =>
    if next.event = .coreEdge index then
      sim.stations[index]?.map (·.turn next.tick sim.memory sim.latency)
    else none

/-- The next event reaches the core, which takes a turn. -/
structure Handles (notes : Nat → Notes) (sim next : Simulator) (index : Nat) (event : Event)
    (rest : List (Nat × Event)) (turn : Turn) : Prop where
  station : sim.stations[index]? = some ⟨turn.core, turn.coprocessor⟩
  numbered : turn.core.id = index
  takes : turn.Takes sim.platform.coprocessor (notes index) rest sim.timeline.log.toList event
  awaited : sim.awaiting index = turn.awaited event rest
  memory : turn.memory = sim.memory
  latency : turn.latency = sim.latency
  edge : sim.edgeTurn? index = if event = .coreEdge index then some turn else none
  left : next.stations[index]? = some ⟨(turn.deliver event).core, (turn.deliver event).coprocessor⟩
  awaiting : next.awaiting index = (turn.deliver event).agenda rest
  drawn : next.latency = (turn.deliver event).latency
  written : noted notes sim next index = (notes index).extend turn.now turn.core (turn.deliver event).core

/-- The next event concerns another core. -/
structure Passes (notes : Nat → Notes) (sim next : Simulator) (index : Nat) : Prop where
  station : next.stations[index]? = sim.stations[index]?
  awaiting : next.awaiting index = sim.awaiting index
  source : next.latency.sources[index]? = sim.latency.sources[index]?
  edge : sim.edgeTurn? index = none
  written : noted notes sim next index = notes index

variable {notes : Nat → Notes} {sim next : Simulator} {platform : Platform} {first : Simulator}
  {index : Nat}

theorem edgeTurn?_of_due? {pending : Pending} {queue : Queue} (due : sim.due? = some (pending, queue)) :
    sim.edgeTurn? index = if pending.event = .coreEdge index then
      sim.stations[index]?.map (·.turn pending.tick sim.memory sim.latency) else none := by
  unfold edgeTurn?
  rw [due]

theorem exists_of_edgeTurn? {turn : Turn} (edge : sim.edgeTurn? index = some turn) :
    ∃ pending queue station, sim.due? = some (pending, queue) ∧ sim.stations[index]? = some station ∧
      turn = station.turn pending.tick sim.memory sim.latency := by
  unfold edgeTurn? at edge
  split at edge
  · cases edge
  · rename_i pending queue due
    split at edge
    · obtain ⟨station, found, rfl⟩ := Option.map_eq_some_iff.mp edge
      exact ⟨pending, queue, station, due, found, rfl⟩
    · cases edge

theorem due?_of_pop? {pending : Pending} {queue : Queue}
    (popped : sim.timeline.queue.pop? = some (pending, queue))
    (included : sim.platform.stop.excludes pending.tick = false) : sim.due? = some (pending, queue) := by
  unfold due?
  rw [popped]
  simp only [included, Bool.false_eq_true, if_false]

section next

variable (sound : sim.Sound notes) {pending : Pending} {queue : Queue} {station : Station} {done : Turn}
  (popped : sim.timeline.queue.pop? = some (pending, queue))
  (included : sim.platform.stop.excludes pending.tick = false)
  (found : sim.stations[pending.event.core]? = some station)
  (delivered : done = (station.turn pending.tick sim.memory sim.latency).deliver pending.event)

include sound popped found delivered

theorem Sound.awaiting_settle (index : Nat) :
    ((sim.withQueue queue).settle pending.event.core done).awaiting index =
      (done.effects.posts.filter (·.2.resumes index)).foldl
        (fun list item => Queue.insertLate item list) (queue.agenda (Event.resumes index)) := by
  subst delivered
  obtain ⟨-, now, -⟩ := Queue.pop?_eq_some popped
  obtain ⟨ordered, -⟩ := sound.ordered.pop? popped
  obtain ⟨proper, -, -, -, time⟩ := sound.frame_turn popped found
  refine Queue.agenda_scheduleAll ordered (fun event resumes => (Event.core_of_resumes resumes).2) ?_
  intro post member
  rw [now, ← time]
  exact (proper.posts post member).1

include included

theorem Sound.handles : Handles notes sim ((sim.withQueue queue).settle pending.event.core done)
    pending.event.core pending.event (queue.agenda (Event.resumes pending.event.core))
    (station.turn pending.tick sim.memory sim.latency) := by
  have awaiting := sound.awaiting_settle popped found delivered pending.event.core
  subst delivered
  obtain ⟨-, now, -⟩ := Queue.pop?_eq_some popped
  obtain ⟨within, drawn⟩ := sound.bounds_of_pop? popped found
  obtain ⟨-, id, -⟩ := sound.frame_turn popped found
  obtain ⟨known, -⟩ := List.getElem?_eq_some_iff.mp found
  have standing := sound.stations _ station found
  refine {
    station := found
    numbered := standing.numbered
    takes := {
      fresh := rfl
      proper := standing.proper_turn within sound.positive drawn
      own := standing.numbered.symm
      stands := standing.stands_turn sound.ordered popped within }
    awaited := ?_
    memory := rfl
    latency := rfl
    edge := ?_
    left := List.getElem?_set_self known
    awaiting := ?_
    drawn := rfl
    written := ?_ }
  · rw [show sim.awaiting pending.event.core = _ from Queue.agenda_of_pop? _ popped]
    unfold Turn.awaited
    rw [show (station.turn pending.tick sim.memory sim.latency).core.id = pending.event.core from
      standing.numbered]
    rfl
  · rw [edgeTurn?_of_due? (due?_of_pop? popped included), found]
    rfl
  · rw [awaiting]
    unfold Turn.agenda
    rw [id]
  · rw [noted_settle found, now]
    rfl

theorem Sound.passes (other : pending.event.core ≠ index) :
    Passes notes sim ((sim.withQueue queue).settle pending.event.core done) index := by
  have awaiting := sound.awaiting_settle popped found delivered index
  subst delivered
  obtain ⟨proper, id, -⟩ := sound.frame_turn popped found
  refine {
    station := List.getElem?_set_ne other
    awaiting := ?_
    source := ?_
    edge := ?_
    written := noted_settle_of_ne (Ne.symm other) .. }
  · rw [awaiting, show sim.awaiting index = _ from Queue.agenda_of_pop? _ popped,
      Event.not_resumes_of_ne other, List.filter_eq_nil_iff.mpr]
    · rfl
    · intro post member
      rw [Event.not_resumes_of_ne ((proper.posts post member).2.2.1.trans id ▸ other)]
      exact Bool.false_ne_true
  · have isolated := (station.turn pending.tick sim.memory sim.latency).isolated_deliver pending.event
    refine isolated.others index fun same => other ?_
    rw [same]
    exact (sound.stations _ station found).numbered.symm
  · rw [edgeTurn?_of_due? (due?_of_pop? popped included), if_neg]
    intro edge
    exact other (congrArg Event.core edge)

end next

theorem Sound.step_cases (sound : sim.Sound notes) {failed : Option Nat}
    (stepped : sim.step? = some (next, failed)) (index : Nat) :
    Passes notes sim next index ∨
      ∃ event rest turn, Handles notes sim next index event rest turn := by
  obtain ⟨pending, queue, station, done, popped, included, found, delivered, rfl, -⟩ :=
    sound.step?_eq_some stepped
  by_cases own : pending.event.core = index
  · subst own
    exact .inr ⟨_, _, _, sound.handles popped included found delivered⟩
  · exact .inl (sound.passes popped included found delivered own)

theorem states_succ {events : Nat} (stepped : (first.states events).2.step? = some (next, none)) :
    first.states (events + 1) =
      (noted (first.states events).1 (first.states events).2 next, next) := by
  rw [states]
  simp only [stepped]

theorem states_step (prepared : first.Prepared platform) (events : Nat) :
    (first.states events).2.step? = none ∨
      ∃ next, (first.states events).2.step? = some (next, none) ∧
        first.states (events + 1) = (noted (first.states events).1 (first.states events).2 next, next) := by
  cases stepped : (first.states events).2.step? with
  | none => exact .inl rfl
  | some outcome =>
    obtain ⟨next, failed⟩ := outcome
    obtain ⟨rfl, -⟩ := ((run_states first events).sound prepared).step stepped
    exact .inr ⟨next, rfl, states_succ stepped⟩

theorem exists_elapsed (prepared : first.Prepared platform) (fresh : first.dispatched = 0) :
    ∃ events, (first.states events).2.step? = none := by
  obtain ⟨notes, ended, reached, elapsed, -⟩ := prepared.exists_run
  refine ⟨ended.dispatched, ?_⟩
  rw [reached.eq_states prepared fresh]
  exact elapsed

theorem exists_first (prepared : first.Prepared platform) (fresh : first.dispatched = 0)
    {holds : (Nat → Notes) × Simulator → Prop} {begun : Nat} (start : holds (first.states begun))
    (ends : (Nat → Notes) × Simulator → Prop)
    (goes : ∀ state, Run first state.1 state.2 → holds state → state.2.step? ≠ none)
    (keeps : ∀ state next, Run first state.1 state.2 → holds state → ¬ ends state →
      state.2.step? = some (next, none) → holds (noted state.1 state.2 next, next)) :
    ∃ events, begun ≤ events ∧ holds (first.states events) ∧ ends (first.states events) ∧
      ∀ earlier, begun ≤ earlier → earlier < events →
        holds (first.states earlier) ∧ ¬ ends (first.states earlier) := by
  classical
  have next : ∀ more, (∀ earlier < more, ¬ ends (first.states (begun + earlier))) →
      holds (first.states (begun + more)) := by
    intro more
    induction more with
    | zero => exact fun _ => start
    | succ more ih =>
      intro silent
      have held := ih fun earlier less => silent earlier (Nat.lt_succ_of_lt less)
      have run := run_states first (begun + more)
      rcases states_step prepared (begun + more) with elapsed | ⟨after, stepped, same⟩
      · exact absurd elapsed (goes _ run held)
      · rw [← Nat.add_assoc, same]
        exact keeps _ after run held (silent more (Nat.lt_succ_self _)) stepped
  -- a run that stays short of the end could go on for ever
  have found : ∃ more, ends (first.states (begun + more)) := by
    by_contra none_ends
    obtain ⟨last, elapsed⟩ := exists_elapsed prepared fresh
    have held := next last fun earlier _ ended => none_ends ⟨earlier, ended⟩
    rw [Nat.add_comm, states_of_elapsed elapsed] at held
    exact goes _ (run_states first last) held elapsed
  refine ⟨begun + Nat.find found, Nat.le_add_right .., ?_, Nat.find_spec found, ?_⟩
  · exact next _ fun earlier less => Nat.find_min found less
  · intro earlier after before
    obtain ⟨more, rfl⟩ := Nat.exists_eq_add_of_le after
    have less : more < Nat.find found := Nat.lt_of_add_lt_add_left before
    exact ⟨next more fun other smaller => Nat.find_min found (Nat.lt_trans smaller less),
      Nat.find_min found less⟩

/-- What holds of a core in some state, and is kept by every event that reaches it, holds from then on. -/
theorem Prepared.core_induction (prepared : first.Prepared platform) {holds : Core → Prop} {begun : Nat}
    {station : Station} (found : (first.states begun).2.stations[index]? = some station)
    (start : holds station.core)
    (keeps : ∀ (notes : Notes) (rest : List (Nat × Event)) (log : List Log.Line) (event : Event) (turn : Turn),
      turn.Takes platform.coprocessor notes rest log event → turn.memory = ⟨platform.memorySize⟩ →
        holds turn.core → holds (turn.deliver event).core)
    {events : Nat} (order : begun ≤ events) :
    ∃ after, (first.states events).2.stations[index]? = some after ∧ holds after.core := by
  obtain ⟨more, rfl⟩ := Nat.exists_eq_add_of_le order
  induction more with
  | zero => exact ⟨station, found, start⟩
  | succ more ih =>
    obtain ⟨standing, present, held⟩ := ih (Nat.le_add_right ..)
    have run := run_states first (begun + more)
    have same := run.platform_eq prepared
    rw [← Nat.add_assoc]
    rcases states_step prepared (begun + more) with elapsed | ⟨next, stepped, later⟩
    · rw [states_of_elapsed elapsed 1]
      exact ⟨standing, present, held⟩
    · rw [later]
      rcases (run.sound prepared).step_cases stepped index with passes | ⟨event, rest, turn, handles⟩
      · exact ⟨standing, passes.station.trans present, held⟩
      · obtain rfl : standing = _ := Option.some.inj (present.symm.trans handles.station)
        refine ⟨_, handles.left, keeps _ rest _ event turn (same ▸ handles.takes) ?_ held⟩
        rw [handles.memory, memory, same]

end CoreTiming.Simulator
