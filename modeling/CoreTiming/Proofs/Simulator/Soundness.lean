import CoreTiming.Proofs.Simulator.Stations
import CoreTiming.Simulator.Run

namespace CoreTiming.Simulator

/-- Every station is sound, and every event that is pending will find its station. -/
structure Sound (notes : Nat → Notes) (sim : Simulator) : Prop where
  ordered : sim.timeline.queue.Ordered
  within : sim.now ≤ horizon
  pending : ∀ pending ∈ sim.timeline.queue.pending, pending.tick ≤ horizon ∧
    ∃ station, sim.stations[pending.event.core]? = some station ∧
      station.receives pending.event = true
  positive : sim.latency.Positive
  sources : sim.stations.length ≤ sim.latency.sources.length
  stations : ∀ (index : Nat) (station : Station), sim.stations[index]? = some station →
    station.Sound sim.platform.coprocessor sim.timeline.queue sim.timeline.log.toList index (notes index)

def noted (notes : Nat → Notes) (sim next : Simulator) (index : Nat) : Notes :=
  match sim.stations[index]?, next.stations[index]? with
  | some before, some after => (notes index).extend next.now before.core after.core
  | _, _ => notes index

theorem noted_of_getElem? {notes : Nat → Notes} {sim next : Simulator} {index : Nat}
    {before after : Station} (found : sim.stations[index]? = some before)
    (left : next.stations[index]? = some after) :
    noted notes sim next index = (notes index).extend next.now before.core after.core := by
  unfold noted
  rw [found, left]

theorem noted_of_same {notes : Nat → Notes} {sim next : Simulator} {index : Nat}
    (same : next.stations[index]? = sim.stations[index]?) : noted notes sim next index = notes index := by
  unfold noted
  rw [same]
  cases sim.stations[index]? with
  | none => rfl
  | some station => exact Notes.extend_of_same rfl rfl

def settle (sim : Simulator) (index : Nat) (done : Turn) : Simulator :=
  { sim with
    timeline := sim.timeline.apply done.effects
    latency := done.latency
    stations := sim.stations.set index ⟨done.core, done.coprocessor⟩ }

theorem turn_eq (sim : Simulator) (now index : Nat) (station : Station) (step : Turn → Turn) :
    sim.turn now index station step =
      (sim.settle index (step (station.turn now sim.memory sim.latency)),
        (step (station.turn now sim.memory sim.latency)).unregistered) := rfl

theorem noted_settle {notes : Nat → Notes} {sim : Simulator} {index : Nat} {station : Station}
    (found : sim.stations[index]? = some station) (queue : Queue) (done : Turn) :
    noted notes sim ((sim.withQueue queue).settle index done) index =
      (notes index).extend queue.now station.core done.core := by
  obtain ⟨known, -⟩ := List.getElem?_eq_some_iff.mp found
  have left : ((sim.withQueue queue).settle index done).stations[index]? =
      some ⟨done.core, done.coprocessor⟩ := List.getElem?_set_self known
  have later : ((sim.withQueue queue).settle index done).now = queue.now :=
    queue.now_scheduleAll done.effects.posts
  rw [noted_of_getElem? found left, later]

theorem noted_settle_of_ne {notes : Nat → Notes} {sim : Simulator} {index other : Nat}
    (different : other ≠ index) (queue : Queue) (done : Turn) :
    noted notes sim ((sim.withQueue queue).settle index done) other = notes other :=
  noted_of_same (List.getElem?_set_ne (Ne.symm different))

theorem toList_log_apply (timeline : Timeline) (effects : Effects) :
    (timeline.apply effects).log.toList = timeline.log.toList ++ effects.log := by
  rw [Timeline.log_apply]
  simp

variable {notes : Nat → Notes} {sim next : Simulator}

theorem Sound.apply_line (sound : sim.Sound notes) (line : Log.Line) :
    (sim.apply (.line line)).Sound notes where
  ordered := sound.ordered
  within := sound.within
  pending := sound.pending
  positive := sound.positive
  sources := sound.sources
  stations := by
    intro index station found
    show station.Sound sim.platform.coprocessor (sim.timeline.queue.scheduleAll [])
      (sim.timeline.apply (.line line)).log.toList index (notes index)
    refine (sound.stations index station found).scheduleAll sound.ordered ?_ ?_
    · intro post member
      cases member
    · rw [toList_log_apply]
      exact List.subset_append_left _ _

theorem receives_settle {index : Nat} {station : Station} {done : Turn} (within : sim.now ≤ horizon)
    (pending : ∀ pending ∈ sim.timeline.queue.pending, pending.tick ≤ horizon ∧
      ∃ station, sim.stations[pending.event.core]? = some station ∧
        station.receives pending.event = true)
    (found : sim.stations[index]? = some station) (proper : done.Proper) (id : done.core.id = index)
    (equipped : done.coprocessor.isSome = station.coprocessor.isSome) {event : Pending}
    (member : event ∈ (sim.settle index done).timeline.queue.pending) : event.tick ≤ horizon ∧
      ∃ receiver, (sim.settle index done).stations[event.event.core]? = some receiver ∧
        receiver.receives event.event = true := by
  obtain ⟨known, -⟩ := List.getElem?_eq_some_iff.mp found
  have own : (sim.settle index done).stations[index]? = some ⟨done.core, done.coprocessor⟩ :=
    List.getElem?_set_self known
  rcases Queue.of_mem_scheduleAll member with before | ⟨post, among, tick, same⟩
  · obtain ⟨bound, other, receiver, receives⟩ := pending event before
    refine ⟨bound, ?_⟩
    by_cases mine : event.event.core = index
    · rw [mine] at receiver ⊢
      obtain rfl : station = other := Option.some.inj (found.symm.trans receiver)
      refine ⟨_, own, ?_⟩
      unfold Station.receives at receives ⊢
      split
      · simp_all
      · rfl
    · exact ⟨other, (List.getElem?_set_ne (Ne.symm mine)).trans receiver, receives⟩
  · obtain ⟨future, bound, mine, attended⟩ := proper.posts post among
    refine ⟨tick ▸ Nat.max_le.mpr ⟨bound, within⟩, ?_⟩
    rw [same, mine, id]
    refine ⟨_, own, ?_⟩
    unfold Station.receives
    split
    · rename_i core edge
      cases attached : done.coprocessor with
      | none => exact absurd edge (attended attached core)
      | some unit => rfl
    · rfl

theorem Sound.of_turn {index : Nat} {station : Station} {done : Turn}
    (ordered : sim.timeline.queue.Ordered) (within : sim.now ≤ horizon)
    (pending : ∀ pending ∈ sim.timeline.queue.pending, pending.tick ≤ horizon ∧
      ∃ station, sim.stations[pending.event.core]? = some station ∧
        station.receives pending.event = true)
    (others : ∀ (other : Nat) (station : Station), other ≠ index → sim.stations[other]? = some station →
      station.Sound sim.platform.coprocessor sim.timeline.queue sim.timeline.log.toList other (notes other))
    (found : sim.stations[index]? = some station)
    (proper : done.Proper) (id : done.core.id = index) (now : done.now = sim.now)
    (sources : sim.stations.length ≤ done.latency.sources.length)
    (equipped : done.coprocessor.isSome = station.coprocessor.isSome)
    (own : Station.Sound sim.platform.coprocessor (sim.timeline.queue.scheduleAll done.effects.posts)
      (sim.timeline.log.toList ++ done.effects.log) index (notes index) ⟨done.core, done.coprocessor⟩) :
    (sim.settle index done).Sound notes where
  ordered := ordered.scheduleAll _
  within := by
    show (sim.timeline.queue.scheduleAll done.effects.posts).now ≤ horizon
    rw [Queue.now_scheduleAll]
    exact within
  pending := fun _ member => receives_settle within pending found proper id equipped member
  positive := proper.positive
  sources := by
    show (sim.stations.set index _).length ≤ _
    rw [List.length_set]
    exact sources
  stations := by
    intro other standing member
    change (sim.stations.set index _)[other]? = some standing at member
    show standing.Sound sim.platform.coprocessor (sim.timeline.queue.scheduleAll done.effects.posts)
      (sim.timeline.apply done.effects).log.toList other (notes other)
    rw [toList_log_apply]
    -- what a turn posts is for its own core, so the agendas of the others stay
    by_cases mine : other = index
    · subst mine
      obtain ⟨known, -⟩ := List.getElem?_eq_some_iff.mp found
      rw [List.getElem?_set_self known] at member
      cases member
      exact own
    · rw [List.getElem?_set_ne (Ne.symm mine)] at member
      refine (others other standing mine member).scheduleAll ordered ?_ (List.subset_append_left _ _)
      intro post among
      obtain ⟨future, -, same, -⟩ := proper.posts post among
      refine ⟨Nat.le_trans (Nat.le_of_eq now.symm) future, ?_⟩
      rw [same, id]
      exact Ne.symm mine

theorem included_of_due? {due : Pending × Queue} (found : sim.due? = some due) :
    sim.platform.stop.excludes due.1.tick = false := by
  unfold due? at found
  rw [pop?_of_due? found] at found
  simp only at found
  split at found
  · cases found
  · rename_i included
    exact (Bool.not_eq_true _).mp included

theorem step?_eq_some {failed : Option Nat} (stepped : sim.step? = some (next, failed)) :
    ∃ pending queue, sim.timeline.queue.pop? = some (pending, queue) ∧
      sim.platform.stop.excludes pending.tick = false ∧
        (sim.withQueue queue).dispatch pending.event = (next, failed) := by
  obtain ⟨⟨pending, queue⟩, due, dispatched⟩ := Option.map_eq_some_iff.mp stepped
  exact ⟨pending, queue, pop?_of_due? due, included_of_due? due, dispatched⟩

theorem dispatch_of_receives {event : Event} {station : Station}
    (found : sim.stations[event.core]? = some station) (receives : station.receives event = true) :
    sim.dispatch event = sim.turn sim.now event.core station (·.deliver event) := by
  unfold dispatch
  rw [found]
  exact if_pos receives

theorem Sound.step?_eq_some (sound : sim.Sound notes) {failed : Option Nat}
    (stepped : sim.step? = some (next, failed)) :
    ∃ pending queue station done, sim.timeline.queue.pop? = some (pending, queue) ∧
      sim.platform.stop.excludes pending.tick = false ∧
      sim.stations[pending.event.core]? = some station ∧
      done = (station.turn pending.tick sim.memory sim.latency).deliver pending.event ∧
      next = (sim.withQueue queue).settle pending.event.core done ∧ failed = done.unregistered := by
  obtain ⟨pending, queue, popped, included, dispatched⟩ := Simulator.step?_eq_some stepped
  obtain ⟨first, now, -⟩ := Queue.pop?_eq_some popped
  obtain ⟨-, station, found, receives⟩ := sound.pending pending (by simp [first])
  have taken : (sim.withQueue queue).dispatch pending.event =
      (sim.withQueue queue).turn pending.tick pending.event.core station (·.deliver pending.event) := by
    rw [← now]
    exact dispatch_of_receives found receives
  rw [taken, turn_eq] at dispatched
  obtain ⟨same, outcome⟩ := Prod.mk.inj dispatched
  exact ⟨pending, queue, station, _, popped, included, found, rfl, same.symm, outcome.symm⟩

section next

variable (sound : sim.Sound notes) {pending : Pending} {queue : Queue} {station : Station}
  (popped : sim.timeline.queue.pop? = some (pending, queue))
  (found : sim.stations[pending.event.core]? = some station)

include sound popped found

theorem Sound.bounds_of_pop? :
    pending.tick ≤ horizon ∧ pending.event.core < sim.latency.sources.length := by
  obtain ⟨first, -, -⟩ := Queue.pop?_eq_some popped
  obtain ⟨known, -⟩ := List.getElem?_eq_some_iff.mp found
  exact ⟨(sound.pending pending (by simp [first])).1, Nat.lt_of_lt_of_le known sound.sources⟩

theorem Sound.frame_turn :
    ((station.turn pending.tick sim.memory sim.latency).deliver pending.event).Proper ∧
      ((station.turn pending.tick sim.memory sim.latency).deliver pending.event).core.id =
        pending.event.core ∧
      ((station.turn pending.tick sim.memory sim.latency).deliver pending.event).latency.sources.length =
        sim.latency.sources.length ∧
      ((station.turn pending.tick sim.memory sim.latency).deliver pending.event).coprocessor.isSome =
        station.coprocessor.isSome ∧
      ((station.turn pending.tick sim.memory sim.latency).deliver pending.event).now = pending.tick := by
  obtain ⟨within, drawn⟩ := sound.bounds_of_pop? popped found
  exact @Station.Sound.frame_deliver _ _ _ _ _ _ _ _ (sound.stations _ station found) sound.ordered popped
    within rfl sim.memory sim.latency sound.positive drawn

end next

theorem Sound.step (sound : sim.Sound notes) {failed : Option Nat}
    (stepped : sim.step? = some (next, failed)) : failed = none ∧ next.Sound (noted notes sim next) := by
  obtain ⟨pending, queue, station, done, popped, -, found, delivered, rfl, rfl⟩ :=
    sound.step?_eq_some stepped
  obtain ⟨first, now, -⟩ := Queue.pop?_eq_some popped
  obtain ⟨ordered, -⟩ := sound.ordered.pop? popped
  obtain ⟨within, drawn⟩ := sound.bounds_of_pop? popped found
  have standing := sound.stations _ station found
  obtain ⟨proper, id, sources, equipped, time⟩ := sound.frame_turn popped found
  have own := @Station.Sound.take _ _ _ _ _ _ _ _ standing sound.ordered popped within rfl sim.memory
    sim.latency sound.positive drawn
  rw [← delivered] at proper id sources equipped time own
  refine ⟨proper.registered, ?_⟩
  have mine := @noted_settle notes sim _ _ found queue done
  rw [now] at mine
  refine Sound.of_turn ordered ?within ?pending ?others found proper id ?now ?sources equipped ?own
  case within =>
    show queue.now ≤ horizon
    rw [now]
    exact within
  case pending =>
    intro other member
    exact sound.pending other (first ▸ List.mem_cons_of_mem _ member)
  case others =>
    intro other standing' different member
    rw [noted_settle_of_ne different]
    exact (sound.stations other standing' member).pass sound.ordered popped within (Ne.symm different)
  case now => exact time.trans now.symm
  case sources =>
    rw [sources]
    exact sound.sources
  case own =>
    rw [mine]
    exact own

end CoreTiming.Simulator
