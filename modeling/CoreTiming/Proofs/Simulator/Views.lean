import CoreTiming.Proofs.Core.Isolation
import CoreTiming.Proofs.Simulator.Observations
import Mathlib.Logic.Relation

namespace CoreTiming

def Event.isFor (core : Nat) (event : Event) : Bool :=
  event.core = core

namespace Sink

def only (sink : Sink) (core : Nat) : Sink :=
  { sink with records := sink.records.filter (·.concerns core) }

theorem only_add (sink : Sink) (core : Nat) (record : Record) :
    (sink.add record).only core =
      if record.concerns core then (sink.only core).add record else sink.only core := by
  have kept : (sink.only core).keeps record.statistic.level = sink.keeps record.statistic.level := rfl
  unfold add
  rw [kept]
  cases sink.keeps record.statistic.level with
  | false => simp
  | true =>
    simp only [if_true, only, Array.filter_push]
    split <;> rfl

theorem only_addAll (sink : Sink) (core : Nat) (records : List Record) :
    (sink.addAll records).only core = (sink.only core).addAll (records.filter (·.concerns core)) := by
  induction records generalizing sink with
  | nil => rfl
  | cons record records ih =>
    refine (ih (sink.add record)).trans ?_
    rw [only_add]
    cases concerns : record.concerns core with
    | true =>
      rw [List.filter_cons_of_pos (by simpa using concerns)]
      rfl
    | false => rw [List.filter_cons_of_neg (by simp [concerns]), if_neg Bool.false_ne_true]

theorem only_addAll_of_foreign {sink : Sink} {core other : Nat} (different : other ≠ core)
    {records : List Record} (foreign : ∀ record ∈ records, record.concerns other = true) :
    (sink.addAll records).only core = sink.only core := by
  rw [only_addAll, List.filter_eq_nil_iff.mpr]
  · rfl
  · intro record member own
    exact different (Record.eq_of_concerns (foreign record member) own)

theorem only_addAll_of_own {sink : Sink} {core : Nat} {records : List Record}
    (own : ∀ record ∈ records, record.concerns core = true) :
    (sink.addAll records).only core = (sink.only core).addAll records := by
  rw [only_addAll, List.filter_eq_self.mpr own]

end Sink

@[ext]
structure View where
  station : Station
  latency : LatencyModel
  agenda : List (Nat × Event)
  sink : Sink

namespace View

def settle (index : Nat) (view : View) (done : Turn) : View where
  station := ⟨done.core, done.coprocessor⟩
  latency := done.latency
  agenda := (done.effects.posts.filter (·.2.isFor index)).foldl
    (fun list item => Queue.insertBehind item list) view.agenda
  sink := view.sink.addAll (done.effects.records.filter (·.concerns index))

def next? (platform : Platform) (index : Nat) (view : View) : Option View :=
  match view.agenda with
  | [] => none
  | (tick, event) :: rest =>
    if platform.stop.excludes tick then none
    else some (settle index { view with agenda := rest }
      ((view.station.turn tick ⟨platform.memorySize⟩ view.latency).deliver event))

end View

namespace Simulator

def view (sim : Simulator) (index : Nat) (station : Station) : View where
  station := station
  latency := sim.latency.only index
  agenda := sim.timeline.queue.agenda (Event.isFor index)
  sink := sim.timeline.sink.only index

def view? (sim : Simulator) (index : Nat) : Option View :=
  sim.stations[index]?.map (sim.view index)

variable {sim next : Simulator} {notes : Nat → Notes} {done : Turn} {index : Nat}

theorem view?_settle (ordered : sim.timeline.queue.Ordered) {station : Station}
    (found : sim.stations[index]? = some station) (id : done.core.id = index)
    (future : ∀ post ∈ done.effects.posts, sim.now ≤ post.1) :
    (sim.settle index done).view? index = some ((sim.view index station).settle index done.alone) := by
  obtain ⟨known, -⟩ := List.getElem?_eq_some_iff.mp found
  have own : (sim.settle index done).stations[index]? = some ⟨done.core, done.coprocessor⟩ :=
    List.getElem?_set_self known
  have agenda : (sim.timeline.queue.scheduleAll done.effects.posts).agenda (Event.isFor index) = _ :=
    Queue.agenda_scheduleAll_eq ordered _ future
  unfold view?
  rw [own]
  refine congrArg some ?_
  have latency : done.latency.only index = done.alone.latency := by
    rw [← id]
    rfl
  exact View.ext rfl latency agenda (Sink.only_addAll ..)

theorem view?_settle_of_ne (ordered : sim.timeline.queue.Ordered) {other : Nat} (different : other ≠ index)
    (posts : ∀ post ∈ done.effects.posts, sim.now ≤ post.1 ∧ post.2.core = other)
    (records : ∀ record ∈ done.effects.records, record.concerns other = true)
    (latency : done.latency.sources[index]? = sim.latency.sources[index]?) :
    (sim.settle other done).view? index = sim.view? index := by
  have station : (sim.settle other done).stations[index]? = sim.stations[index]? :=
    List.getElem?_set_ne different
  have agenda : (sim.timeline.queue.scheduleAll done.effects.posts).agenda (Event.isFor index) =
      sim.timeline.queue.agenda (Event.isFor index) := by
    rw [Queue.agenda_scheduleAll_eq ordered _ fun post member => (posts post member).1,
      List.filter_eq_nil_iff.mpr]
    · rfl
    · intro post member own
      exact different ((posts post member).2.symm.trans (of_decide_eq_true own))
  unfold view?
  rw [station]
  refine congrArg (Option.map · _) (funext fun station => ?_)
  exact View.ext rfl (LatencyModel.only_congr latency) agenda (Sink.only_addAll_of_foreign different records)

theorem Sound.step?_isolated (sound : sim.Sound notes) {failed : Option Nat}
    (stepped : sim.step? = some (next, failed)) :
    ∃ pending queue station done, sim.timeline.queue.pop? = some (pending, queue) ∧
      sim.platform.stop.excludes pending.tick = false ∧
      sim.stations[pending.event.core]? = some station ∧ station.core.id = pending.event.core ∧
      next = (sim.withQueue queue).settle pending.event.core done ∧
      (station.turn pending.tick sim.memory sim.latency).Isolated done
        ((station.turn pending.tick sim.memory sim.latency).alone.deliver pending.event) ∧
      (∀ record ∈ done.effects.records, record.concerns pending.event.core = true) ∧
      ∀ post ∈ done.effects.posts, pending.tick ≤ post.1 ∧ post.2.core = pending.event.core := by
  obtain ⟨pending, queue, station, done, popped, included, found, rfl, same, -⟩ :=
    sound.step?_eq_some stepped
  have standing := sound.stations _ station found
  obtain ⟨proper, id, -, -, now⟩ := sound.frame_turn popped found
  have isolated := (station.turn pending.tick sim.memory sim.latency).isolated_deliver pending.event
  have begun : (station.turn pending.tick sim.memory sim.latency).Private := by
    refine ⟨?_, ?_⟩
    · intro unit attached
      exact (standing.owned unit attached).trans standing.numbered.symm
    · intro record member
      cases member
  refine ⟨pending, queue, station, _, popped, included, found, standing.numbered, same, isolated, ?_, ?_⟩
  · rw [← id]
    exact (isolated.keeps begun).records
  · intro post member
    obtain ⟨future, -, own, -⟩ := proper.posts post member
    exact ⟨Nat.le_trans (Nat.le_of_eq now.symm) future, own.trans id⟩

theorem Sound.view?_of_other (sound : sim.Sound notes) {failed : Option Nat}
    (stepped : sim.step? = some (next, failed)) {pending : Pending} {queue : Queue}
    (popped : sim.timeline.queue.pop? = some (pending, queue)) (other : pending.event.core ≠ index) :
    next.view? index = sim.view? index := by
  obtain ⟨_, _, station, done, same, -, found, number, rfl, isolated, records, posts⟩ :=
    sound.step?_isolated stepped
  cases popped.symm.trans same
  obtain ⟨-, now, -⟩ := Queue.pop?_eq_some popped
  obtain ⟨ordered, -⟩ := sound.ordered.pop? popped
  have agenda := Queue.agenda_of_pop? (Event.isFor index) popped
  rw [if_neg (by simpa [Event.isFor] using other)] at agenda
  have passed : (sim.withQueue queue).view? index = sim.view? index :=
    congrArg (Option.map · sim.stations[index]?)
      (funext fun station => View.ext rfl rfl agenda.symm rfl)
  rw [← passed]
  refine @view?_settle_of_ne (sim.withQueue queue) _ _ ordered _ other ?_ records ?_
  · exact fun post member => ⟨Nat.le_trans (Nat.le_of_eq now) (posts post member).1, (posts post member).2⟩
  · exact isolated.others index fun same => other (number.symm.trans same.symm)

theorem Sound.view?_step (sound : sim.Sound notes) {failed : Option Nat}
    (stepped : sim.step? = some (next, failed)) {view : View} (seen : sim.view? index = some view) :
    ∃ after, next.view? index = some after ∧
      (after = view ∨ view.next? sim.platform index = some after) := by
  obtain ⟨pending, queue, station, done, popped, included, found, number, rfl, isolated, records, posts⟩ :=
    sound.step?_isolated stepped
  by_cases own : pending.event.core = index
  · subst own
    obtain ⟨-, now, -⟩ := Queue.pop?_eq_some popped
    obtain ⟨ordered, -⟩ := sound.ordered.pop? popped
    have future : ∀ post ∈ done.effects.posts, (sim.withQueue queue).now ≤ post.1 := by
      intro post member
      exact Nat.le_trans (Nat.le_of_eq now) (posts post member).1
    have agenda := Queue.agenda_of_pop? (Event.isFor pending.event.core) popped
    obtain ⟨other, same, rfl⟩ := Option.map_eq_some_iff.mp seen
    obtain rfl : station = other := Option.some.inj (found.symm.trans same)
    refine ⟨_, @view?_settle (sim.withQueue queue) _ _ ordered _ found (isolated.id.trans number) future,
      .inr ?_⟩
    rw [if_pos (by simp [Event.isFor])] at agenda
    have lone : (station.turn pending.tick sim.memory (sim.latency.only pending.event.core)).deliver
        pending.event = done.alone := by
      rw [← isolated.alone, ← number]
      rfl
    unfold View.next?
    rw [show (sim.view pending.event.core station).agenda = _ from agenda]
    simp only [included, Bool.false_eq_true, if_false]
    exact congrArg (fun done => some (View.settle _ _ done)) lone
  · exact ⟨view, (sound.view?_of_other stepped popped own).trans seen, .inl rfl⟩

theorem Sound.view_next?_eq_none (sound : sim.Sound notes) (elapsed : sim.step? = none) {view : View}
    (seen : sim.view? index = some view) : view.next? sim.platform index = none := by
  obtain ⟨station, -, rfl⟩ := Option.map_eq_some_iff.mp seen
  unfold View.next?
  split
  · rfl
  · rename_i tick event rest agenda
    have due : (tick, event) ∈ sim.timeline.queue.agenda (Event.isFor index) := by
      rw [show sim.timeline.queue.agenda (Event.isFor index) = _ from agenda]
      exact List.mem_cons_self ..
    cases excluded : sim.platform.stop.excludes tick with
    | true => exact if_pos rfl
    | false =>
      have passed : sim.HasPassed tick := .inr ⟨elapsed, excluded⟩
      exact absurd (passed.lt_of_agenda sound.ordered due) (Nat.lt_irrefl tick)

end Simulator

end CoreTiming
