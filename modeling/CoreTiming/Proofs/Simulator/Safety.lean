import CoreTiming.Proofs.Simulator.Completions
import CoreTiming.Proofs.Simulator.Traffic

namespace CoreTiming

namespace Ledger

variable {ledger : Ledger}

theorem pollAll_of_absent (absent : ledger.coprocessor = none) (now : Nat) : ledger.pollAll now = ledger := by
  have fold : ∀ handles : List Nat, handles.foldl (poll now) ledger = ledger := by
    intro handles
    induction handles with
    | nil => rfl
    | cons handle handles ih =>
      have polled : ledger.poll now handle = ledger := by
        unfold poll
        rw [absent]
        rfl
      rw [List.foldl_cons, polled, ih]
  exact fold _

theorem submit_of_absent (absent : ledger.coprocessor = none) (now : Nat) (work : Offload) :
    ledger.submit now work = ledger := by
  unfold submit
  rw [absent]

end Ledger

namespace Turn

variable {spec : Option CoprocessorSpec} {notes : Notes} {rest : List (Nat × Event)} {log : List Log.Line}
  {event : Event} {turn : Turn}

theorem Takes.completions_of_absent (takes : turn.Takes spec notes rest log event)
    (absent : turn.coprocessor = none) : (turn.deliver event).core.completions = turn.core.completions := by
  by_cases edge : ∃ core, event = .coprocessorEdge core
  · obtain ⟨core, rfl⟩ := edge
    exact congrArg Core.completions turn.frame_coprocessorEdge.1
  · rcases takes.ledger_deliver fun core same => edge ⟨core, same⟩ with same | ⟨rfl, due, awake⟩
    · exact congrArg Ledger.completions same
    · have polled := @Ledger.pollAll_of_absent turn.ledger absent turn.now
      rcases turn.ledger_coreEdge due awake with equal | ⟨work, -, equal, -⟩
      · exact congrArg Ledger.completions (equal.trans polled)
      · rw [polled, @Ledger.submit_of_absent turn.ledger absent] at equal
        exact congrArg Ledger.completions equal

end Turn

namespace Simulator

variable {notes : Nat → Notes} {sim next : Simulator} {platform : Platform} {first : Simulator}
  {index : Nat}

theorem Run.length_sources (prepared : first.Prepared platform) (run : Run first notes sim) :
    sim.latency.sources.length = platform.cores.length := by
  induction run with
  | start => exact prepared.sources
  | next run stepped ih =>
    have sound := run.sound prepared
    obtain ⟨pending, queue, station, done, popped, -, found, rfl, rfl, -⟩ := sound.step?_eq_some stepped
    exact (sound.frame_turn popped found).2.2.1.trans ih

theorem Prepared.now_succ (prepared : first.Prepared platform) {events : Nat} {pending : Pending} {queue : Queue}
    (due : (first.states events).2.due? = some (pending, queue)) :
    (first.states (events + 1)).2.now = pending.tick := by
  rcases states_step prepared events with elapsed | ⟨next, stepped, same⟩
  · cases due.symm.trans (Option.map_eq_none_iff.mp elapsed)
  · obtain ⟨other, after, station, done, popped, -, -, -, rfl, -⟩ :=
      ((run_states first events).sound prepared).step?_eq_some stepped
    cases popped.symm.trans (pop?_of_due? due)
    rw [same]
    exact now_settle popped ..

theorem Prepared.now_le (prepared : first.Prepared platform) {events later : Nat} (order : events ≤ later) :
    (first.states events).2.now ≤ (first.states later).2.now := by
  refine prepared.history_induction (motive := fun _ sim => (first.states events).2.now ≤ sim.now) order
    (Nat.le_refl _) ?_
  intro history notes sim dispatched next sound advances earlier
  obtain ⟨pending, queue, station, done, popped, -, -, -, rfl, -⟩ := sound.step?_eq_some advances.stepped
  rw [now_settle popped]
  exact Nat.le_trans earlier (sound.now_le_of_pop? popped)

section accounted

variable {core : CoreSpec} {events : Nat} {traffic : Traffic}

theorem Accounted.issued_le (accounted : first.Accounted platform core index events traffic)
    (prepared : first.Prepared platform) {response : Nat × Event} (member : response ∈ traffic.responses)
    {own address issuedAt : Nat} {kind : AccessKind} (same : response.2 = .response own address kind issuedAt) :
    issuedAt ≤ (first.states events).2.now := by
  obtain ⟨event, before, turn, _, _, _, _, edge, -, -, -, rfl⟩ := accounted.issued response member
  cases same
  obtain ⟨pending, queue, station, due, -, rfl⟩ := exists_of_edgeTurn? edge
  rw [show (station.turn pending.tick _ _).now = pending.tick from rfl, ← prepared.now_succ due]
  exact prepared.now_le before

theorem Accounted.answers (accounted : first.Accounted platform core index events traffic)
    (prepared : first.Prepared platform) {pending : Pending} {queue : Queue}
    (popped : (first.states events).2.timeline.queue.pop? = some (pending, queue))
    (own : pending.event.core = index) :
    (∀ own address kind issuedAt, pending.event = .response own address kind issuedAt →
      issuedAt ≤ pending.tick) ∧
      (pending.event.answersStore = true → 0 < traffic.storesInFlight) := by
  have listed : pending.event.answers index = true → (pending.tick, pending.event) ∈ traffic.responses := by
    intro answers
    rw [responses_of_traffic? accounted.seen, Queue.agenda_of_pop? _ popped, if_pos answers]
    exact List.mem_cons_self
  constructor
  · intro core address kind issuedAt same
    have among := listed (by rw [← own, same]; simp [Event.answers, Event.core])
    refine Nat.le_trans (accounted.issued_le prepared among same) ?_
    exact ((run_states first events).sound prepared).now_le_of_pop? popped
  · intro store
    rw [accounted.drawn.inFlight, List.countP_pos_iff]
    exact ⟨_, listed (own ▸ Event.answers_of_answersStore store), store⟩

end accounted

def handled (sim : Simulator) (next : Pending) (station : Station) : Turn :=
  (station.turn next.tick sim.memory sim.latency).deliver next.event

/-- The next event is dispatched as it should be, with nothing cut off and nothing lost. -/
structure DispatchesSafely (sim : Simulator) (next : Pending) (queue : Queue) (station : Station) : Prop where
  target : sim.stations[next.event.core]? = some station
  receives : station.receives next.event = true
  known : (sim.latency.draw? station.core.id).isSome = true
  future : ∀ post ∈ (sim.handled next station).effects.posts, queue.now ≤ post.1
  issued : ∀ core address kind issuedAt, next.event = .response core address kind issuedAt →
    issuedAt ≤ queue.now
  inFlight : next.event.answersStore = true → 0 < station.core.storesInFlight
  submitted : ∀ result ∈ (sim.handled next station).core.completions.drop station.core.completions.length,
    result.submittedAt ≤ queue.now
  succeeds : (sim.withQueue queue).dispatch next.event =
    ((sim.withQueue queue).settle next.event.core (sim.handled next station), none)

section next

variable (sound : sim.Sound notes) {pending : Pending} {queue : Queue} {station : Station}
  (due : sim.due? = some (pending, queue)) (found : sim.stations[pending.event.core]? = some station)

include sound due found

theorem Sound.dispatch_eq (receives : station.receives pending.event = true) :
    (sim.withQueue queue).dispatch pending.event =
      ((sim.withQueue queue).settle pending.event.core (sim.handled pending station), none) := by
  have popped := pop?_of_due? due
  have now : (sim.withQueue queue).now = pending.tick := (Queue.pop?_eq_some popped).2.1
  have proper := (sound.frame_turn popped found).1
  have dispatched := @dispatch_of_receives (sim.withQueue queue) _ _ found receives
  rw [now, turn_eq] at dispatched
  exact dispatched.trans (congrArg (Prod.mk _) proper.registered)

theorem Sound.submitted_lt (receives : station.receives pending.event = true) {result : OffloadResult}
    (seen : result ∈ (sim.handled pending station).core.completions.drop station.core.completions.length) :
    result.submittedAt < pending.tick := by
  have handles : Handles notes sim
      ((sim.withQueue queue).settle pending.event.core (sim.handled pending station)) pending.event.core _ _ _ :=
    sound.handles (pop?_of_due? due) (included_of_due? due) found rfl
  have standing := sound.stations _ station found
  cases given : sim.platform.coprocessor with
  | none =>
    have absent : station.coprocessor = none := by
      have equipped := standing.equipped
      rw [given] at equipped
      exact Option.not_isSome_iff_eq_none.mp (Bool.eq_false_iff.mp equipped)
    have unseen : (sim.handled pending station).core.completions = station.core.completions :=
      handles.takes.completions_of_absent absent
    rw [unseen, List.drop_length] at seen
    cases seen
  | some spec =>
    have stepped : sim.step? =
        some ((sim.withQueue queue).settle pending.event.core (sim.handled pending station), none) := by
      unfold step?
      rw [due]
      exact congrArg some (sound.dispatch_eq due found receives)
    obtain ⟨since, stands⟩ := ((sound.step stepped).2.stations _ _ handles.left).stands
    obtain ⟨unit, -, books⟩ := stands.books spec given
    have observed : (pending.tick, result) ∈ (noted notes sim
        ((sim.withQueue queue).settle pending.event.core (sim.handled pending station))
        pending.event.core).observations := by
      rw [handles.written]
      exact List.mem_append_right _ (List.mem_map_of_mem seen)
    obtain ⟨edge, early⟩ := books.prompt _ observed
    exact Nat.lt_of_lt_of_le early (Clock.le_of_edgeAtOrAfter? edge).1

end next

/-- Every dispatch of a run is safe, and so no run fails: the event finds its core, which can draw
    latencies, and for the edge of a coprocessor the coprocessor; no handler schedules an event for a tick
    that has passed; a response comes after its request, and that to a store finds a store in flight; and
    no result is seen before its submission. -/
theorem dispatches_safely {config : Config} {platform : Platform} (built : config.build = .ok platform)
    {workloads : List Workload} {first : Simulator} (created : create platform workloads = .ok first) :
    (∀ events next queue, (first.states events).2.due? = some (next, queue) → queue.now = next.tick ∧
      ∃ station, (first.states events).2.DispatchesSafely next queue station) ∧
    ∃ last summary, first.run = (last, .ok summary) := by
  have checked := Config.sound_of_build built
  have prepared := prepared_of_create checked created
  refine ⟨fun events next queue due => ?_, ?_⟩
  · have popped := pop?_of_due? due
    have run := run_states first events
    have sound := run.sound prepared
    obtain ⟨waiting, now, -⟩ := Queue.pop?_eq_some popped
    obtain ⟨-, station, found, receives⟩ := sound.pending next (by simp [waiting])
    obtain ⟨proper, -, -, -, time⟩ := sound.frame_turn popped found
    obtain ⟨-, known⟩ := sound.bounds_of_pop? popped found
    have number := (sound.stations _ station found).numbered
    have specified := List.getElem?_eq_getElem (run.length_sources prepared ▸ known)
    obtain ⟨traffic, accounted⟩ :=
      prepared.exists_accounted (accounted_zero checked created specified) events
    obtain ⟨issued, inFlight⟩ := accounted.answers prepared popped rfl
    refine ⟨now, station, {
      target := found
      receives := receives
      known := ?known
      future := ?future
      issued := now ▸ issued
      inFlight := ?inFlight
      submitted := ?submitted
      succeeds := sound.dispatch_eq due found receives }⟩
    case known => simp [LatencyModel.draw?, number, known]
    case future =>
      intro post member
      rw [now, ← time]
      exact (proper.posts post member).1
    case inFlight =>
      have seen := accounted.seen
      unfold traffic? at seen
      rw [found] at seen
      cases seen
      exact inFlight
    case submitted =>
      intro result seen
      rw [now]
      exact Nat.le_of_lt (sound.submitted_lt due found receives seen)
  · obtain ⟨notes, ended, -, -, ran⟩ := prepared.exists_run
    exact ⟨_, _, ran⟩

theorem store_answered_at_four_thousand : ∃ platform first queue station last summary,
    twoCoresTable.build = .ok platform ∧ create platform ([accessProgram, []].map .listed) = .ok first ∧
      (first.states 6).2.due? = some (⟨4000, 4, .response 0 8 .store 1000⟩, queue) ∧
      (first.states 6).2.stations[0]? = some station ∧ 1000 ≤ queue.now ∧
      0 < station.core.storesInFlight ∧ first.run = (last, .ok summary) := by
  obtain ⟨platform, built, first, created, ⟨next, queue⟩, due, same⟩ :
      ∃ platform, twoCoresTable.build = .ok platform ∧
        ∃ first, create platform ([accessProgram, []].map .listed) = .ok first ∧
          ∃ due, (first.states 6).2.due? = some due ∧ due.1 = ⟨4000, 4, .response 0 8 .store 1000⟩ := by
    decide +kernel
  obtain ⟨dispatches, last, summary, ran⟩ := dispatches_safely built created
  obtain ⟨-, station, safely⟩ := dispatches 6 next queue due
  obtain rfl : next = _ := same
  exact ⟨platform, first, queue, station, last, summary, built, created, due, safely.target,
    safely.issued _ _ _ _ rfl, safely.inFlight rfl, ran⟩

end Simulator

end CoreTiming
