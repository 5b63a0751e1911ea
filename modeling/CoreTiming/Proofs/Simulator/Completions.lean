import CoreTiming.Proofs.Core.Polling
import CoreTiming.Proofs.Simulator.Dispatch

namespace CoreTiming

def Notes.Earlier (first second : Nat × OffloadResult) : Prop :=
  first.1 < second.1 ∨ first.1 = second.1 ∧ first.2.handle < second.2.handle

def Station.Swept (now : Nat) (station : Station) : Prop :=
  ∀ unit, station.coprocessor = some unit → ∀ handle, ¬ unit.Ready now handle

namespace Simulator

/-- All that is pending for a core at this tick are edges of its coprocessor. -/
def TurnIsOver (sim : Simulator) (index : Nat) : Prop :=
  ∀ pending ∈ sim.timeline.queue.pending, pending.event.core = index → pending.tick = sim.now →
    pending.event = .coprocessorEdge index

/-- A core has seen its results in order, and what it has not seen by now it will not see at this tick,
    unless it has seen nothing at this tick. -/
structure Collects (notes : Notes) (sim : Simulator) (index : Nat) (station : Station) : Prop where
  ordered : notes.observations.Pairwise Notes.Earlier
  past : ∀ observation ∈ notes.observations, observation.1 ≤ sim.now
  swept : (∃ observation ∈ notes.observations, observation.1 = sim.now) →
    sim.TurnIsOver index ∨ station.Swept sim.now

variable {notes : Nat → Notes} {sim next : Simulator} {platform : Platform} {first : Simulator}
  {index : Nat} {station : Station}

theorem Collects.keep {notes : Notes} (collects : Collects notes sim index station)
    (order : sim.now ≤ next.now) {after : Station}
    (keeps : sim.now = next.now → sim.TurnIsOver index ∨ station.Swept sim.now →
      next.TurnIsOver index ∨ after.Swept next.now) : Collects notes next index after where
  ordered := collects.ordered
  past observation member := Nat.le_trans (collects.past observation member) order
  swept := by
    rintro ⟨observation, member, present⟩
    have before := collects.past observation member
    exact keeps (by omega) (collects.swept ⟨observation, member, by omega⟩)

theorem Collects.see {notes : Notes} (collects : Collects notes sim index station)
    (order : sim.now ≤ next.now) {new : List OffloadResult}
    (ascending : (new.map OffloadResult.handle).Pairwise (· < ·))
    (silent : sim.now = next.now → sim.TurnIsOver index ∨ station.Swept sim.now → new = [])
    {after : Station} (done : after.Swept next.now) {extended : Notes}
    (seen : extended.observations = notes.observations ++ new.map (next.now, ·)) :
    Collects extended next index after where
  ordered := by
    rw [seen]
    refine List.pairwise_append.mpr ⟨collects.ordered, ?_, ?_⟩
    · refine List.pairwise_map.mpr ((List.pairwise_map.mp ascending).imp ?_)
      exact fun less => .inr ⟨rfl, less⟩
    · intro old member latest among
      obtain ⟨result, fresh, rfl⟩ := List.mem_map.mp among
      have before := collects.past old member
      refine .inl (Nat.lt_of_le_of_ne (Nat.le_trans before order) fun present => ?_)
      have now : old.1 = sim.now ∧ sim.now = next.now := by
        simp only at present
        omega
      rw [silent now.2 (collects.swept ⟨old, member, now.1⟩)] at fresh
      cases fresh
  past observation member := by
    rw [seen] at member
    rcases List.mem_append.mp member with old | latest
    · exact Nat.le_trans (collects.past observation old) order
    · obtain ⟨result, -, rfl⟩ := List.mem_map.mp latest
      exact Nat.le_refl _
  swept := fun _ => .inr done

section handles

variable {event : Event} {rest : List (Nat × Event)} {turn : Turn}
  (handles : Handles notes sim next index event rest turn) (order : sim.now ≤ next.now)
  (time : turn.now = next.now) (collects : Collects (notes index) sim index ⟨turn.core, turn.coprocessor⟩)

include handles order collects

theorem Handles.collects_of_core (core : (turn.deliver event).core = turn.core)
    (past : next.TurnIsOver index) : Collects (noted notes sim next index) next index
      ⟨(turn.deliver event).core, (turn.deliver event).coprocessor⟩ := by
  rw [handles.written, Notes.extend_of_same (congrArg Core.outstanding core) (congrArg Core.completions core)]
  exact collects.keep order fun _ _ => .inl past

variable (swept : sim.now = next.now →
  sim.TurnIsOver index ∨ Station.Swept sim.now ⟨turn.core, turn.coprocessor⟩ →
    Station.Swept next.now ⟨turn.core, turn.coprocessor⟩)

include swept

theorem Handles.collects_of_ledger (ledger : (turn.deliver event).ledger = turn.ledger) :
    Collects (noted notes sim next index) next index
      ⟨(turn.deliver event).core, (turn.deliver event).coprocessor⟩ := by
  have coprocessor : (turn.deliver event).coprocessor = turn.coprocessor :=
    congrArg Ledger.coprocessor ledger
  rw [handles.written, Notes.extend_of_same (congrArg Ledger.outstanding ledger)
    (congrArg Ledger.completions ledger)]
  refine collects.keep order fun present promise => .inr fun unit attached => ?_
  exact swept present promise unit (coprocessor.symm.trans attached)

include time

theorem Handles.collects_of_edge {spec : CoprocessorSpec} (lent : sim.platform.coprocessor = some spec)
    {core : Nat} (edge : event = .coreEdge core) (due : turn.core.nextEdge = some turn.now)
    (awake : turn.core.isHalted = false) : Collects (noted notes sim next index) next index
      ⟨(turn.deliver event).core, (turn.deliver event).coprocessor⟩ := by
  obtain ⟨since, stands⟩ := handles.takes.stands
  rw [lent] at stands
  obtain ⟨unit, balanced, -⟩ := Turn.balanced_of_stands stands
  obtain ⟨after, new, left, completions, ascending, idle, silent⟩ :=
    Turn.sweep_coreEdge balanced due awake
  have written := handles.written
  subst edge
  rw [time] at idle silent written
  refine collects.see order ascending ?_ ?_ ?_
  · exact fun present promise => silent (swept present promise unit balanced.attached)
  · intro other attached
    rw [← Option.some.inj (left.symm.trans attached)]
    exact idle
  · rw [written]
    show _ ++ (turn.coreEdge.core.completions.drop _).map _ = _
    rw [completions, List.drop_left]

end handles

theorem now_settle {pending : Pending} {queue : Queue}
    (popped : sim.timeline.queue.pop? = some (pending, queue)) (index : Nat) (done : Turn) :
    ((sim.withQueue queue).settle index done).now = pending.tick :=
  (queue.now_scheduleAll _).trans (Queue.pop?_eq_some popped).2.1

section next

variable (sound : sim.Sound notes) {pending : Pending} {queue : Queue} {done : Turn}
  (popped : sim.timeline.queue.pop? = some (pending, queue))
  (included : sim.platform.stop.excludes pending.tick = false)
  (found : sim.stations[pending.event.core]? = some station)
  (delivered : done = (station.turn pending.tick sim.memory sim.latency).deliver pending.event)

include sound popped

theorem Sound.now_le_of_pop? : sim.now ≤ pending.tick := by
  refine sound.ordered.present pending ?_
  rw [(Queue.pop?_eq_some popped).1]
  exact List.mem_cons_self

include found delivered

theorem Sound.mem_pending_of_other {other : Pending}
    (member : other ∈ ((sim.withQueue queue).settle pending.event.core done).timeline.queue.pending)
    (different : other.event.core ≠ pending.event.core) : other ∈ sim.timeline.queue.pending := by
  obtain ⟨proper, id, -⟩ := sound.frame_turn popped found
  rw [← delivered] at proper id
  rcases Queue.of_mem_scheduleAll member with before | ⟨post, among, -, same⟩
  · rw [(Queue.pop?_eq_some popped).1]
    exact List.mem_cons_of_mem _ before
  · obtain ⟨-, -, own, -⟩ := proper.posts post among
    exact absurd (same ▸ own.trans id) different

theorem Sound.collects_of_passes (other : pending.event.core ≠ index) {standing : Station}
    (collects : Collects (notes index) sim index standing) :
    Collects (notes index) ((sim.withQueue queue).settle pending.event.core done) index standing := by
  have time := now_settle popped pending.event.core done
  refine collects.keep (time ▸ sound.now_le_of_pop? popped) fun present swept => ?_
  rw [← present]
  refine swept.imp_left fun past => ?_
  intro later member own now
  refine past later ?_ own (now.trans present.symm)
  exact sound.mem_pending_of_other popped found delivered member (own ▸ Ne.symm other)

include included

theorem Sound.collects_of_handles {spec : CoprocessorSpec} (lent : sim.platform.coprocessor = some spec)
    (collects : Collects (notes pending.event.core) sim pending.event.core station) :
    Collects (noted notes sim ((sim.withQueue queue).settle pending.event.core done) pending.event.core)
      ((sim.withQueue queue).settle pending.event.core done) pending.event.core
      ⟨done.core, done.coprocessor⟩ := by
  have handles := sound.handles popped included found delivered
  have time := now_settle popped pending.event.core done
  have order := time ▸ sound.now_le_of_pop? popped
  subst delivered
  by_cases edge : ∃ core, pending.event = .coprocessorEdge core
  · -- the edge of the coprocessor is the last event of the core at this tick
    obtain ⟨core, same⟩ := edge
    refine handles.collects_of_core order collects ?_ fun later member own now => ?_
    · rw [same]
      exact Turn.frame_coprocessorEdge _ |>.1
    · have before : pending.Before later := by
        refine sound.ordered.before_of_mem_scheduleAll popped ?_ member
        exact fun post among => sound.not_precedes_turn popped found among
      have last := (before.turnwise (now.trans time).symm).2 own.symm (by rw [same]; rfl)
      rw [last, own]
  · have swept : sim.now = pending.tick → sim.TurnIsOver pending.event.core ∨ station.Swept sim.now →
        station.Swept pending.tick := by
      rintro now (past | swept)
      · have waiting : pending ∈ sim.timeline.queue.pending := by
          rw [(Queue.pop?_eq_some popped).1]
          exact List.mem_cons_self
        exact absurd ⟨_, past pending waiting rfl now.symm⟩ edge
      · exact now ▸ swept
    rw [← time] at swept
    rcases handles.takes.ledger_deliver fun core same => edge ⟨core, same⟩ with same | ⟨event, due, awake⟩
    · exact handles.collects_of_ledger order collects swept same
    · exact handles.collects_of_edge order time.symm collects swept lent event due awake

end next

theorem Sound.collects_step (sound : sim.Sound notes) {spec : CoprocessorSpec}
    (lent : sim.platform.coprocessor = some spec) {failed : Option Nat}
    (stepped : sim.step? = some (next, failed))
    (collects : ∀ station, sim.stations[index]? = some station → Collects (notes index) sim index station)
    {after : Station} (left : next.stations[index]? = some after) :
    Collects (noted notes sim next index) next index after := by
  obtain ⟨pending, queue, station, done, popped, included, found, delivered, rfl, -⟩ :=
    sound.step?_eq_some stepped
  by_cases own : pending.event.core = index
  · subst own
    have handles := sound.handles popped included found delivered
    obtain rfl := Option.some.inj (handles.left.symm.trans left)
    rw [← delivered]
    exact sound.collects_of_handles popped included found delivered lent (collects station found)
  · have passes := sound.passes popped included found delivered own
    rw [passes.written]
    rw [passes.station] at left
    exact sound.collects_of_passes popped found delivered own (collects after left)

theorem Run.collects (prepared : first.Prepared platform) {spec : CoprocessorSpec}
    (equipped : platform.coprocessor = some spec) (run : Run first notes sim)
    (found : sim.stations[index]? = some station) : Collects (notes index) sim index station := by
  induction run generalizing station with
  | start => exact ⟨.nil, by simp, by simp⟩
  | next run stepped ih =>
    have lent := (run.platform_eq prepared).symm ▸ equipped
    exact (run.sound prepared).collects_step lent stepped (fun _ standing => ih standing) found

theorem Run.straight (prepared : first.Prepared platform) {spec : CoprocessorSpec}
    (equipped : platform.coprocessor = some spec) (single : spec.issue = .single)
    (run : Run first notes sim) (found : sim.stations[index]? = some station) :
    (station.core.ledger station.coprocessor).Straight := by
  induction run generalizing station with
  | start =>
    obtain ⟨since, stands⟩ := (Run.start.sound prepared).stations index station found |>.stands
    have lent : first.platform.coprocessor = some spec := prepared.platform_eq.symm ▸ equipped
    obtain ⟨unit, attached, books⟩ := stands.books spec lent
    rw [attached]
    exact books.balanced.straight_of_fresh
  | next run stepped ih =>
    have lent := (run.platform_eq prepared).symm ▸ equipped
    rcases (run.sound prepared).step_cases stepped index with passes | ⟨event, rest, turn, handles⟩
    · exact ih (passes.station ▸ found)
    · obtain rfl := Option.some.inj (handles.left.symm.trans found)
      have takes := handles.takes
      rw [lent] at takes
      exact takes.straight_deliver single (ih handles.station)

/-- In every state of a run a core has seen its results in the order of the ticks at which it saw them,
    and of their handles at one tick. If its coprocessor serves one offload at a time, these are the
    results of its first offloads in the order of submission, and they were completed in this order. -/
theorem completions_in_order {config : Config} {platform : Platform} (built : config.build = .ok platform)
    {spec : CoprocessorSpec} (equipped : platform.coprocessor = some spec) {workloads : List Workload}
    {first : Simulator} (created : create platform workloads = .ok first) {notes : Nat → Notes}
    {sim : Simulator} (run : Run first notes sim) {index : Nat} {station : Station}
    (found : sim.stations[index]? = some station) :
    (notes index).observations.map Prod.snd = station.core.completions ∧
    (notes index).observations.Pairwise Notes.Earlier ∧
    (spec.issue = .single →
      station.core.completions.map OffloadResult.handle = List.range station.core.completions.length ∧
      station.core.completions.Pairwise fun first second => first.completedAt ≤ second.completedAt) := by
  have prepared := prepared_of_create (Config.sound_of_build built) created
  have lent : sim.platform.coprocessor = some spec := (run.platform_eq prepared).symm ▸ equipped
  obtain ⟨since, stands⟩ := ((run.sound prepared).stations index station found).stands
  obtain ⟨unit, -, books⟩ := stands.books spec lent
  refine ⟨books.observed, (run.collects prepared equipped found).ordered, fun single => ?_⟩
  have straight := run.straight prepared equipped single found
  refine ⟨straight.map_handle, straight.pairwise_handle.imp_of_mem ?_⟩
  have booked : ∀ result ∈ station.core.completions,
      ∃ booking ∈ (Service.ofSpec spec).bookings (notes index).submissions,
        result = (Service.ofSpec spec).result booking := by
    intro result member
    rw [← books.observed] at member
    obtain ⟨observation, noted, rfl⟩ := List.mem_map.mp member
    exact books.booked observation noted
  intro earlier later one other order
  obtain ⟨first, known, rfl⟩ := booked earlier one
  obtain ⟨second, among, rfl⟩ := booked later other
  exact Service.completedAt_le_of_handle_lt (Service.width_of_single single)
    books.balanced.schedule.consistent.numbered known among order

/-- The second offload waits for the first one, and both end between two edges of the core. -/
def twoOffloadsWorkload : Workload :=
  .listed [.offload ⟨7, 3, [1]⟩, .offload ⟨8, 1, []⟩, .wait, .halt]

theorem two_results_at_one_edge : ∃ platform first station, twoClocks.build = .ok platform ∧
    create platform [twoOffloadsWorkload] = .ok first ∧
    (first.states 9).2.stations[0]? = some station ∧
    (((first.states 9).1 0).observations.map fun seen => (seen.1, seen.2.handle)) = [(3000, 0), (3000, 1)] ∧
    ((first.states 9).1 0).observations.Pairwise Notes.Earlier ∧
    station.core.completions.map OffloadResult.handle = List.range station.core.completions.length := by
  obtain ⟨platform, built, equipped, first, created, station, found, seen⟩ :
      ∃ platform, twoClocks.build = .ok platform ∧ platform.coprocessor = some twoClocksCoprocessor ∧
        ∃ first, create platform [twoOffloadsWorkload] = .ok first ∧
          ∃ station, (first.states 9).2.stations[0]? = some station ∧
            (((first.states 9).1 0).observations.map fun seen => (seen.1, seen.2.handle)) =
              [(3000, 0), (3000, 1)] := by
    decide +kernel
  obtain ⟨-, ordered, single⟩ := completions_in_order built equipped created (run_states first 9) found
  exact ⟨platform, first, station, built, created, found, seen, ordered, (single rfl).1⟩

end Simulator

end CoreTiming
