import CoreTiming.Proofs.Coprocessor.NextAction
import CoreTiming.Proofs.Simulator.Runs

namespace CoreTiming

namespace Event

def isEdge (core : Nat) : Event → Bool
  | .coreEdge other => other = core
  | _ => false

def isLoadResponse (core : Nat) : Event → Bool
  | .response other _ .load _ => other = core
  | _ => false

def isFault (core : Nat) : Event → Bool
  | .fault other _ => other = core
  | _ => false

theorem resumes_of_isEdge {core : Nat} {event : Event} (edge : event.isEdge core = true) :
    event.resumes core = true := by
  cases event <;> first | exact edge | cases edge

theorem resumes_of_isLoadResponse {core : Nat} {event : Event}
    (response : event.isLoadResponse core = true) : event.resumes core = true := by
  unfold isLoadResponse at response
  split at response
  · exact response
  · cases response

theorem resumes_of_isFault {core : Nat} {event : Event} (fault : event.isFault core = true) :
    event.resumes core = true := by
  cases event <;> first | exact fault | cases fault

end Event

theorem Queue.agenda_eq_filter (queue : Queue) {narrow wide : Event → Bool}
    (narrower : ∀ event, narrow event = true → wide event = true) :
    queue.agenda narrow = (queue.agenda wide).filter (narrow ·.2) := by
  unfold Queue.agenda
  rw [List.filter_map, List.filter_filter]
  congr 2
  funext pending
  show narrow pending.event = (narrow pending.event && wide pending.event)
  cases chosen : narrow pending.event with
  | false => rfl
  | true => rw [narrower pending.event chosen]; rfl

namespace Simulator

/-- The event that will resume a core is pending, and it is the only one of its kind. -/
def HasWakeup (sim : Simulator) (index : Nat) (core : Core) : Prop :=
  match core.phase with
  | .halted => True
  | .running | .busy _ | .waitOffloads _ => ∃ tick, core.nextEdge = some tick ∧ sim.now ≤ tick ∧
      sim.timeline.queue.agenda (Event.isEdge index) = [(tick, .coreEdge index)]
  | .waitMemory => ∃ tick address issuedAt,
      sim.timeline.queue.agenda (Event.isLoadResponse index) =
        [(tick, .response index address .load issuedAt)]
  | .waitFault => ∃ fault,
      sim.timeline.queue.agenda (Event.isFault index) = [(sim.now, .fault index fault)]

variable {notes : Nat → Notes} {sim : Simulator}

theorem now_le_of_agenda (ordered : sim.timeline.queue.Ordered) {kind : Event → Bool} {tick : Nat}
    {event : Event} (member : (tick, event) ∈ sim.timeline.queue.agenda kind) : sim.now ≤ tick := by
  obtain ⟨-, pending, among, rfl, -⟩ := Queue.mem_agenda.mp member
  exact ordered.present pending among

theorem hasWakeup_of_resumes (ordered : sim.timeline.queue.Ordered) {core : Core} {since : Nat}
    {log : List Log.Line} (order : since ≤ sim.now)
    (resumes : core.Resumes since (sim.timeline.queue.agenda (Event.resumes core.id)) log) :
    sim.HasWakeup core.id core := by
  have edges := sim.timeline.queue.agenda_eq_filter (fun event => @Event.resumes_of_isEdge core.id event)
  have loads := sim.timeline.queue.agenda_eq_filter
    (fun event => @Event.resumes_of_isLoadResponse core.id event)
  have faults := sim.timeline.queue.agenda_eq_filter (fun event => @Event.resumes_of_isFault core.id event)
  cases resumes with
  | halted stopped ended calm excused =>
    unfold HasWakeup
    rw [stopped]
    trivial
  | edge tick active asked pending future within onEdge prompt =>
    have present := @now_le_of_agenda sim ordered (Event.resumes core.id) tick (.coreEdge core.id)
      (by rw [pending]; simp)
    rw [pending] at edges
    have wakes : ∃ tick, core.nextEdge = some tick ∧ sim.now ≤ tick ∧
        sim.timeline.queue.agenda (Event.isEdge core.id) = [(tick, .coreEdge core.id)] :=
      ⟨tick, asked, present, edges.trans (by simp [Event.isEdge])⟩
    unfold HasWakeup
    unfold Core.Active at active
    cases phase : core.phase with
    | running | busy | waitOffloads => exact wakes
    | waitMemory | waitFault | halted =>
      rw [phase] at active
      cases active
  | memory tick address issuedAt waits asleep idle pending =>
    rw [pending] at loads
    unfold HasWakeup
    rw [waits]
    exact ⟨tick, address, issuedAt, loads.trans (by simp [Event.isLoadResponse])⟩
  -- the edge that polls is asked for beside the response, before or behind it
  | polling tick address issuedAt waits asked pending within near =>
    rw [pending] at loads
    unfold HasWakeup
    rw [waits]
    refine ⟨tick, address, issuedAt, loads.trans ?_⟩
    unfold Queue.insertLate
    split <;> simp [Queue.insertLate, Event.isLoadResponse]
  | fault fault waits asleep pending =>
    have present := @now_le_of_agenda sim ordered (Event.resumes core.id) since (.fault core.id fault)
      (by rw [pending]; simp)
    obtain rfl : since = sim.now := Nat.le_antisymm order present
    rw [pending] at faults
    unfold HasWakeup
    rw [waits]
    exact ⟨fault, faults.trans (by simp [Event.isFault])⟩

theorem Sound.hasWakeup (sound : sim.Sound notes) {index : Nat} {station : Station}
    (found : sim.stations[index]? = some station) : sim.HasWakeup index station.core := by
  have standing := sound.stations index station found
  obtain ⟨since, stands⟩ := standing.stands
  have resumes := stands.resumes
  rw [← standing.numbered] at resumes ⊢
  exact hasWakeup_of_resumes sound.ordered stands.order resumes

theorem Sound.unit_wakes (sound : sim.Sound notes) {index : Nat} {station : Station}
    (found : sim.stations[index]? = some station) {spec : CoprocessorSpec}
    (equipped : sim.platform.coprocessor = some spec) : ∃ unit, station.coprocessor = some unit ∧
      ((Service.ofSpec spec).Fits (notes index).submissions sim.now → ∀ cycle,
        sim.now ≤ cycle * unit.clock.period → cycle * unit.clock.period ≤ horizon → unit.CanAct cycle →
          ∃ tick, unit.nextEdge = some tick ∧ sim.now ≤ tick ∧ tick ≤ cycle * unit.clock.period ∧
            ∃ pending ∈ sim.timeline.queue.pending,
              pending.tick = tick ∧ pending.event = .coprocessorEdge index) := by
  have standing := sound.stations index station found
  obtain ⟨since, stands⟩ := standing.stands
  obtain ⟨unit, attached, books⟩ := stands.books spec equipped
  refine ⟨unit, attached, ?_⟩
  intro fits cycle future near act
  obtain ⟨edge, asked, present, order⟩ := books.balanced.schedule.wakesBy_of_canAct fits future near act
  have pending := standing.awaits unit attached edge asked
  rw [standing.owned unit attached] at pending
  exact ⟨edge, asked, present, order, pending⟩

theorem Sound.isHalted_of_drained (sound : sim.Sound notes) (drained : sim.timeline.queue.pending = [])
    {index : Nat} {station : Station} (found : sim.stations[index]? = some station) :
    station.core.isHalted = true := by
  have wakeup := sound.hasWakeup found
  have quiet : ∀ kind, sim.timeline.queue.agenda kind = [] := by
    intro kind
    unfold Queue.agenda
    rw [drained]
    rfl
  unfold HasWakeup at wakeup
  unfold Core.isHalted
  cases phase : station.core.phase with
  | halted => rfl
  | running | busy | waitOffloads =>
    rw [phase] at wakeup
    obtain ⟨tick, -, -, single⟩ := wakeup
    cases (quiet _).symm.trans single
  | waitMemory =>
    rw [phase] at wakeup
    obtain ⟨tick, address, issuedAt, single⟩ := wakeup
    cases (quiet _).symm.trans single
  | waitFault =>
    rw [phase] at wakeup
    obtain ⟨fault, single⟩ := wakeup
    cases (quiet _).symm.trans single

/-- No wakeup is lost, so a run that drains has halted every core. -/
theorem no_wakeup_lost {config : Config} {platform : Platform} (built : config.build = .ok platform)
    {workloads : List Workload} {first : Simulator} (created : create platform workloads = .ok first) :
    (∀ notes sim, Run first notes sim → ∀ (index : Nat) (station : Station),
      sim.stations[index]? = some station → sim.HasWakeup index station.core ∧
        ∀ spec, platform.coprocessor = some spec → ∃ unit, station.coprocessor = some unit ∧
          ((Service.ofSpec spec).Fits (notes index).submissions sim.now → ∀ cycle,
            sim.now ≤ cycle * unit.clock.period → cycle * unit.clock.period ≤ horizon →
              unit.CanAct cycle → ∃ tick, unit.nextEdge = some tick ∧ sim.now ≤ tick ∧
                tick ≤ cycle * unit.clock.period ∧ ∃ pending ∈ sim.timeline.queue.pending,
                  pending.tick = tick ∧ pending.event = .coprocessorEdge index)) ∧
    ∀ last summary, first.run = (last, .ok summary) → summary.reason = .drained →
      ∀ station ∈ last.stations, station.core.isHalted = true := by
  have prepared := prepared_of_create (Config.sound_of_build built) created
  constructor
  · intro notes sim run index station found
    have sound := run.sound prepared
    refine ⟨sound.hasWakeup found, ?_⟩
    intro spec equipped
    exact sound.unit_wakes found ((run.platform_eq prepared).symm ▸ equipped)
  · intro last summary ran drained station member
    obtain ⟨notes, ended, reached, -, same⟩ := prepared.exists_run
    obtain ⟨rfl, outcome⟩ := Prod.mk.inj (same.symm.trans ran)
    cases outcome
    obtain ⟨index, found⟩ := List.mem_iff_getElem?.mp member
    have empty : ended.timeline.queue.pending = [] := by
      unfold ending at drained
      simp only at drained
      split at drained
      · rename_i nothing
        exact List.isEmpty_iff.mp nothing
      · cases drained
    exact (reached.sound prepared).isHalted_of_drained empty found

/-- In a burst with an offload outstanding, the next edges of the core and of its coprocessor are pending,
    and in the end the core has halted. -/
theorem edge_pending_in_burst : ∃ platform first station unit tick edge last summary,
    twoClocks.build = .ok platform ∧ create platform [twoClocksWorkload] = .ok first ∧
      (first.states 4).2.stations[0]? = some station ∧ station.core.phase = .busy 3 ∧
      (first.states 4).2.timeline.queue.agenda (Event.isEdge 0) = [(tick, .coreEdge 0)] ∧
      station.coprocessor = some unit ∧ unit.nextEdge = some edge ∧ edge ≤ 2100 ∧
      first.run = (last, .ok summary) ∧ summary.reason = .drained ∧
      ∀ station ∈ last.stations, station.core.isHalted = true := by
  obtain ⟨platform, built, equipped, stop, first, created, ⟨station, found, busy, -, unit, attached,
    queue, clock⟩, submitted, early, -⟩ := exists_twoClocks
  obtain ⟨wakeups, halts⟩ := no_wakeup_lost built created
  obtain ⟨wakeup, acts⟩ := wakeups _ _ (run_states first 4) 0 station found
  unfold HasWakeup at wakeup
  rw [busy] at wakeup
  obtain ⟨tick, -, -, pending⟩ := wakeup
  obtain ⟨lent, same, wakes⟩ := acts twoClocksCoprocessor equipped
  obtain rfl : unit = lent := Option.some.inj (attached.symm.trans same)
  have fits : (Service.ofSpec twoClocksCoprocessor).Fits ((first.states 4).1 0).submissions
      (first.states 4).2.now := by
    intro booking member _
    rw [submitted, bookings_twoClocks] at member
    rw [List.mem_singleton.mp member]
    decide
  have act : unit.CanAct 3 := by
    refine ⟨⟨0, ⟨7, 3, [1]⟩, 0, 0, some 3⟩, ?_, .inl rfl⟩
    rw [queue]
    exact List.mem_singleton_self _
  have last_edge : 3 * unit.clock.period = 2100 := by
    rw [clock]
    rfl
  obtain ⟨edge, asked, -, order, -⟩ := wakes fits 3 (last_edge ▸ early) (by rw [last_edge]; decide) act
  obtain ⟨last, summary, ran, drained⟩ :=
    (prepared_of_create (Config.sound_of_build built) created).drains stop
  exact ⟨platform, first, station, unit, tick, edge, last, summary, built, created, found, busy, pending,
    attached, asked, last_edge ▸ order, ran, drained, halts last summary ran drained⟩

end Simulator

end CoreTiming
