import CoreTiming.Proofs.Config.Cores
import CoreTiming.Proofs.Simulator.Soundness

namespace CoreTiming.Simulator

variable {notes : Nat → Notes} {sim : Simulator}

/-- A simulator in which some cores have been registered and nothing has happened. -/
structure Prepared (platform : Platform) (sim : Simulator) : Prop where
  sound : sim.Sound fun _ => {}
  platform_eq : sim.platform = platform
  now : sim.now = 0
  sources : sim.latency.sources.length = platform.cores.length
  summary : sim.summary = none

theorem prepared_ofStations {platform : Platform} (checked : platform.Sound) :
    (ofStations platform []).Prepared platform where
  sound := {
    ordered := Queue.ordered_empty
    within := Nat.zero_le _
    pending := by
      intro pending member
      cases member
    positive := LatencyModel.positive_ofSpecs checked.sound platform.seed
    sources := Nat.zero_le _
    stations := by
      intro index station found
      cases found }
  platform_eq := rfl
  now := rfl
  sources := List.length_map ..
  summary := rfl

theorem Sound.agenda_eq_nil (sound : sim.Sound notes) {index : Nat} (unknown : sim.stations.length ≤ index) :
    sim.timeline.queue.agenda (Event.resumes index) = [] := by
  unfold Queue.agenda
  rw [List.filter_eq_nil_iff.mpr, List.map_nil]
  intro pending member
  obtain ⟨-, other, receiver, -⟩ := sound.pending pending member
  obtain ⟨known, -⟩ := List.getElem?_eq_some_iff.mp receiver
  rw [Event.not_resumes_of_ne (by omega)]
  exact Bool.false_ne_true

theorem proper_first_turn {station : Station} {spec : Option CoprocessorSpec} {core : CoreSpec}
    {workload : Workload} (new : station = ⟨.ofSpec core workload, spec.map (.ofSpec core.id)⟩)
    {latency : LatencyModel} (positive : latency.Positive) (known : core.id < latency.sources.length)
    (memory : MemoryMap) : (station.turn 0 memory latency).Proper := by
  subst new
  exact {
    within := Nat.zero_le _
    owned := by
      intro unit attached
      obtain ⟨made, -, rfl⟩ := Option.map_eq_some_iff.mp attached
      rfl
    known := known
    positive := positive
    registered := rfl
    posts := by
      intro post member
      cases member }

theorem sound_first_turn {station : Station} {spec : Option CoprocessorSpec} {core : CoreSpec}
    {workload : Workload} (new : station = ⟨.ofSpec core workload, spec.map (.ofSpec core.id)⟩)
    {queue : Queue} (ordered : queue.Ordered) (now : queue.now = 0)
    (quiet : queue.agenda (Event.resumes core.id) = []) (log : List Log.Line) {done : Turn}
    {memory : MemoryMap} {latency : LatencyModel}
    (asked : done = (station.turn 0 memory latency).requestFirstEdge) (proper : done.Proper) :
    Station.Sound spec (queue.scheduleAll done.effects.posts) (log ++ done.effects.log) core.id {}
      ⟨done.core, done.coprocessor⟩ := by
  have extended := (station.turn 0 memory latency).extends_requestFirstEdge
  have ledger := (station.turn 0 memory latency).ledger_requestFirstEdge
  rw [← asked] at extended ledger
  have coprocessor : done.coprocessor = station.coprocessor := congrArg Ledger.coprocessor ledger
  subst new
  have id : done.core.id = core.id := extended.id
  apply Station.Sound.of_turn ordered proper id (extended.now.trans now.symm)
  · exact extended.equipped.trans Option.isSome_map
  · intro unit attached
    obtain ⟨made, -, rfl⟩ := Option.map_eq_some_iff.mp (coprocessor.symm.trans attached)
    intro tick asked
    cases asked
  · rw [now, quiet, asked]
    exact ⟨0, Turn.stands_requestFirstEdge rfl rfl rfl rfl log⟩

def enroll (sim : Simulator) (station : Station) : Simulator :=
  { sim with stations := sim.stations ++ [station] }

theorem getElem?_enroll (station : Station) :
    (sim.enroll station).stations[sim.stations.length]? = some station :=
  List.getElem?_concat_length

theorem register_eq {core : CoreSpec} {workload : Workload} {station : Station}
    (new : station = ⟨.ofSpec core workload, sim.platform.coprocessor.map (.ofSpec core.id)⟩) :
    ∃ line, sim.register core workload = ((sim.enroll station).settle sim.stations.length
      (station.turn 0 sim.memory sim.latency).requestFirstEdge).apply (.line line) := by
  have started : (sim.enroll station).start sim.stations.length 0 =
      (sim.enroll station).settle sim.stations.length
        (station.turn 0 sim.memory sim.latency).requestFirstEdge := by
    unfold start
    rw [getElem?_enroll]
    rfl
  rw [← started, new]
  exact ⟨_, rfl⟩

theorem Sound.enroll (sound : sim.Sound fun _ => {}) (now : sim.now = 0) {core : CoreSpec}
    (number : core.id = sim.stations.length) (room : sim.stations.length < sim.latency.sources.length)
    {workload : Workload} {station : Station}
    (new : station = ⟨.ofSpec core workload, sim.platform.coprocessor.map (.ofSpec core.id)⟩)
    {done : Turn} (asked : done = (station.turn 0 sim.memory sim.latency).requestFirstEdge) :
    ((sim.enroll station).settle sim.stations.length done).Sound fun _ => {} := by
  have extended := (station.turn 0 sim.memory sim.latency).extends_requestFirstEdge
  rw [← asked] at extended
  have drawn : core.id < sim.latency.sources.length := by omega
  have proper := extended.proper (proper_first_turn new sound.positive drawn sim.memory)
  have id : done.core.id = sim.stations.length := by
    rw [extended.id, ← number, new]
    rfl
  refine Sound.of_turn sound.ordered sound.within ?pending ?others (getElem?_enroll station) proper id
    (extended.now.trans now.symm) ?sources extended.equipped ?own
  case pending =>
    intro pending member
    obtain ⟨bound, other, receiver, receives⟩ := sound.pending pending member
    refine ⟨bound, other, ?_, receives⟩
    exact (List.getElem?_append_left (List.getElem?_eq_some_iff.mp receiver).1).trans receiver
  case others =>
    intro other standing different member
    obtain ⟨known, -⟩ := List.getElem?_eq_some_iff.mp member
    have longer : (sim.enroll station).stations.length = sim.stations.length + 1 := List.length_append
    have earlier : other < sim.stations.length := by omega
    refine sound.stations other standing ?_
    rwa [← List.getElem?_append_left earlier]
  case sources =>
    rw [extended.sources]
    show (sim.stations ++ [station]).length ≤ sim.latency.sources.length
    rw [List.length_append]
    exact room
  case own =>
    have quiet := sound.agenda_eq_nil (Nat.le_of_eq number.symm)
    rw [← number]
    exact sound_first_turn new sound.ordered now quiet _ asked proper

theorem Prepared.register {platform : Platform} (prepared : sim.Prepared platform) {core : CoreSpec}
    (number : core.id = sim.stations.length) (room : sim.stations.length < platform.cores.length)
    (workload : Workload) : (sim.register core workload).Prepared platform ∧
      (sim.register core workload).stations.length = sim.stations.length + 1 := by
  obtain ⟨sound, rfl, now, sources, summary⟩ := prepared
  generalize new : (⟨.ofSpec core workload, sim.platform.coprocessor.map (.ofSpec core.id)⟩ : Station) =
    station
  obtain ⟨line, registered⟩ := @register_eq sim core workload station new.symm
  have settled := sound.enroll now number (sources ▸ room) new.symm rfl
  have extended := (station.turn 0 sim.memory sim.latency).extends_requestFirstEdge
  rw [registered]
  refine ⟨⟨settled.apply_line line, rfl, ?_, extended.sources.trans sources, summary⟩, ?_⟩
  · exact (sim.timeline.queue.now_scheduleAll _).trans now
  · exact List.length_set.trans List.length_append

theorem prepared_foldl {platform : Platform} {cores : List (CoreSpec × Workload)}
    (prepared : sim.Prepared platform)
    (room : sim.stations.length + cores.length ≤ platform.cores.length)
    (numbered : ∀ (index : Nat) (entry : CoreSpec × Workload), cores[index]? = some entry →
      entry.1.id = sim.stations.length + index) :
    (cores.foldl (fun sim core => sim.register core.1 core.2) sim).Prepared platform := by
  induction cores generalizing sim with
  | nil => exact prepared
  | cons entry cores ih =>
    rw [List.length_cons] at room
    have number : entry.1.id = sim.stations.length := numbered 0 entry rfl
    obtain ⟨registered, longer⟩ := prepared.register number (by omega) entry.2
    apply ih registered
    · omega
    · intro index other found
      have next := numbered (index + 1) other found
      omega

theorem prepared_of_create {platform : Platform} (checked : platform.Sound) {workloads : List Workload}
    {first : Simulator} (created : create platform workloads = .ok first) :
    first.Prepared platform := by
  unfold create at created
  split at created
  · cases created
  · rename_i equal
    cases created
    apply prepared_foldl (prepared_ofStations checked)
    · show 0 + (platform.cores.zip workloads).length ≤ _
      rw [List.length_zip]
      omega
    · intro index entry found
      show entry.1.id = 0 + index
      rw [Nat.zero_add]
      exact checked.numbered index entry.1 (List.getElem?_zip_eq_some.mp found).1

end CoreTiming.Simulator
