import CoreTiming.Proofs.Simulator.Termination
import CoreTiming.Proofs.Simulator.Views
import CoreTiming.Proofs.Simulator.Wakeups

namespace CoreTiming

theorem Clock.firstEdge_zero (clock : Clock) : clock.firstEdge 0 = 0 :=
  Nat.le_zero.mp (Clock.firstEdge_le_of_dvd (Nat.dvd_zero _) (Nat.le_refl _))

theorem Turn.requestFirstEdge_of_start {turn : Turn} (now : turn.now = 0)
    (asleep : turn.core.nextEdge = none) :
    turn.requestFirstEdge = (turn.setCore { turn.core with nextEdge := some 0 }).emit
      (.post 0 (.coreEdge turn.core.id)) := by
  have first := turn.core.clock.firstEdge_zero
  have found : turn.core.clock.edgeAtOrAfter? turn.now = some 0 := by
    rw [now, Clock.edgeAtOrAfter?_of_le (by omega), first]
  unfold requestFirstEdge
  rw [found]
  exact requestEdge_of_none asleep 0

namespace View

def first (platform : Platform) (core : CoreSpec) (workload : Workload) : View where
  station := ⟨{ Core.ofSpec core workload with nextEdge := some 0 },
    platform.coprocessor.map (.ofSpec core.id)⟩
  latency := (LatencyModel.ofSpecs platform.cores platform.seed).only core.id
  agenda := [(0, .coreEdge core.id)]
  sink := { level := platform.statisticLevel }

def Leads (platform : Platform) (index : Nat) : View → View → Prop :=
  Relation.ReflTransGen fun view after => view.next? platform index = some after

theorem Leads.eq_of_ends {platform : Platform} {index : Nat} {start one other : View}
    (left : Leads platform index start one) (right : Leads platform index start other)
    (stuck : one.next? platform index = none) (also : other.next? platform index = none) : one = other := by
  have unique : Relator.RightUnique fun view after => View.next? platform index view = some after :=
    fun _ _ _ first second => Option.some.inj (first.symm.trans second)
  rcases Relation.ReflTransGen.total_of_right_unique unique left right with further | further
  · rcases further.cases_head with same | ⟨next, step, -⟩
    · exact same
    · cases stuck.symm.trans step
  · rcases further.cases_head with same | ⟨next, step, -⟩
    · exact same.symm
    · cases also.symm.trans step

end View

namespace Station

def report (endTick : Nat) (station : Station) : List Record :=
  station.core.report endTick ++ (station.coprocessor.map Coprocessor.report).getD []

theorem concerns_report {station : Station} {index : Nat} (number : station.core.id = index)
    (owned : ∀ unit, station.coprocessor = some unit → unit.owner = index) (endTick : Nat) :
    ∀ record ∈ station.report endTick, record.concerns index = true := by
  intro record member
  rcases List.mem_append.mp member with own | lent
  · rw [← number]
    unfold Core.report at own
    simp only [List.mem_cons, List.not_mem_nil, or_false] at own
    rcases own with rfl | rfl | rfl | rfl | rfl | rfl | rfl | rfl | rfl <;> exact Core.concerns_name ..
  · cases attached : station.coprocessor with
    | none =>
      rw [attached] at lent
      cases lent
    | some unit =>
      rw [attached] at lent
      rw [← owned unit attached]
      unfold Coprocessor.report at lent
      simp only [Option.map_some, Option.getD_some, List.mem_cons, List.not_mem_nil, or_false] at lent
      rcases lent with rfl | rfl | rfl | rfl | rfl <;> exact Coprocessor.concerns_name ..

def Numbered (first : Nat) (stations : List Station) : Prop :=
  ∀ (index : Nat) (station : Station), stations[index]? = some station →
    station.core.id = first + index ∧ ∀ unit, station.coprocessor = some unit → unit.owner = first + index

theorem Numbered.tail {first : Nat} {station : Station} {stations : List Station}
    (numbered : Numbered first (station :: stations)) : Numbered (first + 1) stations := by
  intro index other found
  rw [Nat.add_assoc, Nat.add_comm 1 index]
  exact numbered (index + 1) other found

variable {first endTick : Nat} {stations : List Station}

theorem only_reports_of_lt (numbered : Numbered first stations) {core : Nat} (earlier : core < first)
    (sink : Sink) :
    (stations.foldl (fun sink station => sink.addAll (station.report endTick)) sink).only core =
      sink.only core := by
  induction stations generalizing first sink with
  | nil => rfl
  | cons station stations ih =>
    obtain ⟨number, owned⟩ := numbered 0 station rfl
    refine (ih numbered.tail (by omega) _).trans ?_
    exact Sink.only_addAll_of_foreign (Nat.ne_of_gt earlier) (concerns_report number owned endTick)

theorem only_reports (numbered : Numbered first stations) {index : Nat} {station : Station}
    (found : stations[index]? = some station) (sink : Sink) :
    (stations.foldl (fun sink station => sink.addAll (station.report endTick)) sink).only (first + index) =
      (sink.only (first + index)).addAll (station.report endTick) := by
  induction stations generalizing first index sink with
  | nil => cases found
  | cons next stations ih =>
    obtain ⟨number, owned⟩ := numbered 0 next rfl
    have concerns := concerns_report number owned endTick
    cases index with
    | zero =>
      cases found
      refine (only_reports_of_lt numbered.tail (Nat.lt_succ_self _) _).trans ?_
      exact Sink.only_addAll_of_own concerns
    | succ index =>
      have rest := ih numbered.tail found (sink.addAll (next.report endTick))
      rw [Nat.add_right_comm, Nat.add_assoc] at rest
      rw [List.foldl_cons, rest, Sink.only_addAll_of_foreign (by omega) concerns]

end Station

def StopCondition.lastTick : StopCondition → Nat
  | drain => 0
  | atTick limit => limit

namespace Simulator

variable {sim : Simulator} {platform : Platform} {first : Simulator} {notes : Nat → Notes} {index : Nat}

/-- Cores have been registered, and nothing has been drawn or recorded. -/
structure Untouched (platform : Platform) (sim : Simulator) : Prop where
  prepared : sim.Prepared platform
  latency : sim.latency = .ofSpecs platform.cores platform.seed
  sink : sim.timeline.sink = { level := platform.statisticLevel }

theorem Sound.agenda_eq_nil_of_unknown (sound : sim.Sound notes) (unknown : sim.stations.length ≤ index) :
    sim.timeline.queue.agenda (Event.isFor index) = [] := by
  refine List.eq_nil_iff_forall_not_mem.mpr fun item member => ?_
  obtain ⟨own, pending, among, -, posted⟩ := Queue.mem_agenda.mp member
  obtain ⟨-, other, receiver, -⟩ := sound.pending pending among
  obtain ⟨known, -⟩ := List.getElem?_eq_some_iff.mp receiver
  have same : pending.event.core = index := posted ▸ of_decide_eq_true own
  omega

theorem Untouched.register (untouched : sim.Untouched platform) {core : CoreSpec}
    (number : core.id = sim.stations.length) (room : sim.stations.length < platform.cores.length)
    (workload : Workload) : (sim.register core workload).Untouched platform ∧
      (sim.register core workload).stations.length = sim.stations.length + 1 ∧
      (sim.register core workload).view? sim.stations.length = some (.first platform core workload) ∧
      ∀ index < sim.stations.length, (sim.register core workload).view? index = sim.view? index := by
  obtain ⟨prepared, longer⟩ := untouched.prepared.register number room workload
  obtain ⟨⟨sound, rfl, now, sources, -⟩, latency, sink⟩ := untouched
  generalize new : (⟨.ofSpec core workload, sim.platform.coprocessor.map (.ofSpec core.id)⟩ : Station) =
    station
  obtain ⟨line, registered⟩ := @register_eq sim core workload station new.symm
  have asleep : (station.turn 0 sim.memory sim.latency).core.nextEdge = none := by
    rw [← new]
    rfl
  have id : station.core.id = sim.stations.length := by
    rw [← number, ← new]
    rfl
  rw [Turn.requestFirstEdge_of_start rfl asleep] at registered
  rw [registered] at prepared longer ⊢
  refine ⟨⟨prepared, latency, sink⟩, longer, ?own, ?others⟩
  -- an empty queue gives the new core its first edge and nothing else
  case own =>
    refine (@view?_settle (sim.enroll station) _ _ sound.ordered _ (getElem?_enroll station) id ?_).trans
      (congrArg some ?_)
    · intro post member
      rw [List.mem_singleton.mp member]
      exact Nat.le_of_eq now
    · have quiet := sound.agenda_eq_nil_of_unknown (Nat.le_refl _)
      subst new
      refine View.ext rfl (congrArg (·.only core.id) latency) ?_ ?_
      · show List.foldl _ (sim.timeline.queue.agenda (Event.isFor sim.stations.length))
          (List.filter _ [(0, Event.coreEdge core.id)]) = [(0, .coreEdge core.id)]
        rw [quiet, List.filter_cons_of_pos (by simp [Event.isFor, Event.core, number])]
        rfl
      · show sim.timeline.sink.only sim.stations.length = { level := sim.platform.statisticLevel }
        rw [sink]
        rfl
  case others =>
    intro index earlier
    refine (@view?_settle_of_ne (sim.enroll station) _ _ sound.ordered _ (Nat.ne_of_gt earlier) ?_ ?_
      rfl).trans ?_
    · intro post member
      rw [List.mem_singleton.mp member]
      exact ⟨Nat.le_of_eq now, id⟩
    · intro record member
      cases member
    · unfold view?
      rw [show (sim.enroll station).stations[index]? = sim.stations[index]? from
        List.getElem?_append_left earlier]
      rfl

theorem Untouched.foldl {cores : List (CoreSpec × Workload)} (untouched : sim.Untouched platform)
    (room : sim.stations.length + cores.length ≤ platform.cores.length)
    (numbered : ∀ (index : Nat) (entry : CoreSpec × Workload), cores[index]? = some entry →
      entry.1.id = sim.stations.length + index) :
    (∀ (index : Nat) (entry : CoreSpec × Workload), cores[index]? = some entry →
      (cores.foldl (fun sim core => sim.register core.1 core.2) sim).view? (sim.stations.length + index) =
        some (.first platform entry.1 entry.2)) ∧
      ∀ index < sim.stations.length,
        (cores.foldl (fun sim core => sim.register core.1 core.2) sim).view? index = sim.view? index := by
  induction cores generalizing sim with
  | nil =>
    refine ⟨?_, fun _ _ => rfl⟩
    intro index entry found
    cases found
  | cons entry cores ih =>
    rw [List.length_cons] at room
    have number : entry.1.id = sim.stations.length := numbered 0 entry rfl
    obtain ⟨registered, longer, own, others⟩ := untouched.register number (by omega) entry.2
    obtain ⟨later, kept⟩ := ih registered (by omega) fun index other found => by
      have next := numbered (index + 1) other found
      omega
    constructor
    · intro index other found
      cases index with
      | zero =>
        cases found
        exact (kept _ (by omega)).trans own
      | succ index =>
        have next := later index other found
        rwa [longer, Nat.add_right_comm] at next
    · intro index earlier
      exact (kept index (by omega)).trans (others index earlier)

theorem view?_of_create (checked : platform.Sound) {workloads : List Workload}
    (created : create platform workloads = .ok first) {core : CoreSpec}
    (specified : platform.cores[index]? = some core) {workload : Workload}
    (given : workloads[index]? = some workload) :
    first.view? index = some (.first platform core workload) := by
  unfold create at created
  split at created
  · cases created
  · cases created
    have untouched : (ofStations platform []).Untouched platform := ⟨prepared_ofStations checked, rfl, rfl⟩
    have views := @Untouched.foldl _ _ (platform.cores.zip workloads) untouched ?_ ?_
    · have found : (platform.cores.zip workloads)[index]? = some (core, workload) :=
        List.getElem?_zip_eq_some.mpr ⟨specified, given⟩
      have own := views.1 index (core, workload) found
      rwa [show (ofStations platform []).stations.length + index = index from Nat.zero_add index] at own
    · show 0 + (platform.cores.zip workloads).length ≤ _
      rw [List.length_zip]
      omega
    · intro place entry found
      show entry.1.id = 0 + place
      rw [Nat.zero_add]
      exact checked.numbered place entry.1 (List.getElem?_zip_eq_some.mp found).1

theorem length_of_create {workloads : List Workload} (created : create platform workloads = .ok first) :
    workloads.length = platform.cores.length := by
  unfold create at created
  split at created
  · cases created
  · rename_i equal
    exact Decidable.not_not.mp equal

theorem station_of_create (checked : platform.Sound) {workloads : List Workload}
    (created : create platform workloads = .ok first) (known : index < platform.cores.length) :
    ∃ core workload, platform.cores[index]? = some core ∧ workloads[index]? = some workload ∧
      first.stations[index]? = some ⟨{ Core.ofSpec core workload with nextEdge := some 0 },
        platform.coprocessor.map (.ofSpec core.id)⟩ := by
  have specified := List.getElem?_eq_getElem known
  have given := List.getElem?_eq_getElem (length_of_create created ▸ known)
  obtain ⟨station, found, view⟩ :=
    Option.map_eq_some_iff.mp (view?_of_create checked created specified given)
  obtain rfl : station = _ := congrArg View.station view
  exact ⟨_, _, specified, given, found⟩

theorem Run.view? (prepared : first.Prepared platform) (run : Run first notes sim) {view : View}
    (seen : first.view? index = some view) :
    ∃ later, sim.view? index = some later ∧ View.Leads platform index view later := by
  induction run with
  | start => exact ⟨view, seen, .refl⟩
  | next run stepped ih =>
    obtain ⟨middle, reached, leads⟩ := ih
    obtain ⟨after, next, same | step⟩ := (run.sound prepared).view?_step stepped reached
    · exact ⟨after, next, same ▸ leads⟩
    · rw [run.platform_eq prepared] at step
      exact ⟨after, next, leads.tail step⟩

theorem records_eq (sim : Simulator) {summary : Summary} (ended : sim.summary = some summary) :
    sim.records = sim.stations.foldl (fun sink station => sink.addAll (station.report summary.endTick))
      sim.timeline.sink := by
  unfold records
  rw [ended]
  refine congrArg (List.foldl · _ _) (funext fun sink => funext fun station => ?_)
  exact (List.foldl_append ..).symm

theorem Sound.numbered (sound : sim.Sound notes) : Station.Numbered 0 sim.stations := by
  intro index station found
  have standing := sound.stations index station found
  rw [Nat.zero_add]
  exact ⟨standing.numbered, standing.owned⟩

theorem Sound.report_ending (sound : sim.Sound notes) (elapsed : sim.step? = none) {station : Station}
    (found : sim.stations[index]? = some station) :
    station.report sim.ending.endTick = station.report sim.platform.stop.lastTick := by
  rcases pending_of_elapsed elapsed with ⟨-, drained⟩ | ⟨-, limit, next, rest, stop, pending, -⟩
  · have halted := sound.isHalted_of_drained drained found
    obtain ⟨since, stands⟩ := (sound.stations index station found).stands
    obtain ⟨-, ended, -⟩ := stands.resumes.of_isHalted halted
    unfold Station.report Core.report
    rw [ended]
    rfl
  · unfold ending
    rw [stop, pending]
    rfl

theorem Prepared.exists_view (prepared : first.Prepared platform) {view : View}
    (seen : first.view? index = some view) :
    ∃ last summary ended, first.run = (last, .ok summary) ∧ View.Leads platform index view ended ∧
      ended.next? platform index = none ∧ last.view? index = some ended ∧
      last.records.only index = ended.sink.addAll (ended.station.report platform.stop.lastTick) := by
  obtain ⟨notes, last, reached, elapsed, same⟩ := prepared.exists_run
  obtain ⟨ended, left, leads⟩ := reached.view? prepared seen
  have sound := reached.sound prepared
  have stuck := sound.view_next?_eq_none elapsed left
  obtain ⟨station, found, rfl⟩ := Option.map_eq_some_iff.mp left
  have reported := sound.report_ending elapsed found
  rw [reached.platform_eq prepared] at stuck reported
  refine ⟨_, _, _, same, leads, stuck, left, ?_⟩
  rw [records_eq _ rfl]
  have reports := @Station.only_reports _ last.ending.endTick _ sound.numbered _ _ found
    last.timeline.sink
  rw [Nat.zero_add, reported] at reports
  exact reports

/-- Two runs of one platform with the same workload for some core leave that core, its coprocessor and
    its latencies in the same state, and record the same about them, whatever the other cores do. -/
theorem cores_do_not_interfere {config : Config} {platform : Platform}
    (built : config.build = .ok platform) {left right : List Workload} {first second : Simulator}
    (created : create platform left = .ok first) (also : create platform right = .ok second)
    {index : Nat} {workload : Workload} (given : left[index]? = some workload)
    (same : right[index]? = some workload) :
    ∃ last summary other outcome station, first.run = (last, .ok summary) ∧
      second.run = (other, .ok outcome) ∧
      last.stations[index]? = some station ∧ other.stations[index]? = some station ∧
      last.latency.sources[index]? = other.latency.sources[index]? ∧
      last.records.only index = other.records.only index := by
  have checked := Config.sound_of_build built
  obtain ⟨core, specified⟩ : ∃ core, platform.cores[index]? = some core := by
    obtain ⟨known, -⟩ := List.getElem?_eq_some_iff.mp given
    rw [length_of_create created] at known
    exact ⟨_, List.getElem?_eq_getElem known⟩
  obtain ⟨last, summary, ended, ran, leads, stuck, seen, records⟩ :=
    (prepared_of_create checked created).exists_view (view?_of_create checked created specified given)
  obtain ⟨other, outcome, _, also_ran, also_leads, also_stuck, also_seen, also_records⟩ :=
    (prepared_of_create checked also).exists_view (view?_of_create checked also specified same)
  -- both runs lead the same first view to an end, and a view leads to one end only
  obtain rfl := leads.eq_of_ends also_leads stuck also_stuck
  obtain ⟨station, found, view⟩ := Option.map_eq_some_iff.mp seen
  obtain ⟨standing, also_found, also_view⟩ := Option.map_eq_some_iff.mp also_seen
  have views : last.view index station = other.view index standing := view.trans also_view.symm
  have latency : last.latency.only index = other.latency.only index := congrArg View.latency views
  obtain rfl : station = standing := congrArg View.station views
  refine ⟨last, summary, other, outcome, station, ran, also_ran, found, also_found, ?_,
    records.trans also_records.symm⟩
  rw [← LatencyModel.getElem?_only, latency, LatencyModel.getElem?_only]

def twoCores : Config where
  statisticLevel := 5
  cpu := { cores := 2, machine := "[CORES:RV64I]", memoryCost := some "[CORES:1:4]", coprocessor := true }
  coprocessor := { clock := "700" }

/-- The second core computes, or it loads and offloads; the first core does not notice. -/
theorem first_core_unaffected : ∃ platform first second last summary other outcome,
    twoCores.build = .ok platform ∧ create platform [twoClocksWorkload, .listed [.compute 5]] = .ok first ∧
      create platform [twoClocksWorkload, .listed [.load 8, .offload ⟨1, 9, []⟩, .load 16]] = .ok second ∧
      first.run = (last, .ok summary) ∧ second.run = (other, .ok outcome) ∧
      last.records.only 0 = other.records.only 0 := by
  obtain ⟨platform, built, first, created, second, also, -⟩ : ∃ platform, twoCores.build = .ok platform ∧
      ∃ first, create platform [twoClocksWorkload, .listed [.compute 5]] = .ok first ∧
        ∃ second, create platform [twoClocksWorkload, .listed [.load 8, .offload ⟨1, 9, []⟩, .load 16]] =
          .ok second ∧ True := by
    decide +kernel
  obtain ⟨last, summary, other, outcome, -, ran, also_ran, -, -, -, records⟩ :=
    @cores_do_not_interfere _ _ built _ _ _ _ created also 0 _ rfl rfl
  exact ⟨platform, first, second, last, summary, other, outcome, built, created, also, ran, also_ran,
    records⟩

end Simulator

end CoreTiming
