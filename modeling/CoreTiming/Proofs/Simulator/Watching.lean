import CoreTiming.Proofs.Config.Cores
import CoreTiming.Proofs.Simulator.Guise

namespace CoreTiming

def Core.unwatched (core : Core) : Core :=
  { core with verbose := 0 }

def Coprocessor.unwatched (unit : Coprocessor) : Coprocessor :=
  { unit with verbose := 0 }

def Station.unwatched (station : Station) : Station :=
  ⟨station.core.unwatched, station.coprocessor.map Coprocessor.unwatched⟩

def CoreSpec.unwatched (spec : CoreSpec) : CoreSpec :=
  { spec with verbose := 0 }

def CoprocessorSpec.unwatched (spec : CoprocessorSpec) : CoprocessorSpec :=
  { spec with verbose := 0 }

def Platform.unwatched (platform : Platform) : Platform :=
  { platform with
    statisticLevel := 0
    cores := platform.cores.map CoreSpec.unwatched
    coprocessor := platform.coprocessor.map CoprocessorSpec.unwatched }

namespace Guise

def watching (platform : Platform) : Guise where
  timebase := platform.timebase
  factor := 1
  factor_pos := Nat.one_pos
  statisticLevel := platform.statisticLevel
  coreVerbosity := fun id _ => (platform.cores[id]?.map CoreSpec.verbose).getD 0
  unitVerbosity := fun _ => (platform.coprocessor.map CoprocessorSpec.verbose).getD 0

variable (platform : Platform)

@[simp] theorem tick_watching : (watching platform).tick = id :=
  funext Nat.one_mul

@[simp] theorem clock_watching (clock : Clock) : (watching platform).clock clock = clock := by
  cases clock
  simp only [Guise.clock, watching, Nat.one_mul]

@[simp] theorem stop_watching (stop : StopCondition) : (watching platform).stop stop = stop := by
  cases stop <;> simp [Guise.stop]

@[simp] theorem event_watching (event : Event) : (watching platform).event event = event := by
  cases event <;> simp [Guise.event]

@[simp] theorem pending_watching : (watching platform).pending = id := by
  funext pending
  simp [Guise.pending]

@[simp] theorem queue_watching (queue : Queue) : (watching platform).queue queue = queue := by
  simp [Guise.queue]

@[simp] theorem summary_watching : (watching platform).summary = id := by
  funext summary
  simp [Guise.summary]

@[simp] theorem record_watching : (watching platform).record = id := by
  funext record
  simp [Guise.record]

@[simp] theorem job_watching : (watching platform).job = id := by
  funext job
  simp [Guise.job]

@[simp] theorem result_watching : (watching platform).result = id := by
  funext result
  simp [Guise.result]

theorem unwatched_core (core : Core) : ((watching platform).core core).unwatched = core.unwatched := by
  simp [Guise.core, Core.unwatched]

theorem unwatched_unit (unit : Coprocessor) :
    ((watching platform).unit unit).unwatched = unit.unwatched := by
  simp [Guise.unit, Coprocessor.unwatched]

theorem unwatched_station (station : Station) :
    ((watching platform).station station).unwatched = station.unwatched := by
  unfold Guise.station Station.unwatched
  simp only [unwatched_core, Option.map_map]
  cases station.coprocessor with
  | none => rfl
  | some unit => exact congrArg (Station.mk _ ∘ some) (unwatched_unit platform unit)

variable {platform}

theorem coreSpec_watching {spec shown : CoreSpec} (found : platform.cores[spec.id]? = some shown)
    (same : spec.unwatched = shown.unwatched) : (watching platform).coreSpec spec = shown := by
  unfold Guise.coreSpec
  rw [clock_watching, show (watching platform).coreVerbosity spec.id spec.verbose = shown.verbose by
    simp [watching, found]]
  obtain ⟨⟩ := spec
  obtain ⟨⟩ := shown
  simpa [CoreSpec.unwatched] using same

theorem unitSpec_watching {spec shown : CoprocessorSpec} (found : platform.coprocessor = some shown)
    (same : spec.unwatched = shown.unwatched) : (watching platform).unitSpec spec = shown := by
  unfold Guise.unitSpec
  rw [clock_watching, show (watching platform).unitVerbosity spec.verbose = shown.verbose by
    simp [watching, found]]
  obtain ⟨⟩ := spec
  obtain ⟨⟩ := shown
  simpa [CoprocessorSpec.unwatched] using same

theorem platform_watching {watched : Platform} (sound : platform.Sound)
    (same : platform.unwatched = watched.unwatched) : (watching watched).platform platform = watched := by
  have listed : platform.cores.map (watching watched).coreSpec = watched.cores := by
    apply List.ext_getElem?
    intro index
    have entry := congrArg (·[index]?) (congrArg Platform.cores same)
    simp only [Platform.unwatched, List.getElem?_map] at entry ⊢
    cases found : platform.cores[index]? with
    | none =>
      rw [found] at entry
      exact (Option.map_eq_none_iff.mp entry.symm).symm
    | some core =>
      rw [found] at entry
      obtain ⟨shown, also, unwatched⟩ := Option.map_eq_some_iff.mp entry.symm
      have number := sound.numbered index core found
      rw [also]
      exact congrArg some (coreSpec_watching (number ▸ also) unwatched.symm)
  have attached : platform.coprocessor.map (watching watched).unitSpec = watched.coprocessor := by
    have lent := congrArg Platform.coprocessor same
    simp only [Platform.unwatched] at lent
    cases found : platform.coprocessor with
    | none =>
      rw [found] at lent
      exact (Option.map_eq_none_iff.mp lent.symm).symm
    | some spec =>
      rw [found] at lent
      obtain ⟨shown, also, unwatched⟩ := Option.map_eq_some_iff.mp lent.symm
      rw [also]
      exact congrArg some (unitSpec_watching also unwatched.symm)
  unfold Guise.platform
  rw [listed, attached, stop_watching]
  obtain ⟨⟩ := platform
  obtain ⟨⟩ := watched
  simp only [Platform.unwatched, Platform.mk.injEq] at same
  obtain ⟨-, rfl, -, rfl, rfl, -⟩ := same
  rfl

end Guise

namespace Simulator

/-- The other simulator is in the same state, and its records up to `level` are those of the first one. -/
structure Watched (level : Nat) (sim other : Simulator) : Prop where
  queue : other.timeline.queue = sim.timeline.queue
  latency : other.latency = sim.latency
  stations : other.stations.map Station.unwatched = sim.stations.map Station.unwatched
  summary : other.summary = sim.summary
  records : sim.timeline.sink.records.toList =
    other.timeline.sink.records.toList.filter (·.statistic.level ≤ level)

variable {platform watched : Platform} {first second : Simulator}

theorem watched_of_resembles (order : platform.statisticLevel ≤ watched.statisticLevel) {sim other : Simulator}
    (resembles : (Guise.watching watched).Resembles platform sim other) :
    Watched platform.statisticLevel sim other where
  queue := by simpa using resembles.queue
  latency := resembles.latency
  stations := by
    rw [resembles.stations, List.map_map]
    exact List.map_congr_left fun station _ => Guise.unwatched_station watched station
  summary := by simpa using resembles.summary
  records := by simpa using resembles.gathers.filter order

/-- The level of statistics and the verbosities have no influence on a run. With others the same events
    are dispatched and lead to the same states and to the same end, and a lower level leaves out the
    records above it. -/
theorem watching_changes_nothing {config : Config} (built : config.build = .ok platform)
    (same : platform.unwatched = watched.unwatched)
    (order : platform.statisticLevel ≤ watched.statisticLevel) {workloads : List Workload}
    (created : create platform workloads = .ok first) (also : create watched workloads = .ok second) :
    (∀ events, second.history events = first.history events ∧
      Watched platform.statisticLevel (first.states events).2 (second.states events).2) ∧
    ∃ last final summary, first.run = (last, .ok summary) ∧ second.run = (final, .ok summary) ∧
      Watched platform.statisticLevel last final ∧ last.records.records.toList =
        final.records.records.toList.filter (·.statistic.level ≤ platform.statisticLevel) := by
  have sound := Config.sound_of_build built
  have shown := Guise.platform_watching sound same
  have resembles := @Guise.resembles_of_create (.watching watched) platform first second workloads created
    (shown.symm ▸ also)
  have admits : ∀ events, (Guise.watching watched).Admits (second.states events).2 :=
    fun _ => ⟨fun _ _ => .inl rfl, fun _ _ _ _ _ _ => .inl rfl⟩
  refine ⟨fun events => ?_, ?_⟩
  · obtain ⟨states, histories⟩ := Guise.resembles_states resembles admits events
    exact ⟨by simpa using histories, watched_of_resembles order states⟩
  · obtain ⟨ended, outcome⟩ := Guise.run_resembles resembles admits
    obtain ⟨last, summary, ran, -⟩ :=
      (prepared_of_create sound created).run_eq (potential_le_of_create created).1
    rw [ran] at ended outcome
    refine ⟨_, second.run.1, summary, ran, Prod.ext rfl ?_, watched_of_resembles order ended, ?_⟩
    · simpa [Except.map] using outcome
    · simpa using (ended.records rfl).filter order

def twoClocksWatched : Config :=
  { twoClocks with
    statisticLevel := 5
    cpu := { twoClocks.cpu with verbose := 2 }
    coprocessor := { twoClocks.coprocessor with verbose := 4 } }

theorem unwatched_twoClocksWatched :
    twoClocksWatched.build.map Platform.unwatched = twoClocks.build.map Platform.unwatched := by
  rfl

/-- Before its end a run records nothing but samples, which only the highest level keeps: here how long the
    offload has executed and how long it has taken. -/
theorem watched_twoClocks : ∃ platform watched first second last final summary,
    twoClocks.build = .ok platform ∧ twoClocksWatched.build = .ok watched ∧
      create platform [twoClocksWorkload] = .ok first ∧ create watched [twoClocksWorkload] = .ok second ∧
      (first.states 6).2.timeline.sink.records.size = 0 ∧
      (second.states 6).2.timeline.sink.records.size = 2 ∧
      first.run = (last, .ok summary) ∧ second.run = (final, .ok summary) ∧ last.records.records.toList =
        final.records.records.toList.filter (·.statistic.level ≤ 1) := by
  obtain ⟨platform, built, level, watched, also_built, other, first, created, none_kept, second, also, kept⟩ :
      ∃ platform, twoClocks.build = .ok platform ∧ platform.statisticLevel = 1 ∧
        ∃ watched, twoClocksWatched.build = .ok watched ∧ watched.statisticLevel = 5 ∧
        ∃ first, create platform [twoClocksWorkload] = .ok first ∧
          (first.states 6).2.timeline.sink.records.size = 0 ∧
          ∃ second, create watched [twoClocksWorkload] = .ok second ∧
            (second.states 6).2.timeline.sink.records.size = 2 := by
    decide +kernel
  have same : platform.unwatched = watched.unwatched := by
    have mapped := unwatched_twoClocksWatched
    rw [built, also_built] at mapped
    exact (Except.ok.inj mapped).symm
  obtain ⟨-, last, final, summary, ran, also_ran, -, records⟩ := watching_changes_nothing built same
    (by rw [level, other]; decide) created also
  rw [level] at records
  exact ⟨platform, watched, first, second, last, final, summary, built, also_built, created, also, none_kept,
    kept, ran, also_ran, records⟩

end Simulator

end CoreTiming
