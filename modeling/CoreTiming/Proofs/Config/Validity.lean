import CoreTiming.Proofs.Config.Readings

namespace CoreTiming

theorem mapM_eq_ok {ε α : Type} {check : α → Except ε α} {items : List α}
    (passes : ∀ item ∈ items, check item = .ok item) : items.mapM check = .ok items := by
  induction items with
  | nil => rfl
  | cons item items ih =>
    rw [List.mapM_cons, passes item (List.mem_cons_self ..),
      ih fun other member => passes other (List.mem_cons_of_mem _ member)]
    rfl

theorem mapM_eq_error {ε α : Type} {check : α → Except ε α} {before after : List α} {item : α} {fault : ε}
    (passes : ∀ earlier ∈ before, check earlier = .ok earlier) (fails : check item = .error fault) :
    (before ++ item :: after).mapM check = .error fault := by
  induction before with
  | nil =>
    rw [List.nil_append, List.mapM_cons, fails]
    rfl
  | cons first before ih =>
    rw [List.cons_append, List.mapM_cons, passes first (List.mem_cons_self ..),
      ih fun other member => passes other (List.mem_cons_of_mem _ member)]
    rfl

namespace CoreSpec

variable {size : Nat} {core : CoreSpec}

structure Fits (size : Nat) (core : CoreSpec) : Prop where
  width : core.startAddress ≤ core.isa.width.maxAddress
  inside : core.startAddress < size
  table : ∀ cells, core.costTable = some cells →
    ∀ cell ∈ cells, core.cost.least ≤ cell ∧ cell ≤ core.cost.most

/-- The first thing that is wrong with a core, and of a table the first value that is. -/
inductive FailsWith (size : Nat) (core : CoreSpec) : ConfigError → Prop
  | tooWide (wide : core.isa.width.maxAddress < core.startAddress) :
      FailsWith size core (.startTooWide core.id core.startAddress core.isa)
  | outside (width : core.startAddress ≤ core.isa.width.maxAddress) (far : size ≤ core.startAddress) :
      FailsWith size core (.startOutsideMemory core.id core.startAddress size)
  | table (width : core.startAddress ≤ core.isa.width.maxAddress) (inside : core.startAddress < size)
      (before after : List Nat) (value : Nat) (listed : core.costTable = some (before ++ value :: after))
      (first : ∀ cell ∈ before, core.cost.least ≤ cell ∧ cell ≤ core.cost.most)
      (wrong : ¬ (core.cost.least ≤ value ∧ value ≤ core.cost.most)) :
      FailsWith size core (.tableOutOfRange core.id value core.cost.least core.cost.most)

theorem checkCore_of_fits (fits : core.Fits size) : Config.checkCore size core = .ok core := by
  have wide : core.isa.fits core.startAddress = true := decide_eq_true fits.width
  have contained : (core.costTable.getD []).find? (!core.cost.contains ·) = none := by
    rw [List.find?_eq_none]
    intro cell member outside
    cases listed : core.costTable with
    | none => simp [listed] at member
    | some cells =>
      rw [listed] at member
      have within := LatencyRange.contains_iff.mpr (fits.table cells listed cell member)
      simp [within] at outside
  unfold Config.checkCore
  rw [wide, contained, if_neg (by simp), if_neg (Nat.not_le.mpr fits.inside)]

theorem fits_of_checkCore {result : CoreSpec} (checked : Config.checkCore size core = .ok result) :
    result = core ∧ core.Fits size := by
  obtain ⟨same, wide, inside, contained⟩ := Config.eq_of_checkCore checked
  refine ⟨same, of_decide_eq_true wide, inside, fun cells listed cell member => ?_⟩
  rw [listed] at contained
  exact LatencyRange.contains_iff.mp (contained cell member)

theorem checkCore_of_failsWith {error : ConfigError} (fails : core.FailsWith size error) :
    Config.checkCore size core = .error error := by
  unfold Config.checkCore
  cases fails with
  | tooWide wide =>
    have unfit : core.isa.fits core.startAddress = false := decide_eq_false (Nat.not_le.mpr wide)
    rw [unfit, Bool.not_false, if_pos rfl]
  | outside width far =>
    have wide : core.isa.fits core.startAddress = true := decide_eq_true width
    rw [wide, Bool.not_true, if_neg Bool.false_ne_true, if_pos far]
  | table width inside before after value listed first wrong =>
    have wide : core.isa.fits core.startAddress = true := decide_eq_true width
    have found : (core.costTable.getD []).find? (!core.cost.contains ·) = some value := by
      rw [listed, Option.getD_some, List.find?_append, List.find?_eq_none.mpr]
      · have outside : core.cost.contains value = false := by
          rw [← Bool.not_eq_true, LatencyRange.contains_iff]
          exact wrong
        simp [outside]
      · intro cell member
        simp [LatencyRange.contains_iff.mpr (first cell member)]
    rw [wide, Bool.not_true, if_neg Bool.false_ne_true, if_neg (Nat.not_le.mpr inside), found]

theorem exists_failsWith (unfit : ¬ core.Fits size) : ∃ error, core.FailsWith size error := by
  by_cases width : core.startAddress ≤ core.isa.width.maxAddress
  · by_cases inside : core.startAddress < size
    · cases listed : core.costTable with
      | none => exact absurd ⟨width, inside, fun cells same => by cases listed.symm.trans same⟩ unfit
      | some cells =>
        cases found : cells.find? (!core.cost.contains ·) with
        | none =>
          refine absurd ⟨width, inside, fun other same cell member => ?_⟩ unfit
          cases listed.symm.trans same
          have within := List.find?_eq_none.mp found cell member
          exact LatencyRange.contains_iff.mp (by simpa using within)
        | some value =>
          obtain ⟨wrong, before, after, rfl, first⟩ := List.find?_eq_some_iff_append.mp found
          refine ⟨_, .table width inside before after value listed ?_ ?_⟩
          · intro cell member
            exact LatencyRange.contains_iff.mp (by simpa using first cell member)
          · rw [← LatencyRange.contains_iff]
            simpa using wrong
    · exact ⟨_, .outside width (Nat.not_lt.mp inside)⟩
  · exact ⟨_, .tooWide (Nat.not_le.mp width)⟩

end CoreSpec

/-- What has been read makes sense as a whole. -/
structure Reading.Suits (config : Config) (reading : Reading) : Prop where
  cores : 1 ≤ config.cpu.cores
  memory : 1 ≤ config.cpu.memorySize
  fits : ∀ index core, reading.core? config index = some core → core.Fits config.cpu.memorySize
  coprocessor : config.cpu.coprocessor = true → config.coprocessor.Valid

structure CoreSpec.Valid (size index : Nat) (core : CoreSpec) : Prop extends core.Fits size where
  numbered : core.id = index
  positive : 1 ≤ core.cost.least
  ordered : core.cost.least ≤ core.cost.most
  nonempty : core.costTable ≠ some []
  period : 1 ≤ core.clock.period

structure CoprocessorSpec.Valid (spec : CoprocessorSpec) : Prop where
  period : 1 ≤ spec.clock.period
  queue : 1 ≤ spec.queueDepth
  width : 1 ≤ spec.issueWidth
  single : spec.issue = .single → spec.issueWidth = 1

/-- What a platform promises to a simulation. -/
structure Platform.Valid (config : Config) (platform : Platform) : Prop where
  count : platform.cores.length = config.cpu.cores
  some_core : 1 ≤ platform.cores.length
  some_memory : 1 ≤ platform.memorySize
  cores : ∀ (index : Nat) (core : CoreSpec), platform.cores[index]? = some core →
    core.Valid platform.memorySize index
  stop : platform.stop ≠ .atTick 0
  attached : platform.coprocessor.isSome = config.cpu.coprocessor
  coprocessor : ∀ spec, platform.coprocessor = some spec → spec.Valid

namespace Config

variable {config : Config} {reading : Reading} {platform : Platform}

theorem build_of_suits (reads : config.Reads reading) (suits : reading.Suits config) :
    ∃ platform, config.build = .ok platform ∧
      ∀ index, platform.cores[index]? = reading.core? config index := by
  have checked : (reading.cores config).mapM (checkCore config.cpu.memorySize) =
      .ok (reading.cores config) := by
    apply mapM_eq_ok
    intro core member
    obtain ⟨index, found⟩ := List.mem_iff_getElem?.mp member
    rw [Reading.getElem?_cores] at found
    exact CoreSpec.checkCore_of_fits (suits.fits index core found)
  rw [build_of_reads reads suits.cores suits.memory, checked]
  simp only [bind, Except.bind]
  by_cases enabled : config.cpu.coprocessor = true
  · have made := buildCoprocessor_eq_ok_iff.mpr
      ⟨suits.coprocessor enabled, _, reads.coprocessor enabled, rfl⟩
    rw [if_pos enabled, made]
    exact ⟨_, rfl, Reading.getElem?_cores⟩
  · rw [if_neg enabled]
    exact ⟨_, rfl, Reading.getElem?_cores⟩

theorem build_of_failsWith (reads : config.Reads reading) (cores : 1 ≤ config.cpu.cores)
    (memory : 1 ≤ config.cpu.memorySize) {index : Nat} {core : CoreSpec} {error : ConfigError}
    (found : reading.core? config index = some core)
    (fails : core.FailsWith config.cpu.memorySize error)
    (lowest : ∀ earlier < index, ∀ other, reading.core? config earlier = some other →
      other.Fits config.cpu.memorySize) : config.build = .error error := by
  rw [← Reading.getElem?_cores] at found
  obtain ⟨known, same⟩ := List.getElem?_eq_some_iff.mp found
  have split : reading.cores config =
      (reading.cores config).take index ++ core :: (reading.cores config).drop (index + 1) := by
    rw [← same, List.getElem_cons_drop, List.take_append_drop]
  have failed : (reading.cores config).mapM (checkCore config.cpu.memorySize) = .error error := by
    rw [split]
    refine mapM_eq_error ?_ (CoreSpec.checkCore_of_failsWith fails)
    intro other member
    obtain ⟨earlier, taken⟩ := List.mem_iff_getElem?.mp member
    rw [List.getElem?_take] at taken
    split at taken
    · rename_i less
      rw [Reading.getElem?_cores] at taken
      exact CoreSpec.checkCore_of_fits (lowest earlier less other taken)
    · cases taken
  rw [build_of_reads reads cores memory, failed]
  rfl

theorem valid_of_buildCoprocessor {settings : CoprocessorSettings} {timebase : Float}
    {spec : CoprocessorSpec} (made : buildCoprocessor settings timebase = .ok spec) : spec.Valid := by
  obtain ⟨valid, period, -, rfl⟩ := buildCoprocessor_eq_ok_iff.mp made
  refine ⟨Clock.period_pos _, valid.queue, ?_, fun single => if_pos single⟩
  cases issue : settings.issue with
  | single => simp
  | multi => exact valid.width issue

theorem reads_of_build (built : config.build = .ok platform) : ∃ reading, config.Reads reading ∧
    reading.Suits config ∧ platform.cores = reading.cores config ∧
      platform.memorySize = config.cpu.memorySize ∧ platform.stop = stopCondition reading.stop ∧
        platform.coprocessor.isSome = config.cpu.coprocessor ∧
          ∀ spec, platform.coprocessor = some spec → spec.Valid := by
  obtain ⟨reading, reads, cores, memory⟩ := exists_reads_of_build built
  rw [build_of_reads reads cores memory] at built
  obtain ⟨specs, checked, built⟩ := exists_of_bind_eq_ok built
  obtain ⟨rfl, fits⟩ := eq_of_mapM_eq_ok (fun _ _ => CoreSpec.fits_of_checkCore) checked
  have each : ∀ index core, reading.core? config index = some core →
      core.Fits config.cpu.memorySize := by
    intro index core found
    rw [← Reading.getElem?_cores] at found
    exact fits core (List.mem_of_getElem? found)
  refine ⟨reading, reads, ?_⟩
  by_cases enabled : config.cpu.coprocessor = true
  · rw [if_pos enabled] at built
    obtain ⟨coprocessor, mapped, same⟩ := exists_of_bind_eq_ok built
    obtain ⟨spec, made, rfl⟩ := exists_of_map_eq_ok mapped
    cases same
    refine ⟨⟨cores, memory, each, fun _ => (buildCoprocessor_eq_ok_iff.mp made).1⟩, rfl, rfl, rfl, ?_, ?_⟩
    · exact enabled.symm
    · intro other same
      cases same
      exact valid_of_buildCoprocessor made
  · rw [if_neg enabled] at built
    cases built
    refine ⟨⟨cores, memory, each, fun present => absurd present enabled⟩, rfl, rfl, rfl, ?_, ?_⟩
    · exact (Bool.eq_false_iff.mpr enabled).symm
    · intro other same
      cases same

theorem valid_of_build (built : config.build = .ok platform) : platform.Valid config := by
  obtain ⟨reading, reads, suits, cores, memory, stop, attached, coprocessor⟩ := reads_of_build built
  obtain ⟨clock, listed⟩ := exists_buildCores built
  have count : platform.cores.length = config.cpu.cores := cores ▸ Reading.length_cores reads
  refine ⟨count, count ▸ suits.cores, memory ▸ suits.memory, ?_, ?_, attached, coprocessor⟩
  · intro index core found
    obtain ⟨numbered, -, ⟨selection, cost⟩, table, -⟩ := getElem?_buildCores listed found
    obtain ⟨-, positive, ordered⟩ := readRange_of_readCost cost
    have fits := suits.fits index core (by rw [← Reading.getElem?_cores, ← cores, found])
    rw [memory]
    refine ⟨fits, numbered, positive, ordered, ?_, core.clock.period_pos⟩
    rcases table with none | ⟨entry, given⟩
    · simp [none]
    · exact ne_nil_of_readTable given
  · rw [stop]
    unfold stopCondition
    split
    · nofun
    · rename_i later
      intro same
      exact later (StopCondition.atTick.inj same)

/-- A configuration gives a platform exactly if it can be read and makes sense, and the platform keeps
    what the simulation relies on. If only cores are at fault, the error is the first one of the lowest of
    them. -/
theorem build_decides (config : Config) :
    (∀ platform, config.build = .ok platform → platform.Valid config ∧
      ∃ reading, config.Reads reading ∧ reading.Suits config ∧
        ∀ index, platform.cores[index]? = reading.core? config index) ∧
    (∀ reading, config.Reads reading → reading.Suits config → ∃ platform, config.build = .ok platform) ∧
    ∀ reading, config.Reads reading → 1 ≤ config.cpu.cores → 1 ≤ config.cpu.memorySize →
      ∀ index core, reading.core? config index = some core → ¬ core.Fits config.cpu.memorySize →
        (∀ earlier < index, ∀ other, reading.core? config earlier = some other →
          other.Fits config.cpu.memorySize) →
        ∃ error, core.FailsWith config.cpu.memorySize error ∧ config.build = .error error := by
  refine ⟨?_, ?_, ?_⟩
  · intro platform built
    obtain ⟨reading, reads, suits, cores, -⟩ := reads_of_build built
    refine ⟨valid_of_build built, reading, reads, suits, fun index => ?_⟩
    rw [cores, Reading.getElem?_cores]
  · intro reading reads suits
    obtain ⟨platform, built, -⟩ := build_of_suits reads suits
    exact ⟨platform, built⟩
  · intro reading reads cores memory index core found unfit lowest
    obtain ⟨error, fails⟩ := CoreSpec.exists_failsWith unfit
    exact ⟨error, fails, build_of_failsWith reads cores memory found fails lowest⟩

def twoStarts (second : String) : Config where
  cpu := {
    cores := 2
    startAddress := "[0:0,1:" ++ second ++ "]"
    machine := "[CORES:RV64I]"
    memoryCost := some "[CORES:1:4]" }

theorem exists_build_twoStarts : ∃ platform, (twoStarts "0x1000").build = .ok platform := by
  have accepted : (twoStarts "0x1000").build.isOk = true := by decide +kernel
  cases built : (twoStarts "0x1000").build with
  | error fault =>
    rw [built] at accepted
    cases accepted
  | ok platform => exact ⟨platform, rfl⟩

theorem exists_reads_twoStarts : ∃ reading core, (twoStarts "0x50000000").Reads reading ∧
    reading.core? (twoStarts "0x50000000") 1 = some core ∧
    core.FailsWith 0x40000000 (.startOutsideMemory 1 0x50000000 0x40000000) ∧
    ∀ earlier < 1, ∀ other, reading.core? (twoStarts "0x50000000") earlier = some other →
      other.Fits 0x40000000 := by
  obtain ⟨platform, built⟩ := exists_build_twoStarts
  obtain ⟨reading, reads, -⟩ := exists_reads_of_build built
  have starts : PerCore.read "startAddr" (twoStarts "0x50000000").cpu.startAddress 2 1 readStart =
      .ok [0, 0x50000000] := by decide +kernel
  obtain ⟨isas, costs, tables⟩ : reading.isas = [⟨.w64, { i := true }⟩, ⟨.w64, { i := true }⟩] ∧
      reading.costs = [⟨1, 4⟩, ⟨1, 4⟩] ∧ reading.tables = [none, none] := by
    obtain ⟨isas, -, ⟨_, given, costs, -⟩, tables⟩ := reads.lists
    cases given
    have known : PerCore.read "machine" "[CORES:RV64I]" 2 1 readIsa =
      .ok [⟨.w64, { i := true }⟩, ⟨.w64, { i := true }⟩] := by decide +kernel
    have paid : PerCore.read "memCost" "[CORES:1:4]" 2 2 readRange = .ok [⟨1, 4⟩, ⟨1, 4⟩] := by
      decide +kernel
    exact ⟨Except.ok.inj (isas.symm.trans known), Except.ok.inj (costs.symm.trans paid), tables⟩
  let core : CoreSpec := {
    id := 1
    isa := ⟨.w64, { i := true }⟩
    startAddress := 0x50000000
    cost := ⟨1, 4⟩
    costTable := none
    clock := .ofPeriod reading.period
    verbose := 0
    faultPolicy := .halt }
  refine ⟨{ reading with starts := [0, 0x50000000] }, core,
    { reads with lists := { reads.lists with starts := starts } }, ?_, ?_, ?_⟩
  · simp only [Reading.core?, isas, costs, tables]
    rfl
  · exact .outside (show 0x50000000 ≤ Width.w64.maxAddress by decide) (show 0x40000000 ≤ 0x50000000 by decide)
  · intro earlier less other found
    obtain rfl : earlier = 0 := by omega
    simp only [Reading.core?, isas, costs, tables] at found
    cases found
    exact ⟨Nat.zero_le _, show 0 < 0x40000000 by decide, fun cells listed => by cases listed⟩

theorem second_start_decides :
    (∃ platform, (twoStarts "0x1000").build = .ok platform ∧ platform.Valid (twoStarts "0x1000")) ∧
      (twoStarts "0x50000000").build = .error (.startOutsideMemory 1 0x50000000 0x40000000) := by
  obtain ⟨platform, built⟩ := exists_build_twoStarts
  obtain ⟨valid, -⟩ := (build_decides (twoStarts "0x1000")).1 platform built
  refine ⟨⟨platform, built, valid⟩, ?_⟩
  obtain ⟨reading, core, reads, second, outside, first⟩ := exists_reads_twoStarts
  have unfit : ¬ core.Fits 0x40000000 := fun fits =>
    nomatch (CoreSpec.checkCore_of_fits fits).symm.trans (CoreSpec.checkCore_of_failsWith outside)
  obtain ⟨error, fails, failed⟩ := (build_decides (twoStarts "0x50000000")).2.2 reading reads (by decide)
    (by decide) 1 core second unfit first
  have same := (CoreSpec.checkCore_of_failsWith fails).symm.trans (CoreSpec.checkCore_of_failsWith outside)
  rw [failed, Except.error.inj same]

end Config

end CoreTiming
