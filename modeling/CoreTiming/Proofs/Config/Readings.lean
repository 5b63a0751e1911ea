import CoreTiming.Proofs.Memory.Range

namespace CoreTiming

theorem exists_of_map_eq_ok {ε α β : Type} {result : Except ε α} {next : α → β} {value : β}
    (mapped : next <$> result = .ok value) : ∃ middle, result = .ok middle ∧ value = next middle := by
  cases result with
  | error fault => cases mapped
  | ok middle =>
    cases mapped
    exact ⟨middle, rfl, rfl⟩

namespace PerCore

variable {α : Type} {setting raw : String} {cores fields : Nat} {reader : Selection → Except ConfigError α}

theorem exists_of_assign {ι : Type} {writer : ι → Except ConfigError (Nat × α)} {items : List ι}
    {table after : Array (Option α)} (assigned : assign writer table items = .ok after) :
    after.size = table.size ∧ ∀ item ∈ items, ∃ entry, writer item = .ok entry := by
  induction items generalizing table with
  | nil =>
    cases assigned
    simp
  | cons item items ih =>
    obtain ⟨entry, written, assigned⟩ := exists_of_bind_eq_ok assigned
    obtain ⟨size, others⟩ := ih assigned
    rw [Array.size_setIfInBounds] at size
    refine ⟨size, ?_⟩
    intro other member
    rcases List.mem_cons.mp member with rfl | member
    · exact ⟨entry, written⟩
    · exact others other member

theorem lookup_assign {ι : Type} {writer : ι → Except ConfigError (Nat × α)} {items : List ι}
    {table after : Array (Option α)} (assigned : assign writer table items = .ok after) :
    ∃ entries, items.mapM writer = .ok entries ∧ ∀ index old, table.toList[index]? = some old →
      after.toList[index]? = some ((entries.reverse.lookup index).or old) := by
  induction items generalizing table with
  | nil =>
    cases assigned
    exact ⟨[], rfl, fun index old found => found⟩
  | cons item items ih =>
    obtain ⟨⟨core, value⟩, written, assigned⟩ := exists_of_bind_eq_ok assigned
    obtain ⟨entries, others, looked⟩ := ih assigned
    refine ⟨(core, value) :: entries, ?_, ?_⟩
    · rw [List.mapM_cons, written]
      show (items.mapM writer >>= fun others => .ok ((core, value) :: others)) = _
      rw [others]
      rfl
    · intro index old found
      rw [List.reverse_cons, List.lookup_append, Option.or_assoc]
      apply looked
      obtain ⟨inside, rfl⟩ := List.getElem?_eq_some_iff.mp found
      rw [Array.toList_setIfInBounds, List.getElem?_set]
      by_cases same : core = index
      · subst same
        rw [if_pos rfl, if_pos inside]
        simp
      · rw [if_neg same, found]
        have other : (index == core) = false := by simpa using fun equal => same equal.symm
        simp [List.lookup_cons, other]

theorem length_of_read {values : List α} (done : read setting raw cores fields reader = .ok values) :
    values.length = cores ∧ ∀ selection ∈ (selections setting raw cores fields).1,
      ∃ value, reader selection = .ok value := by
  unfold read at done
  obtain ⟨table, assigned, done⟩ := exists_of_bind_eq_ok done
  obtain ⟨size, written⟩ := exists_of_assign assigned
  split at done
  · cases done
  · refine ⟨?_, ?_⟩
    · rw [← Array.length_toList, eq_map_some_of_complete done, List.length_map] at size
      rw [size, Array.size_replicate]
    · intro selection member
      obtain ⟨entry, given⟩ := written selection member
      obtain ⟨value, found, -⟩ := exists_of_bind_eq_ok given
      exact ⟨value, found⟩

def write (reader : Selection → Except ConfigError α) (selection : Selection) :
    Except ConfigError (Nat × α) := do
  return (selection.core, ← reader selection)

theorem mem_attempted_cons_self (selection : Selection) (rest : List Selection) :
    selection ∈ attempted reader (selection :: rest) := by
  rw [attempted]
  cases reader selection <;> simp

theorem attempted_sublist (selections : List Selection) : (attempted reader selections).Sublist selections := by
  induction selections with
  | nil => exact .slnil
  | cons selection rest ih =>
    rw [attempted]
    cases reader selection with
    | error fault => exact (List.nil_sublist rest).cons_cons selection
    | ok value => exact ih.cons_cons selection

theorem assign_congr {other : Selection → Except ConfigError α} {selections : List Selection}
    (same : ∀ selection ∈ attempted reader selections, other selection = reader selection)
    (table : Array (Option α)) :
    assign (write other) table selections = assign (write reader) table selections := by
  induction selections generalizing table with
  | nil => rfl
  | cons first rest ih =>
    rw [assign, assign, write, write, same first (mem_attempted_cons_self first rest)]
    cases read : reader first with
    | error fault => rfl
    | ok value =>
      refine ih (fun selection member => same selection ?_) _
      rw [attempted, read]
      exact List.mem_cons_of_mem _ member

/-- What the reader is called with, in this order. -/
def calls (setting raw : String) (cores fields : Nat) (reader : Selection → Except ConfigError α) :
    List Selection :=
  attempted reader (selections setting raw cores fields).1

theorem mem_selections_of_mem_calls {selection : Selection}
    (called : selection ∈ calls setting raw cores fields reader) :
    selection ∈ (selections setting raw cores fields).1 :=
  (attempted_sublist _).subset called

theorem read_congr {other : Selection → Except ConfigError α}
    (same : ∀ selection ∈ calls setting raw cores fields reader, other selection = reader selection) :
    read setting raw cores fields other = read setting raw cores fields reader := by
  have same : ∀ table, assign (write other) table (selections setting raw cores fields).1 =
      assign (write reader) table (selections setting raw cores fields).1 := assign_congr same
  unfold write at same
  unfold read
  simp only [same]

end PerCore

namespace Config

def readRange (selection : Selection) : Except ConfigError LatencyRange := do
  let least ← readUnsigned "memCost" (selection.fields.headD "")
  let most ← readUnsigned "memCost" (selection.fields.getD 1 "")
  return ⟨least, most⟩

variable {selection : Selection} {range : LatencyRange}

theorem readRange_of_readCost (done : readCost selection = .ok range) :
    readRange selection = .ok range ∧ 1 ≤ range.least ∧ range.least ≤ range.most := by
  obtain ⟨least, first, done⟩ := exists_of_bind_eq_ok done
  obtain ⟨most, second, checked⟩ := exists_of_bind_eq_ok done
  obtain ⟨rfl, valid⟩ := LatencyRange.check_eq_ok_iff.mp checked
  refine ⟨?_, valid⟩
  unfold readRange
  rw [first, second]
  rfl

theorem readCost_of_readRange (done : readRange selection = .ok range)
    (valid : 1 ≤ range.least ∧ range.least ≤ range.most) : readCost selection = .ok range := by
  obtain ⟨least, first, done⟩ := exists_of_bind_eq_ok done
  obtain ⟨most, second, same⟩ := exists_of_bind_eq_ok done
  cases same
  unfold readCost
  rw [first, second]
  exact LatencyRange.check_eq_ok_iff.mpr ⟨rfl, valid⟩

end Config

/-- A coprocessor has room for one offload, and a slot; the setting for its slots counts only where it can
    issue several. -/
structure CoprocessorSettings.Valid (settings : CoprocessorSettings) : Prop where
  queue : 1 ≤ settings.queueDepth
  width : settings.issue = .multi → 1 ≤ settings.issueWidth

/-- The lists with a value for each core can be read, and every range among them is one, also where a
    later entry takes its place. -/
structure CpuSettings.Lists (cpu : CpuSettings) (isas : List Isa) (starts : List Nat)
    (costs : List LatencyRange) (tables : List (Option (List Nat))) : Prop where
  isas : PerCore.read "machine" cpu.machine cpu.cores 1 Config.readIsa = .ok isas
  starts : PerCore.read "startAddr" cpu.startAddress cpu.cores 1 Config.readStart = .ok starts
  costs : ∃ raw, cpu.memoryCost = some raw ∧
    PerCore.read "memCost" raw cpu.cores 2 Config.readRange = .ok costs ∧
    ∀ selection ∈ (PerCore.selections "memCost" raw cpu.cores 2).1, ∀ range,
      Config.readRange selection = .ok range → 1 ≤ range.least ∧ range.least ≤ range.most
  tables : match cpu.memoryCostTable with
    | none => tables = List.replicate cpu.cores none
    | some raw => PerCore.read "memCostTable" raw cpu.cores 1 Config.readTable = .ok tables

structure Reading where
  timebase : Float
  stop : Nat
  period : Nat
  isas : List Isa
  starts : List Nat
  costs : List LatencyRange
  tables : List (Option (List Nat))
  coprocessorPeriod : Nat

namespace Config

structure Reads (config : Config) (reading : Reading) : Prop where
  timebase : parseTimebase config.options.timebase = .ok reading.timebase
  stop : parseTime config.options.stopAtCycle reading.timebase = .ok reading.stop
  clock : parsePeriod config.cpu.clock reading.timebase = .ok reading.period
  lists : config.cpu.Lists reading.isas reading.starts reading.costs reading.tables
  coprocessor : config.cpu.coprocessor = true →
    parsePeriod config.coprocessor.clock reading.timebase = .ok reading.coprocessorPeriod

end Config

def Reading.core? (config : Config) (reading : Reading) (index : Nat) : Option CoreSpec := do
  return {
    id := index
    isa := ← reading.isas[index]?
    startAddress := ← reading.starts[index]?
    cost := ← reading.costs[index]?
    costTable := ← reading.tables[index]?
    clock := .ofPeriod reading.period
    verbose := config.cpu.verbose
    faultPolicy := config.cpu.faultPolicy }

def Reading.cores (config : Config) (reading : Reading) : List CoreSpec :=
  Config.assemble config.cpu (.ofPeriod reading.period) 0 reading.isas reading.starts reading.costs
    reading.tables

namespace Config

theorem length_assemble (cpu : CpuSettings) (clock : Clock) (first : Nat) {isas : List Isa}
    {starts : List Nat} {costs : List LatencyRange} {tables : List (Option (List Nat))}
    (sameStarts : starts.length = isas.length) (sameCosts : costs.length = isas.length)
    (sameTables : tables.length = isas.length) :
    (assemble cpu clock first isas starts costs tables).length = isas.length := by
  induction isas generalizing first starts costs tables with
  | nil => rfl
  | cons isa isas ih =>
    obtain ⟨start, starts, rfl⟩ := List.exists_cons_of_length_eq_add_one sameStarts
    obtain ⟨cost, costs, rfl⟩ := List.exists_cons_of_length_eq_add_one sameCosts
    obtain ⟨table, tables, rfl⟩ := List.exists_cons_of_length_eq_add_one sameTables
    simp only [List.length_cons, Nat.add_right_cancel_iff] at sameStarts sameCosts sameTables
    exact congrArg (· + 1) (ih (first + 1) sameStarts sameCosts sameTables)

end Config

namespace Reading

variable {config : Config} {reading : Reading}

theorem getElem?_cores (index : Nat) : (reading.cores config)[index]? = reading.core? config index := by
  have found := Config.getElem?_assemble_eq config.cpu (.ofPeriod reading.period) 0 reading.isas
    reading.starts reading.costs reading.tables index
  rw [Nat.zero_add] at found
  exact found

theorem length_cores (reads : config.Reads reading) : (reading.cores config).length = config.cpu.cores := by
  obtain ⟨raw, -, ranges, -⟩ := reads.lists.costs
  have isas := (PerCore.length_of_read reads.lists.isas).1
  have starts := (PerCore.length_of_read reads.lists.starts).1
  have costs := (PerCore.length_of_read ranges).1
  have tables : reading.tables.length = config.cpu.cores := by
    have tables := reads.lists.tables
    split at tables
    · rw [tables, List.length_replicate]
    · exact (PerCore.length_of_read tables).1
  have lengths := Config.length_assemble config.cpu (.ofPeriod reading.period) 0
    (starts.trans isas.symm) (costs.trans isas.symm) (tables.trans isas.symm)
  exact lengths.trans isas

end Reading

namespace Config

variable {config : Config} {reading : Reading} {platform : Platform}

theorem eq_ok_of_quantity {α : Type} {setting text : String} {result : Except UnitFault α} {value : α}
    (done : quantity setting text result = .ok value) : result = .ok value := by
  cases result with
  | error fault => cases done
  | ok found =>
    cases done
    rfl

theorem parseClock_eq_ok_iff {text : String} {timebase : Float} {clock : Clock} :
    parseClock text timebase = .ok clock ↔
      ∃ period, parsePeriod text timebase = .ok period ∧ clock = .ofPeriod period := by
  constructor
  · intro done
    obtain ⟨period, parsed, same⟩ := exists_of_bind_eq_ok done
    cases same
    exact ⟨period, eq_ok_of_quantity parsed, rfl⟩
  · rintro ⟨period, parsed, rfl⟩
    unfold parseClock
    rw [parsed]
    rfl

theorem buildCoprocessor_eq_ok_iff {settings : CoprocessorSettings} {timebase : Float}
    {spec : CoprocessorSpec} : buildCoprocessor settings timebase = .ok spec ↔
      settings.Valid ∧ ∃ period, parsePeriod settings.clock timebase = .ok period ∧
        spec = {
          clock := .ofPeriod period
          queueDepth := settings.queueDepth
          issue := settings.issue
          issueWidth := if settings.issue = .single then 1 else settings.issueWidth
          verbose := settings.verbose } := by
  constructor
  · intro done
    unfold buildCoprocessor at done
    simp only at done
    split at done
    · cases done
    · rename_i queue
      split at done
      · cases done
      · rename_i width
        obtain ⟨clock, parsed, same⟩ := exists_of_bind_eq_ok done
        cases same
        obtain ⟨period, found, rfl⟩ := parseClock_eq_ok_iff.mp parsed
        refine ⟨⟨Nat.pos_of_ne_zero queue, ?_⟩, period, found, rfl⟩
        intro multi
        by_contra none
        exact width (by simp [multi]; omega)
  · rintro ⟨⟨queue, width⟩, period, found, rfl⟩
    have clock := parseClock_eq_ok_iff.mpr ⟨period, found, rfl⟩
    have slots : (settings.issue = .multi && settings.issueWidth = 0) = false := by
      rw [Bool.and_eq_false_imp]
      intro multi
      have positive := width (of_decide_eq_true multi)
      exact decide_eq_false (by omega)
    unfold buildCoprocessor
    simp only [if_neg (Nat.pos_iff_ne_zero.mp queue), slots, clock, bind, Except.bind]
    rfl

theorem exists_lists_of_buildCores {cpu : CpuSettings} {clock : Clock} {cores : List CoreSpec}
    (built : buildCores cpu clock = .ok cores) :
    ∃ isas starts costs tables, cpu.Lists isas starts costs tables := by
  obtain ⟨isas, named, built⟩ := exists_of_bind_eq_ok built
  obtain ⟨starts, started, built⟩ := exists_of_bind_eq_ok built
  cases given : cpu.memoryCost with
  | none =>
    rw [given] at built
    cases built
  | some raw =>
    rw [given] at built
    obtain ⟨costs, paid, built⟩ := exists_of_bind_eq_ok built
    obtain ⟨tables, listed⟩ : ∃ tables, match cpu.memoryCostTable with
        | none => tables = List.replicate cpu.cores none
        | some raw => PerCore.read "memCostTable" raw cpu.cores 1 readTable = .ok tables := by
      cases listed : cpu.memoryCostTable with
      | none => exact ⟨_, rfl⟩
      | some raw =>
        rw [listed] at built
        obtain ⟨tables, read, -⟩ := exists_of_bind_eq_ok built
        exact ⟨tables, read⟩
    have valid := (PerCore.length_of_read paid).2
    refine ⟨isas, starts, costs, tables, named, started, ⟨raw, given, ?_, ?_⟩, listed⟩
    · rw [← paid]
      refine PerCore.read_congr fun selection called => ?_
      obtain ⟨range, done⟩ := valid selection (PerCore.mem_selections_of_mem_calls called)
      rw [done]
      exact (readRange_of_readCost done).1
    · intro selection member range read
      obtain ⟨checked, done⟩ := valid selection member
      obtain ⟨same, ordered⟩ := readRange_of_readCost done
      cases read.symm.trans same
      exact ordered

theorem exists_reads_of_build (built : config.build = .ok platform) :
    ∃ reading, config.Reads reading ∧ 1 ≤ config.cpu.cores ∧ 1 ≤ config.cpu.memorySize := by
  unfold build at built
  simp only at built
  split at built
  · cases built
  · rename_i cores
    split at built
    · cases built
    · rename_i memory
      obtain ⟨timebase, timed, built⟩ := exists_of_bind_eq_ok built
      obtain ⟨stop, stopped, built⟩ := exists_of_bind_eq_ok built
      obtain ⟨clock, clocked, built⟩ := exists_of_bind_eq_ok built
      obtain ⟨specs, listed, built⟩ := exists_of_bind_eq_ok built
      obtain ⟨period, found, -⟩ := parseClock_eq_ok_iff.mp clocked
      obtain ⟨isas, starts, costs, tables, lists⟩ := exists_lists_of_buildCores listed
      obtain ⟨coprocessorPeriod, attached⟩ : ∃ coprocessorPeriod, config.cpu.coprocessor = true →
          parsePeriod config.coprocessor.clock timebase = .ok coprocessorPeriod := by
        split at built
        · obtain ⟨coprocessor, made, -⟩ := exists_of_bind_eq_ok built
          obtain ⟨spec, made, -⟩ := exists_of_map_eq_ok made
          obtain ⟨-, coprocessorPeriod, parsed, -⟩ := buildCoprocessor_eq_ok_iff.mp made
          exact ⟨coprocessorPeriod, fun _ => parsed⟩
        · rename_i absent
          exact ⟨0, fun enabled => absurd enabled absent⟩
      refine ⟨⟨timebase, stop, period, isas, starts, costs, tables, coprocessorPeriod⟩, ?_,
        Nat.pos_of_ne_zero cores, Nat.pos_of_ne_zero memory⟩
      exact {
        timebase := eq_ok_of_quantity timed
        stop := eq_ok_of_quantity stopped
        clock := found
        lists := lists
        coprocessor := attached }

theorem buildCores_of_reads (reads : config.Reads reading) :
    buildCores config.cpu (.ofPeriod reading.period) =
      (reading.cores config).mapM (checkCore config.cpu.memorySize) := by
  obtain ⟨raw, given, costs, valid⟩ := reads.lists.costs
  have checked : PerCore.read "memCost" raw config.cpu.cores 2 readCost = .ok reading.costs := by
    rw [← costs]
    refine PerCore.read_congr fun selection called => ?_
    have member := PerCore.mem_selections_of_mem_calls called
    obtain ⟨range, done⟩ := (PerCore.length_of_read costs).2 selection member
    rw [done]
    exact readCost_of_readRange done (valid selection member range done)
  have tables := reads.lists.tables
  unfold buildCores Reading.cores
  rw [reads.lists.isas, reads.lists.starts, given]
  simp only [bind, Except.bind, checked]
  cases listed : config.cpu.memoryCostTable with
  | none =>
    rw [listed] at tables
    simp only [tables]
  | some raw =>
    rw [listed] at tables
    simp only [tables]

theorem build_of_reads (reads : config.Reads reading) (cores : 1 ≤ config.cpu.cores)
    (memory : 1 ≤ config.cpu.memorySize) :
    config.build = (do
      let cores ← (reading.cores config).mapM (checkCore config.cpu.memorySize)
      let coprocessor ←
        if config.cpu.coprocessor then some <$> buildCoprocessor config.coprocessor reading.timebase
        else .ok none
      return {
        timebase := reading.timebase
        stop := stopCondition reading.stop
        statisticLevel := config.statisticLevel
        seed := config.options.seed
        memorySize := config.cpu.memorySize
        cores := cores
        coprocessor := coprocessor }) := by
  have clock : parseClock config.cpu.clock reading.timebase = .ok (.ofPeriod reading.period) := by
    unfold parseClock
    rw [reads.clock]
    rfl
  unfold build
  simp only [reads.timebase, reads.stop, clock, quantity, Except.mapError, bind, Except.bind,
    buildCores_of_reads reads, if_neg (Nat.pos_iff_ne_zero.mp cores), if_neg (Nat.pos_iff_ne_zero.mp memory)]

end Config

end CoreTiming
