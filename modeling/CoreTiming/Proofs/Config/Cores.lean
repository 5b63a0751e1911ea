import CoreTiming.Proofs.Memory.Draws

namespace CoreTiming

theorem exists_of_bind_eq_ok {ε α β : Type} {result : Except ε α} {next : α → Except ε β} {value : β}
    (bound : result >>= next = .ok value) : ∃ middle, result = .ok middle ∧ next middle = .ok value := by
  cases result with
  | error fault => cases bound
  | ok middle => exact ⟨middle, rfl, bound⟩

theorem exists_error_of_not_ok {ε α : Type} {result : Except ε α} (failed : ¬ ∃ value, result = .ok value) :
    ∃ fault, result = .error fault := by
  cases result with
  | error fault => exact ⟨fault, rfl⟩
  | ok value => exact absurd ⟨value, rfl⟩ failed

theorem forall_or_first {α : Type} (holds : α → Prop) (items : List α) : (∀ item ∈ items, holds item) ∨
    ∃ before item after, items = before ++ item :: after ∧ (∀ earlier ∈ before, holds earlier) ∧ ¬ holds item := by
  classical
  cases found : items.find? (¬ holds ·) with
  | none =>
    left
    intro item member
    simpa using List.find?_eq_none.mp found item member
  | some item =>
    obtain ⟨wrong, before, after, split, passes⟩ := List.find?_eq_some_iff_append.mp found
    exact .inr ⟨before, item, after, split, by simpa using passes, by simpa using wrong⟩

theorem eq_of_mapM_eq_ok {ε α : Type} {check : α → Except ε α} {passes : α → Prop}
    (sound : ∀ item result, check item = .ok result → result = item ∧ passes item) {items results : List α}
    (checked : items.mapM check = .ok results) : results = items ∧ ∀ item ∈ items, passes item := by
  induction items generalizing results with
  | nil =>
    cases checked
    simp
  | cons item items ih =>
    rw [List.mapM_cons] at checked
    obtain ⟨first, passed, checked⟩ := exists_of_bind_eq_ok checked
    obtain ⟨others, rest, same⟩ := exists_of_bind_eq_ok checked
    obtain ⟨rfl, holds⟩ := sound item first passed
    obtain ⟨rfl, hold⟩ := ih rest
    cases same
    refine ⟨rfl, ?_⟩
    intro other member
    rcases List.mem_cons.mp member with rfl | member
    · exact holds
    · exact hold other member

namespace Numeral

theorem readDigits_le {radix limit value result : Nat} {digits : List Char} (bound : value ≤ limit)
    (done : readDigits radix limit value digits = .ok result) : result ≤ limit := by
  induction digits generalizing value with
  | nil =>
    cases done
    exact bound
  | cons digit digits ih =>
    unfold readDigits at done
    split at done
    · cases done
    · split at done
      · rename_i fits
        exact ih fits done
      · cases done

theorem read_le {radix limit result : Nat} {text : List Char}
    (done : read radix limit text = .ok result) : result ≤ limit := by
  unfold read at done
  split at done
  · cases done
  · cases done
  · exact readDigits_le (Nat.zero_le _) done
  · exact readDigits_le (Nat.zero_le _) done

theorem readLiteral_le {result : Nat} {text : List Char} (done : readLiteral text = .ok result) :
    result ≤ wordLimit := by
  unfold readLiteral at done
  split at done <;> exact read_le done

end Numeral

theorem readUnsigned_le {setting raw : String} {value : Nat} (done : readUnsigned setting raw = .ok value) :
    value ≤ horizon := by
  unfold readUnsigned at done
  split at done
  · rename_i literal
    cases done
    exact Numeral.readLiteral_le literal
  · cases done

namespace PerCore

variable {α : Type} {holds : α → Prop}

theorem forall_of_assign {ι : Type} {reader : ι → Except ConfigError (Nat × α)}
    (sound : ∀ item entry, reader item = .ok entry → holds entry.2) {items : List ι}
    {table after : Array (Option α)} (before : ∀ value, some value ∈ table.toList → holds value)
    (assigned : assign reader table items = .ok after) : ∀ value, some value ∈ after.toList → holds value := by
  induction items generalizing table with
  | nil =>
    cases assigned
    exact before
  | cons item items ih =>
    obtain ⟨⟨core, value⟩, written, assigned⟩ := exists_of_bind_eq_ok assigned
    apply ih _ assigned
    intro other member
    rw [Array.toList_setIfInBounds] at member
    rcases List.mem_or_eq_of_mem_set member with old | same
    · exact before other old
    · cases same
      exact sound item _ written

theorem eq_map_some_of_complete {setting : String} {core : Nat} {table : List (Option α)} {values : List α}
    (completed : complete setting core table = .ok values) : table = values.map some := by
  induction table generalizing core values with
  | nil =>
    cases completed
    rfl
  | cons entry table ih =>
    cases entry with
    | none => cases completed
    | some first =>
      obtain ⟨others, rest, same⟩ := exists_of_bind_eq_ok completed
      cases same
      exact congrArg (some first :: ·) (ih rest)

theorem forall_of_read {setting raw : String} {cores fields : Nat}
    {reader : Selection → Except ConfigError α}
    (sound : ∀ selection value, reader selection = .ok value → holds value) {values : List α}
    (done : read setting raw cores fields reader = .ok values) : ∀ value ∈ values, holds value := by
  unfold read at done
  obtain ⟨table, assigned, done⟩ := exists_of_bind_eq_ok done
  have known : ∀ value, some value ∈ table.toList → holds value := by
    refine forall_of_assign ?_ ?_ assigned
    · intro selection entry written
      obtain ⟨value, given, same⟩ := exists_of_bind_eq_ok written
      cases same
      exact sound selection value given
    · intro value member
      rw [Array.toList_replicate] at member
      cases List.eq_of_mem_replicate member
  split at done
  · cases done
  · intro value member
    apply known value
    rw [eq_map_some_of_complete done]
    exact List.mem_map_of_mem member

end PerCore

def LatencyRange.Sound (range : LatencyRange) : Prop :=
  0 < range.least ∧ range.most ≤ horizon

def CoreSpec.Sound (core : CoreSpec) : Prop :=
  core.cost.Sound ∧ ∀ cell ∈ core.costTable.getD [], core.cost.contains cell = true

structure Platform.Sound (platform : Platform) : Prop where
  numbered : ∀ (index : Nat) (core : CoreSpec), platform.cores[index]? = some core → core.id = index
  sound : ∀ core ∈ platform.cores, core.Sound

theorem LatencyRange.check_eq_ok_iff {core least most : Nat} {range : LatencyRange} :
    check core least most = .ok range ↔ range = ⟨least, most⟩ ∧ 1 ≤ range.least ∧ range.least ≤ range.most := by
  unfold check
  split
  · constructor
    · intro wrong
      cases wrong
    · rintro ⟨rfl, positive, -⟩
      simp only at positive
      omega
  · split
    · constructor
      · intro wrong
        cases wrong
      · rintro ⟨rfl, -, ordered⟩
        simp only at ordered
        omega
    · constructor
      · intro same
        cases same
        simp only [true_and]
        omega
      · rintro ⟨rfl, -⟩
        rfl

namespace Config

theorem sound_of_readCost {selection : Selection} {range : LatencyRange}
    (done : readCost selection = .ok range) : range.Sound := by
  obtain ⟨least, -, done⟩ := exists_of_bind_eq_ok done
  obtain ⟨most, bound, checked⟩ := exists_of_bind_eq_ok done
  obtain ⟨rfl, positive, -⟩ := LatencyRange.check_eq_ok_iff.mp checked
  exact ⟨positive, readUnsigned_le bound⟩

theorem getElem?_assemble_eq (cpu : CpuSettings) (clock : Clock) (first : Nat) (isas : List Isa)
    (starts : List Nat) (costs : List LatencyRange) (tables : List (Option (List Nat))) (index : Nat) :
    (assemble cpu clock first isas starts costs tables)[index]? = (do
      return {
        id := first + index
        isa := ← isas[index]?
        startAddress := ← starts[index]?
        cost := ← costs[index]?
        costTable := ← tables[index]?
        clock := clock
        verbose := cpu.verbose
        faultPolicy := cpu.faultPolicy }) := by
  induction isas generalizing first starts costs tables index with
  | nil => rfl
  | cons isa isas ih =>
    cases starts with
    | nil => simp [assemble]
    | cons start starts =>
      cases costs with
      | nil => simp [assemble]
      | cons cost costs =>
        cases tables with
        | nil => simp [assemble]
        | cons table tables =>
          cases index with
          | zero => rfl
          | succ index =>
            have next := ih (first + 1) starts costs tables index
            rw [Nat.add_assoc, Nat.add_comm 1] at next
            exact next

theorem getElem?_assemble {cpu : CpuSettings} {clock : Clock} {first : Nat} {isas : List Isa}
    {starts : List Nat} {costs : List LatencyRange} {tables : List (Option (List Nat))} {index : Nat}
    {core : CoreSpec} (found : (assemble cpu clock first isas starts costs tables)[index]? = some core) :
    core.id = first + index ∧ core.cost ∈ costs ∧ core.costTable ∈ tables := by
  rw [getElem?_assemble_eq] at found
  obtain ⟨isa, -, found⟩ := Option.bind_eq_some_iff.mp found
  obtain ⟨start, -, found⟩ := Option.bind_eq_some_iff.mp found
  obtain ⟨cost, paid, found⟩ := Option.bind_eq_some_iff.mp found
  obtain ⟨table, listed, same⟩ := Option.bind_eq_some_iff.mp found
  cases same
  exact ⟨rfl, List.mem_of_getElem? paid, List.mem_of_getElem? listed⟩

theorem eq_of_checkCore {memorySize : Nat} {core result : CoreSpec}
    (checked : checkCore memorySize core = .ok result) :
    result = core ∧ core.isa.fits core.startAddress = true ∧ core.startAddress < memorySize ∧
      ∀ cell ∈ core.costTable.getD [], core.cost.contains cell = true := by
  unfold checkCore at checked
  split at checked
  · cases checked
  · rename_i fits
    split at checked
    · cases checked
    · rename_i inside
      split at checked
      · cases checked
      · rename_i none_outside
        cases checked
        refine ⟨rfl, by simpa using fits, Nat.not_le.mp inside, ?_⟩
        intro cell member
        simpa using List.find?_eq_none.mp none_outside cell member

theorem getElem?_buildCores {cpu : CpuSettings} {clock : Clock} {cores : List CoreSpec}
    (built : buildCores cpu clock = .ok cores) {index : Nat} {core : CoreSpec}
    (found : cores[index]? = some core) :
    core.id = index ∧ core.isa.fits core.startAddress = true ∧
      (∃ selection, readCost selection = .ok core.cost) ∧
      (core.costTable = none ∨ ∃ selection, readTable selection = .ok core.costTable) ∧
      ∀ cell ∈ core.costTable.getD [], core.cost.contains cell = true := by
  unfold buildCores at built
  obtain ⟨isas, -, built⟩ := exists_of_bind_eq_ok built
  obtain ⟨starts, -, built⟩ := exists_of_bind_eq_ok built
  cases given : cpu.memoryCost with
  | none =>
    rw [given] at built
    cases built
  | some raw =>
    rw [given] at built
    obtain ⟨costs, paid, built⟩ := exists_of_bind_eq_ok built
    have ranges : ∀ range ∈ costs, ∃ selection, readCost selection = .ok range :=
      PerCore.forall_of_read (fun selection _ done => ⟨selection, done⟩) paid
    obtain ⟨tables, listed, built⟩ : ∃ tables,
        (∀ table ∈ tables, table = none ∨ ∃ selection, readTable selection = .ok table) ∧
        (assemble cpu clock 0 isas starts costs tables).mapM (checkCore cpu.memorySize) = .ok cores := by
      cases listed : cpu.memoryCostTable with
      | none =>
        rw [listed] at built
        obtain ⟨tables, replicated, built⟩ := exists_of_bind_eq_ok built
        cases replicated
        exact ⟨_, fun table member => .inl (List.eq_of_mem_replicate member), built⟩
      | some raw =>
        rw [listed] at built
        obtain ⟨tables, given, built⟩ := exists_of_bind_eq_ok built
        exact ⟨tables, PerCore.forall_of_read (fun selection _ done => .inr ⟨selection, done⟩) given, built⟩
    obtain ⟨rfl, checked⟩ := eq_of_mapM_eq_ok (fun _ _ => eq_of_checkCore) built
    obtain ⟨number, cost, table⟩ := getElem?_assemble found
    obtain ⟨fits, -, contained⟩ := checked core (List.mem_of_getElem? found)
    exact ⟨by omega, fits, ranges _ cost, listed _ table, contained⟩

theorem exists_buildCores {config : Config} {platform : Platform} (built : config.build = .ok platform) :
    ∃ clock, buildCores config.cpu clock = .ok platform.cores := by
  unfold build at built
  simp only at built
  split at built
  · cases built
  · split at built
    · cases built
    · obtain ⟨timebase, -, built⟩ := exists_of_bind_eq_ok built
      obtain ⟨stop, -, built⟩ := exists_of_bind_eq_ok built
      obtain ⟨clock, -, built⟩ := exists_of_bind_eq_ok built
      obtain ⟨cores, listed, built⟩ := exists_of_bind_eq_ok built
      refine ⟨clock, ?_⟩
      split at built
      · obtain ⟨coprocessor, -, built⟩ := exists_of_bind_eq_ok built
        cases built
        exact listed
      · obtain ⟨coprocessor, -, built⟩ := exists_of_bind_eq_ok built
        cases built
        exact listed

theorem sound_of_build {config : Config} {platform : Platform} (built : config.build = .ok platform) :
    platform.Sound := by
  obtain ⟨clock, listed⟩ := exists_buildCores built
  constructor
  · exact fun index core found => (getElem?_buildCores listed found).1
  · intro core member
    obtain ⟨index, found⟩ := List.mem_iff_getElem?.mp member
    obtain ⟨-, -, ⟨selection, cost⟩, -, contained⟩ := getElem?_buildCores listed found
    exact ⟨sound_of_readCost cost, contained⟩

end Config

theorem LatencyModel.positive_ofSpecs {cores : List CoreSpec} (sound : ∀ core ∈ cores, core.Sound)
    (seed : Nat) : (LatencyModel.ofSpecs cores seed).Positive := by
  intro source member
  obtain ⟨core, among, rfl⟩ := List.mem_map.mp member
  obtain ⟨⟨least, most⟩, contained⟩ := sound core among
  unfold LatencyModel.ofSpec
  cases table : core.costTable with
  | none => exact ⟨least, most⟩
  | some cells =>
    intro cell inside
    rw [table] at contained
    have bounds := contained cell inside
    unfold LatencyRange.contains at bounds
    simp only [Bool.and_eq_true, decide_eq_true_eq] at bounds
    exact Nat.lt_of_lt_of_le least bounds.1

end CoreTiming
