import CoreTiming.Proofs.Config.Cores

namespace CoreTiming

namespace Random.Generator

variable {width : Nat}

theorem bits_lt (bounded : width ≤ 64) (g : Generator) : (g.bits width).1 < Nat.pow 2 width := by
  have word := g.word.1.toNat_lt
  have halves : 2 ^ (64 - width) * 2 ^ width = 2 ^ 64 := by
    rw [← Nat.pow_add]
    congr 1
    omega
  apply Nat.div_lt_of_lt_mul
  rw [← halves] at word
  exact word

theorem choose_lt (bounded : width ≤ 64) {size : Nat} (positive : 0 < size) (attempts : Nat)
    (g : Generator) : (g.choose width size attempts).1 < size := by
  induction attempts generalizing g with
  | zero => exact positive
  | succ attempts ih =>
    unfold choose
    simp only
    split
    · apply Nat.div_lt_of_lt_mul
      exact Nat.mul_lt_mul_of_pos_right (g.bits_lt bounded) positive
    · exact ih _

theorem between_bounds (bounded : width ≤ 64) {low high : Nat} (ordered : low ≤ high)
    (fits : high < Nat.pow 2 width) (g : Generator) :
    low ≤ (g.between width low high).1 ∧ (g.between width low high).1 ≤ high := by
  unfold between
  simp only
  split
  · have word := g.bits_lt bounded
    omega
  · have chosen := g.choose_lt bounded (Nat.succ_pos (high - low)) stateCount
    simp only [Nat.succ_eq_add_one] at chosen
    omega

end Random.Generator

theorem LatencyRange.contains_iff {range : LatencyRange} {latency : Nat} :
    range.contains latency = true ↔ range.least ≤ latency ∧ latency ≤ range.most := by
  unfold contains
  rw [Bool.and_eq_true, decide_eq_true_eq, decide_eq_true_eq]

namespace LatencyPattern

variable {range : LatencyRange} {pattern : LatencyPattern}

def Within (range : LatencyRange) : LatencyPattern → Prop
  | .uniform own _ => own = range ∧ range.least ≤ range.most ∧ range.most ≤ horizon
  | .table cells next => next < cells.length ∧ ∀ cell ∈ cells, range.contains cell = true

theorem within_draw (within : pattern.Within range) :
    range.contains pattern.draw.1 = true ∧ pattern.draw.2.Within range := by
  cases pattern with
  | uniform own generator =>
    obtain ⟨rfl, ordered, word⟩ := within
    have fits : own.most < Nat.pow 2 64 := Nat.lt_succ_of_le word
    have bounds := generator.between_bounds (Nat.le_refl 64) ordered fits
    exact ⟨LatencyRange.contains_iff.mpr bounds, rfl, ordered, word⟩
  | table cells next =>
    obtain ⟨inside, contained⟩ := within
    simp only [draw, List.getElem?_eq_getElem inside, Option.getD_some]
    refine ⟨contained _ (List.getElem_mem inside), ?_, contained⟩
    have nonempty : max cells.length 1 = cells.length := by omega
    rw [nonempty]
    exact Nat.mod_lt _ (by omega)

end LatencyPattern

namespace LatencySource

variable {range : LatencyRange}

theorem drawMany_succ_eq (count : Nat) (source : LatencySource) :
    drawMany (count + 1) source =
      ((drawMany count source).1 ++ [(drawMany count source).2.draw.1], (drawMany count source).2.draw.2) := by
  induction count generalizing source with
  | zero => rfl
  | succ count ih =>
    rw [drawMany, ih source.draw.2]
    rfl

theorem length_drawMany (count : Nat) (source : LatencySource) :
    (drawMany count source).1.length = count := by
  induction count generalizing source with
  | zero => rfl
  | succ count ih =>
    rw [drawMany]
    simp [ih]

theorem drawn_drawMany (count : Nat) (source : LatencySource) :
    (drawMany count source).2.drawn = source.drawn + count := by
  induction count generalizing source with
  | zero => rfl
  | succ count ih =>
    rw [drawMany]
    simp only [ih, draw]
    omega

theorem contains_drawMany {source : LatencySource} (within : source.pattern.Within range) (count : Nat) :
    ∀ latency ∈ (drawMany count source).1, range.contains latency = true := by
  induction count generalizing source with
  | zero => simp [drawMany]
  | succ count ih =>
    obtain ⟨contained, next⟩ := LatencyPattern.within_draw within
    rw [drawMany]
    intro latency member
    rcases List.mem_cons.mp member with rfl | later
    · exact contained
    · exact ih next latency later

end LatencySource

theorem LatencyModel.drawn_ofSpec (seed : Nat) (core : CoreSpec) : (ofSpec seed core).drawn = 0 := by
  unfold ofSpec
  split <;> rfl

namespace Config

theorem ordered_of_readCost {selection : Selection} {range : LatencyRange}
    (done : readCost selection = .ok range) : range.least ≤ range.most := by
  obtain ⟨least, -, done⟩ := exists_of_bind_eq_ok done
  obtain ⟨most, -, checked⟩ := exists_of_bind_eq_ok done
  obtain ⟨rfl, -, ordered⟩ := LatencyRange.check_eq_ok_iff.mp checked
  exact ordered

theorem ne_nil_of_readTable {selection : Selection} {table : Option (List Nat)}
    (done : readTable selection = .ok table) : table ≠ some [] := by
  unfold readTable at done
  obtain ⟨numbers, listed, done⟩ := exists_of_bind_eq_ok done
  obtain ⟨cell, cells, same⟩ := List.exists_cons_of_ne_nil
    (Text.splitAt_ne_nil '|' (selection.fields.headD "").toList)
  rw [same, List.mapM_cons] at listed
  obtain ⟨number, -, listed⟩ := exists_of_bind_eq_ok listed
  obtain ⟨others, -, listed⟩ := exists_of_bind_eq_ok listed
  cases listed
  cases done
  simp

theorem within_of_build {config : Config} {platform : Platform} (built : config.build = .ok platform)
    {core : CoreSpec} (member : core ∈ platform.cores) (seed : Nat) :
    (LatencyModel.ofSpec seed core).pattern.Within core.cost := by
  obtain ⟨clock, listed⟩ := exists_buildCores built
  obtain ⟨index, found⟩ := List.mem_iff_getElem?.mp member
  obtain ⟨-, -, ⟨selection, cost⟩, read, contained⟩ := getElem?_buildCores listed found
  unfold LatencyModel.ofSpec
  cases table : core.costTable with
  | none => exact ⟨rfl, ordered_of_readCost cost, (sound_of_readCost cost).2⟩
  | some cells =>
    rw [table] at read contained
    obtain ⟨entry, given⟩ := read.resolve_left (by simp)
    have cells_ne : cells ≠ [] := fun same => ne_nil_of_readTable given (congrArg some same)
    exact ⟨List.length_pos_iff.mpr cells_ne, contained⟩

end Config

end CoreTiming
