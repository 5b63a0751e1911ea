import CoreTiming.Memory.Latency
import Mathlib.Tactic.Common

namespace CoreTiming

def LatencyPattern.Positive : LatencyPattern → Prop
  | .uniform range _ => 0 < range.least ∧ range.most ≤ horizon
  | .table cells _ => ∀ cell ∈ cells, 0 < cell

theorem LatencyPattern.positive_draw {pattern : LatencyPattern} (positive : pattern.Positive) :
    0 < pattern.draw.1 ∧ pattern.draw.2.Positive := by
  cases pattern with
  | uniform range generator =>
    obtain ⟨least, most⟩ := positive
    have words : Nat.pow 2 64 = horizon + 1 := rfl
    have nonzero : 0 < horizon := by decide
    have size : range.most - range.least + 1 ≠ Nat.pow 2 64 := by
      rw [words]
      omega
    refine ⟨?_, least, most⟩
    simp only [draw, Random.Generator.between, if_neg size]
    omega
  | table cells next =>
    refine ⟨?_, positive⟩
    simp only [draw]
    cases found : cells[next]? with
    | none => exact Nat.one_pos
    | some cell => exact positive cell (List.mem_of_getElem? found)

def LatencyModel.Positive (model : LatencyModel) : Prop :=
  ∀ source ∈ model.sources, source.pattern.Positive

theorem LatencyModel.draw?_eq_some {model after : LatencyModel} {core latency : Nat}
    (drawn : model.draw? core = some (latency, after)) :
    core < model.sources.length ∧ after.sources.length = model.sources.length ∧
      (model.Positive → 0 < latency ∧ after.Positive) := by
  obtain ⟨source, found, same⟩ := Option.map_eq_some_iff.mp drawn
  obtain ⟨known, -⟩ := List.getElem?_eq_some_iff.mp found
  cases same
  refine ⟨known, List.length_set, ?_⟩
  intro positive
  obtain ⟨large, next⟩ := LatencyPattern.positive_draw (positive source (List.mem_of_getElem? found))
  refine ⟨large, ?_⟩
  intro other member
  rcases List.mem_or_eq_of_mem_set member with before | rfl
  · exact positive other before
  · exact next

theorem LatencyModel.draw?_eq_none {model : LatencyModel} {core : Nat}
    (missing : model.draw? core = none) : model.sources.length ≤ core :=
  List.getElem?_eq_none_iff.mp (Option.map_eq_none_iff.mp missing)

end CoreTiming
