import CoreTiming.Program.Synthetic

namespace CoreTiming

/-- Streams end. Each event takes at most one operation from a stream, so a state of a run depends on a finite
    part of it alone, and a stream without end leads to no other states. -/
inductive Workload
  | listed (rest : List Operation)
  | synthetic (mix : Synthetic)
  deriving Repr

namespace Workload

def next? : Workload → Option (Operation × Workload)
  | .listed [] => none
  | .listed (operation :: rest) => some (operation, .listed rest)
  | .synthetic mix => mix.next?.map fun (operation, mix) => (operation, .synthetic mix)

def remaining : Workload → Nat
  | .listed rest => rest.length
  | .synthetic mix => mix.remaining

def take : Nat → Workload → List Operation × Bool
  | 0, _ => ([], false)
  | count + 1, workload =>
    match workload.next? with
    | none => ([], true)
    | some (operation, workload) =>
      let (operations, ended) := workload.take count
      (operation :: operations, ended)

theorem remaining_next? {w w' : Workload} {op : Operation} (h : w.next? = some (op, w')) :
    w'.remaining + 1 = w.remaining := by
  match w with
  | .listed [] => cases h
  | .listed (_ :: _) => cases h; rfl
  | .synthetic mix =>
    simp only [next?, Option.map_eq_some_iff] at h
    obtain ⟨⟨_, mix'⟩, found, same⟩ := h
    cases same
    exact Synthetic.remaining_next? found

end Workload

end CoreTiming
