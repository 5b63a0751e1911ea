import CoreTiming.Proofs.Program.RoundTrip

namespace CoreTiming

def TraceError.later (error : TraceError) (count : Nat) : TraceError :=
  { error with line := error.line + count }

namespace Trace

variable {lines : List (List Char)} {line : List Char} {fault : TraceFault}

theorem readLines_add (number count : Nat) (lines : List (List Char)) :
    readLines (number + count) lines = (readLines number lines).mapError (·.later count) := by
  induction lines generalizing number with
  | nil => rfl
  | cons line lines ih =>
    have next := ih (number + 1)
    rw [Nat.add_right_comm] at next
    unfold readLines
    simp only [next]
    split
    · rfl
    · split
      · rfl
      · cases readLines (number + 1) lines <;> rfl

theorem readLines_append (number : Nat) (front back : List (List Char)) :
    readLines number (front ++ back) = (do
      let first ← readLines number front
      let rest ← readLines (number + front.length) back
      return first ++ rest) := by
  induction front generalizing number with
  | nil =>
    rw [List.nil_append]
    show _ = (readLines number back >>= fun rest => .ok rest)
    cases readLines number back <;> rfl
  | cons line front ih =>
    have next := ih (number + 1)
    rw [Nat.add_assoc, Nat.add_comm 1] at next
    rw [List.cons_append, readLines, readLines, next, List.length_cons]
    split
    · rfl
    · split
      · rfl
      · cases readLines (number + 1) front with
        | error error => rfl
        | ok operations => cases readLines (number + (front.length + 1)) back <;> rfl

theorem parse_append (first second : String) :
    parse (first ++ "\n" ++ second) = (do
      let operations ← parse first
      let others ← (parse second).mapError (·.later (first.toList.count '\n' + 1))
      return operations ++ others) := by
  have joined : (first ++ "\n" ++ second).toList = first.toList ++ '\n' :: second.toList := by
    simp
  rw [parse_eq_readLines, parse_eq_readLines, parse_eq_readLines, joined, Text.splitAt_append_cons,
    readLines_append, Text.length_splitAt, readLines_add]

def Passes (line : List Char) : Prop :=
  Surrounds [] line ∨ ∃ operation, readOperation (code line) = .ok operation

/-- The first line that says something but holds no operation, by its number among all lines. -/
def FailsAt (text : String) (number : Nat) (fault : TraceFault) : Prop :=
  ∃ before line after, Text.splitAt '\n' text.toList = before ++ line :: after ∧
    number = before.length + 1 ∧ (∀ earlier ∈ before, Passes earlier) ∧
      ¬ Surrounds [] line ∧ readOperation (code line) = .error fault

theorem code_eq_nil_iff (unbroken : '\n' ∉ line) : code line = [] ↔ Surrounds [] line := by
  constructor
  · intro empty
    have blank := Text.trim_eq_nil_iff.mp empty
    refine ⟨Text.before '#' line, [], line.dropWhile (· != '#'), ?_, blank, by decide, ?_, unbroken⟩
    · simp [Text.before]
    · cases rest : line.dropWhile (· != '#') with
      | nil => exact .inl rfl
      | cons c comment =>
        have marked := List.head?_dropWhile_not (· != '#') line
        rw [rest] at marked
        simpa using marked
  · exact code_of_surrounds (by simp : ∀ word ∈ [], Text.Word word)

theorem exists_readLines_of_passes (passes : ∀ line ∈ lines, Passes line) (number : Nat) :
    ∃ operations, readLines number lines = .ok operations := by
  induction lines generalizing number with
  | nil => exact ⟨[], rfl⟩
  | cons line lines ih =>
    obtain ⟨operations, rest⟩ := ih (fun other member => passes other (List.mem_cons_of_mem _ member))
      (number + 1)
    rw [readLines, rest]
    split
    · exact ⟨operations, rfl⟩
    · rename_i filled
      rcases passes line List.mem_cons_self with silent | ⟨operation, read⟩
      · rw [code_of_surrounds (by simp : ∀ word ∈ [], Text.Word word) silent] at filled
        exact absurd rfl filled
      · rw [read]
        exact ⟨operation :: operations, rfl⟩

theorem readLines_of_fails {before : List (List Char)} (passes : ∀ earlier ∈ before, Passes earlier)
    (unbroken : '\n' ∉ line) (filled : ¬ Surrounds [] line) (failed : readOperation (code line) = .error fault)
    (number : Nat) (after : List (List Char)) :
    readLines number (before ++ line :: after) = .error ⟨number + before.length, fault⟩ := by
  obtain ⟨operations, read⟩ := exists_readLines_of_passes passes number
  rw [← code_eq_nil_iff unbroken, ← List.isEmpty_iff] at filled
  rw [readLines_append, read, readLines, if_neg filled, failed]
  rfl

theorem parse_eq_error_iff (text : String) (number : Nat) (fault : TraceFault) :
    parse text = .error ⟨number, fault⟩ ↔ FailsAt text number fault := by
  have unbroken : ∀ line ∈ Text.splitAt '\n' text.toList, '\n' ∉ line :=
    fun line => Text.not_mem_of_mem_splitAt
  have named : ∀ {before line after fault}, Text.splitAt '\n' text.toList = before ++ line :: after →
      (∀ earlier ∈ before, Passes earlier) → ¬ Surrounds [] line →
        readOperation (code line) = .error fault → parse text = .error ⟨before.length + 1, fault⟩ := by
    intro before line after fault cut passes filled failed
    have whole := unbroken line (by simp [cut])
    rw [parse_eq_readLines, cut, readLines_of_fails passes whole filled failed, Nat.add_comm]
  constructor
  · intro failed
    rcases forall_or_first Passes (Text.splitAt '\n' text.toList) with passes | first
    · obtain ⟨operations, read⟩ := exists_readLines_of_passes passes 1
      rw [parse_eq_readLines, read] at failed
      cases failed
    · obtain ⟨before, line, after, cut, passes, wrong⟩ := first
      rw [Passes, not_or] at wrong
      obtain ⟨other, unread⟩ := exists_error_of_not_ok wrong.2
      cases (named cut passes wrong.1 unread).symm.trans failed
      exact ⟨before, line, after, cut, rfl, passes, wrong.1, unread⟩
  · rintro ⟨before, line, after, cut, rfl, passes, filled, wrong⟩
    exact named cut passes filled wrong

/-- Two texts with a break between them are read as each of them is. An error keeps its reason, and its
    line counts the lines of the first text too; in any text it is the first line at fault. -/
theorem joined_as_parts (first second : String) :
    (∀ operations others, parse first = .ok operations → parse second = .ok others →
      parse (first ++ "\n" ++ second) = .ok (operations ++ others)) ∧
    (∀ error, parse first = .error error → parse (first ++ "\n" ++ second) = .error error) ∧
    (∀ operations line fault, parse first = .ok operations → parse second = .error ⟨line, fault⟩ →
      parse (first ++ "\n" ++ second) =
        .error ⟨line + 1 + first.toList.count '\n', fault⟩) ∧
    ∀ text line fault, parse text = .error ⟨line, fault⟩ ↔ FailsAt text line fault := by
  rw [parse_append]
  refine ⟨?_, ?_, ?_, parse_eq_error_iff⟩
  · intro operations others read behind
    rw [read, behind]
    rfl
  · intro error failed
    rw [failed]
    rfl
  · intro operations line fault read failed
    rw [read, failed, Nat.add_right_comm, Nat.add_assoc]
    rfl

theorem third_line_of_second_text :
    let first := "# header\n\ncompute 3\r"
    let second := "halt\n\njump 4\nleap"
    parse first = .ok [.compute 3] ∧ parse second = .error ⟨3, .unknownOperation "jump"⟩ ∧
      parse (first ++ "\n" ++ second) = .error ⟨6, .unknownOperation "jump"⟩ ∧
      FailsAt (first ++ "\n" ++ second) 6 (.unknownOperation "jump") := by
  intro first second
  have read : parse first = .ok [.compute 3] := by decide +kernel
  have failed : parse second = .error ⟨3, .unknownOperation "jump"⟩ := by decide +kernel
  have breaks : first.toList.count '\n' = 2 := by decide
  obtain ⟨-, -, joined, named⟩ := joined_as_parts first second
  have whole := joined _ _ _ read failed
  rw [breaks] at whole
  exact ⟨read, failed, whole, (named _ _ _).mp whole⟩

end Trace

end CoreTiming
