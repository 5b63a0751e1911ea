import CoreTiming.Isa
import CoreTiming.Proofs.Text.Cutting
import CoreTiming.Proofs.Text.Numerals

namespace CoreTiming

namespace Extensions

def alphabet : List Char :=
  ['I', 'M', 'A', 'F', 'D', 'C', 'G']

def expanded (word : List Char) : List Char :=
  word.flatMap fun letter => if letter = 'G' then ['I', 'M', 'A', 'F', 'D'] else [letter]

def ofLetters (word : List Char) : Extensions where
  i := 'I' ∈ word
  m := 'M' ∈ word
  a := 'A' ∈ word
  f := 'F' ∈ word
  d := 'D' ∈ word
  c := 'C' ∈ word

variable {word other : List Char} {letter : Char} {found extensions : Extensions}

theorem ofLetters_congr (same : ∀ letter, letter ∈ word ↔ letter ∈ other) :
    ofLetters word = ofLetters other := by
  simp only [ofLetters, same]

theorem ofLetters_append (word other : List Char) :
    ofLetters (word ++ other) = (ofLetters word).union (ofLetters other) := by
  simp only [ofLetters, union, List.mem_append, Bool.decide_or]

theorem union_assoc (x y z : Extensions) : (x.union y).union z = x.union (y.union z) := by
  simp only [union, Bool.or_assoc]

theorem union_none (x : Extensions) : x.union {} = x := by
  simp only [union, Bool.or_false]

theorem none_union (x : Extensions) : ({} : Extensions).union x = x := by
  simp only [union, Bool.false_or]

theorem ofLetter?_of_mem (member : letter ∈ alphabet) :
    ofLetter? letter = some (ofLetters (expanded [letter])) := by
  have known : alphabet.all (fun letter => ofLetter? letter = some (ofLetters (expanded [letter]))) = true := by
    decide
  exact of_decide_eq_true (List.all_eq_true.mp known letter member)

theorem ofLetter?_eq_some_iff :
    ofLetter? letter = some extensions ↔ letter ∈ alphabet ∧ extensions = ofLetters (expanded [letter]) := by
  constructor
  · intro read
    have member : letter ∈ alphabet := by
      unfold ofLetter? at read
      split at read <;> first | decide | cases read
    exact ⟨member, Option.some.inj (read.symm.trans (ofLetter?_of_mem member))⟩
  · rintro ⟨member, rfl⟩
    exact ofLetter?_of_mem member

theorem ofLetters_letters (extensions : Extensions) :
    ofLetters (expanded extensions.letters) = extensions ∧ ∀ letter ∈ extensions.letters, letter ∈ alphabet := by
  have all : ∀ i m a f d c : Bool, ofLetters (expanded (letters ⟨i, m, a, f, d, c⟩)) = ⟨i, m, a, f, d, c⟩ ∧
      (letters ⟨i, m, a, f, d, c⟩).all (· ∈ alphabet) = true := by
    decide
  obtain ⟨i, m, a, f, d, c⟩ := extensions
  obtain ⟨same, known⟩ := all i m a f d c
  exact ⟨same, fun letter member => of_decide_eq_true (List.all_eq_true.mp known letter member)⟩

end Extensions

namespace Isa

open Extensions (alphabet expanded ofLetters)

variable {found extensions : Extensions} {word rest text : List Char} {width : Width} {name other : String} {isa : Isa}

def mark : Width → List Char
  | .w32 => ['R', 'V', '3', '2']
  | .w64 => ['R', 'V', '6', '4']

/-- A name is a width and a word, which is not empty, in any letter case and between blanks. -/
structure Spells (name : String) (width : Width) (word : List Char) : Prop where
  text : Text.upper (Text.trim name.toList) = mark width ++ word
  nonempty : word ≠ []
  letters : ∀ letter ∈ word, letter ∈ alphabet

def Complete (word : List Char) : Prop :=
  'I' ∈ expanded word ∧ ('D' ∈ expanded word → 'F' ∈ expanded word)

instance (word : List Char) : Decidable (Complete word) :=
  inferInstanceAs (Decidable (_ ∧ _))

theorem complete_iff : Complete word ↔ (ofLetters (expanded word)).i = true ∧
    ((ofLetters (expanded word)).d = true → (ofLetters (expanded word)).f = true) := by
  simp only [Complete, ofLetters, decide_eq_true_eq]

theorem readLetters_eq_ok_iff : readLetters found word = .ok extensions ↔
    (∀ letter ∈ word, letter ∈ alphabet) ∧ extensions = found.union (ofLetters (expanded word)) := by
  induction word generalizing found with
  | nil =>
    have none : ofLetters (expanded []) = {} := by decide
    rw [readLetters, none, Extensions.union_none, Except.ok.injEq]
    simp [eq_comm]
  | cons letter word ih =>
    have split : expanded (letter :: word) = expanded [letter] ++ expanded word := by simp [expanded]
    rw [readLetters, List.forall_mem_cons, split, Extensions.ofLetters_append, ← Extensions.union_assoc]
    cases read : Extensions.ofLetter? letter with
    | none =>
      have unknown : letter ∉ alphabet := by
        intro member
        cases read.symm.trans (Extensions.ofLetter?_eq_some_iff.mpr ⟨member, rfl⟩)
      simp [unknown]
    | some first =>
      obtain ⟨member, rfl⟩ := Extensions.ofLetter?_eq_some_iff.mp read
      simp only [ih, member, true_and]

theorem readWidth_eq_ok_iff : readWidth text = .ok (width, rest) ↔ text = mark width ++ rest := by
  have narrow : ∀ rest, Text.after? "RV32".toList text = some rest ↔ text = mark .w32 ++ rest :=
    fun rest => Text.after?_eq_some_iff
  have wide : ∀ rest, Text.after? "RV64".toList text = some rest ↔ text = mark .w64 ++ rest :=
    fun rest => Text.after?_eq_some_iff
  unfold readWidth
  cases width with
  | w32 =>
    rw [← narrow]
    cases Text.after? "RV32".toList text with
    | none => cases Text.after? "RV64".toList text <;> simp
    | some found => simp
  | w64 =>
    cases short : Text.after? "RV32".toList text with
    | none =>
      rw [← wide]
      cases Text.after? "RV64".toList text <;> simp
    | some found =>
      have absent : Text.after? "RV64".toList text = none := by
        rw [(narrow found).mp short]
        rfl
      rw [← wide, absent]
      simp

theorem parse_of_spells (spells : Spells name width word) : parse name =
    if 'I' ∉ expanded word then .error .noBase
    else if 'D' ∈ expanded word ∧ 'F' ∉ expanded word then .error .doubleWithoutSingle
    else .ok ⟨width, ofLetters (expanded word)⟩ := by
  have read := readLetters_eq_ok_iff.mpr ⟨spells.letters, (Extensions.none_union _).symm⟩
  have filled : word.isEmpty = false := by simp [spells.nonempty]
  unfold parse
  simp only [readWidth_eq_ok_iff.mpr spells.text, bind, Except.bind, filled, read, ofLetters]
  simp [pure, Except.pure]

theorem exists_spells_of_parse (read : parse name = .ok isa) : ∃ word, Spells name isa.width word := by
  unfold parse at read
  cases found : readWidth (Text.upper (Text.trim name.toList)) with
  | error fault =>
    rw [found] at read
    cases read
  | ok cut =>
    obtain ⟨width, word⟩ := cut
    simp only [found, bind, Except.bind] at read
    by_cases empty : word = []
    · simp [empty] at read
    · cases letters : readLetters {} word with
      | error fault => simp [letters, empty] at read
      | ok extensions =>
        have same : isa.width = width := by
          simp only [letters, List.isEmpty_iff, if_neg empty] at read
          split at read
          · cases read
          · split at read
            · cases read
            · cases read
              rfl
        exact ⟨word, same ▸ readWidth_eq_ok_iff.mp found, empty, (readLetters_eq_ok_iff.mp letters).1⟩

theorem parse_eq_ok_iff : parse name = .ok isa ↔
    ∃ word, Spells name isa.width word ∧ Complete word ∧ isa.extensions = ofLetters (expanded word) := by
  constructor
  · intro read
    obtain ⟨word, spells⟩ := exists_spells_of_parse read
    rw [parse_of_spells spells] at read
    split at read
    · cases read
    · rename_i base
      split at read
      · cases read
      · rename_i single
        refine ⟨word, spells, ⟨not_not.mp base, fun double => ?_⟩, ?_⟩
        · exact by_contra fun missing => single ⟨double, missing⟩
        · exact (congrArg Isa.extensions (Except.ok.inj read)).symm
  · rintro ⟨word, spells, ⟨base, single⟩, same⟩
    have whole : ¬ ('D' ∈ expanded word ∧ 'F' ∉ expanded word) := fun ⟨double, missing⟩ => missing (single double)
    rw [parse_of_spells spells, if_neg (not_not.mpr base), if_neg whole, ← same]

theorem toList_name (isa : Isa) : isa.name.toList = mark isa.width ++ isa.extensions.letters := by
  rw [name, String.toList_ofList]
  cases isa.width <;> rfl

/-- A letter or digit of a name stands for itself, between blanks and in capitals. -/
def Capital (c : Char) : Prop :=
  Text.isBlank c = false ∧ c.toUpper = c

instance (c : Char) : Decidable (Capital c) :=
  inferInstanceAs (Decidable (_ ∧ _))

theorem capital_name (isa : Isa) : ∀ c ∈ isa.name.toList, Capital c := by
  have marks : (mark isa.width).all (Capital ·) = true := by
    cases isa.width <;> decide
  have capitals : alphabet.all (Capital ·) = true := by decide
  rw [toList_name]
  intro c member
  rcases List.mem_append.mp member with front | back
  · exact of_decide_eq_true (List.all_eq_true.mp marks c front)
  · have known := (Extensions.ofLetters_letters isa.extensions).2 c back
    exact of_decide_eq_true (List.all_eq_true.mp capitals c known)

theorem spells_name (some : isa.extensions.letters ≠ []) : Spells isa.name isa.width isa.extensions.letters := by
  have plain := capital_name isa
  have tight : Text.Tight isa.name.toList :=
    ⟨fun c first => (plain c (List.mem_of_mem_head? first)).1,
      fun c last => (plain c (List.mem_of_mem_getLast? last)).1⟩
  have same : Text.upper isa.name.toList = isa.name.toList :=
    (List.map_congr_left fun c member => (plain c member).2).trans (List.map_id' _)
  refine ⟨?_, some, (Extensions.ofLetters_letters isa.extensions).2⟩
  rw [Text.trim_of_tight tight, same, toList_name]

theorem parse_name (read : parse name = .ok isa) : parse isa.name = .ok isa := by
  obtain ⟨word, -, complete, same⟩ := parse_eq_ok_iff.mp read
  have whole := (Extensions.ofLetters_letters isa.extensions).1
  have again : Complete isa.extensions.letters := by
    rw [complete_iff, whole, same]
    exact complete_iff.mp complete
  have base : isa.extensions.i = true := by
    rw [same]
    exact (complete_iff.mp complete).1
  have some : isa.extensions.letters ≠ [] := by simp [Extensions.letters, base]
  exact parse_eq_ok_iff.mpr ⟨isa.extensions.letters, spells_name some, again, whole.symm⟩

/-- A text is read if it is the name of a width and of a word with the base extension, and with singles if with
    doubles; what is read has that width and the extensions of the word. So the letters count as a set, and the
    name that is written for an instruction set is read as this set and written again as it was. -/
theorem names_decide (name : String) :
    (∀ isa, parse name = .ok isa ↔
      ∃ word, Spells name isa.width word ∧ Complete word ∧ isa.extensions = ofLetters (expanded word)) ∧
    (∀ other isa same width word letters, parse name = .ok isa → parse other = .ok same →
      Spells name width word → Spells other width letters →
        (∀ letter, letter ∈ expanded word ↔ letter ∈ expanded letters) → isa = same) ∧
    ∀ isa, parse name = .ok isa →
      ∃ again, parse isa.name = .ok again ∧ again = isa ∧ again.name = isa.name := by
  refine ⟨fun _ => parse_eq_ok_iff, ?_, ?_⟩
  · intro other isa same width word letters first second spelled spells alike
    rw [parse_of_spells spelled] at first
    rw [parse_of_spells spells, ← Extensions.ofLetters_congr alike] at second
    simp only [alike] at first
    exact Except.ok.inj (first.symm.trans second)
  · intro isa read
    exact ⟨isa, parse_name read, rfl, rfl⟩

theorem general_in_any_order :
    let isa : Isa := ⟨.w64, ⟨true, true, true, true, true, true⟩⟩
    parse " rv64Gc\t" = .ok isa ∧ parse "RV64cdfammi" = .ok isa ∧ isa.name = "RV64IMAFDC" ∧
      parse isa.name = .ok isa := by
  intro isa
  have spelled : Spells " rv64Gc\t" .w64 ['G', 'C'] := ⟨by decide, by decide, by simp [alphabet]⟩
  have spells : Spells "RV64cdfammi" .w64 ['C', 'D', 'F', 'A', 'M', 'M', 'I'] :=
    ⟨by decide, by decide, by simp [alphabet]⟩
  have first : parse " rv64Gc\t" = .ok isa :=
    ((names_decide _).1 isa).mpr ⟨_, spelled, by decide, by decide⟩
  have second : parse "RV64cdfammi" = .ok isa :=
    ((names_decide _).1 isa).mpr ⟨_, spells, by decide, by decide⟩
  obtain ⟨again, read, rfl, -⟩ := (names_decide _).2.2 isa first
  exact ⟨first, second, by decide, read⟩

end Isa

end CoreTiming
