import CoreTiming.Program.Workload
import CoreTiming.Proofs.Program.Spelling

namespace CoreTiming

namespace Trace

/-- Blanks around what a line says, and a comment behind it. -/
def Surrounds (body line : List Char) : Prop :=
  ∃ left right comment, line = left ++ body ++ right ++ comment ∧ Text.Blank left ∧ Text.Blank right ∧
    (comment = [] ∨ comment.head? = some '#') ∧ '\n' ∉ line

/-- A text with one line for each operation, between lines that say nothing. The last line may lack a break. -/
inductive Written : List Operation → List Char → Prop
  | done {line : List Char} (silent : Surrounds [] line) : Written [] line
  | last {operation : Operation} {body line : List Char} (spells : Spells operation body)
      (surrounds : Surrounds body line) : Written [operation] line
  | skip {operations : List Operation} {line rest : List Char} (silent : Surrounds [] line)
      (others : Written operations rest) : Written operations (line ++ '\n' :: rest)
  | next {operation : Operation} {operations : List Operation} {body line rest : List Char}
      (spells : Spells operation body) (surrounds : Surrounds body line)
      (others : Written operations rest) : Written (operation :: operations) (line ++ '\n' :: rest)

def line : Operation → List Char
  | .offload ⟨instruction, cycles, byte :: payload⟩ =>
    (Operation.offload ⟨instruction, cycles, byte :: payload⟩).text.toList ++
      ' ' :: hexBytes (byte :: payload)
  | operation => operation.text.toList

def print (operations : List Operation) : String :=
  String.ofList (operations.flatMap fun operation => line operation ++ ['\n'])

theorem code_of_surrounds {words : List (List Char)} {line : List Char} (all : ∀ word ∈ words, Text.Word word)
    (surrounds : Surrounds (Text.spaced words) line) : code line = Text.spaced words := by
  obtain ⟨left, right, comment, rfl, before, behind, marked, -⟩ := surrounds
  have plain : ∀ text, Text.Blank text → '#' ∉ text := by
    intro text blank member
    exact absurd (blank '#' member) (by decide)
  have body : '#' ∉ Text.spaced words := by
    intro member
    rcases Text.mem_spaced member with blank | ⟨word, among, within⟩
    · cases blank
    · exact (Numeral.ne_of_isAlphanum ((all word among).plain '#' within)).2.2 rfl
  have absent : '#' ∉ left ++ Text.spaced words ++ right := by
    simp only [List.mem_append, not_or]
    exact ⟨⟨plain left before, body⟩, plain right behind⟩
  unfold code
  rw [Text.before_append absent marked, Text.trim_append behind]
  show Text.trimEnd (Text.trimStart (left ++ Text.spaced words)) = _
  rw [Text.trimStart_append before]
  exact Text.trim_of_tight (Text.tight_spaced all)

theorem code_dropReturn (line : List Char) : code (Text.dropReturn line) = code line := by
  unfold Text.dropReturn
  split
  · rename_i ends
    obtain ⟨text, rfl⟩ := List.getLast?_eq_some_iff.mp ends
    rw [List.dropLast_concat]
    have blank : Text.Blank ['\r'] := by
      intro c member
      rw [List.mem_singleton.mp member]
      decide
    unfold code
    by_cases marked : '#' ∈ text
    · obtain ⟨front, comment, rfl, absent⟩ := List.eq_append_cons_of_mem marked
      rw [List.append_assoc, Text.before_append absent (.inr rfl), Text.before_append absent (.inr rfl)]
    · have absent : '#' ∉ text ++ ['\r'] := by simp [marked]
      rw [Text.before_of_not_mem marked, Text.before_of_not_mem absent, Text.trim_append blank]
  · rfl

theorem readLines_congr {lines others : List (List Char)} (same : lines.map code = others.map code)
    (number : Nat) : readLines number lines = readLines number others := by
  induction lines generalizing others number with
  | nil =>
    obtain rfl : others = [] := by simpa using same.symm
    rfl
  | cons line lines ih =>
    obtain ⟨other, behind, rfl, first, rest⟩ := List.map_eq_cons_iff.mp same.symm
    simp only [readLines, first, ih rest.symm]

theorem readLines_concat_nil (lines : List (List Char)) (number : Nat) :
    readLines number (lines ++ [[]]) = readLines number lines := by
  induction lines generalizing number with
  | nil => rfl
  | cons line lines ih => simp only [List.cons_append, readLines, ih]

theorem parse_eq_readLines (text : String) :
    parse text = readLines 1 (Text.splitAt '\n' text.toList) := by
  obtain ⟨pieces, last, cut⟩ : ∃ pieces last, Text.splitAt '\n' text.toList = pieces ++ [last] :=
    ⟨_, _, (List.dropLast_concat_getLast (Text.splitAt_ne_nil '\n' text.toList)).symm⟩
  have same : (pieces.map Text.dropReturn).map code = pieces.map code := by
    rw [List.map_map]
    exact List.map_congr_left fun line _ => code_dropReturn line
  unfold parse Text.lines
  simp only [cut, List.dropLast_concat, List.getLast?_concat]
  cases last with
  | nil =>
    rw [readLines_concat_nil]
    exact readLines_congr same 1
  | cons c rest =>
    apply readLines_congr
    rw [List.map_append, List.map_append, same]

theorem readLines_silent {line : List Char} (silent : Surrounds [] line) (number : Nat)
    (rest : List (List Char)) : readLines number (line :: rest) = readLines (number + 1) rest := by
  have empty : code line = [] := code_of_surrounds (by simp : ∀ word ∈ [], Text.Word word) silent
  rw [readLines, empty]
  rfl

theorem readLines_spells {operation : Operation} {body line : List Char} (fits : operation.Fits)
    (spells : Spells operation body) (surrounds : Surrounds body line) (number : Nat)
    (rest : List (List Char)) : readLines number (line :: rest) =
      (readLines (number + 1) rest).map (operation :: ·) := by
  obtain ⟨words, rfl, all, nonempty, reads⟩ := words_of_spells spells
  obtain ⟨word, others, rfl⟩ := List.exists_cons_of_ne_nil nonempty
  obtain ⟨c, -, head⟩ := Text.head?_spaced (all word List.mem_cons_self) others
  have filled : (Text.spaced (word :: others)).isEmpty = false := by
    obtain ⟨behind, same⟩ := List.head?_eq_some_iff.mp head
    rw [same]
    rfl
  rw [readLines, code_of_surrounds all surrounds, filled, reads fits]
  rfl

theorem newline_not_mem {body line : List Char} (surrounds : Surrounds body line) : '\n' ∉ line := by
  obtain ⟨_, _, _, _, _, _, _, absent⟩ := surrounds
  exact absent

theorem readLines_of_written {operations : List Operation} {text : List Char}
    (written : Written operations text) (fits : ∀ operation ∈ operations, operation.Fits) (number : Nat) :
    readLines number (Text.splitAt '\n' text) = .ok operations := by
  induction written generalizing number with
  | done silent =>
    rw [Text.splitAt_of_not_mem (newline_not_mem silent), readLines_silent silent]
    rfl
  | last spells surrounds =>
    rw [Text.splitAt_of_not_mem (newline_not_mem surrounds),
      readLines_spells (fits _ List.mem_cons_self) spells surrounds]
    rfl
  | skip silent others ih =>
    rw [Text.splitAt_append (newline_not_mem silent), readLines_silent silent]
    exact ih fits (number + 1)
  | next spells surrounds others ih =>
    rw [Text.splitAt_append (newline_not_mem surrounds),
      readLines_spells (fits _ List.mem_cons_self) spells surrounds,
      ih (fun operation member => fits operation (List.mem_cons_of_mem _ member)) (number + 1)]
    rfl

theorem parse_of_written {operations : List Operation} {text : String}
    (written : Written operations text.toList) (fits : ∀ operation ∈ operations, operation.Fits) :
    parse text = .ok operations := by
  rw [parse_eq_readLines]
  exact readLines_of_written written fits 1

theorem fits_of_readLines {lines : List (List Char)} {operations : List Operation} {number : Nat}
    (read : readLines number lines = .ok operations) : ∀ operation ∈ operations, operation.Fits := by
  induction lines generalizing number operations with
  | nil =>
    cases read
    simp
  | cons line lines ih =>
    rw [readLines] at read
    split at read
    · exact ih read
    · split at read
      · cases read
      · rename_i operation found
        obtain ⟨others, behind, rfl⟩ := exists_of_map_eq_ok read
        intro other member
        rcases List.mem_cons.mp member with rfl | among
        · exact fits_of_readOperation found
        · exact ih behind other among

theorem lower_hexBytes (payload : List UInt8) : Text.lower (hexBytes payload) = hexBytes payload := by
  have small : ∀ digit < 16, (Nat.digitChar digit).toLower = Nat.digitChar digit := by decide
  induction payload with
  | nil => rfl
  | cons byte payload ih =>
    have bound := byte.toNat_lt
    have digits : hexBytes (byte :: payload) =
        Nat.digitChar (byte.toNat / 16) :: Nat.digitChar (byte.toNat % 16) :: hexBytes payload := rfl
    unfold Text.lower at ih ⊢
    rw [digits, List.map_cons, List.map_cons, small _ (by omega), small _ (by omega), ih]

theorem spells_line (operation : Operation) : Spells operation (line operation) := by
  match operation with
  | .offload ⟨instruction, cycles, byte :: payload⟩ =>
    apply Spells.withPayload
    · exact List.cons_ne_nil byte payload
    · exact ⟨"", by simp, hexBytes (byte :: payload), rfl, lower_hexBytes _⟩
  | .offload ⟨instruction, cycles, []⟩ =>
    apply Spells.bare
    rintro _ ⟨⟩
    rfl
  | .compute _ | .load _ | .store _ | .wait | .halt =>
    apply Spells.bare
    rintro _ ⟨⟩

theorem surrounds_of_spells {operation : Operation} {body : List Char} (spells : Spells operation body) :
    Surrounds body body := by
  obtain ⟨words, rfl, all, -, -⟩ := words_of_spells spells
  refine ⟨[], [], [], by simp, by decide, by decide, .inl rfl, ?_⟩
  intro member
  rcases Text.mem_spaced member with blank | ⟨word, among, within⟩
  · cases blank
  · exact absurd ((all word among).plain '\n' within) (by decide)

theorem written_print (operations : List Operation) : Written operations (print operations).toList := by
  rw [print, String.toList_ofList]
  induction operations with
  | nil => exact .done ⟨[], [], [], rfl, by decide, by decide, .inl rfl, by decide⟩
  | cons operation operations ih =>
    rw [List.flatMap_cons, List.append_assoc, List.singleton_append]
    exact .next (spells_line operation) (surrounds_of_spells (spells_line operation)) ih

end Trace

/-- What a stream answers when it is asked for the time number `count`, counted from zero. A stream that has
    ended stays as it is. -/
def Workload.answer (workload : Workload) : Nat → Option Operation
  | 0 => workload.next?.map Prod.fst
  | count + 1 => match workload.next? with
    | none => workload.answer count
    | some (_, after) => after.answer count

theorem Workload.answer_listed (operations : List Operation) (count : Nat) :
    (Workload.listed operations).answer count = operations[count]? := by
  induction count generalizing operations with
  | zero => cases operations <;> rfl
  | succ count ih =>
    cases operations with
    | nil =>
      show (Workload.listed []).answer count = _
      rw [ih]
      rfl
    | cons operation operations => exact ih operations

namespace Trace

/-- Reading takes back every way of writing operations down, and all that can be read can be written. -/
theorem reading_inverts_writing (operations : List Operation) (text : String) :
    ((∀ operation ∈ operations, operation.Fits) → Written operations text.toList →
        parse text = .ok operations ∧
          ∀ count, (Workload.listed operations).answer count = operations[count]?) ∧
      (parse text = .ok operations → Written operations (print operations).toList ∧
        ∀ printed : String, Written operations printed.toList → parse printed = .ok operations) := by
  constructor
  · intro fits written
    exact ⟨parse_of_written written fits, Workload.answer_listed operations⟩
  · intro read
    have fits := fits_of_readLines read
    exact ⟨written_print operations, fun printed written => parse_of_written written fits⟩

theorem read_despite_comments :
    let operations : List Operation := [.compute 3, .offload ⟨7, 4, [0xde, 0xad, 0xbe, 0xef]⟩, .halt]
    let text := "# header\n  compute 3\t# busy\n\noffload 7 4 0xDEADbeef \r\nhalt"
    parse text = .ok operations ∧ parse (print operations) = .ok operations := by
  intro operations text
  have fits : ∀ operation ∈ operations, operation.Fits := by
    simp [operations, Operation.Fits, longestDuration]
  have cut : text.toList = "# header".toList ++ '\n' :: ("  compute 3\t# busy".toList ++ '\n' :: ([] ++ '\n' ::
      ("offload 7 4 0xDEADbeef \r".toList ++ '\n' :: "halt".toList))) := by decide
  have written : Written operations text.toList := by
    rw [cut]
    apply Written.skip ⟨[], [], "# header".toList, rfl, by decide, by decide, .inr rfl, by decide +kernel⟩
    apply Written.next (.bare (.compute 3) nofun)
      ⟨"  ".toList, "\t".toList, "# busy".toList, rfl, by decide, by decide, .inr rfl, by decide +kernel⟩
    apply Written.skip ⟨[], [], [], rfl, by decide, by decide, .inl rfl, by decide +kernel⟩
    apply Written.next (.withPayload ⟨7, 4, [0xde, 0xad, 0xbe, 0xef]⟩ "0xDEADbeef".toList (by decide)
        ⟨"0x", by decide, "DEADbeef".toList, by decide, by decide⟩)
      ⟨[], " \r".toList, [], rfl, by decide, by decide, .inl rfl, by decide +kernel⟩
    exact Written.last (.bare .halt nofun)
      ⟨[], [], [], rfl, by decide, by decide, .inl rfl, by decide +kernel⟩
  have read := ((reading_inverts_writing operations text).1 fits written).1
  obtain ⟨printed, again⟩ := (reading_inverts_writing operations text).2 read
  exact ⟨read, again (print operations) printed⟩

end Trace

end CoreTiming
