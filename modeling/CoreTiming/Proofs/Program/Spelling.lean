import CoreTiming.Program.Trace
import CoreTiming.Proofs.Config.Readings
import CoreTiming.Proofs.Text.Cutting
import CoreTiming.Proofs.Text.Numerals

namespace CoreTiming

def Operation.Fits : Operation → Prop
  | .compute cycles => cycles ≤ longestDuration
  | .load address | .store address => address ≤ Numeral.wordLimit
  | .offload work => work.instruction < 0x100000000 ∧ work.cycles ≤ longestDuration
  | .wait | .halt => True

namespace Trace

/-- Two digits for each byte, in either letter case, behind a marker or without one. -/
def SpellsPayload (payload : List UInt8) (token : List Char) : Prop :=
  ∃ marker ∈ ["", "0x", "0X"], ∃ digits, token = marker.toList ++ digits ∧
    Text.lower digits = hexBytes payload

/-- The text of an operation, and behind it the payload if there is one. -/
inductive Spells : Operation → List Char → Prop
  | bare (operation : Operation) (none : ∀ work, operation = .offload work → work.payload = []) :
      Spells operation operation.text.toList
  | withPayload (work : Offload) (token : List Char) (some : work.payload ≠ [])
      (spells : SpellsPayload work.payload token) :
      Spells (.offload work) ((Operation.offload work).text.toList ++ ' ' :: token)

variable {n : Nat}

theorem readNumber_decimal (fits : n ≤ Numeral.wordLimit) : readNumber (Nat.toDigits 10 n) = .ok n := by
  rw [readNumber, Numeral.readLiteral_decimal fits]
  rfl

theorem readNumber_hex (fits : n ≤ Numeral.wordLimit) :
    readNumber ('0' :: 'x' :: Numeral.hexDigits n) = .ok n := by
  rw [readNumber, Numeral.readLiteral_hex fits]
  rfl

theorem readDuration_decimal (fits : n ≤ longestDuration) : readDuration (Nat.toDigits 10 n) = .ok n := by
  have word : longestDuration ≤ Numeral.wordLimit := by decide
  rw [readDuration, readNumber_decimal (Nat.le_trans fits word)]
  exact if_neg (Nat.not_lt.mpr fits)

theorem readInstruction_decimal (fits : n < 0x100000000) : readInstruction (Nat.toDigits 10 n) = .ok n := by
  have word : 0x100000000 ≤ Numeral.wordLimit := by decide
  rw [readInstruction, readNumber_decimal (by omega)]
  exact if_neg (Nat.not_le.mpr fits)

theorem exists_of_lower_eq {byte : UInt8} {payload : List UInt8} {digits : List Char}
    (same : Text.lower digits = hexBytes (byte :: payload)) :
    ∃ high low rest, digits = high :: low :: rest ∧ high.toLower = Nat.digitChar (byte.toNat / 16) ∧
      low.toLower = Nat.digitChar (byte.toNat % 16) ∧ Text.lower rest = hexBytes payload := by
  obtain ⟨high, behind, rfl, first, same⟩ := List.map_eq_cons_iff.mp same
  obtain ⟨low, rest, rfl, second, same⟩ := List.map_eq_cons_iff.mp same
  exact ⟨high, low, rest, rfl, first, second, same⟩

theorem digits_of_lower_eq {payload : List UInt8} {digits : List Char}
    (same : Text.lower digits = hexBytes payload) : readPairs digits = some payload ∧
      (String.ofList digits).utf8ByteSize = 2 * payload.length ∧ ∀ c ∈ digits, c.isAlphanum = true := by
  induction payload generalizing digits with
  | nil =>
    obtain rfl : digits = [] := by simpa [Text.lower, hexBytes] using same
    simp [readPairs]
  | cons byte payload ih =>
    obtain ⟨high, low, rest, rfl, first, second, others⟩ := exists_of_lower_eq same
    obtain ⟨pairs, size, plain⟩ := ih others
    have bound := byte.toNat_lt
    obtain ⟨-, high_plain, -, -, high_size⟩ := Numeral.of_toLower_eq_digitChar (by omega) first
    obtain ⟨-, low_plain, -, -, low_size⟩ :=
      Numeral.of_toLower_eq_digitChar (Nat.mod_lt _ (by decide)) second
    refine ⟨?_, ?_, ?_⟩
    · rw [readPairs, Numeral.read_byte byte first second]
      simp [pairs]
    · have cut : String.ofList (high :: low :: rest) =
          String.singleton high ++ (String.singleton low ++ String.ofList rest) := by
        simp
      rw [cut, String.utf8ByteSize_append, String.utf8ByteSize_append, String.utf8ByteSize_singleton,
        String.utf8ByteSize_singleton, high_size, low_size, size, List.length_cons]
      omega
    · simpa [high_plain, low_plain] using plain

theorem readPayload_of_spells {payload : List UInt8} {token : List Char}
    (spells : SpellsPayload payload token) :
    readPayload token = .ok payload ∧ (∀ c ∈ token, c.isAlphanum = true) ∧ (token = [] → payload = []) := by
  obtain ⟨marker, known, digits, rfl, same⟩ := spells
  obtain ⟨pairs, size, plain⟩ := digits_of_lower_eq same
  have even : ¬ (String.ofList digits).utf8ByteSize % 2 = 1 := by omega
  refine ⟨?_, ?_, ?_⟩
  · -- hexadecimal digits hold no `x`, so a marker is never read into them
    have unmarked : ∀ rest, digits ≠ '0' :: 'x' :: rest ∧ digits ≠ '0' :: 'X' :: rest := by
      intro rest
      cases payload with
      | nil =>
        obtain rfl : digits = [] := by simpa [Text.lower, hexBytes] using same
        simp
      | cons byte payload =>
        obtain ⟨_, low, _, rfl, -, second, -⟩ := exists_of_lower_eq same
        obtain ⟨-, -, small, large, -⟩ :=
          Numeral.of_toLower_eq_digitChar (Nat.mod_lt _ (by decide)) second
        simp [small, large]
    have marked : marker = "" ∨ marker = "0x" ∨ marker = "0X" := by simpa using known
    rcases marked with rfl | rfl | rfl
    · show readPayload digits = _
      unfold readPayload
      split
      · exact absurd rfl (unmarked _).1
      · exact absurd rfl (unmarked _).2
      · simp only [if_neg even, pairs]
    · show readPayload ('0' :: 'x' :: digits) = _
      simp only [readPayload, if_neg even, pairs]
    · show readPayload ('0' :: 'X' :: digits) = _
      simp only [readPayload, if_neg even, pairs]
  · have letters : ∀ marker ∈ ["", "0x", "0X"], marker.toList.all Char.isAlphanum = true := by decide
    intro c member
    rcases List.mem_append.mp member with first | behind
    · exact List.all_eq_true.mp (letters marker known) c first
    · exact plain c behind
  · intro empty
    rw [(List.append_eq_nil_iff.mp empty).2] at pairs
    exact (Option.some.inj pairs).symm

end Trace

def Operation.words : Operation → List (List Char)
  | .compute cycles => ["compute".toList, Nat.toDigits 10 cycles]
  | .load address => ["load".toList, '0' :: 'x' :: Numeral.hexDigits address]
  | .store address => ["store".toList, '0' :: 'x' :: Numeral.hexDigits address]
  | .offload work => ["offload".toList, Nat.toDigits 10 work.instruction, Nat.toDigits 10 work.cycles]
  | .wait => ["wait".toList]
  | .halt => ["halt".toList]

theorem Operation.toList_text (operation : Operation) :
    operation.text.toList = Text.spaced operation.words := by
  cases operation <;> simp [text, words, Text.spaced, Numeral.hex, toString]

theorem Operation.word_of_mem_words {operation : Operation} {word : List Char}
    (member : word ∈ operation.words) : Text.Word word := by
  have named : ∀ name ∈ ["compute", "load", "store", "offload", "wait", "halt"],
      name.toList ≠ [] ∧ name.toList.all Char.isAlphanum = true := by decide
  have name : ∀ name ∈ ["compute", "load", "store", "offload", "wait", "halt"], Text.Word name.toList :=
    fun name among => ⟨(named name among).1, List.all_eq_true.mp (named name among).2⟩
  have decimal : ∀ n, Text.Word (Nat.toDigits 10 n) :=
    fun n => ⟨Nat.toDigits_ne_nil, Numeral.isAlphanum_toDigits (by decide) (by decide) n⟩
  have hex : ∀ n, Text.Word ('0' :: 'x' :: Numeral.hexDigits n) := by
    intro n
    have marker : Text.Word ['0', 'x'] := ⟨by decide, List.all_eq_true.mp (by decide)⟩
    exact marker.append (Numeral.isAlphanum_toDigits (by decide : 1 < 16) (by decide) n)
  cases operation <;> simp only [words, List.mem_cons, List.not_mem_nil, or_false] at member
  case compute cycles =>
    rcases member with rfl | rfl
    · exact name "compute" (by decide)
    · exact decimal cycles
  case load address =>
    rcases member with rfl | rfl
    · exact name "load" (by decide)
    · exact hex address
  case store address =>
    rcases member with rfl | rfl
    · exact name "store" (by decide)
    · exact hex address
  case offload work =>
    rcases member with rfl | rfl | rfl
    · exact name "offload" (by decide)
    · exact decimal work.instruction
    · exact decimal work.cycles
  case wait => exact member ▸ name "wait" (by decide)
  case halt => exact member ▸ name "halt" (by decide)

namespace Trace

theorem readOperation_bare {operation : Operation} (fits : operation.Fits)
    (bare : ∀ work, operation = .offload work → work.payload = []) :
    readOperation (Text.spaced operation.words) = .ok operation := by
  unfold readOperation
  rw [Text.words_spaced fun word member => Operation.word_of_mem_words member]
  cases operation with
  | compute cycles => simp [Operation.words, Text.lower, readDuration_decimal fits, Except.map]
  | load address => simp [Operation.words, Text.lower, readNumber_hex fits, Except.map]
  | store address => simp [Operation.words, Text.lower, readNumber_hex fits, Except.map]
  | offload work =>
    obtain ⟨instruction, cycles, payload⟩ := work
    obtain rfl : payload = [] := bare _ rfl
    simp [Operation.words, Text.lower, readInstruction_decimal fits.1, readDuration_decimal fits.2,
      bind, Except.bind, pure, Except.pure]
  | wait => simp [Operation.words, Text.lower]
  | halt => simp [Operation.words, Text.lower]

theorem readOperation_payload {work : Offload} (fits : (Operation.offload work).Fits) {token : List Char}
    (all : ∀ word ∈ (Operation.offload work).words ++ [token], Text.Word word)
    (read : readPayload token = .ok work.payload) :
    readOperation (Text.spaced ((Operation.offload work).words ++ [token])) = .ok (.offload work) := by
  unfold readOperation
  rw [Text.words_spaced all]
  simp [Operation.words, Text.lower, readInstruction_decimal fits.1, readDuration_decimal fits.2, read,
    bind, Except.bind, pure, Except.pure]

theorem words_of_spells {operation : Operation} {body : List Char} (spells : Spells operation body) :
    ∃ words, body = Text.spaced words ∧ (∀ word ∈ words, Text.Word word) ∧ words ≠ [] ∧
      (operation.Fits → readOperation body = .ok operation) := by
  cases spells with
  | bare _ none =>
    refine ⟨operation.words, operation.toList_text, fun word => Operation.word_of_mem_words, ?_, ?_⟩
    · cases operation <;> simp [Operation.words]
    · intro fits
      rw [operation.toList_text]
      exact readOperation_bare fits none
  | withPayload work token some spells =>
    obtain ⟨read, plain, nonempty⟩ := readPayload_of_spells spells
    have word : Text.Word token := ⟨fun empty => some (nonempty empty), plain⟩
    have body : (Operation.offload work).text.toList ++ ' ' :: token =
        Text.spaced ((Operation.offload work).words ++ [token]) := by
      rw [Operation.toList_text]
      simp [Operation.words, Text.spaced]
    have all : ∀ other ∈ (Operation.offload work).words ++ [token], Text.Word other := by
      intro other member
      rcases List.mem_append.mp member with first | last
      · exact Operation.word_of_mem_words first
      · exact List.mem_singleton.mp last ▸ word
    rw [body]
    exact ⟨_, rfl, all, by simp, fun fits => readOperation_payload fits all read⟩

theorem readNumber_le {token : List Char} (read : readNumber token = .ok n) : n ≤ Numeral.wordLimit := by
  unfold readNumber at read
  cases literal : Numeral.readLiteral token with
  | error fault =>
    rw [literal] at read
    cases read
  | ok value =>
    rw [literal] at read
    cases read
    exact Numeral.readLiteral_le literal

theorem readDuration_le {token : List Char} (read : readDuration token = .ok n) : n ≤ longestDuration := by
  obtain ⟨cycles, -, bounded⟩ := exists_of_bind_eq_ok read
  split at bounded
  · cases bounded
  · cases bounded
    omega

theorem readInstruction_lt {token : List Char} (read : readInstruction token = .ok n) : n < 0x100000000 := by
  obtain ⟨instruction, -, bounded⟩ := exists_of_bind_eq_ok read
  split at bounded
  · cases bounded
  · cases bounded
    omega

theorem fits_of_readOperation {code : List Char} {operation : Operation}
    (read : readOperation code = .ok operation) : operation.Fits := by
  unfold readOperation at read
  split at read
  · cases read
  · simp only at read
    split at read
    · obtain ⟨cycles, duration, rfl⟩ := exists_of_map_eq_ok read
      exact readDuration_le duration
    · obtain ⟨address, number, rfl⟩ := exists_of_map_eq_ok read
      exact readNumber_le number
    · obtain ⟨address, number, rfl⟩ := exists_of_map_eq_ok read
      exact readNumber_le number
    · split at read
      · cases read
      · obtain ⟨instruction, first, read⟩ := exists_of_bind_eq_ok read
        obtain ⟨cycles, second, read⟩ := exists_of_bind_eq_ok read
        have bounds := And.intro (readInstruction_lt first) (readDuration_le second)
        split at read
        · cases read
          exact bounds
        · obtain ⟨payload, -, read⟩ := exists_of_bind_eq_ok read
          cases read
          exact bounds
    all_goals cases read
    · exact trivial
    · exact trivial

end Trace

end CoreTiming
