import CoreTiming.Proofs.Program.Spelling

namespace CoreTiming

namespace Numeral

def IsHex (c : Char) : Prop :=
  c ∈ "0123456789abcdefABCDEF".toList

instance (c : Char) : Decidable (IsHex c) :=
  inferInstanceAs (Decidable (c ∈ _))

variable {c high low : Char} {value digit byte : Nat}

theorem toLower_of_digit? (found : digit? 16 c = some digit) :
    digit < 16 ∧ c.toLower = Nat.digitChar digit := by
  have small : c.toNat < 128 := by
    unfold digit? at found
    delta Char.isDigit Char.isLower Char.isUpper at found
    simp only [Bool.and_eq_true, decide_eq_true_eq, ge_iff_le, UInt32.le_iff_toNat_le] at found
    split at found
    · rename_i bounds
      exact Nat.lt_of_le_of_lt bounds.2 (by decide)
    · split at found
      · rename_i bounds
        exact Nat.lt_of_le_of_lt bounds.2 (by decide)
      · split at found
        · rename_i bounds
          exact Nat.lt_of_le_of_lt bounds.2 (by decide)
        · cases found
  have table : ∀ code < 128, ∀ digit ∈ digit? 16 (Char.ofNat code),
      digit < 16 ∧ (Char.ofNat code).toLower = Nat.digitChar digit := by
    decide +kernel
  have known := table c.toNat small digit
  rw [Char.ofNat_toNat] at known
  exact known found

theorem isHex_iff : IsHex c ↔ ∃ digit, digit? 16 c = some digit := by
  constructor
  · intro hex
    have digits : "0123456789abcdefABCDEF".toList.all (digit? 16 · |>.isSome) = true := by decide
    exact Option.isSome_iff_exists.mp (List.all_eq_true.mp digits c hex)
  · rintro ⟨digit, found⟩
    obtain ⟨small, same⟩ := toLower_of_digit? found
    have both : ∀ digit < 16, IsHex (Nat.digitChar digit) ∧ IsHex (Nat.digitChar digit).toUpper := by
      decide
    rcases eq_toLower_or c with lower | upper
    · rw [lower, same]
      exact (both digit small).1
    · rw [upper, same]
      exact (both digit small).2

theorem readDigits_last (small : value < 16) :
    readDigits 16 255 value [low] = .ok byte ↔ ∃ digit, digit? 16 low = some digit ∧ byte = 16 * value + digit := by
  rw [readDigits]
  cases found : digit? 16 low with
  | none => simp
  | some digit =>
    have less := (toLower_of_digit? found).1
    simp only [readDigits, if_pos (by omega : value * 16 + digit ≤ 255), Except.ok.injEq,
      Option.some.injEq, exists_eq_left', Nat.mul_comm 16]
    exact eq_comm

theorem read_pair : read 16 255 [high, low] = .ok byte ↔ ∃ first second,
    (high = '+' ∧ first = 0 ∨ digit? 16 high = some first) ∧ digit? 16 low = some second ∧
      byte = 16 * first + second := by
  by_cases signed : high = '+'
  · subst signed
    have other : digit? 16 '+' = none := by decide
    show readDigits 16 255 0 [low] = _ ↔ _
    rw [readDigits_last (by decide)]
    simp [other]
  · rw [read_of_unsigned signed, readDigits]
    cases found : digit? 16 high with
    | none => simp [signed]
    | some first =>
      have less := (toLower_of_digit? found).1
      simp only [Nat.zero_mul, Nat.zero_add, if_pos (by omega : first ≤ 255), readDigits_last less]
      simp [signed]

end Numeral

namespace Trace

open Numeral (IsHex)

variable {digits : List Char} {bytes : List UInt8}

def unmarked : List Char → List Char
  | '0' :: 'x' :: rest | '0' :: 'X' :: rest => rest
  | token => token

inductive Paired : List Char → Prop
  | nil : Paired []
  | cons {high low : Char} {rest : List Char} (first : high = '+' ∨ IsHex high) (second : IsHex low)
      (others : Paired rest) : Paired (high :: low :: rest)

def unsigned (c : Char) : Char :=
  if c = '+' then '0' else c

theorem readPayload_eq (token : List Char) :
    readPayload token =
      if (String.ofList (unmarked token)).utf8ByteSize % 2 = 1 then .error (.oddPayload (String.ofList token))
      else match readPairs (unmarked token) with
        | none => .error (.malformedPayload (String.ofList token))
        | some bytes => .ok bytes := by
  unfold readPayload
  split
  · rfl
  · rfl
  · rename_i small large
    rewrite [unmarked.eq_3 token small large]
    rfl

theorem unsigned_of_ne {c : Char} (ordinary : c ≠ '+') : unsigned c = c :=
  if_neg ordinary

theorem unsigned_of_isHex {c : Char} (hex : IsHex c) : unsigned c = c := by
  apply unsigned_of_ne
  rintro rfl
  revert hex
  decide

theorem spells_of_read_pair {high low : Char} {byte : Nat} (read : Numeral.read 16 255 [high, low] = .ok byte) :
    (high = '+' ∨ IsHex high) ∧ IsHex low ∧
      hexBytes [UInt8.ofNat byte] = Text.lower [unsigned high, low] := by
  obtain ⟨first, second, leading, last, rfl⟩ := Numeral.read_pair.mp read
  obtain ⟨small, low_written⟩ := Numeral.toLower_of_digit? last
  have sign : high = '+' ∨ IsHex high :=
    leading.imp And.left fun found => Numeral.isHex_iff.mpr ⟨first, found⟩
  have high_written : first < 16 ∧ (unsigned high).toLower = Nat.digitChar first := by
    rcases leading with ⟨rfl, rfl⟩ | found
    · decide
    · rw [unsigned_of_isHex (Numeral.isHex_iff.mpr ⟨first, found⟩)]
      exact Numeral.toLower_of_digit? found
  refine ⟨sign, Numeral.isHex_iff.mpr ⟨second, last⟩, ?_⟩
  have value : (UInt8.ofNat (16 * first + second)).toNat = 16 * first + second := by
    apply UInt8.toNat_ofNat_of_lt'
    show 16 * first + second < 256
    omega
  have quotient : (16 * first + second) / 16 = first := by omega
  have remainder : (16 * first + second) % 16 = second := by omega
  show [Nat.digitChar (_ / 16), Nat.digitChar (_ % 16)] = [(unsigned high).toLower, low.toLower]
  rw [value, quotient, remainder, high_written.2, low_written]

theorem Paired.exists_readPairs (paired : Paired digits) : ∃ bytes, readPairs digits = some bytes := by
  induction paired with
  | nil => exact ⟨[], rfl⟩
  | @cons high low rest first second others ih =>
    obtain ⟨bytes, behind⟩ := ih
    obtain ⟨lower, last⟩ := Numeral.isHex_iff.mp second
    obtain ⟨upper, leading⟩ : ∃ digit, high = '+' ∧ digit = 0 ∨ Numeral.digit? 16 high = some digit := by
      rcases first with signed | hex
      · exact ⟨0, .inl ⟨signed, rfl⟩⟩
      · exact (Numeral.isHex_iff.mp hex).imp fun _ => .inr
    rw [readPairs, Numeral.read_pair.mpr ⟨upper, lower, leading, last, rfl⟩, behind]
    exact ⟨_, rfl⟩

theorem written_of_readPairs (read : readPairs digits = some bytes) :
    Paired digits ∧ hexBytes bytes = Text.lower (digits.map unsigned) ∧ digits.length = 2 * bytes.length := by
  induction digits using readPairs.induct generalizing bytes with
  | case1 =>
    cases read
    exact ⟨.nil, rfl, rfl⟩
  | case2 => cases read
  | case3 high low rest fault failed =>
    rw [readPairs, failed] at read
    cases read
  | case4 high low rest byte found ih =>
    rw [readPairs, found] at read
    obtain ⟨others, behind, rfl⟩ := Option.map_eq_some_iff.mp read
    obtain ⟨paired, written, length⟩ := ih behind
    obtain ⟨first, second, spelled⟩ := spells_of_read_pair found
    refine ⟨.cons first second paired, ?_, ?_⟩
    · have front : hexBytes (UInt8.ofNat byte :: others) = hexBytes [UInt8.ofNat byte] ++ hexBytes others := by
        simp [hexBytes]
      rw [front, spelled, written, List.map_cons, List.map_cons, unsigned_of_isHex second]
      rfl
    · simp only [List.length_cons, length]
      omega

theorem Paired.utf8ByteSize (paired : Paired digits) :
    (String.ofList digits).utf8ByteSize = digits.length ∧ digits.length % 2 = 0 := by
  have hex_size : ∀ c, IsHex c → c.utf8Size = 1 := by
    have sizes : "0123456789abcdefABCDEF".toList.all (·.utf8Size == 1) = true := by decide
    exact fun c hex => beq_iff_eq.mp (List.all_eq_true.mp sizes c hex)
  induction paired with
  | nil => exact ⟨rfl, rfl⟩
  | @cons high low rest first second others ih =>
    obtain ⟨size, even⟩ := ih
    have high_size : high.utf8Size = 1 := by
      rcases first with rfl | hex
      · rfl
      · exact hex_size high hex
    have cut : String.ofList (high :: low :: rest) =
        String.singleton high ++ (String.singleton low ++ String.ofList rest) := by
      simp
    refine ⟨?_, ?_⟩
    · rw [cut, String.utf8ByteSize_append, String.utf8ByteSize_append, String.utf8ByteSize_singleton,
        String.utf8ByteSize_singleton, high_size, hex_size low second, size, List.length_cons, List.length_cons]
      omega
    · simp only [List.length_cons]
      omega

theorem readPayload_eq_ok_iff {token : List Char} :
    readPayload token = .ok bytes ↔ readPairs (unmarked token) = some bytes := by
  rw [readPayload_eq]
  constructor
  · intro read
    split at read
    · cases read
    · split at read
      · cases read
      · rename_i found
        cases read
        exact found
  · intro found
    obtain ⟨size, even⟩ := (written_of_readPairs found).1.utf8ByteSize
    rw [size, even, if_neg (by decide), found]

theorem paired_of_isHex : ∀ {digits : List Char}, digits.length % 2 = 0 → (∀ c ∈ digits, IsHex c) → Paired digits
  | [], _, _ => .nil
  | [_], odd, _ => absurd odd (by simp)
  | high :: low :: rest, even, hex => by
    have others : ∀ c ∈ rest, IsHex c := fun c member => hex c (by simp [member])
    exact .cons (.inr (hex high (by simp))) (hex low (by simp))
      (paired_of_isHex (by simpa [Nat.add_assoc] using even) others)

theorem isHex_of_paired (paired : Paired digits) (plain : '+' ∉ digits) : ∀ c ∈ digits, IsHex c := by
  induction paired with
  | nil => simp
  | cons first second others ih =>
    simp only [List.mem_cons, not_or] at plain
    have high := first.resolve_left (Ne.symm plain.1)
    simp only [List.mem_cons, forall_eq_or_imp]
    exact ⟨high, second, ih plain.2.2⟩

theorem map_unsigned (plain : '+' ∉ digits) : digits.map unsigned = digits := by
  have same : ∀ c ∈ digits, unsigned c = c := by
    intro c member
    apply unsigned_of_ne
    rintro rfl
    exact plain member
  exact (List.map_congr_left same).trans (List.map_id' digits)

/-- A token is a payload if its characters pair up, and its bytes in small letters are what it says. Where no
    sign takes the place of a digit, payloads are the tokens with an even number of hexadecimal digits. -/
theorem payload_as_written (token : List Char) :
    ((∃ bytes, readPayload token = .ok bytes) ↔ Paired (unmarked token)) ∧
    (∀ bytes, readPayload token = .ok bytes →
      hexBytes bytes = Text.lower ((unmarked token).map unsigned) ∧
        (unmarked token).length = 2 * bytes.length) ∧
    ('+' ∉ unmarked token →
      ((∃ bytes, readPayload token = .ok bytes) ↔
        (unmarked token).length % 2 = 0 ∧ ∀ c ∈ unmarked token, IsHex c) ∧
      ∀ bytes, readPayload token = .ok bytes → hexBytes bytes = Text.lower (unmarked token)) := by
  have accepted : (∃ bytes, readPayload token = .ok bytes) ↔ Paired (unmarked token) := by
    simp only [readPayload_eq_ok_iff]
    constructor
    · rintro ⟨bytes, found⟩
      exact (written_of_readPairs found).1
    · exact Paired.exists_readPairs
  have written : ∀ bytes, readPayload token = .ok bytes →
      hexBytes bytes = Text.lower ((unmarked token).map unsigned) ∧
        (unmarked token).length = 2 * bytes.length :=
    fun bytes read => (written_of_readPairs (readPayload_eq_ok_iff.mp read)).2
  refine ⟨accepted, written, fun plain => ⟨?_, fun bytes read => ?_⟩⟩
  · rw [accepted]
    constructor
    · intro paired
      exact ⟨paired.utf8ByteSize.2, isHex_of_paired paired plain⟩
    · rintro ⟨even, hex⟩
      exact paired_of_isHex even hex
  · rw [(written bytes read).1, map_unsigned plain]

theorem capitals_as_written :
    '+' ∉ unmarked "0XDeadBEEF".toList ∧ readPayload "0XDeadBEEF".toList = .ok [0xde, 0xad, 0xbe, 0xef] ∧
      hexBytes [0xde, 0xad, 0xbe, 0xef] = Text.lower "DeadBEEF".toList := by
  have plain : '+' ∉ unmarked "0XDeadBEEF".toList := by decide
  have read : readPayload "0XDeadBEEF".toList = .ok [0xde, 0xad, 0xbe, 0xef] := by decide +kernel
  exact ⟨plain, read, ((payload_as_written "0XDeadBEEF".toList).2.2 plain).2 _ read⟩

theorem sign_makes_byte :
    readPayload "+5".toList = .ok [5] ∧ parse "offload 1 2 +5" = .ok [.offload ⟨1, 2, [5]⟩] ∧
      ¬ ((unmarked "+5".toList).length % 2 = 0 ∧ ∀ c ∈ unmarked "+5".toList, IsHex c) ∧
        hexBytes [5] ≠ Text.lower (unmarked "+5".toList) := by
  refine ⟨by decide +kernel, by decide +kernel, ?_, by decide +kernel⟩
  rintro ⟨-, hex⟩
  exact absurd (hex '+' (by decide)) (by decide)

end Trace

end CoreTiming
