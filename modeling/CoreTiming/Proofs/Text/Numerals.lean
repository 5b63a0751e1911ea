import CoreTiming.Text.Numeral
import Mathlib.Tactic.Common

namespace CoreTiming.Numeral

theorem forall_mem_toDigits {radix : Nat} {property : Char → Prop} (proper : 1 < radix)
    (digits : ∀ digit < radix, property (Nat.digitChar digit)) (n : Nat) :
    ∀ c ∈ Nat.toDigits radix n, property c := by
  induction n using Nat.strongRecOn with
  | ind n ih =>
    by_cases small : n < radix
    · rw [Nat.toDigits_of_lt_base small]
      simpa using digits n small
    · have positive : 0 < n := by omega
      rw [Nat.toDigits_of_base_le proper (Nat.not_lt.mp small)]
      intro c member
      rcases List.mem_append.mp member with before | last
      · exact ih (n / radix) (Nat.div_lt_self positive proper) c before
      · rw [List.mem_singleton.mp last]
        exact digits _ (Nat.mod_lt _ (by omega))

theorem isAlphanum_digitChar : ∀ digit < 16, (Nat.digitChar digit).isAlphanum = true := by
  decide

theorem digit?_digitChar : ∀ digit < 16, ∀ radix ≤ 16, digit < radix →
    digit? radix (Nat.digitChar digit) = some digit := by
  decide

theorem readDigits_append {radix limit value result : Nat} {digits : List Char}
    (done : readDigits radix limit value digits = .ok result) (rest : List Char) :
    readDigits radix limit value (digits ++ rest) = readDigits radix limit result rest := by
  induction digits generalizing value with
  | nil =>
    cases done
    rfl
  | cons digit digits ih =>
    rw [readDigits] at done
    rw [List.cons_append, readDigits]
    cases found : digit? radix digit with
    | none =>
      rw [found] at done
      cases done
    | some d =>
      simp only [found] at done ⊢
      split at done
      · rename_i fits
        rw [if_pos fits]
        exact ih done
      · cases done

variable {radix limit n : Nat}

theorem readDigits_toDigits (proper : 1 < radix) (bound : radix ≤ 16) (fits : n ≤ limit) :
    readDigits radix limit 0 (Nat.toDigits radix n) = .ok n := by
  induction n using Nat.strongRecOn with
  | ind n ih =>
    by_cases small : n < radix
    · rw [Nat.toDigits_of_lt_base small, readDigits, digit?_digitChar n (by omega) radix bound small]
      simp [readDigits, fits]
    · have positive : 0 < n := by omega
      have less := Nat.div_lt_self positive proper
      have last : n % radix < radix := Nat.mod_lt _ (by omega)
      have whole : n / radix * radix + n % radix = n := Nat.div_add_mod' n radix
      rw [Nat.toDigits_of_base_le proper (Nat.not_lt.mp small),
        readDigits_append (ih (n / radix) less (by omega)), readDigits,
        digit?_digitChar _ (by omega) radix bound last]
      simp [readDigits, whole, fits]

theorem ne_of_isAlphanum {c : Char} (plain : c.isAlphanum = true) : c ≠ '+' ∧ c ≠ '_' ∧ c ≠ '#' := by
  refine ⟨?_, ?_, ?_⟩ <;>
  · rintro rfl
    revert plain
    decide

theorem read_of_unsigned {c : Char} (unsigned : c ≠ '+') (rest : List Char) :
    read radix limit (c :: rest) = readDigits radix limit 0 (c :: rest) := by
  unfold read
  split
  · contradiction
  · rename_i same
    cases same
    contradiction
  · rename_i same
    cases same
    contradiction
  · rfl

theorem read_of_isAlphanum {digits : List Char} (nonempty : digits ≠ [])
    (plain : ∀ c ∈ digits, c.isAlphanum = true) :
    read radix limit digits = readDigits radix limit 0 digits := by
  obtain ⟨c, rest, rfl⟩ := List.exists_cons_of_ne_nil nonempty
  exact read_of_unsigned (ne_of_isAlphanum (plain c List.mem_cons_self)).1 rest

theorem isAlphanum_toDigits (proper : 1 < radix) (bound : radix ≤ 16) (n : Nat) :
    ∀ c ∈ Nat.toDigits radix n, c.isAlphanum = true :=
  forall_mem_toDigits proper (fun digit small => isAlphanum_digitChar digit (by omega)) n

theorem read_toDigits (proper : 1 < radix) (bound : radix ≤ 16) (fits : n ≤ limit) :
    read radix limit (Nat.toDigits radix n) = .ok n := by
  rw [read_of_isAlphanum Nat.toDigits_ne_nil (isAlphanum_toDigits proper bound n)]
  exact readDigits_toDigits proper bound fits

theorem filter_of_isAlphanum {text : List Char} (plain : ∀ c ∈ text, c.isAlphanum = true) :
    text.filter (· != '_') = text := by
  rw [List.filter_eq_self]
  intro c member
  simpa using (ne_of_isAlphanum (plain c member)).2.1

theorem readLiteral_decimal (fits : n ≤ wordLimit) : readLiteral (Nat.toDigits 10 n) = .ok n := by
  have plain := isAlphanum_toDigits (by decide : 1 < 10) (by decide) n
  have decimal : ∀ c ∈ Nat.toDigits 10 n, c.isDigit = true :=
    fun c member => Nat.isDigit_of_mem_toDigits (by decide) (by decide) member
  unfold readLiteral
  rw [filter_of_isAlphanum plain]
  split
  · rename_i same
    have marker := decimal 'x' (by simp [same])
    contradiction
  · rename_i same
    have marker := decimal 'X' (by simp [same])
    contradiction
  · exact read_toDigits (by decide) (by decide) fits

theorem readLiteral_hex (fits : n ≤ wordLimit) : readLiteral ('0' :: 'x' :: hexDigits n) = .ok n := by
  have plain := isAlphanum_toDigits (by decide : 1 < 16) (by decide) n
  unfold readLiteral hexDigits
  rw [List.filter_cons_of_pos (by decide), List.filter_cons_of_pos (by decide), filter_of_isAlphanum plain]
  exact read_toDigits (by decide) (by decide) fits

theorem eq_toLower_or (c : Char) : c = c.toLower ∨ c = c.toLower.toUpper := by
  by_cases upper : 'A'.val ≤ c.val ∧ c.val ≤ 'Z'.val
  · have letters : ∀ index < 26, Char.ofNat (65 + index) = (Char.ofNat (65 + index)).toLower.toUpper := by
      decide
    obtain ⟨first, last⟩ := upper
    have above : 65 ≤ c.toNat := UInt32.le_iff_toNat_le.mp first
    have below : c.toNat ≤ 90 := UInt32.le_iff_toNat_le.mp last
    have letter := letters (c.toNat - 65) (by omega)
    rw [Nat.add_sub_cancel' above, Char.ofNat_toNat] at letter
    exact .inr letter
  · left
    delta Char.toLower
    rw [dif_neg upper]

theorem of_toLower_eq_digitChar {digit : Nat} (small : digit < 16) {c : Char}
    (same : c.toLower = Nat.digitChar digit) :
    digit? 16 c = some digit ∧ c.isAlphanum = true ∧ c ≠ 'x' ∧ c ≠ 'X' ∧ c.utf8Size = 1 := by
  have both : ∀ digit < 16, [Nat.digitChar digit, (Nat.digitChar digit).toUpper].all (fun c =>
      digit? 16 c = some digit && c.isAlphanum && c ≠ 'x' && c ≠ 'X' && c.utf8Size = 1) = true := by
    decide
  have among : c ∈ [Nat.digitChar digit, (Nat.digitChar digit).toUpper] := by
    rw [← same]
    simpa using eq_toLower_or c
  simpa [and_assoc] using List.all_eq_true.mp (both digit small) c among

theorem read_byte {high low : Char} (byte : UInt8) (first : high.toLower = Nat.digitChar (byte.toNat / 16))
    (second : low.toLower = Nat.digitChar (byte.toNat % 16)) : read 16 255 [high, low] = .ok byte.toNat := by
  have bound := byte.toNat_lt
  obtain ⟨high_digit, high_plain, -⟩ := of_toLower_eq_digitChar (by omega) first
  obtain ⟨low_digit, low_plain, -⟩ := of_toLower_eq_digitChar (Nat.mod_lt _ (by decide)) second
  have whole : byte.toNat / 16 * 16 + byte.toNat % 16 = byte.toNat := Nat.div_add_mod' byte.toNat 16
  rw [read_of_isAlphanum (by simp) (by simp [high_plain, low_plain]), readDigits, high_digit]
  simp only [Nat.zero_mul, Nat.zero_add]
  rw [if_pos (by omega), readDigits, low_digit]
  simp only [whole]
  rw [if_pos (by omega)]
  rfl

end CoreTiming.Numeral
