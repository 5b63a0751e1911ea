import CoreTiming.Text.Split
import Mathlib.Data.List.TakeWhile
import Mathlib.Tactic.Common

namespace CoreTiming.Text

variable {text left right : List Char}

theorem isBlank_of_isAlphanum {c : Char} (plain : c.isAlphanum = true) : isBlank c = false := by
  delta Char.isAlphanum Char.isAlpha Char.isUpper Char.isLower Char.isDigit at plain
  simp only [Bool.or_eq_true, Bool.and_eq_true, decide_eq_true_eq, ge_iff_le, UInt32.le_iff_toNat_le] at plain
  have ranges : (65 ≤ c.toNat ∧ c.toNat ≤ 90 ∨ 97 ≤ c.toNat ∧ c.toNat ≤ 122) ∨
      48 ≤ c.toNat ∧ c.toNat ≤ 57 := plain
  simp only [isBlank, blankRanges, List.any_cons, List.any_nil, Bool.or_false, Bool.or_eq_false_iff,
    Bool.and_eq_false_iff, decide_eq_false_iff_not]
  omega

def Blank (text : List Char) : Prop :=
  ∀ c ∈ text, isBlank c = true

instance (text : List Char) : Decidable (Blank text) :=
  List.decidableBAll (isBlank · = true) text

theorem trimStart_of_blank (blank : Blank text) : trimStart text = [] :=
  List.dropWhile_eq_nil_iff.mpr blank

theorem trimStart_append (blank : Blank left) (text : List Char) :
    trimStart (left ++ text) = trimStart text := by
  unfold trimStart
  rw [List.dropWhile_append, List.dropWhile_eq_nil_iff.mpr blank]
  rfl

theorem trimEnd_append (blank : Blank right) (text : List Char) : trimEnd (text ++ right) = trimEnd text := by
  unfold trimEnd
  rw [List.reverse_append, trimStart_append]
  intro c member
  exact blank c (List.mem_reverse.mp member)

theorem trim_append (blank : Blank right) (text : List Char) : trim (text ++ right) = trim text := by
  unfold trim
  by_cases only : trimStart text = []
  · have all : Blank text := List.dropWhile_eq_nil_iff.mp only
    rw [trimStart_append all, trimStart_of_blank blank, only]
  · have same : trimStart (text ++ right) = trimStart text ++ right := by
      unfold trimStart at only ⊢
      rw [List.dropWhile_append, if_neg (by simpa using only)]
    rw [same, trimEnd_append blank]

theorem trim_eq_nil_iff : trim text = [] ↔ Blank text := by
  constructor
  · intro empty
    have blank : Blank (trimStart text) := by
      rw [trim, trimEnd, List.reverse_eq_nil_iff] at empty
      intro c member
      exact List.dropWhile_eq_nil_iff.mp empty c (List.mem_reverse.mpr member)
    intro c member
    rw [← List.takeWhile_append_dropWhile (p := isBlank) (l := text)] at member
    rcases List.mem_append.mp member with before | behind
    · exact List.mem_takeWhile_imp before
    · exact blank c behind
  · intro blank
    rw [trim, trimStart_of_blank blank]
    rfl

/-- Neither end of the text is a blank. -/
structure Tight (text : List Char) : Prop where
  first : ∀ c ∈ text.head?, isBlank c = false
  last : ∀ c ∈ text.getLast?, isBlank c = false

theorem trimStart_eq_self (first : ∀ c ∈ text.head?, isBlank c = false) : trimStart text = text := by
  cases text with
  | nil => rfl
  | cons c rest => exact List.dropWhile_cons_of_neg (by simp [first c rfl])

theorem trim_of_tight (tight : Tight text) : trim text = text := by
  have reversed : trimStart text.reverse = text.reverse := by
    apply trimStart_eq_self
    rw [List.head?_reverse]
    exact tight.last
  rw [trim, trimStart_eq_self tight.first, trimEnd, reversed, List.reverse_reverse]

structure Word (text : List Char) : Prop where
  nonempty : text ≠ []
  plain : ∀ c ∈ text, c.isAlphanum = true

def spaced (words : List (List Char)) : List Char :=
  [' '].intercalate words

theorem spaced_cons_cons (word next : List Char) (rest : List (List Char)) :
    spaced (word :: next :: rest) = word ++ ' ' :: spaced (next :: rest) := by
  simp [spaced, List.intercalate_cons_cons]

theorem Word.append {word : List Char} (first : Word word) (plain : ∀ c ∈ text, c.isAlphanum = true) :
    Word (word ++ text) where
  nonempty := by simp [first.nonempty]
  plain c member := (List.mem_append.mp member).elim (first.plain c) (plain c)

theorem wordsFrom_append {word : List Char} (plain : ∀ c ∈ word, c.isAlphanum = true) (run rest : List Char) :
    wordsFrom run (word ++ rest) = wordsFrom (word.reverse ++ run) rest := by
  induction word generalizing run with
  | nil => rfl
  | cons c word ih =>
    rw [List.cons_append, wordsFrom, isBlank_of_isAlphanum (plain c List.mem_cons_self),
      if_neg (by decide), ih fun other member => plain other (List.mem_cons_of_mem _ member),
      List.reverse_cons, List.append_assoc, List.singleton_append]

theorem words_spaced {list : List (List Char)} (all : ∀ word ∈ list, Word word) :
    words (spaced list) = list := by
  induction list with
  | nil => rfl
  | cons word rest ih =>
    have first := all word List.mem_cons_self
    have run : word.reverse.isEmpty = false := by simp [first.nonempty]
    have others := ih fun other member => all other (List.mem_cons_of_mem _ member)
    cases rest with
    | nil =>
      have alone : spaced [word] = word ++ [] := by simp [spaced]
      rw [words, alone, wordsFrom_append first.plain, List.append_nil, wordsFrom, run]
      simp
    | cons next rest =>
      rw [words, spaced_cons_cons, wordsFrom_append first.plain, List.append_nil, wordsFrom,
        if_pos (by decide), run, if_neg (by decide), List.reverse_reverse]
      exact congrArg (word :: ·) others

theorem mem_spaced {list : List (List Char)} {c : Char} (member : c ∈ spaced list) :
    c = ' ' ∨ ∃ word ∈ list, c ∈ word := by
  induction list with
  | nil => cases member
  | cons word rest ih =>
    cases rest with
    | nil =>
      right
      simpa [spaced] using member
    | cons next rest =>
      rw [spaced_cons_cons] at member
      rcases List.mem_append.mp member with first | behind
      · exact .inr ⟨word, List.mem_cons_self, first⟩
      · rcases List.mem_cons.mp behind with blank | others
        · exact .inl blank
        · exact (ih others).imp_right fun ⟨other, among, within⟩ =>
            ⟨other, List.mem_cons_of_mem _ among, within⟩

theorem head?_spaced {word : List Char} (first : Word word) (rest : List (List Char)) :
    ∃ c ∈ word, (spaced (word :: rest)).head? = some c := by
  obtain ⟨c, text, rfl⟩ := List.exists_cons_of_ne_nil first.nonempty
  refine ⟨c, List.mem_cons_self, ?_⟩
  cases rest with
  | nil => simp [spaced]
  | cons next rest => rw [spaced_cons_cons, List.cons_append, List.head?_cons]

theorem getLast?_spaced {word : List Char} {rest : List (List Char)}
    (all : ∀ other ∈ word :: rest, Word other) :
    ∃ other ∈ word :: rest, ∃ c ∈ other, (spaced (word :: rest)).getLast? = some c := by
  induction rest generalizing word with
  | nil =>
    have nonempty := (all word List.mem_cons_self).nonempty
    refine ⟨word, List.mem_cons_self, word.getLast nonempty, List.getLast_mem nonempty, ?_⟩
    simp [spaced, List.getLast?_eq_some_getLast nonempty]
  | cons next rest ih =>
    obtain ⟨other, among, c, member, last⟩ :=
      ih fun other member => all other (List.mem_cons_of_mem _ member)
    refine ⟨other, List.mem_cons_of_mem _ among, c, member, ?_⟩
    rw [spaced_cons_cons, List.getLast?_append, List.getLast?_cons, last]
    rfl

theorem tight_spaced {list : List (List Char)} (all : ∀ word ∈ list, Word word) : Tight (spaced list) := by
  cases list with
  | nil => exact ⟨by simp [spaced], by simp [spaced]⟩
  | cons word rest =>
    have word_first := all word List.mem_cons_self
    obtain ⟨first, within, head⟩ := head?_spaced word_first rest
    obtain ⟨other, among, last, inside, final⟩ := getLast?_spaced all
    constructor
    · intro c same
      cases head.symm.trans same
      exact isBlank_of_isAlphanum (word_first.plain first within)
    · intro c same
      cases final.symm.trans same
      exact isBlank_of_isAlphanum ((all other among).plain last inside)

theorem splitAt_of_not_mem {separator : Char} (absent : separator ∉ text) :
    splitAt separator text = [text] := by
  induction text with
  | nil => rfl
  | cons c rest ih =>
    rw [List.mem_cons, not_or] at absent
    rw [splitAt, if_neg (Ne.symm absent.1), ih absent.2]

theorem exists_splitAt_cons {separator c : Char} (different : c ≠ separator) (rest : List Char) :
    ∃ piece pieces, splitAt separator rest = piece :: pieces ∧
      splitAt separator (c :: rest) = (c :: piece) :: pieces := by
  obtain ⟨piece, pieces, cut⟩ := List.exists_cons_of_ne_nil (splitAt_ne_nil separator rest)
  refine ⟨piece, pieces, cut, ?_⟩
  rw [splitAt, if_neg different, cut]

theorem splitAt_append_cons (separator : Char) (left right : List Char) :
    splitAt separator (left ++ separator :: right) =
      splitAt separator left ++ splitAt separator right := by
  induction left with
  | nil => exact if_pos rfl
  | cons c left ih =>
    by_cases same : c = separator
    · rw [List.cons_append, splitAt, if_pos same, ih, splitAt, if_pos same, List.cons_append]
    · obtain ⟨piece, pieces, cut, longer⟩ := exists_splitAt_cons same left
      obtain ⟨_, _, joined, whole⟩ := exists_splitAt_cons same (left ++ separator :: right)
      rw [ih, cut, List.cons_append] at joined
      obtain ⟨rfl, rfl⟩ := List.cons.inj joined
      rw [List.cons_append, whole, longer, List.cons_append]

theorem splitAt_append {separator : Char} (absent : separator ∉ text) (rest : List Char) :
    splitAt separator (text ++ separator :: rest) = text :: splitAt separator rest := by
  rw [splitAt_append_cons, splitAt_of_not_mem absent, List.singleton_append]

theorem splitAt_flatMap {separator : Char} {pieces : List (List Char)} (absent : ∀ piece ∈ pieces, separator ∉ piece) :
    splitAt separator (pieces.flatMap (· ++ [separator])) = pieces ++ [[]] := by
  induction pieces with
  | nil => rfl
  | cons piece pieces ih =>
    rw [List.flatMap_cons, List.append_assoc, List.singleton_append, splitAt_append (absent piece List.mem_cons_self),
      ih fun other member => absent other (List.mem_cons_of_mem _ member), List.cons_append]

theorem lines_flatMap {list : List (List Char)} (unbroken : ∀ line ∈ list, '\n' ∉ line)
    (whole : ∀ line ∈ list, line.getLast? ≠ some '\r') : lines (list.flatMap (· ++ ['\n'])) = list := by
  have kept : ∀ line ∈ list, dropReturn line = line := fun line member => if_neg (whole line member)
  unfold lines
  simp only [splitAt_flatMap unbroken, List.dropLast_concat, List.getLast?_concat]
  exact (List.map_congr_left kept).trans (List.map_id' _)

theorem length_splitAt (separator : Char) (text : List Char) :
    (splitAt separator text).length = text.count separator + 1 := by
  induction text with
  | nil => rfl
  | cons c text ih =>
    by_cases same : c = separator
    · rw [splitAt, if_pos same, same, List.length_cons, ih, List.count_cons_self]
    · obtain ⟨piece, pieces, cut, longer⟩ := exists_splitAt_cons same text
      rw [cut] at ih
      rw [longer, List.count_cons_of_ne same]
      exact ih

theorem not_mem_of_mem_splitAt {separator : Char} {piece : List Char}
    (member : piece ∈ splitAt separator text) : separator ∉ piece := by
  induction text generalizing piece with
  | nil =>
    rw [List.mem_singleton.mp member]
    exact List.not_mem_nil
  | cons c text ih =>
    by_cases same : c = separator
    · rw [splitAt, if_pos same] at member
      rcases List.mem_cons.mp member with rfl | member
      · exact List.not_mem_nil
      · exact ih member
    · obtain ⟨first, pieces, cut, longer⟩ := exists_splitAt_cons same text
      rw [cut] at ih
      rw [longer] at member
      rcases List.mem_cons.mp member with rfl | member
      · rw [List.mem_cons, not_or]
        exact ⟨Ne.symm same, ih List.mem_cons_self⟩
      · exact ih (List.mem_cons_of_mem _ member)

theorem before_append {separator : Char} (absent : separator ∉ text) {comment : List Char}
    (marked : comment = [] ∨ comment.head? = some separator) : before separator (text ++ comment) = text := by
  have plain : ∀ c ∈ text, (c != separator) = true := by
    intro c member
    rw [bne_iff_ne]
    rintro rfl
    exact absent member
  unfold before
  rw [List.takeWhile_append_of_pos plain]
  rcases marked with rfl | marked
  · exact List.append_nil text
  · obtain ⟨rest, rfl⟩ := List.head?_eq_some_iff.mp marked
    rw [List.takeWhile_cons_of_neg (by simp), List.append_nil]

theorem before_of_not_mem {separator : Char} (absent : separator ∉ text) : before separator text = text := by
  have whole := before_append absent (.inl rfl)
  rwa [List.append_nil] at whole

theorem after?_eq_some_iff {start rest : List Char} : after? start text = some rest ↔ text = start ++ rest := by
  induction start generalizing text with
  | nil =>
    rw [after?, Option.some.injEq]
    rfl
  | cons s start ih =>
    cases text with
    | nil => simp [after?]
    | cons c text =>
      rw [after?]
      by_cases same : s = c
      · rw [if_pos same, ih, same, List.cons_append, List.cons.injEq]
        simp
      · rw [if_neg same, List.cons_append, List.cons.injEq]
        simp [Ne.symm same]

theorem upTo?_eq_some_iff {stop front : List Char} : upTo? stop text = some front ↔ text = front ++ stop := by
  unfold upTo?
  rw [Option.map_eq_some_iff]
  constructor
  · rintro ⟨reversed, found, rfl⟩
    rw [after?_eq_some_iff, List.reverse_eq_iff] at found
    rw [found, List.reverse_append, List.reverse_reverse]
  · rintro rfl
    refine ⟨front.reverse, ?_, List.reverse_reverse front⟩
    rw [after?_eq_some_iff, List.reverse_append]

end CoreTiming.Text
