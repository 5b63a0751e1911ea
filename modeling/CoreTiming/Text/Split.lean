namespace CoreTiming.Text

/-- The code points with the Unicode property White_Space, as closed ranges. -/
def blankRanges : List (Nat × Nat) :=
  [(0x09, 0x0D), (0x20, 0x20), (0x85, 0x85), (0xA0, 0xA0), (0x1680, 0x1680), (0x2000, 0x200A),
    (0x2028, 0x2029), (0x202F, 0x202F), (0x205F, 0x205F), (0x3000, 0x3000)]

def isBlank (c : Char) : Bool :=
  blankRanges.any fun range => range.1 ≤ c.toNat && c.toNat ≤ range.2

def trimStart (text : List Char) : List Char :=
  text.dropWhile isBlank

def trimEnd (text : List Char) : List Char :=
  (trimStart text.reverse).reverse

def trim (text : List Char) : List Char :=
  trimEnd (trimStart text)

/-- The pieces between the separators; `n` separators give `n + 1` pieces. -/
def splitAt (separator : Char) : List Char → List (List Char)
  | [] => [[]]
  | c :: rest =>
    if c = separator then [] :: splitAt separator rest
    else match splitAt separator rest with
      | [] => [[c]]
      | piece :: pieces => (c :: piece) :: pieces

theorem splitAt_ne_nil (separator : Char) (text : List Char) : splitAt separator text ≠ [] := by
  cases text with
  | nil => simp [splitAt]
  | cons c rest =>
    simp only [splitAt]
    split
    · simp
    · split <;> simp

def before (separator : Char) (text : List Char) : List Char :=
  text.takeWhile (· != separator)

/-- A carriage return right before the line break belongs to the break. -/
def dropReturn (line : List Char) : List Char :=
  if line.getLast? = some '\r' then line.dropLast else line

/-- The lines of a text. A break ends a line, so nothing follows the last break of a text that
    ends with one. -/
def lines (text : List Char) : List (List Char) :=
  let pieces := splitAt '\n' text
  let broken := pieces.dropLast.map dropReturn
  match pieces.getLast? with
  | none | some [] => broken
  | some last => broken ++ [last]

/-- The maximal runs of characters that are not blank; `run` is the one being read. -/
def wordsFrom (run : List Char) : List Char → List (List Char)
  | [] => if run.isEmpty then [] else [run.reverse]
  | c :: rest =>
    if isBlank c then
      if run.isEmpty then wordsFrom [] rest else run.reverse :: wordsFrom [] rest
    else wordsFrom (c :: run) rest

def words (text : List Char) : List (List Char) :=
  wordsFrom [] text

def after? : (start text : List Char) → Option (List Char)
  | [], text => some text
  | _ :: _, [] => none
  | s :: start, c :: text => if s = c then after? start text else none

def upTo? (stop text : List Char) : Option (List Char) :=
  (after? stop.reverse text.reverse).map List.reverse

/-- Letters of the Latin alphabet without diacritics change case, all else stays. -/
def lower (text : List Char) : List Char :=
  text.map Char.toLower

def upper (text : List Char) : List Char :=
  text.map Char.toUpper

end CoreTiming.Text
