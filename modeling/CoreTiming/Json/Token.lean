import CoreTiming.Json.Basic

namespace CoreTiming.Json

inductive Token
  | openArray
  | closeArray
  | openObject
  | closeObject
  | comma
  | colon
  | text (value : Text)
  | scalar (value : Value)

/-- A character of a text, or a code unit written as an escape. -/
inductive Piece
  | char (c : Char)
  | unit (code : Nat)

/-- Two escapes that form a surrogate pair are one character; any other escape of half a pair is
    none. -/
def Piece.join : List Piece → Option (List Char)
  | [] => some []
  | .char c :: rest => (join rest).map (c :: ·)
  | .unit high :: .unit low :: rest =>
    if 0xD800 ≤ high && high ≤ 0xDBFF && 0xDC00 ≤ low && low ≤ 0xDFFF then
      (join rest).map (Char.ofNat (0x10000 + (high - 0xD800) * 0x400 + (low - 0xDC00)) :: ·)
    else if 0xD800 ≤ high && high ≤ 0xDFFF then none
    else (join (.unit low :: rest)).map (Char.ofNat high :: ·)
  | .unit code :: rest =>
    if 0xD800 ≤ code && code ≤ 0xDFFF then none
    else (join rest).map (Char.ofNat code :: ·)

def digitRun (text : List Char) : List Nat × List Char :=
  ((text.takeWhile Char.isDigit).map fun c => c.toNat - '0'.toNat, text.dropWhile Char.isDigit)

def Number.readExponent : List Char → Option (Option Int)
  | [] => some none
  | e :: rest =>
    if e = 'e' || e = 'E' then
      let (negative, digits) := match rest with
        | '-' :: digits => (true, digits)
        | '+' :: digits => (false, digits)
        | digits => (false, digits)
      match digitRun digits with
      | ([], _) | (_, _ :: _) => none
      | (read, []) =>
        let value : Int := Number.value read
        some (some (if negative then -value else value))
    else none

def Number.read? (text : List Char) : Option Number :=
  let (negative, text) := match text with
    | '-' :: rest => (true, rest)
    | rest => (false, rest)
  let (whole, rest) := digitRun text
  match whole, rest with
  | [], _ | 0 :: _ :: _, _ => none
  | _, '.' :: rest =>
    match digitRun rest with
    | ([], _) => none
    | (fraction, rest) =>
      (Number.readExponent rest).map fun exponent => ⟨negative, whole, fraction, exponent⟩
  | _, rest => (Number.readExponent rest).map fun exponent => ⟨negative, whole, [], exponent⟩

/-- What the scan is inside of; what it has read of it is kept in reverse. -/
inductive Scan
  | between
  | number (read : List Char)
  | name (read : List Char)
  | text (read : List Piece)
  | escape (read : List Piece)
  | hex (read : List Piece) (code left : Nat)

def Scan.isNumberChar (c : Char) : Bool :=
  c.isDigit || c = '-' || c = '+' || c = '.' || c = 'e' || c = 'E'

def Scan.finish : Scan → Option (List Token)
  | .between => some []
  | .number read => (Number.read? read.reverse).map fun n => [.scalar (.number n)]
  | .name read =>
    match String.ofList read.reverse with
    | "null" => some [.scalar .null]
    | "true" => some [.scalar (.bool true)]
    | "false" => some [.scalar (.bool false)]
    | _ => none
  | .text _ | .escape _ | .hex _ _ _ => none

def Scan.start (c : Char) : Option (Scan × List Token) :=
  match c with
  | ' ' | '\t' | '\n' | '\r' => some (.between, [])
  | '[' => some (.between, [.openArray])
  | ']' => some (.between, [.closeArray])
  | '\x7b' => some (.between, [.openObject])
  | '\x7d' => some (.between, [.closeObject])
  | ',' => some (.between, [.comma])
  | ':' => some (.between, [.colon])
  | '"' => some (.text [], [])
  | c =>
    if c.isDigit || c = '-' then some (.number [c], [])
    else if c.isLower then some (.name [c], [])
    else none

def Scan.escaped? : Char → Option Char
  | '"' => some '"'
  | '\\' => some '\\'
  | '/' => some '/'
  | 'b' => some '\x08'
  | 'f' => some '\x0c'
  | 'n' => some '\n'
  | 'r' => some '\r'
  | 't' => some '\t'
  | _ => none

def Scan.next (scan : Scan) (c : Char) : Option (Scan × List Token) :=
  match scan with
  | .between => Scan.start c
  | .number read =>
    if Scan.isNumberChar c then some (.number (c :: read), [])
    else do
      let ended ← scan.finish
      let (scan, begun) ← Scan.start c
      return (scan, ended ++ begun)
  | .name read =>
    if c.isLower then some (.name (c :: read), [])
    else do
      let ended ← scan.finish
      let (scan, begun) ← Scan.start c
      return (scan, ended ++ begun)
  | .text read =>
    if c = '"' then
      some (.between, [.text ((Piece.join read.reverse).map String.ofList)])
    else if c = '\\' then some (.escape read, [])
    else if c.toNat < 0x20 then none
    else some (.text (.char c :: read), [])
  | .escape read =>
    if c = 'u' then some (.hex read 0 4, [])
    else (Scan.escaped? c).map fun c => (.text (.char c :: read), [])
  | .hex read code left =>
    (Numeral.digit? 16 c).map fun d =>
      if left ≤ 1 then (.text (.unit (16 * code + d) :: read), [])
      else (.hex read (16 * code + d) (left - 1), [])

/-- The tokens of a document; `done` holds the earlier ones in reverse. -/
def tokensFrom (scan : Scan) (done : List Token) : List Char → Option (List Token)
  | [] => scan.finish.map fun ended => done.reverse ++ ended
  | c :: rest =>
    match scan.next c with
    | none => none
    | some (scan, found) => tokensFrom scan (found.reverse ++ done) rest

def tokens? (document : List Char) : Option (List Token) :=
  tokensFrom .between [] document

end CoreTiming.Json
