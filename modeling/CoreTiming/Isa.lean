import CoreTiming.Text.Split

namespace CoreTiming

inductive Width
  | w32
  | w64
  deriving DecidableEq, Repr

def Width.bits : Width → Nat
  | .w32 => 32
  | .w64 => 64

def Width.maxAddress (width : Width) : Nat :=
  Nat.pow 2 width.bits - 1

structure Extensions where
  i : Bool := false
  m : Bool := false
  a : Bool := false
  f : Bool := false
  d : Bool := false
  c : Bool := false
  deriving DecidableEq, Repr

namespace Extensions

def union (x y : Extensions) : Extensions :=
  ⟨x.i || y.i, x.m || y.m, x.a || y.a, x.f || y.f, x.d || y.d, x.c || y.c⟩

def contains (x y : Extensions) : Bool :=
  x.union y = x

def general : Extensions :=
  ⟨true, true, true, true, true, false⟩

def ofLetter? : Char → Option Extensions
  | 'I' => some { i := true }
  | 'M' => some { m := true }
  | 'A' => some { a := true }
  | 'F' => some { f := true }
  | 'D' => some { d := true }
  | 'C' => some { c := true }
  | 'G' => some general
  | _ => none

def letters (x : Extensions) : List Char :=
  (if x.i then ['I'] else []) ++ (if x.m then ['M'] else []) ++ (if x.a then ['A'] else []) ++
    (if x.f then ['F'] else []) ++ (if x.d then ['D'] else []) ++ (if x.c then ['C'] else [])

end Extensions

inductive IsaFault
  | noWidth
  | noExtensions
  | unsupported (letter : Char)
  | noBase
  | doubleWithoutSingle
  deriving DecidableEq, Repr

def IsaFault.message : IsaFault → String
  | .noWidth => "expected an RV32 or RV64 prefix"
  | .noExtensions => "no extensions listed"
  | .unsupported letter => s!"unsupported extension `{letter}`"
  | .noBase => "base integer extension `I` is required"
  | .doubleWithoutSingle => "extension `D` requires `F`"

structure Isa where
  width : Width
  extensions : Extensions
  deriving DecidableEq, Repr

namespace Isa

def fits (isa : Isa) (address : Nat) : Bool :=
  address ≤ isa.width.maxAddress

def has (isa : Isa) (extensions : Extensions) : Bool :=
  isa.extensions.contains extensions

def readLetters (found : Extensions) : List Char → Except IsaFault Extensions
  | [] => .ok found
  | letter :: rest =>
    match Extensions.ofLetter? letter with
    | none => .error (.unsupported letter)
    | some extensions => readLetters (found.union extensions) rest

def readWidth (text : List Char) : Except IsaFault (Width × List Char) :=
  match Text.after? "RV32".toList text, Text.after? "RV64".toList text with
  | some rest, _ => .ok (.w32, rest)
  | none, some rest => .ok (.w64, rest)
  | none, none => .error .noWidth

def parse (name : String) : Except IsaFault Isa := do
  let (width, letters) ← readWidth (Text.upper (Text.trim name.toList))
  if letters.isEmpty then .error .noExtensions
  let extensions ← readLetters {} letters
  if !extensions.i then .error .noBase
  if extensions.d && !extensions.f then .error .doubleWithoutSingle
  return ⟨width, extensions⟩

def name (isa : Isa) : String :=
  String.ofList ("RV".toList ++ Nat.toDigits 10 isa.width.bits ++ isa.extensions.letters)

end Isa

end CoreTiming
