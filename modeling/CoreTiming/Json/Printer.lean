import CoreTiming.Json.Basic

namespace CoreTiming.Json

def escapeChar (c : Char) : List Char :=
  match c with
  | '"' => ['\\', '"']
  | '\\' => ['\\', '\\']
  | '\x08' => ['\\', 'b']
  | '\x0c' => ['\\', 'f']
  | '\n' => ['\\', 'n']
  | '\r' => ['\\', 'r']
  | '\t' => ['\\', 't']
  | c =>
    if c.toNat < 0x20 then
      ['\\', 'u', '0', '0', Nat.digitChar (c.toNat / 16), Nat.digitChar (c.toNat % 16)]
    else [c]

def quoted (s : String) : String :=
  "\"" ++ String.ofList (s.toList.flatMap escapeChar) ++ "\""

def Number.written (n : Number) : String :=
  let sign := if n.negative then "-" else ""
  let fraction := if n.fraction.isEmpty then "" else "." ++ Decimal.digitText n.fraction
  let exponent := match n.exponent with
    | none => ""
    | some e => "e" ++ toString e
  sign ++ Decimal.digitText n.whole ++ fraction ++ exponent

def indentation (depth : Nat) : String :=
  String.ofList (List.replicate (2 * depth) ' ')

def block (opening closing : String) (depth : Nat) (entries : List String) : String :=
  if entries.isEmpty then opening ++ closing
  else
    let line := "\n" ++ indentation (depth + 1)
    opening ++ line ++ String.intercalate ("," ++ line) entries ++ "\n" ++ indentation depth ++ closing

mutual

def Value.prettyAt (depth : Nat) : Value → String
  | .null => "null"
  | .bool b => if b then "true" else "false"
  | .number n => n.written
  | .text t => quoted (t.getD "")
  | .array items => block "[" "]" depth (prettyItems (depth + 1) items)
  | .object members => block "\x7b" "\x7d" depth (prettyMembers (depth + 1) members)

def prettyItems (depth : Nat) : List Value → List String
  | [] => []
  | v :: rest => v.prettyAt depth :: prettyItems depth rest

def prettyMembers (depth : Nat) : List (Text × Value) → List String
  | [] => []
  | (key, v) :: rest =>
    (quoted (key.getD "") ++ ": " ++ v.prettyAt depth) :: prettyMembers depth rest

end

def Value.pretty (v : Value) : String :=
  v.prettyAt 0

end CoreTiming.Json
