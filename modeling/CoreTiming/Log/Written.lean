import CoreTiming.Log
import CoreTiming.Text.Numeral

namespace CoreTiming.Log

def isInvisible (c : Char) : Bool :=
  c.toNat < 0x20 || 0x7F ≤ c.toNat && c.toNat ≤ 0xA0 || c.toNat = 0xAD || 0x7F < c.toNat && Text.isBlank c

def escaped (c : Char) : List Char :=
  match c with
  | '"' => ['\\', '"']
  | '\\' => ['\\', '\\']
  | '\n' => ['\\', 'n']
  | '\r' => ['\\', 'r']
  | '\t' => ['\\', 't']
  | '\x00' => ['\\', '0']
  | c =>
    if isInvisible c then ['\\', 'u', '\x7b'] ++ Numeral.hexDigits c.toNat ++ ['\x7d'] else [c]

def Field.written (field : Field) : String :=
  let text :=
    if field.quoted then "\"" ++ String.ofList (field.text.toList.flatMap escaped) ++ "\""
    else field.text
  field.name ++ "=" ++ text

def Line.written (line : Line) : String :=
  String.intercalate " " (line.message :: line.fields.map Field.written)

end CoreTiming.Log
