import CoreTiming.Program.Operation

namespace CoreTiming

inductive TraceFault
  | operandCount (operation : String) (least most found : Nat)
  | unknownOperation (name : String)
  | malformedNumber (token : String) (fault : NumeralFault)
  | durationTooLong (token : String)
  | instructionTooLarge (token : String)
  | oddPayload (token : String)
  | malformedPayload (token : String)
  deriving DecidableEq, Repr

def longestDuration : Nat := 0xFFFFFFFF

def TraceFault.message : TraceFault → String
  | .operandCount operation least most found =>
    let expected := if least = most then toString least else s!"{least}-{most}"
    s!"`{operation}` takes {expected} operand(s), found {found}"
  | .unknownOperation name => s!"unknown operation `{name}`"
  | .malformedNumber token fault => s!"invalid number `{token}`: {fault.message}"
  | .durationTooLong token => s!"duration `{token}` exceeds {longestDuration} cycles"
  | .instructionTooLarge token => s!"instruction id `{token}` exceeds 32 bits"
  | .oddPayload token => s!"payload `{token}` has an odd number of hex digits"
  | .malformedPayload token => s!"invalid payload `{token}`"

/-- The first line that is no operation, counted from one. -/
structure TraceError where
  line : Nat
  fault : TraceFault
  deriving DecidableEq, Repr

def TraceError.message (e : TraceError) : String :=
  s!"line {e.line}: {e.fault.message}"

namespace Trace

def readNumber (token : List Char) : Except TraceFault Nat :=
  (Numeral.readLiteral token).mapError (.malformedNumber (String.ofList token))

def readDuration (token : List Char) : Except TraceFault Nat := do
  let cycles ← readNumber token
  if longestDuration < cycles then .error (.durationTooLong (String.ofList token))
  else .ok cycles

def readInstruction (token : List Char) : Except TraceFault Nat := do
  let instruction ← readNumber token
  if 0x100000000 ≤ instruction then .error (.instructionTooLarge (String.ofList token))
  else .ok instruction

def readPairs : List Char → Option (List UInt8)
  | [] => some []
  | [_] => none
  | high :: low :: rest =>
    match Numeral.read 16 255 [high, low] with
    | .error _ => none
    | .ok byte => (readPairs rest).map (UInt8.ofNat byte :: ·)

def readPayload (token : List Char) : Except TraceFault (List UInt8) :=
  let digits := match token with
    | '0' :: 'x' :: rest | '0' :: 'X' :: rest => rest
    | _ => token
  if (String.ofList digits).utf8ByteSize % 2 = 1 then .error (.oddPayload (String.ofList token))
  else
    match readPairs digits with
    | none => .error (.malformedPayload (String.ofList token))
    | some bytes => .ok bytes

def readOperation (code : List Char) : Except TraceFault Operation :=
  match Text.words code with
  | [] => .error (.unknownOperation "")
  | first :: operands =>
    let name := String.ofList (Text.lower first)
    match name, operands with
    | "compute", [cycles] => (readDuration cycles).map .compute
    | "load", [address] => (readNumber address).map .load
    | "store", [address] => (readNumber address).map .store
    | "offload", instruction :: cycles :: rest =>
      if 1 < rest.length then .error (.operandCount name 2 3 operands.length)
      else do
        let instruction ← readInstruction instruction
        let cycles ← readDuration cycles
        let payload ← match rest with
          | [] => .ok []
          | token :: _ => readPayload token
        return .offload ⟨instruction, cycles, payload⟩
    | "wait", [] => .ok .wait
    | "halt", [] => .ok .halt
    | "compute", _ | "load", _ | "store", _ => .error (.operandCount name 1 1 operands.length)
    | "offload", _ => .error (.operandCount name 2 3 operands.length)
    | "wait", _ | "halt", _ => .error (.operandCount name 0 0 operands.length)
    | _, _ => .error (.unknownOperation name)

def code (line : List Char) : List Char :=
  Text.trim (Text.before '#' line)

def readLines (number : Nat) : List (List Char) → Except TraceError (List Operation)
  | [] => .ok []
  | line :: rest =>
    let code := code line
    if code.isEmpty then readLines (number + 1) rest
    else
      match readOperation code with
      | .error fault => .error ⟨number, fault⟩
      | .ok operation => (readLines (number + 1) rest).map (operation :: ·)

def parse (text : String) : Except TraceError (List Operation) :=
  readLines 1 (Text.lines text.toList)

end Trace

end CoreTiming
