namespace CoreTiming.Log

inductive Severity
  | error
  | warn
  | info
  | debug
  | trace
  deriving DecidableEq, Repr

namespace Severity

def rank : Severity → Nat
  | error => 0
  | warn => 1
  | info => 2
  | debug => 3
  | trace => 4

def name : Severity → String
  | error => "ERROR"
  | warn => "WARN"
  | info => "INFO"
  | debug => "DEBUG"
  | trace => "TRACE"

def within (severity limit : Severity) : Bool :=
  severity.rank ≤ limit.rank

end Severity

/-- Who says it: the simulation, its check for repeatable runs, or the command line. -/
inductive Origin
  | simulation
  | repeatability
  | commandLine
  deriving DecidableEq, Repr

def Origin.target : Origin → String
  | simulation => "revsim_core"
  | repeatability => "revsim::nondeterminism"
  | commandLine => "revsim"

structure Field where
  name : String
  text : String
  /-- The value is a text, which is quoted where lines are shown. -/
  quoted : Bool := false
  deriving DecidableEq, Repr

structure Line where
  severity : Severity
  message : String
  fields : List Field
  origin : Origin := .simulation
  deriving DecidableEq, Repr

def Field.ofNat (name : String) (n : Nat) : Field where
  name := name
  text := toString n

def shown (limit : Severity) (lines : List Line) : List Line :=
  lines.filter (·.severity.within limit)

end CoreTiming.Log
