import CoreTiming.Log
import CoreTiming.Text.Split

namespace CoreTiming.Log

structure Directive where
  /-- Directives for all lines have the empty name, with which every target starts. -/
  target : List Char
  limit : Option Severity
  deriving DecidableEq, Repr

namespace Directive

def limits : List (List String × Option Severity) :=
  [(["off", "0"], none), (["error", "1"], some .error), (["warn", "2"], some .warn),
    (["info", "3"], some .info), (["debug", "4"], some .debug), (["trace", "5"], some .trace)]

def limit? (text : List Char) : Option (Option Severity) :=
  (limits.find? fun limit => limit.1.contains (String.ofList (Text.lower text))).map (·.2)

def isTargetChar (c : Char) : Bool :=
  c.isAlphanum || c = '_' || c = ':' || c = '-'

/-- A severity alone is for all lines, and a target alone shows all of its lines. -/
def parse (text : List Char) : Option Directive :=
  let target := Text.before '=' text
  if target.isEmpty || !target.all isTargetChar then none
  else
    let name := if (limit? target).isSome then [] else target
    match text.drop target.length with
    | [] => some ⟨name, (limit? target).getD (some .trace)⟩
    | [_] => some ⟨name, some .trace⟩
    | _ :: limit => (limit? limit).map (⟨name, ·⟩)

end Directive

/-- Without directives only errors are shown. -/
def Filter.parse (text : String) : Option (List Directive) :=
  match (Text.splitAt ',' text.toList).filter (!·.isEmpty) with
  | [] => some [⟨[], some .error⟩]
  | pieces => pieces.mapM Directive.parse

/-- The directive with the longest name, of equally long ones the last. -/
def longest (directives : List Directive) : Option Directive :=
  directives.foldl (fun best next =>
    match best with
    | none => some next
    | some current => if current.target.length ≤ next.target.length then some next else best) none

def passes (directives : List Directive) (line : Line) : Bool :=
  match longest (directives.filter fun d => (Text.after? d.target line.origin.target.toList).isSome) with
  | none => false
  | some directive => directive.limit.any line.severity.within

/-- The lines that a filter shows; one that cannot be read is no filter, so that `default` is the
    least severe to be shown. -/
def filtered (filter : Option String) (default : Severity) (lines : List Line) : List Line :=
  match filter.bind Filter.parse with
  | none => shown default lines
  | some directives => lines.filter (passes directives)

end CoreTiming.Log
