import CoreTiming.Config.Platform
import CoreTiming.Random.Range
import CoreTiming.Timeline

namespace CoreTiming

inductive LatencyPattern
  | uniform (range : LatencyRange) (generator : Random.Generator)
  | table (cells : List Nat) (next : Nat)
  deriving DecidableEq, Repr

namespace LatencyPattern

/-- A table without cells stands for latencies of one cycle. -/
def draw : LatencyPattern → Nat × LatencyPattern
  | uniform range generator =>
    let drawn := generator.between 64 range.least range.most
    (drawn.1, uniform range drawn.2)
  | table cells next => (cells[next]?.getD 1, table cells ((next + 1) % max cells.length 1))

def restart (seed : Nat) : LatencyPattern → LatencyPattern
  | uniform range _ => uniform range (.ofSeed seed)
  | table cells _ => table cells 0

end LatencyPattern

structure LatencySource where
  pattern : LatencyPattern
  /-- How many latencies have been drawn from it; a restart does not change that. -/
  drawn : Nat := 0
  deriving DecidableEq, Repr

namespace LatencySource

def uniform (range : LatencyRange) (seed : Nat) : LatencySource :=
  { pattern := .uniform range (.ofSeed seed) }

def table (cells : List Nat) : LatencySource :=
  { pattern := .table cells 0 }

def draw (source : LatencySource) : Nat × LatencySource :=
  (source.pattern.draw.1, ⟨source.pattern.draw.2, source.drawn + 1⟩)

def drawMany : Nat → LatencySource → List Nat × LatencySource
  | 0, source => ([], source)
  | count + 1, source =>
    let others := drawMany count source.draw.2
    (source.draw.1 :: others.1, others.2)

def restart (seed : Nat) (source : LatencySource) : LatencySource :=
  { source with pattern := source.pattern.restart seed }

end LatencySource

structure LatencyModel where
  sources : List LatencySource
  deriving DecidableEq, Repr

namespace LatencyModel

/-- Multiples of this keep the seeds of the cores apart. -/
def seedStride : UInt64 := 0x9E3779B97F4A7C15

def coreSeed (seed core : Nat) : Nat :=
  (UInt64.ofNat seed ^^^ (UInt64.ofNat (core + 1) * seedStride)).toNat

def register (cores : Nat) (range : Nat × LatencyRange) : Except ConfigError (Nat × LatencyRange) :=
  if range.1 < cores then do
    return (range.1, ← LatencyRange.check range.1 range.2.least range.2.most)
  else .error (.coreOutOfRange "memCost" range.1 cores)

/-- Random latencies from one range for each core; of several for one core the last one counts. -/
def ofRanges (cores : Nat) (ranges : List (Nat × LatencyRange)) (seed : Nat) :
    Except ConfigError LatencyModel := do
  let table ← PerCore.assign (register cores) (.replicate cores none) ranges
  let ranges ← PerCore.complete "memCost" 0 table.toList
  return ⟨ranges.mapIdx fun core range => .uniform range (coreSeed seed core)⟩

def ofSpec (seed : Nat) (spec : CoreSpec) : LatencySource :=
  match spec.costTable with
  | some cells => .table cells
  | none => .uniform spec.cost (coreSeed seed spec.id)

def ofSpecs (specs : List CoreSpec) (seed : Nat) : LatencyModel :=
  ⟨specs.map (ofSpec seed)⟩

def draw? (model : LatencyModel) (core : Nat) : Option (Nat × LatencyModel) :=
  model.sources[core]?.map fun source => (source.draw.1, ⟨model.sources.set core source.draw.2⟩)

/-- The next latencies of a core, unless there is no such core; to draw none needs no core. -/
def drawMany? (core : Nat) : Nat → LatencyModel → Option (List Nat × LatencyModel)
  | 0, model => some ([], model)
  | count + 1, model => do
    let (latency, model) ← model.draw? core
    let (others, model) ← drawMany? core count model
    return (latency :: others, model)

def drawn (model : LatencyModel) : Nat :=
  model.sources.foldl (fun total source => total + source.drawn) 0

/-- All sources start over from a new seed. A run that has drawn latencies before can then no
    longer be repeated, which is logged. -/
def reseed (model : LatencyModel) (seed : Nat) : LatencyModel × List Log.Line :=
  let warning : Log.Line := {
    severity := .warn
    message := "latency model reseeded mid-run; timing is no longer reproducible"
    fields := [.ofNat "drawn" model.drawn, .ofNat "seed" seed]
    origin := .repeatability }
  (⟨model.sources.mapIdx fun core source => source.restart (coreSeed seed core)⟩,
    if model.drawn = 0 then [] else [warning])

def description (model : LatencyModel) : String :=
  "MemoryLatencyModel \x7b cores: " ++ toString model.sources.length ++ " \x7d"

end LatencyModel

end CoreTiming
