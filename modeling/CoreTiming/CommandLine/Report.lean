import CoreTiming.Config.Platform
import CoreTiming.Decimal.Fixed
import CoreTiming.Json.Printer
import CoreTiming.Simulator

namespace CoreTiming.CommandLine

def textOfLines (lines : List String) : String :=
  String.join (lines.map (· ++ "\n"))

def coreJson (core : CoreSpec) : Json.Value :=
  .record [
    ("clockPeriodTicks", .nat core.clock.period),
    ("core", .nat core.id),
    ("isa", .string core.isa.name),
    ("memCost", .array [.nat core.cost.least, .nat core.cost.most]),
    ("memCostTable", match core.costTable with
      | none => .null
      | some cells => .array (cells.map .nat)),
    ("startAddr", .string (Numeral.hex core.startAddress))]

def coprocessorJson (spec : CoprocessorSpec) : Json.Value :=
  .record [
    ("clockPeriodTicks", .nat spec.clock.period),
    ("issueWidth", .nat spec.issueWidth),
    ("queueDepth", .nat spec.queueDepth)]

def platformJson (platform : Platform) : Json.Value :=
  .record [
    ("coProc", (platform.coprocessor.map coprocessorJson).getD .null),
    ("cores", .array (platform.cores.map coreJson)),
    ("memSize", .nat platform.memorySize),
    ("seed", .nat platform.seed),
    ("statisticLoadLevel", .nat platform.statisticLevel),
    ("stopAtTick", match platform.stop with
      | .drain => .null
      | .atTick tick => .nat tick),
    ("timebaseFs", .float platform.timebase)]

def secondPlaces : Nat := 9

def seconds (endTick : Nat) (timebase : Float) : String :=
  (Decimal.Double.ofFloat
    ((UInt64.ofNat endTick).toFloat * timebase / Quantity.femtosecondsPerSecond)).fixed secondPlaces

def summaryText (summary : Summary) (timebase : Float) : String :=
  let heavy := String.ofList (List.replicate 58 '=')
  let light := String.ofList (List.replicate 58 '-')
  textOfLines [heavy, "SIMULATION SUMMARY", heavy,
    s!"end_tick                 {summary.endTick}",
    s!"sim_seconds              {seconds summary.endTick timebase} s",
    s!"stop_reason              {summary.reason.name}",
    s!"events                   {summary.events}",
    light]

def hint : String :=
  textOfLines ["revsim: pass a subcommand or a .py script",
    "",
    "  revsim run -c <config.json>      Run a configuration",
    "  revsim check -c <config.json>    Validate a configuration",
    "  revsim <script.py> [args...]     Run a parameter script",
    "",
    "  revsim --help  for full options"]

def version : String := "0.3.0"

def help : String :=
  textOfLines ["Discrete-event core/coprocessor timing simulator",
    "",
    "Usage: revsim [-v]... <command>",
    "",
    "  run     Run a configuration to its stop condition and write statistics",
    "            -c, --config <file>       configuration; built-in defaults when omitted",
    "            -p, --program <file>      operation trace that each core executes",
    "            -s, --stats <file>        statistics output; standard output when omitted",
    "            -f, --format <csv|json>   statistics format",
    "                --seed <number>       seed of every pseudo-random draw",
    "                --stop-at <time>      stop time, such as 10us",
    "                --stat-level <level>  highest recorded statistic level",
    "  check   Validate a configuration without running it",
    "            -c, --config <file>       configuration",
    "  script  Run a parameter script"]

end CoreTiming.CommandLine
