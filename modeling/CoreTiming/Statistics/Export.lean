import CoreTiming.Json.Printer
import CoreTiming.Statistics

namespace CoreTiming

inductive StatisticFormat
  | csv
  | json
  deriving DecidableEq, Repr

def StatisticFormat.ofName? : String → Option StatisticFormat
  | "csv" => some .csv
  | "json" => some .json
  | _ => none

namespace Record

def notAfter (x y : Record) : Bool :=
  x.statistic.name < y.statistic.name ||
    x.statistic.name = y.statistic.name && x.component ≤ y.component

def csv (record : Record) : String :=
  s!"{record.component},{record.statistic.name},{record.statistic.unit},{record.statistic.level},{record.value}"

def json (record : Record) : Json.Value :=
  .record [
    ("component", .string record.component),
    ("name", .string record.statistic.name),
    ("unit", .string record.statistic.unit),
    ("level", .nat record.statistic.level),
    ("value", .nat record.value)]

end Record

namespace Sink

def csvHeader : String := "ComponentName,StatisticName,Unit,Level,Value"

def rows (sink : Sink) : List Record :=
  sink.records.toList.mergeSort Record.notAfter

def written (sink : Sink) : StatisticFormat → String
  | .csv => String.join ((csvHeader :: sink.rows.map Record.csv).map (· ++ "\n"))
  | .json => (Json.Value.array (sink.rows.map Record.json)).pretty

end Sink

end CoreTiming
