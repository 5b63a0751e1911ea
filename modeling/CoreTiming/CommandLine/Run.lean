import CoreTiming.CommandLine.Arguments
import CoreTiming.CommandLine.Report
import CoreTiming.Config.Document
import CoreTiming.Log.Filter
import CoreTiming.Simulator.Run

namespace CoreTiming.CommandLine

/-- The end of a command. Log lines come before the error text. -/
structure Outcome where
  exitCode : Nat
  output : String := ""
  errors : String := ""
  log : List Log.Line := []
  files : Files

/-- The exit codes of a failure while a command is carried out, and of words or a configuration that
    make no sense. -/
def failed : Nat := 1

def refused : Nat := 2

def defaultLimit : Nat → Log.Severity
  | 0 => .warn
  | 1 => .info
  | 2 => .debug
  | _ => .trace

def configurationLine (path : String) (config : Config) : Log.Line where
  severity := .debug
  message := "configuration loaded"
  fields := [⟨"path", path, false⟩, .ofNat "cores" config.cpu.cores]
  origin := .commandLine

def readyLine (sim : Simulator) : Log.Line where
  severity := .info
  message := "platform ready"
  fields := [.ofNat "cores" sim.stations.length,
    ⟨"coprocessors", toString sim.platform.coprocessor.isSome, false⟩]
  origin := .commandLine

def loadConfig (files : Files) (path : String) : Except String Config :=
  match files.read path with
  | .error fault => .error s!"error: cannot read {path}: {fault.message}\n"
  | .ok text => (Config.parse text).mapError fun error => s!"error: {path}: {error.message}\n"

def RunOptions.override (options : RunOptions) (config : Config) : Config :=
  { config with
    options := { config.options with
      seed := options.seed.getD config.options.seed
      stopAtCycle := options.stopAt.getD config.options.stopAtCycle }
    statisticLevel := options.statisticLevel.getD config.statisticLevel
    cpu := { config.cpu with program := options.program.or config.cpu.program } }

def configurationError (error : ConfigError) : String :=
  s!"configuration error: {error.message}\n"

def deliver (files : Files) (options : RunOptions) (summary statistics : String)
    (log : List Log.Line) : Outcome :=
  match options.stats with
  | none => { exitCode := 0, output := statistics, errors := summary, log := log, files := files }
  | some path =>
    match files.write path statistics with
    | .error fault =>
      { exitCode := failed
        errors := summary ++ s!"error: cannot write {path}: {fault.message}\n"
        log := log
        files := files }
    | .ok written =>
      { exitCode := 0
        errors := summary ++ s!"[*] statistics written to {path}\n"
        log := log
        files := written }

def conclude (files : Files) (options : RunOptions) (log : List Log.Line) :
    Except ConfigError Simulator → Outcome
  | .error error =>
    { exitCode := refused, errors := configurationError error, log := log, files := files }
  | .ok sim =>
    let (sim, result) := (sim.apply (.line (readyLine sim))).run
    let log := log ++ sim.timeline.log.toList
    match result with
    | .error core =>
      { exitCode := failed
        errors := s!"simulation aborted: {unregisteredMessage core}\n"
        log := log
        files := files }
    | .ok summary =>
      deliver files options (summaryText summary sim.platform.timebase)
        (sim.statistics options.format) log

/-- The configuration of a run, with what is logged about it. Without a file it is the default one. -/
def RunOptions.configuration (options : RunOptions) (files : Files) :
    Except String (Config × List Log.Line) :=
  match options.config with
  | none => .ok ({}, [])
  | some path => do
    let config ← loadConfig files path
    return (config, [configurationLine path config])

def run (environment : Environment) (options : RunOptions) : Outcome :=
  match options.configuration environment.files with
  | .error text => { exitCode := refused, errors := text, files := environment.files }
  | .ok (config, log) =>
    conclude environment.files options log (Simulator.ofConfig environment (options.override config))

def check (environment : Environment) (path : String) : Outcome :=
  match loadConfig environment.files path with
  | .error text => { exitCode := refused, errors := text, files := environment.files }
  | .ok config =>
    let log := [configurationLine path config]
    match config.build with
    | .error error =>
      { exitCode := refused, errors := configurationError error, log := log
        files := environment.files }
    | .ok platform =>
      { exitCode := 0, output := (platformJson platform).pretty ++ "\n", log := log
        files := environment.files }

/-- A script that holds no statement does nothing. Others are not carried out. -/
def script (environment : Environment) (path : String) : Outcome :=
  match environment.files.read path with
  | .error fault =>
    { exitCode := failed, errors := s!"Error reading script {path}: {fault.message}\n"
      files := environment.files }
  | .ok text =>
    { exitCode := if text.isEmpty then 0 else failed, files := environment.files }

def carryOut (environment : Environment) : Command → Outcome
  | .nothing => { exitCode := failed, errors := hint, files := environment.files }
  | .run options => run environment options
  | .check path => check environment path
  | .script path => script environment path

def paths (environment : Environment) : Command → List String
  | .nothing => []
  | .check path | .script path => [path]
  | .run options =>
    let config := match options.config.map (loadConfig environment.files) with
      | some (.ok config) => config
      | _ => {}
    let program := Program.resolve environment (options.override config).cpu.program
    [options.config, program, options.stats].filterMap id

def execute (environment : Environment) (words : List String) : Outcome :=
  match read environment.program words with
  | .error .help => { exitCode := 0, output := help, files := environment.files }
  | .error .version =>
    { exitCode := 0, output := s!"revsim {version}\n", files := environment.files }
  | .error .misuse =>
    { exitCode := refused, errors := "error: invalid arguments\n\nFor more information, try '--help'.\n"
      files := environment.files }
  | .ok invocation =>
    let outcome := carryOut environment invocation.command
    { outcome with
      log := Log.filtered environment.logFilter (defaultLimit invocation.verbosity) outcome.log }

end CoreTiming.CommandLine
