import CoreTiming.Statistics.Export
import CoreTiming.Text.Numeral

namespace CoreTiming.CommandLine

structure RunOptions where
  config : Option String := none
  program : Option String := none
  stats : Option String := none
  format : StatisticFormat := .csv
  seed : Option Nat := none
  stopAt : Option String := none
  statisticLevel : Option Nat := none
  deriving DecidableEq, Repr

inductive Command
  | nothing
  | run (options : RunOptions)
  | check (config : String)
  | script (path : String)
  deriving DecidableEq, Repr

structure Invocation where
  verbosity : Nat
  command : Command
  deriving DecidableEq, Repr

inductive Ending
  | help
  | version
  | misuse
  deriving DecidableEq, Repr

/-- The forms of a word: `--`, `--name` or `--name=value`, `-abc`, and any other. -/
inductive Word
  | separator
  | long (name : List Char) (value : Option (List Char))
  | short (letters : List Char)
  | plain
  deriving DecidableEq, Repr

def Word.ofText : List Char → Word
  | ['-', '-'] => .separator
  | '-' :: '-' :: rest =>
    let name := Text.before '=' rest
    .long name (if name.length < rest.length then some (rest.drop (name.length + 1)) else none)
  | '-' :: letter :: letters => .short (letter :: letters)
  | _ => .plain

inductive Setting
  | config
  | program
  | stats
  | format
  | seed
  | stopAt
  | statisticLevel
  deriving DecidableEq, Repr

namespace Setting

def names : List (String × Setting) :=
  [("config", config), ("program", program), ("stats", stats), ("format", format), ("seed", seed),
    ("stop-at", stopAt), ("stat-level", statisticLevel)]

def letters : List (Char × Setting) :=
  [('c', config), ('p', program), ('s', stats), ('f', format)]

def readSeed (value : List Char) : Option Nat :=
  (Numeral.read 10 Numeral.wordLimit value).toOption

def readLevel (value : List Char) : Option Nat :=
  match value with
  | '-' :: '+' :: _ => none
  | '-' :: digits => ((Numeral.read 10 Numeral.wordLimit digits).toOption).filter (· = 0)
  | digits => ((Numeral.read 10 Numeral.wordLimit digits).toOption).filter (· < 256)

def accepts (setting : Setting) (value : List Char) : Bool :=
  match setting with
  | config | stats => !value.isEmpty
  | program | stopAt => true
  | format => (StatisticFormat.ofName? (String.ofList value)).isSome
  | seed => (readSeed value).isSome
  | statisticLevel => (readLevel value).isSome

end Setting

structure Given where
  verbosity : Nat := 0
  settings : List (Setting × List Char) := []
  deriving DecidableEq, Repr

namespace Given

def value? (given : Given) (setting : Setting) : Option (List Char) :=
  given.settings.lookup setting

def text? (given : Given) (setting : Setting) : Option String :=
  (given.value? setting).map String.ofList

def put (given : Given) (setting : Setting) (value : List Char) : Except Ending Given :=
  if (given.value? setting).isSome || !setting.accepts value then .error .misuse
  else .ok { given with settings := (setting, value) :: given.settings }

def putNext (given : Given) (setting : Setting) : List (List Char) → Except Ending Given
  | value :: _ => if Word.ofText value = .plain then given.put setting value else .error .misuse
  | [] => .error .misuse

end Given

/-- The letters of one word, up to one that takes a value: the rest of the word, after `=` or not,
    unless there is none. -/
def readLetters (allowed : List Setting) (given : Given) :
    List Char → Except Ending (Given × Option Setting)
  | [] => .ok (given, none)
  | 'v' :: rest => readLetters allowed { given with verbosity := given.verbosity + 1 } rest
  | 'h' :: _ => .error .help
  | letter :: rest =>
    match (Setting.letters.lookup letter).filter allowed.contains, rest with
    | none, _ => .error .misuse
    | some setting, [] => .ok (given, some setting)
    | some setting, '=' :: value => return (← given.put setting value, none)
    | some setting, value => return (← given.put setting value, none)

def readLong (allowed : List Setting) (given : Given) (name : List Char) (value : Option (List Char)) :
    Except Ending (Given × Option Setting) :=
  match String.ofList name, value with
  | "verbose", none => .ok ({ given with verbosity := given.verbosity + 1 }, none)
  | "help", none => .error .help
  | name, value =>
    match (Setting.names.lookup name).filter allowed.contains, value with
    | none, _ => .error .misuse
    | some setting, none => .ok (given, some setting)
    | some setting, some value => return (← given.put setting value, none)

/-- Reads options up to a word that is none, which is left over with all that follow it. Behind
    `--` no word is an option. -/
def readOptions (allowed : List Setting) (given : Given) :
    List (List Char) → Except Ending (Given × List (List Char))
  | [] => .ok (given, [])
  | word :: rest => do
    let (given, open') ← match Word.ofText word with
      | .separator => return (given, rest)
      | .plain => return (given, word :: rest)
      | .long name value => readLong allowed given name value
      | .short letters => readLetters allowed given letters
    match open', rest with
    | none, rest => readOptions allowed given rest
    | some setting, value :: rest => readOptions allowed (← given.putNext setting [value]) rest
    | some _, [] => .error .misuse

def readAll (allowed : List Setting) (words : List (List Char)) : Except Ending Given := do
  let (given, rest) ← readOptions allowed {} words
  if rest.isEmpty then return given else .error .misuse

/-- The program may also come from the environment, whether or not it is blank. -/
def runOptions (environment : Option String) (given : Given) : RunOptions where
  config := given.text? .config
  program := (given.text? .program).or environment
  stats := given.text? .stats
  format := ((given.text? .format).bind StatisticFormat.ofName?).getD .csv
  seed := (given.value? .seed).bind Setting.readSeed
  stopAt := given.text? .stopAt
  statisticLevel := (given.value? .statisticLevel).bind Setting.readLevel

/-- The verbosity asked for behind the command counts, and only without any the one before it. -/
def invoke (verbosity : Nat) (given : Given) (command : Command) : Invocation where
  verbosity := if given.verbosity = 0 then verbosity else given.verbosity
  command := command

def commands : List String := ["run", "check", "script", "help"]

def readCommand (environment : Option String) (verbosity : Nat) (name : String)
    (words : List (List Char)) : Except Ending Invocation := do
  match name with
  | "run" =>
    let given ← readAll (Setting.names.map (·.2)) words
    return invoke verbosity given (.run (runOptions environment given))
  | "check" =>
    let given ← readAll [.config] words
    match given.text? .config with
    | some path => return invoke verbosity given (.check path)
    | none => .error .misuse
  | "script" =>
    let (given, rest) ← readOptions [] {} words
    match rest with
    | path :: _ => return invoke verbosity given (.script (String.ofList path))
    | [] => .error .misuse
  | "help" =>
    match words with
    | [] => .error .help
    | [topic] => if commands.contains (String.ofList topic) then .error .help else .error .misuse
    | _ => .error .misuse
  | _ => .error .misuse

def readTopLetters (verbosity : Nat) : List Char → Except Ending Nat
  | [] => .ok verbosity
  | 'v' :: rest => readTopLetters (verbosity + 1) rest
  | 'h' :: _ => .error .help
  | 'V' :: _ => .error .version
  | _ => .error .misuse

def readWords (environment : Option String) (verbosity : Nat) :
    List (List Char) → Except Ending Invocation
  | [] => .ok ⟨verbosity, .nothing⟩
  | word :: rest =>
    match Word.ofText word with
    | .separator => if rest.isEmpty then .ok ⟨verbosity, .nothing⟩ else .error .misuse
    | .plain => readCommand environment verbosity (String.ofList word) rest
    | .short letters => do readWords environment (← readTopLetters verbosity letters) rest
    | .long name value =>
      match String.ofList name, value with
      | "verbose", none => readWords environment (verbosity + 1) rest
      | "help", none => .error .help
      | "version", none => .error .version
      | _, _ => .error .misuse

def isScriptPath (word : String) : Bool :=
  (Text.upTo? ".py".toList word.toList).isSome

/-- A path that ends in `.py` at the front needs no command. -/
def read (environment : Option String) (words : List String) : Except Ending Invocation :=
  match words with
  | path :: _ =>
    if isScriptPath path then .ok ⟨0, .script path⟩
    else readWords environment 0 (words.map String.toList)
  | [] => readWords environment 0 []

end CoreTiming.CommandLine
