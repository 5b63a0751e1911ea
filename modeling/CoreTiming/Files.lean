import CoreTiming.Text.Split

namespace CoreTiming

inductive FileFault
  | notFound
  | isDirectory
  | notDirectory
  | nameTooLong
  | notText
  | nulInName
  deriving DecidableEq, Repr

def FileFault.message : FileFault → String
  | .notFound => "No such file or directory (os error 2)"
  | .isDirectory => "Is a directory (os error 21)"
  | .notDirectory => "Not a directory (os error 20)"
  | .nameTooLong => "File name too long (os error 36)"
  | .notText => "stream did not contain valid UTF-8"
  | .nulInName => "file name contained an unexpected NUL byte"

/-- Each file is named by the components of its place; one without contents holds no valid text. -/
structure Files where
  entries : List (List String × Option String)
  deriving DecidableEq, Repr

namespace Files

inductive Node
  | file (contents : Option String)
  | directory
  deriving DecidableEq, Repr

def node? (files : Files) (place : List String) : Option Node :=
  match files.entries.lookup place with
  | some contents => some (.file contents)
  | none =>
    if place.isEmpty || files.entries.any (fun entry => entry.1.take place.length == place) then
      some .directory
    else none

def longestName : Nat := 255

def longestPath : Nat := 4095

def components (path : String) : Except FileFault (List String) :=
  if path.toList.contains '\x00' then .error .nulInName
  else if path.isEmpty then .error .notFound
  else if longestPath < path.utf8ByteSize then .error .nameTooLong
  else .ok ((Text.splitAt '/' path.toList).map String.ofList)

def placeOf (path : String) : List String :=
  (((Text.splitAt '/' path.toList).map String.ofList).foldl (fun place part =>
    if part = "" || part = "." then place
    else if part = ".." then place.dropLast
    else place ++ [part]) [])

def addFile (files : Files) (path : String) (contents : Option String) : Files :=
  ⟨(placeOf path, contents) :: files.entries⟩

/-- A directory that holds nothing else holds a file that no path can name. -/
def addDirectory (files : Files) (path : String) : Files :=
  ⟨(placeOf path ++ [""], none) :: files.entries⟩

def walk (files : Files) (place : List String) : List String → Except FileFault (List String)
  | [] => .ok place
  | part :: rest =>
    match files.node? place with
    | none => .error .notFound
    | some (.file _) => .error .notDirectory
    | some .directory =>
      if part = "" || part = "." then files.walk place rest
      else if part = ".." then files.walk place.dropLast rest
      else if longestName < part.utf8ByteSize then .error .nameTooLong
      else files.walk (place ++ [part]) rest

def read (files : Files) (path : String) : Except FileFault String := do
  let place ← files.walk [] (← components path)
  match files.node? place with
  | none => .error .notFound
  | some .directory => .error .isDirectory
  | some (.file none) => .error .notText
  | some (.file (some contents)) => .ok contents

def write (files : Files) (path contents : String) : Except FileFault Files := do
  let parts ← components path
  let named := (parts.reverse.dropWhile (· = "")).reverse
  let parent ← files.walk [] (named.dropLast ++ ["."])
  match named.getLast? with
  | none | some "." | some ".." => .error .isDirectory
  | some name =>
    let place := parent ++ [name]
    if named.length < parts.length || files.node? place = some .directory then .error .isDirectory
    else if longestName < name.utf8ByteSize then .error .nameTooLong
    else .ok ⟨files.entries.filter (·.1 != place) ++ [(place, some contents)]⟩

end Files

structure Environment where
  files : Files
  /-- The variable `REV_EXE`: the program to run instead of the configured one. -/
  program : Option String := none
  /-- The variable `RUST_LOG`: which log lines are shown. -/
  logFilter : Option String := none
  deriving DecidableEq, Repr

end CoreTiming
