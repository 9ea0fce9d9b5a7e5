import WebTrim.Command.Run

/-!
# The command

Reads a directory, runs the command on it, writes the files that got smaller, and prints the log.
-/

set_option autoImplicit false

namespace WebTrim

open Command

/-- Whether a file can be written. -/
def isWritable (entry : IO.FS.DirEntry) : IO Bool := do
  try
    let _ ← IO.FS.Handle.mk entry.path .readWrite
    return true
  catch _ => return false

/-- The content of a file. -/
def readContent (entry : IO.FS.DirEntry) : IO Content := do
  try
    let bytes ← IO.FS.readBinFile entry.path
    match String.fromUTF8? bytes with
    | some text =>
      return if ← isWritable entry then .text text.toList else .readOnly text.toList
    | none => return .bytes bytes.toList
  catch _ => return .locked

/-- The files below a directory that have one of the extensions, with their paths. -/
partial def readFiles (extensions : List Text) (path : Path) (directory : IO.FS.DirEntry) :
    IO (List (Path × IO.FS.DirEntry)) := do
  let mut found := []
  for entry in ← directory.path.readDir do
    let here := path ++ [entry.fileName.toList]
    if ← entry.path.isDir then
      found := found ++ (← readFiles extensions here entry)
    else if FileTree.isWanted extensions here then
      found := found ++ [(here, entry)]
  return found

/-- The text of a settings file, if it can be read. -/
def readSettings (path : Text) : IO (Option Text) := do
  try
    let text ← IO.FS.readFile (String.ofList path)
    return some text.toList
  catch _ => return none

/-- A line of the log. -/
def logLine (entry : Entry) : String :=
  let source := match entry.source with
    | .command => "webtrim"
    | .pass => "webtrim.pass"
  String.ofList entry.level.word ++ " " ++ source ++ ": " ++ String.ofList entry.message

/-- Prints the log, and appends it to a file if one is named. -/
def printLog (logFile : Option Text) (log : List Entry) : IO Unit := do
  let lines := log.map logLine
  for line in lines do
    IO.eprintln line
  match logFile with
  | some path =>
    if !path.isEmpty then
      IO.FS.withFile (String.ofList path) .append fun handle => do
        for line in lines do
          handle.putStrLn line
  | none => return

/-- Runs the command with its settings. -/
def runCommand (arguments : Arguments) (settings : Settings) : IO Result := do
  let directory : IO.FS.DirEntry :=
    { root := ← IO.currentDir, fileName := String.ofList arguments.root }
  let finish (result : Except Crash Result) : Result :=
    match result with
    | .ok result => result
    | .error crash => abandon crash
  if !(← directory.path.isDir) then
    return finish (Command.run .standard arguments settings none)
  let entries ← readFiles settings.extensions [] directory
  let contents ← entries.mapM fun (path, entry) => do return (path, ← readContent entry)
  let result := finish (Command.run .standard arguments settings (some (.ofFiles contents)))
  for (path, text) in result.writes do
    match entries.lookup path with
    | some entry => IO.FS.writeFile entry.path (String.ofList text)
    | none => pure ()
  return result

end WebTrim

open WebTrim Command in
/-- Runs the command line. -/
def main (words : List String) : IO UInt32 := do
  match Arguments.parse (words.map String.toList) with
  | .error refusal =>
    IO.eprintln "usage: webtrim [-h] [--config CONFIG] [--dry-run] [--log-file LOG_FILE] [-v] root"
    return refusal.exitCode.toUInt32
  | .ok arguments =>
    let file ← match arguments.config with
      | some path => readSettings path
      | none => pure none
    let result ← match settings arguments file with
      | .ok settings => runCommand arguments settings
      | .error e => pure (refuse e)
    printLog arguments.logFile result.log
    return result.exitCode.toUInt32
