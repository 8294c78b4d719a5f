import PathStore.Command.Run
import PathStore.Workspace.Basic
import PathStore.Workspace.Snapshot

/-!
# The program

The outer layer of the command line.  It fetches what a command reads from the
file system, lets the command run in a workspace that holds just that, and
brings the database back to its directory.
-/

namespace PathStore

namespace Program

/-- The variables of the environment that a command line looks at. -/
def environment : IO CommandLine.Environment := do
  let names := CommandLine.logVariable ::
    [.config, .dataDir, .tree].filterMap CommandLine.Parameter.environmentName?
  let values ← names.mapM fun name => do return (name, ← IO.getEnv name)
  return fun name => (values.find? fun entry => entry.1 = name).bind (·.2)

/-- A directory stands under a path. -/
def isDirectory (path : String) : IO Bool := do
  try (← IO.FS.realPath path).isDir catch _ => return false

/-- The files as they are seen from the working directory, before anything is
fetched. -/
def emptyFiles : IO Files := do
  let here := toString (← IO.currentDir)
  return .bare (Place.ofPath [] here)

/-- Fetches what stands at a place. -/
def fetchPlace (files : Files) (place : Place) : IO Files := do
  try
    let content ← IO.FS.readBinFile place.path
    return files.insert place (.file content.toList)
  catch _ =>
    if ← isDirectory place.path then return files.insert place .directory
    else return files

/-- Fetches what a path passes. -/
def fetch (files : Files) (path : String) : IO Files :=
  (Place.trail (.start files.here path) (Place.names path)).foldlM fetchPlace files

/-- The names in a directory. -/
def namesIn (directory : String) : IO (List String) := do
  try
    let entries ← (← IO.FS.realPath (Layout.inside directory ".")).readDir
    return entries.toList.map (·.fileName)
  catch _ => return []

/-- Fetches what a database keeps in its directory, and the database. -/
def fetchDatabase (files : Files) (directory : String) : IO Files := do
  let largeValues := Layout.inside directory Layout.largeValues
  let names := [Layout.largeValues, Layout.format, Layout.pairs]
    ++ (← namesIn directory).filter Layout.isCheckpoint
  let paths := names.map (Layout.inside directory)
    ++ (← namesIn largeValues).map (Layout.inside largeValues)
  let files ← paths.foldlM fetch files
  let pairsFile := Layout.inside directory Layout.pairs
  match files.readText pairsFile, files.find pairsFile with
  | .ok text, .ok (place, _) =>
    match Database.ofText? text with
    | some trees => return files.insert place (.database trees)
    | none => return files
  | _, _ => return files

/-- Brings the changes of files to the file system, directories first. -/
def bring (before after : Files) : IO Unit := do
  for (place, entry) in after.entries.entries do
    if entry = .directory then IO.FS.createDirAll place.path
  for (place, entry) in after.entries.entries do
    match entry with
    | .directory => pure ()
    | .database trees => IO.FS.writeFile place.path trees.render
    | .file content =>
      if before.get? place ≠ some entry then
        IO.FS.writeBinFile place.path content.toByteArray
  for (place, _) in before.entries.entries do
    if (after.get? place).isNone then IO.FS.removeFile place.path

/-- Runs a command line in a workspace that nobody else uses. -/
def runIn (environment : CommandLine.Environment) (words : List String) (files : Files) :
    Exit × Workspace :=
  runProgram environment words (Workspace.engine fun _ => false) (.ofFiles files)

/-- Runs a command line whose command works on a store. -/
def runOnStore (environment : CommandLine.Environment) (words : List String)
    (choice : StoreChoice) (inputs : List String) : IO Exit := do
  let files ← inputs.foldlM fetch (← emptyFiles)
  let before ←
    match choice.settings files with
    | .error _ => pure files
    | .ok settings =>
      if settings.temporary then pure files
      else fetchDatabase files settings.dataDir
  let (exit, after) := runIn environment words before
  bring before after.files
  return exit

/-- Runs a command line. -/
def run (words : List String) : IO Exit := do
  let environment ← environment
  let inputs (choice : StoreChoice) := choice.config.toList
  match CommandLine.read environment words with
  | .run (.get choice _) | .run (.put choice _ _) | .run (.delete choice _) =>
    runOnStore environment words choice (inputs choice)
  | .run (.apply choice batch _ _) =>
    runOnStore environment words choice (batch :: inputs choice)
  | _ => return (runIn environment words (← emptyFiles)).1

end Program

end PathStore

/-- Runs the program and leaves with its status. -/
def main (words : List String) : IO UInt32 := do
  let exit ← PathStore.Program.run words
  IO.print exit.output
  if let some failure := exit.failure then IO.eprintln failure
  return exit.status.toUInt32
