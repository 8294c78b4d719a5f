import PathStore.Command.Line
import PathStore.Overlay.Apply
import PathStore.Path.Packed
import PathStore.Path.Text
import PathStore.Workspace.Engine
import PathStore.Workspace.Load

/-!
# Running commands

A command runs over an engine of databases.  It prints something and succeeds,
or it fails with the reason and its causes; what the engine has changed by then
stays so in either case.
-/

namespace PathStore

/-- What a command prints, or why it fails. -/
abbrev Report := Except Failure String

namespace StoreChoice

/-- The settings that a choice stands for. -/
def settings (choice : StoreChoice) (files : Files) : Except LoadError Settings := do
  let base ←
    match choice.config with
    | none => .ok Settings.default
    | some path => Settings.load files path
  return choice.flags.applyTo base

/-- Opens the store that a choice stands for. -/
def openStore {δ : Type} (choice : StoreChoice) (engine : Engine δ) (disk : δ) :
    Except Failure Handle × δ :=
  match choice.settings (engine.files disk) with
  | .error error => (.error (Settings.loadFailure error), disk)
  | .ok settings =>
    match (engine.openStore settings).run disk with
    | (.error reason, disk) =>
      (.error (.because ("failed to open database at " ++ settings.dataDir)
        (StoreError.engine reason).failure), disk)
    | (.ok handle, disk) => (.ok handle, disk)

end StoreChoice

namespace Command

/-- Packs typed digits. -/
def packDigits (digits : String) (terminated : Bool) : Report :=
  match Path.readText digits with
  | .error error => .error (.plain error.message)
  | .ok nibbles =>
    let symbols := nibbles.map Path.symbol ++ if terminated then [Path.terminator] else []
    match Path.packSymbols symbols with
    | .error error => .error (.plain error.message)
    | .ok packed => .ok (Hex.encode packed ++ "\n")

/-- Unpacks a typed packed path. -/
def unpackText (packed : String) : Report :=
  match Hex.operand "encoded key" packed with
  | .error error => .error error.failure
  | .ok bytes =>
    match Path.unpackSymbols bytes with
    | .error error => .error (.plain error.message)
    | .ok symbols => .ok (Path.render symbols ++ "\n")

section

variable {δ : Type} {engine : Engine δ}

/-- Makes a write and closes the store. -/
def writeAndClose (tree : OpenTree engine) (write : Write) : Report × δ :=
  match Backend.write tree write with
  | ⟨.error error, tree⟩ => (.error error.failure, tree.disk)
  | ⟨.ok (), tree⟩ =>
    match Backend.close tree with
    | ⟨.error error, tree⟩ => (.error error.failure, tree.disk)
    | ⟨.ok (), tree⟩ => (.ok "", tree.disk)

/-- Prints the value of a key. -/
def getValue (tree : OpenTree engine) (key : String) : Report :=
  match Hex.operand "key" key with
  | .error error => .error error.failure
  | .ok bytes =>
    match Backend.read tree ⟨bytes⟩ with
    | .error error => .error error.failure
    | .ok (some value) => .ok (Hex.encode value ++ "\n")
    | .ok none => .error (.plain ("key " ++ key ++ " not found"))

end

/-- The write that the operands of a put spell. -/
def putWrite (key value : String) : Except OperandError Write := do
  let key ← Hex.operand "key" key
  let value ← Hex.operand "value" value
  return .put ⟨key⟩ value

/-- The write that the operand of a delete spells. -/
def deleteWrite (key : String) : Except OperandError Write := do
  let key ← Hex.operand "key" key
  return .delete ⟨key⟩

/-- The line that sums up an application. -/
def summaryLine (summary : Summary) : String :=
  (if summary.committed then "committed" else "dry run:") ++ " "
    ++ toString summary.puts ++ " puts, " ++ toString summary.deletes ++ " deletes\n"

section

variable {δ : Type} {engine : Engine δ}

/-- Applies operations to a tree and closes the store. -/
def applyAndClose (tree : OpenTree engine) (operations : List Operation) (dryRun metrics : Bool) :
    Report × δ :=
  let applied := (Overlay.idle (.base tree)).apply .latestFirst operations dryRun .zero
  match applied.result with
  | .error error => (.error error.failure, applied.overlay.below.backend.disk)
  | .ok summary =>
    let closed := applied.overlay.toStack.close
    match closed.result with
    | .error error => (.error error.failure, closed.store.backend.disk)
    | .ok () =>
      (.ok (summaryLine summary ++ if metrics then applied.counters.render else ""),
        closed.store.backend.disk)

/-- Opens a store for the rest of a command. -/
def withStore (choice : StoreChoice) (disk : δ) (act : OpenTree engine → Report × δ) :
    Report × δ :=
  match choice.openStore engine disk with
  | (.error failure, disk) => (.error failure, disk)
  | (.ok handle, disk) => act ⟨disk, handle⟩

/-- Runs a command.  A store is opened before the operands are looked at, and
a batch file is read before the store is opened. -/
def run (engine : Engine δ) (disk : δ) : Command → Report × δ
  | pack digits terminated => (packDigits digits terminated, disk)
  | unpack packed => (unpackText packed, disk)
  | get choice key =>
    withStore choice disk fun tree : OpenTree engine => (getValue tree key, tree.disk)
  | put choice key value =>
    withStore choice disk fun tree : OpenTree engine =>
      match putWrite key value with
      | .error error => (.error error.failure, tree.disk)
      | .ok write => writeAndClose tree write
  | delete choice key =>
    withStore choice disk fun tree : OpenTree engine =>
      match deleteWrite key with
      | .error error => (.error error.failure, tree.disk)
      | .ok write => writeAndClose tree write
  | apply choice batch dryRun metrics =>
    match Operation.load (engine.files disk) batch with
    | .error error => (.error (Operation.loadFailure error), disk)
    | .ok operations =>
      withStore choice disk fun tree : OpenTree engine =>
        applyAndClose tree operations dryRun metrics
  | version => (.ok (CommandLine.program ++ " " ++ CommandLine.version ++ "\n"), disk)

end

end Command

/-- How a run of the program ends. -/
structure Exit where
  status : Nat
  output : String
  /-- The text of the failure, if the command failed. -/
  failure : Option String
deriving DecidableEq, Repr

namespace Exit

/-- The end of a run that made a report. -/
def ofReport : Report → Exit
  | .ok output => ⟨0, output, none⟩
  | .error failure => ⟨1, "", some failure.text⟩

end Exit

/-- Runs the program on a command line. -/
def runProgram {δ : Type} (environment : CommandLine.Environment) (words : List String)
    (engine : Engine δ) (disk : δ) : Exit × δ :=
  match CommandLine.read environment words with
  | .misuse => (⟨2, "", none⟩, disk)
  | .showVersion title => (⟨0, title ++ " " ++ CommandLine.version ++ "\n", none⟩, disk)
  | .run command =>
    let (report, disk) := command.run engine disk
    (Exit.ofReport report, disk)

end PathStore
