import PathStore.Operation.Json
import PathStore.Settings.Json
import PathStore.Workspace.Files

/-!
# Files of settings and of operations

Settings and operations are loaded from a file by its path.  Either the file
is not read as text, or its text is refused.
-/

namespace PathStore

/-- Why a file was not loaded. -/
inductive LoadError where
  | unreadable (path : String) (cause : FileError)
  | invalid (path : String) (cause : Json.ReadError)
deriving DecidableEq, Repr

/-- Loads a file whose text `read` understands. -/
def Files.load {α : Type} (files : Files) (read : String → Except Json.ReadError α)
    (path : String) : Except LoadError α :=
  match files.readText path with
  | .error cause => .error (.unreadable path cause)
  | .ok text =>
    match read text with
    | .error cause => .error (.invalid path cause)
    | .ok value => .ok value

theorem Files.load_eq_ok_iff {α : Type} {files : Files} {read : String → Except Json.ReadError α}
    {path : String} {value : α} :
    files.load read path = .ok value ↔
      ∃ text, files.readText path = .ok text ∧ read text = .ok value := by
  rw [load]
  cases files.readText path with
  | error cause => simp
  | ok text => cases isRead : read text <;> simp [isRead]

namespace Settings

/-- The wording of a refusal of a file of settings. -/
def loadMessage : LoadError → String
  | .unreadable path cause => "failed to read config " ++ path ++ ": " ++ cause.message
  | .invalid path cause => "invalid config " ++ path ++ ": " ++ cause.message

/-- The failure behind a refusal of a file of settings. -/
def loadFailure (error : LoadError) : Failure :=
  match error with
  | .unreadable _ cause => .because (loadMessage error) (.plain cause.message)
  | .invalid _ cause => .because (loadMessage error) (.plain cause.message)

/-- Loads settings from a file. -/
def load (files : Files) (path : String) : Except LoadError Settings :=
  files.load ofJson path

end Settings

namespace Operation

/-- The failure behind a refusal of a batch file. -/
def loadFailure : LoadError → Failure
  | .unreadable path cause =>
    .because ("failed to read batch file " ++ path) (.plain cause.message)
  | .invalid path cause => .because ("invalid batch file " ++ path) (.plain cause.message)

/-- Loads the operations of a batch file. -/
def load (files : Files) (path : String) : Except LoadError (List Operation) :=
  files.load ofJson path

end Operation

end PathStore
