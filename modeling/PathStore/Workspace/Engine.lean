import PathStore.Settings.Basic
import PathStore.Store.Tree
import PathStore.Workspace.Files

/-!
# Engines of databases

Databases are kept by an engine.  What is used of it are the calls below: a
database is opened by the path of its directory, or as a temporary one, and its
trees are read and changed.  A call may be refused with a reason of the
engine's own, and it may have changed something by then.

An open tree of any engine is a backend.  It hands a batch over as one group of
changes and flushes the database when it is closed.
-/

namespace PathStore

/-- Where a database is at home. -/
inductive Home where
  | directory (place : Place)
  | temporary (number : Nat)
deriving DecidableEq, Repr

/-- A tree of a database that is open. -/
structure Handle where
  home : Home
  tree : String
deriving DecidableEq, Repr

/-- A call of an engine that keeps a `δ`.  It is refused with a reason. -/
abbrev EngineCall (δ α : Type) := ExceptT String (StateM δ) α

/-- What an engine of databases answers. -/
structure Engine (δ : Type) where
  /-- The files that stand beside the databases. -/
  files : δ → Files
  /-- Opens the database of a directory, which is made if it is missing. -/
  openDirectory (path : String) : EngineCall δ Home
  /-- Opens a new database that lasts as long as it is open. -/
  openTemporary : EngineCall δ Home
  /-- Opens a tree of a database that is open. -/
  openTree (handle : Handle) : EngineCall δ Unit
  /-- The value of a key, or its absence. -/
  read (disk : δ) (handle : Handle) (key : Key) : Except String (Option Value)
  /-- Changes one key. -/
  write (handle : Handle) (change : Write) : EngineCall δ Unit
  /-- Changes the keys of a group. -/
  writeGroup (handle : Handle) (group : ChangeGroup) : EngineCall δ Unit
  /-- Removes all pairs of a tree. -/
  clear (handle : Handle) : EngineCall δ Unit
  /-- Makes all changes of a database durable. -/
  flush (home : Home) : EngineCall δ Unit

namespace Engine

variable {δ : Type}

/-- Opens the database that settings describe. -/
def openHome (engine : Engine δ) (settings : Settings) : EngineCall δ Home :=
  if settings.temporary then engine.openTemporary
  else engine.openDirectory settings.dataDir

/-- Empties a tree that has been opened, if that is wanted. -/
def reset (engine : Engine δ) (handle : Handle) (wanted : Bool) : EngineCall δ Unit :=
  if wanted then do
    engine.clear handle
    engine.flush handle.home
  else pure ()

/-- Opens the store that settings describe.  A reset empties its tree. -/
def openStore (engine : Engine δ) (settings : Settings) : EngineCall δ Handle := do
  let home ← engine.openHome settings
  engine.openTree ⟨home, settings.tree⟩
  engine.reset ⟨home, settings.tree⟩ settings.databaseReset
  return ⟨home, settings.tree⟩

end Engine

/-- A tree that an engine has open, as a store. -/
structure OpenTree {δ : Type} (engine : Engine δ) where
  disk : δ
  handle : Handle

namespace OpenTree

variable {δ : Type} {engine : Engine δ}

/-- Makes a call of the engine, whose reason is that of the store. -/
def call (tree : OpenTree engine) (request : EngineCall δ Unit) : Outcome (OpenTree engine) :=
  match request.run tree.disk with
  | (.ok (), disk) => .done { tree with disk }
  | (.error reason, disk) => .refused (.engine reason) { tree with disk }

instance : Backend (OpenTree engine) where
  read tree key :=
    match engine.read tree.disk tree.handle key with
    | .ok value => .ok value
    | .error reason => .error (.engine reason)
  write tree change := tree.call (engine.write tree.handle change)
  close tree := tree.call (engine.flush tree.handle.home)
  writeBatch tree batch :=
    tree.call (engine.writeGroup tree.handle (ChangeGroup.ofWrites batch.writes))

end OpenTree

end PathStore
