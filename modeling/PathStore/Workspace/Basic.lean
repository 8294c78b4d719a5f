import PathStore.Workspace.Engine
import PathStore.Workspace.Layout

/-!
# Databases of a workspace

A workspace is an engine that keeps databases among its files.  The database of
a directory is in the file of pairs there, and stays when nobody has it open; a
temporary one is kept apart, and nobody can open it a second time.  A directory
is opened by one user at a time.  Opening may fail after it has changed files,
and what it changed stays.  No other call is refused.
-/

namespace PathStore

/-- Files and temporary databases. -/
structure Workspace where
  files : Files
  temporaries : Table Nat Database
  /-- The number of the next temporary database. -/
  fresh : Nat
deriving DecidableEq, Repr

namespace Workspace

/-- Files and no temporary databases. -/
def ofFiles (files : Files) : Workspace := ⟨files, Table.empty, 0⟩

instance : Inhabited Workspace := ⟨ofFiles default⟩

/-- The trees of the database at a home. -/
def database (workspace : Workspace) : Home → Database
  | .directory place => workspace.files.trees (place ++ [Layout.pairs])
  | .temporary number => (workspace.temporaries.get? number).getD Table.empty

/-- Puts a database at a home. -/
def setDatabase (workspace : Workspace) (trees : Database) : Home → Workspace
  | .directory place =>
    { workspace with files := workspace.files.insert (place ++ [Layout.pairs]) (.database trees) }
  | .temporary number =>
    { workspace with temporaries := workspace.temporaries.insert number trees }

/-- The pairs of a tree.  A tree that was never written holds none. -/
def pairs (workspace : Workspace) (handle : Handle) : Pairs :=
  ((workspace.database handle.home).get? handle.tree).getD Table.empty

/-- Replaces the pairs of a tree. -/
def setPairs (workspace : Workspace) (handle : Handle) (pairs : Pairs) : Workspace :=
  workspace.setDatabase ((workspace.database handle.home).insert handle.tree pairs) handle.home

/-- Changes the pairs of a tree. -/
def edit (handle : Handle) (change : Pairs → Pairs) : EngineCall Workspace Unit :=
  modify fun workspace => workspace.setPairs handle (change (workspace.pairs handle))

/-- Opens the database of a directory. -/
def openDirectory (inUse : Home → Bool) (path : String) : EngineCall Workspace Home :=
  fun workspace =>
    match (Layout.openDirectory (inUse <| .directory ·) path).run workspace.files with
    | (.error error, files) => (.error error.message, { workspace with files })
    | (.ok place, files) => (.ok (.directory place), { workspace with files })

/-- Opens a new temporary database. -/
def openTemporary : EngineCall Workspace Home :=
  fun workspace => (.ok (.temporary workspace.fresh), { workspace with
    temporaries := workspace.temporaries.insert workspace.fresh Table.empty
    fresh := workspace.fresh + 1 })

/-- The calls of a workspace some of whose databases are in use elsewhere. -/
def engine (inUse : Home → Bool) : Engine Workspace where
  files := files
  openDirectory := openDirectory inUse
  openTemporary := openTemporary
  openTree _ := pure ()
  read workspace handle key := .ok ((workspace.pairs handle).get? key)
  write handle change := edit handle (·.write change)
  writeGroup handle group := edit handle group.apply
  clear handle := edit handle fun _ => Table.empty
  flush _ := pure ()

end Workspace

end PathStore
