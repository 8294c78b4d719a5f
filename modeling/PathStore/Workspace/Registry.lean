import PathStore.Workspace.Basic

/-!
# Named handles

A registry keeps handles by name, and apart from them temporary databases by
name.  A home is in use as long as some name stands for it, so dropping the last
handle frees its directory.  Opening fails before anything is dropped: the name
keeps what it stood for.
-/

namespace PathStore

/-- A workspace with handles and homes by name. -/
structure Registry where
  workspace : Workspace
  handles : Table String Handle
  homes : Table String Home
deriving DecidableEq, Repr

namespace Registry

/-- A workspace and no names. -/
def ofWorkspace (workspace : Workspace) : Registry := ⟨workspace, Table.empty, Table.empty⟩

instance : Inhabited Registry := ⟨ofWorkspace default⟩

/-- Some name stands for the home. -/
def inUse (registry : Registry) (home : Home) : Bool :=
  registry.handles.entries.any (fun entry => entry.2.home = home)
    || registry.homes.entries.any (fun entry => entry.2 = home)

/-- The workspace as an engine that knows what is in use. -/
def engine (registry : Registry) : Engine Workspace :=
  Workspace.engine registry.inUse

/-- Lets a name stand for a handle. -/
def hold (registry : Registry) (name : String) (handle : Handle) : Registry :=
  { registry with handles := registry.handles.insert name handle }

/-- Opens the store that settings describe under a name. -/
def openStore (registry : Registry) (name : String) (settings : Settings) :
    Except String Unit × Registry :=
  match (registry.engine.openStore settings).run registry.workspace with
  | (.error reason, workspace) => (.error reason, { registry with workspace })
  | (.ok handle, workspace) => (.ok (), { registry with workspace }.hold name handle)

/-- Opens a new temporary database under a name. -/
def openDatabase (registry : Registry) (name : String) : Except String Unit × Registry :=
  match registry.engine.openTemporary.run registry.workspace with
  | (.error reason, workspace) => (.error reason, { registry with workspace })
  | (.ok home, workspace) =>
    (.ok (), { registry with workspace, homes := registry.homes.insert name home })

/-- Lets a name stand for a tree of a database that is open. -/
def openTree (registry : Registry) (name database tree : String) : Option Registry := do
  let home ← registry.homes.get? database
  return registry.hold name ⟨home, tree⟩

/-- Lets a name stand for what another name stands for. -/
def clone (registry : Registry) (name source : String) : Option Registry := do
  let handle ← registry.handles.get? source
  return registry.hold name handle

/-- Lets a name stand for no handle. -/
def drop (registry : Registry) (name : String) : Registry :=
  { registry with handles := registry.handles.erase name }

/-- The pairs of the tree that a name stands for. -/
def pairs? (registry : Registry) (name : String) : Option Pairs :=
  (registry.handles.get? name).map registry.workspace.pairs

/-- The tree that a name stands for, as a store. -/
def tree? (registry : Registry) (name : String) : Option (OpenTree registry.engine) :=
  (registry.handles.get? name).map fun handle => ⟨registry.workspace, handle⟩

/-- Makes a call to the tree that a name stands for. -/
def call (registry : Registry) (name : String)
    (call : OpenTree registry.engine → Outcome (OpenTree registry.engine)) :
    Option (Outcome Registry) :=
  (registry.tree? name).map fun tree =>
    (call tree).map fun tree => { registry with workspace := tree.disk }

end Registry

end PathStore
