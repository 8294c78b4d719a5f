import Mathlib.Logic.Function.Basic
import PathStore.Proofs.LastWrite
import PathStore.Proofs.Opening
import PathStore.Workspace.Basic

/-!
# What an engine keeps

An engine keeps a map for each tree of a directory.  `Engine.Keeps` says how its
calls treat these maps when they succeed and, as far as anything is known of it,
when they are refused; `Engine.Accepts` says of an engine that it refuses no
change.  Nothing is asked of the files in which an engine keeps the maps.

A workspace is an engine of this kind.
-/

namespace PathStore

/-- What the keys of each tree of each directory read as. -/
abbrev Contents := Place × String → Key → Option Value

/-- What keys read as after a group of changes. -/
def ChangeGroup.settle (group : ChangeGroup) (reads : Key → Option Value) :
    Key → Option Value :=
  fun key => (group.get? key).getD (reads key)

namespace Contents

/-- What the keys of an open tree read as.  No tree of a temporary database is in
a directory. -/
def reads (contents : Contents) (handle : Handle) : Key → Option Value :=
  match handle.home with
  | .directory place => contents (place, handle.tree)
  | .temporary _ => fun _ => none

/-- The contents with an open tree replaced. -/
def set (contents : Contents) (handle : Handle) (held : Key → Option Value) : Contents :=
  match handle.home with
  | .directory place => Function.update contents (place, handle.tree) held
  | .temporary _ => contents

end Contents

section

variable {δ : Type}

/-- What is relied on of an engine that keeps these contents. -/
structure Engine.Keeps (engine : Engine δ) (contents : δ → Contents) : Prop where
  /-- A directory has one database, whatever path leads to it. -/
  home_directory {disk after : δ} {path : String} {home : Home} :
    (engine.openDirectory path).run disk = (.ok home, after) →
      home = .directory (.ofPath (engine.files disk).here path)
  /-- A temporary database is in no directory. -/
  home_temporary {disk after : δ} {home : Home} :
    engine.openTemporary.run disk = (.ok home, after) → ∃ number, home = .temporary number
  /-- Pairs are not changed when a database or a tree is opened, or is not. -/
  openDirectory (disk : δ) (path : String) :
    contents ((engine.openDirectory path).run disk).2 = contents disk
  openTemporary (disk : δ) : contents (engine.openTemporary.run disk).2 = contents disk
  openTree (disk : δ) (handle : Handle) :
    contents ((engine.openTree handle).run disk).2 = contents disk
  /-- Nor are they when changes are made durable, or are not. -/
  flush (disk : δ) (home : Home) : contents ((engine.flush home).run disk).2 = contents disk
  /-- What is read is what is kept. -/
  read {disk : δ} {place : Place} {tree : String} {key : Key} {value : Option Value} :
    engine.read disk ⟨.directory place, tree⟩ key = .ok value →
      value = contents disk (place, tree) key
  /-- A write that is accepted changes its key. -/
  write {disk after : δ} {handle : Handle} {change : Write} :
    (engine.write handle change).run disk = (.ok (), after) →
      contents after = (contents disk).set handle
        (Function.update ((contents disk).reads handle) change.key change.outcome)
  /-- A group changes all its keys if it is accepted, and none if it is refused. -/
  writeGroup {disk after : δ} {handle : Handle} {group : ChangeGroup} :
    (engine.writeGroup handle group).run disk = (.ok (), after) →
      contents after = (contents disk).set handle (group.settle ((contents disk).reads handle))
  writeGroup_refused {disk after : δ} {handle : Handle} {group : ChangeGroup} {reason : String} :
    (engine.writeGroup handle group).run disk = (.error reason, after) →
      contents after = contents disk
  /-- Clearing a tree removes all its pairs.  It may be refused when it has removed
  some of them. -/
  clear {disk after : δ} {handle : Handle} :
    (engine.clear handle).run disk = (.ok (), after) →
      contents after = (contents disk).set handle fun _ => none
  clear_refused {disk after : δ} {handle : Handle} {reason : String} :
    (engine.clear handle).run disk = (.error reason, after) →
      ∃ left, (∀ key, left key = none ∨ left key = (contents disk).reads handle key) ∧
        contents after = (contents disk).set handle left

/-- The engine refuses no change of a tree that is open. -/
structure Engine.Accepts (engine : Engine δ) : Prop where
  write (disk : δ) (handle : Handle) (change : Write) :
    ((engine.write handle change).run disk).1 = .ok ()
  writeGroup (disk : δ) (handle : Handle) (group : ChangeGroup) :
    ((engine.writeGroup handle group).run disk).1 = .ok ()

end

namespace Contents

theorem set_directory (contents : Contents) (place : Place) (tree : String)
    (held : Key → Option Value) :
    contents.set ⟨.directory place, tree⟩ held = Function.update contents (place, tree) held :=
  rfl

theorem set_temporary {handle : Handle} {number : Nat}
    (isTemporary : handle.home = .temporary number) (contents : Contents)
    (held : Key → Option Value) : contents.set handle held = contents := by
  rw [set, isTemporary]

/-- What was there is put back. -/
theorem set_reads (contents : Contents) (handle : Handle) :
    contents.set handle (contents.reads handle) = contents := by
  rcases handle with ⟨place | number, tree⟩
  · exact Function.update_eq_self _ _
  · rfl

theorem set_set (contents : Contents) (handle : Handle) (held others : Key → Option Value) :
    (contents.set handle held).set handle others = contents.set handle others := by
  rcases handle with ⟨place | number, tree⟩
  · exact Function.update_idem _ _ _
  · rfl

theorem reads_set_directory (contents : Contents) (place : Place) (tree : String)
    (held : Key → Option Value) :
    (contents.set ⟨.directory place, tree⟩ held).reads ⟨.directory place, tree⟩ = held :=
  Function.update_self _ _ _

end Contents

/-! ## Workspaces -/

namespace Workspace

/-- What the keys of the trees at home in directories read as. -/
def contents (workspace : Workspace) : Contents := fun tree key =>
  (workspace.pairs ⟨.directory tree.1, tree.2⟩).get? key

theorem database_setDatabase (workspace : Workspace) (trees : Database) (home other : Home) :
    (workspace.setDatabase trees home).database other =
      if home = other then trees else workspace.database other := by
  rcases home with place | number <;> rcases other with otherPlace | otherNumber
  · rw [setDatabase, database, Files.trees_insert]
    simp only [List.append_cancel_right_eq, Home.directory.injEq]
    rfl
  · rfl
  · rfl
  · rw [setDatabase, database, Table.get?_insert]
    by_cases same : number = otherNumber
    · simp [same]
    · simp [same, database]

theorem pairs_setPairs (workspace : Workspace) (handle other : Handle) (pairs : Pairs) :
    (workspace.setPairs handle pairs).pairs other =
      if handle = other then pairs else workspace.pairs other := by
  rcases handle with ⟨home, tree⟩
  rcases other with ⟨otherHome, otherTree⟩
  rw [Workspace.pairs, setPairs, database_setDatabase]
  by_cases same_home : home = otherHome
  · subst same_home
    rw [if_pos rfl, Table.get?_insert]
    by_cases same_tree : tree = otherTree
    · simp [same_tree]
    · simp [same_tree, Workspace.pairs]
  · rw [if_neg same_home, if_neg (by simp [same_home])]
    rfl

/-- A change of one tree is a change of what it holds. -/
theorem contents_setPairs (workspace : Workspace) (handle : Handle) (pairs : Pairs) :
    (workspace.setPairs handle pairs).contents = workspace.contents.set handle pairs.get? := by
  rcases handle with ⟨place | number, tree⟩ <;> funext other key <;>
    rw [contents, pairs_setPairs]
  · rw [Contents.set_directory, Function.update_apply]
    by_cases same : other = (place, tree)
    · simp [same]
    · have apart : (⟨.directory place, tree⟩ : Handle) ≠ ⟨.directory other.1, other.2⟩ := by
        rintro ⟨⟩
        exact same rfl
      rw [if_neg apart, if_neg same]
      rfl
  · rw [if_neg (by simp)]
    rfl

theorem get?_pairs (workspace : Workspace) {place : Place} {tree : String} :
    (workspace.pairs ⟨.directory place, tree⟩).get? =
      workspace.contents.reads ⟨.directory place, tree⟩ :=
  rfl

/-- An edit is no refusal. -/
theorem contents_of_edit {workspace after : Workspace} {handle : Handle} {change : Pairs → Pairs}
    {result : Except String Unit} (settle : (Key → Option Value) → Key → Option Value)
    (settles : ∀ pairs, (change pairs).get? = settle pairs.get?)
    (edited : (edit handle change).run workspace = (result, after)) :
    after.contents = workspace.contents.set handle (settle (workspace.contents.reads handle)) := by
  cases edited
  rw [contents_setPairs, settles]
  rcases handle with ⟨place | number, tree⟩
  · rw [get?_pairs]
  · rfl

/-- Files may change as long as each database keeps its trees. -/
theorem contents_of_spared {workspace : Workspace} {files : Files}
    (spared : workspace.files.Spared files) :
    ({ workspace with files } : Workspace).contents = workspace.contents := by
  funext tree key
  rw [contents, contents, pairs, pairs, database, database, spared.trees]

theorem keeps_contents (inUse : Home → Bool) : (engine inUse).Keeps contents where
  home_directory {disk after path home} opened := by
    change openDirectory inUse path disk = _ at opened
    rw [openDirectory] at opened
    split at opened
    · cases opened
    · rename_i claimed
      cases opened
      rw [Layout.place_of_openDirectory claimed]
      rfl
  home_temporary opened := by
    cases opened
    exact ⟨_, rfl⟩
  openDirectory workspace path := by
    have spares := Layout.spares_openDirectory (inUse <| .directory ·) workspace.files path
    change (openDirectory inUse path workspace).2.contents = _
    rw [openDirectory]
    rw [Files.Spares] at spares
    split <;> rename_i claimed <;> rw [claimed] at spares <;> exact contents_of_spared spares
  openTemporary workspace := rfl
  openTree workspace handle := rfl
  flush workspace home := rfl
  read found := by
    cases found
    rfl
  write {_ _ handle change} edited := by
    change (edit handle (·.write change)).run _ = _ at edited
    refine contents_of_edit (fun held => Function.update held change.key _) ?_ edited
    intro pairs
    funext key
    rw [Pairs.get?_write, Function.update_apply]
    simp only [eq_comm]
  writeGroup {_ _ handle group} edited := by
    change (edit handle group.apply).run _ = _ at edited
    refine contents_of_edit group.settle ?_ edited
    intro pairs
    funext key
    rw [ChangeGroup.get?_apply, ChangeGroup.settle]
    cases Table.get? group key <;> rfl
  writeGroup_refused refused := by cases refused
  clear {_ _ handle} edited := by
    change (edit handle fun _ => Table.empty).run _ = _ at edited
    exact contents_of_edit (fun _ _ => none) (fun _ => rfl) edited
  clear_refused refused := by cases refused

theorem accepts (inUse : Home → Bool) : (engine inUse).Accepts where
  write _ _ _ := rfl
  writeGroup _ _ _ := rfl

end Workspace

end PathStore
