import PathStore.Store.Pairs

/-!
# Trees of a database

A database keeps its pairs in named trees.  A tree takes changes in groups: a
group remembers for each key the last change it was given, and applying it
changes all of its keys at once or none.  A batch is written as one group.
-/

namespace PathStore

/-- One outcome for each key of a group of changes. -/
abbrev ChangeGroup := Table Key (Option Value)

namespace ChangeGroup

/-- The group that a list of writes makes: of two writes to one key the later
one counts. -/
def ofWrites (writes : List Write) : ChangeGroup :=
  writes.foldl (fun group write => group.insert write.key write.outcome) Table.empty

/-- The pairs after all changes of a group. -/
def apply (group : ChangeGroup) (pairs : Pairs) : Pairs :=
  group.entries.foldl (fun pairs change => pairs.set change.1 change.2) pairs

end ChangeGroup

/-- Pairs by the name of the tree that holds them. -/
abbrev Database := Table String Pairs

/-- A tree that refuses no call. -/
structure TreeStore where
  pairs : Pairs
deriving DecidableEq, Repr

namespace TreeStore

/-- The tree without pairs. -/
def empty : TreeStore := ⟨Table.empty⟩

instance : Backend TreeStore where
  read tree key := .ok (tree.pairs.get? key)
  write tree write := .done ⟨tree.pairs.write write⟩
  close tree := .done tree
  writeBatch tree batch := .done ⟨(ChangeGroup.ofWrites batch.writes).apply tree.pairs⟩

end TreeStore

end PathStore
