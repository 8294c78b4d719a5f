/-!
# Settings of a store

The settings say where a store is kept and how it is opened.  Each of them has
a default, so settings may be given in part.
-/

namespace PathStore

/-- Where a store is kept and how it is opened. -/
structure Settings where
  /-- The directory of the database. -/
  dataDir : String
  /-- The tree of the database that holds the pairs. -/
  tree : String
  /-- The tree is emptied when the store is opened. -/
  databaseReset : Bool
  /-- The database lives as long as the store is open, in no directory. -/
  temporary : Bool
deriving DecidableEq, Repr

namespace Settings

/-- The settings that hold where none are given. -/
def default : Settings := ⟨"database", "state", false, false⟩

instance : Inhabited Settings := ⟨default⟩

/-- The settings of a store that is thrown away. -/
def throwaway : Settings := { default with temporary := true }

end Settings

/-- Settings given by the flags of a command. -/
structure StoreFlags where
  dataDir : Option String
  tree : Option String
  reset : Bool
deriving DecidableEq, Repr

namespace StoreFlags

/-- No flags. -/
def none : StoreFlags := ⟨.none, .none, false⟩

/-- Lays the flags over settings.  A flag can only turn the reset on. -/
def applyTo (flags : StoreFlags) (settings : Settings) : Settings :=
  { settings with
    dataDir := flags.dataDir.getD settings.dataDir
    tree := flags.tree.getD settings.tree
    databaseReset := flags.reset || settings.databaseReset }

end StoreFlags

end PathStore
