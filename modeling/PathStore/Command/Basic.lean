import PathStore.Settings.Basic

/-!
# Commands

A command is what an operator asks for: packing or unpacking a path, access to
one key, the application of a batch file, or the version.  Commands on a store
carry where to find it.
-/

namespace PathStore

/-- Where a command finds its store: a file of settings and flags over it. -/
structure StoreChoice where
  config : Option String
  flags : StoreFlags
deriving DecidableEq, Repr

/-- A command with its operands. -/
inductive Command where
  | pack (digits : String) (terminated : Bool)
  | unpack (packed : String)
  | get (choice : StoreChoice) (key : String)
  | put (choice : StoreChoice) (key value : String)
  | delete (choice : StoreChoice) (key : String)
  | apply (choice : StoreChoice) (batch : String) (dryRun metrics : Bool)
  | version
deriving DecidableEq, Repr

end PathStore
