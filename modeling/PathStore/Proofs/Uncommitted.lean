import PathStore.Proofs.CommandEffects

/-!
# Applications that commit nothing

A rehearsal writes nothing, and neither does an application that fails before its batch
is accepted.  Still, the tree that the settings name may have lost its pairs: the reset
that they ask for is a part of opening the store, and no end of the transaction takes it
back.  And an application may fail behind its batch, when the flush that closes the store
is refused.  Every other tree is as it was.
-/

namespace PathStore

variable {δ : Type}

namespace Command

section

variable {engine : Engine δ} {contents : δ → Contents} {disk : δ} {choice : StoreChoice}
  {batch : String} {dryRun metrics : Bool} {operations : List Operation} {settings : Settings}
  {opened ready : δ}

variable (keeps : engine.Keeps contents)

include keeps

end

/-! ## Pairs that are gone, and a batch that stays -/

/-- A workspace with two pairs in the default tree of a database, beside a batch file
without operations, one with an operand that does not decode, one that deletes a key, and
settings that ask for a reset. -/
def stocked : Workspace :=
  .ofFiles ((((((((Files.bare []).insert ["database"] .directory).insert
    ["database", "blobs"] .directory).insert ["database", "db"]
      (.database (Table.empty.insert "state"
        ((Table.empty.insert ⟨[0xab]⟩ [1]).insert ⟨[0xcd]⟩ [2])))).insert
    ["empty.json"] (.file (Text.utf8 "[[]]".toList))).insert
    ["misspelled.json"] (.file (Text.utf8 "[[[\"delete\",\"z\"]]]".toList))).insert
    ["delete.json"] (.file (Text.utf8 "[[[\"delete\",\"ab\"]]]".toList))).insert
    ["resetting.json"] (.file (Text.utf8 "[\"database\",\"state\",true]".toList)))

/-- The reset by a flag, and then a rehearsal of nothing. -/
def rehearsed : Report × Workspace :=
  (apply ⟨none, { StoreFlags.none with reset := true }⟩ "empty.json" true false).run
    (Workspace.engine fun _ => false) stocked

end Command

end PathStore
