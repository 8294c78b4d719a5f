/-!
# Counters of transactions

What a run did to the store: transactions committed and rolled back, and the
puts and deletes that they staged.  Counters are printed as a text exposition,
one family after the other in the order of their names.
-/

namespace PathStore

/-- Running totals over transactions. -/
structure Counters where
  commits : Nat
  rollbacks : Nat
  stagedPuts : Nat
  stagedDeletes : Nat
deriving DecidableEq, Repr

namespace Counters

/-- Nothing has been counted. -/
def zero : Counters := ⟨0, 0, 0, 0⟩

instance : Inhabited Counters := ⟨zero⟩

/-- Counts a transaction that was committed. -/
def countCommit (counters : Counters) : Counters :=
  { counters with commits := counters.commits + 1 }

/-- Counts a transaction that was rolled back. -/
def countRollback (counters : Counters) : Counters :=
  { counters with rollbacks := counters.rollbacks + 1 }

/-- Counts the changes that a transaction staged. -/
def countStaged (counters : Counters) (puts deletes : Nat) : Counters :=
  { counters with
    stagedPuts := counters.stagedPuts + puts
    stagedDeletes := counters.stagedDeletes + deletes }

/-- The three lines of one family: its help, its type and its total. -/
def family (name help : String) (total : Nat) : String :=
  let name := "trie_store_" ++ name
  "# HELP " ++ name ++ " " ++ help ++ "\n# TYPE " ++ name ++ " counter\n"
    ++ name ++ " " ++ toString total ++ "\n"

/-- The counters as text. -/
def render (counters : Counters) : String :=
  family "commits_total" "Total number of transactions committed" counters.commits
    ++ family "rollbacks_total" "Total number of transactions rolled back" counters.rollbacks
    ++ family "staged_deletes_total" "Total number of deletes staged in transactions"
      counters.stagedDeletes
    ++ family "staged_puts_total" "Total number of puts staged in transactions"
      counters.stagedPuts

end Counters

end PathStore
