import PathStore.Store.Write

/-!
# Operations of a batch file

A batch file lists operations whose keys and values are hexadecimal text.
They decode to writes in the order of the file; the first operand that does
not decode is reported with the index of its operation, a key before the value
beside it.
-/

namespace PathStore

/-- A change as a batch file spells it. -/
inductive Operation where
  | put (key value : String)
  | delete (key : String)
deriving DecidableEq, Repr

namespace Operation

/-- The role of an operand in an error. -/
def role (index : Nat) (field : String) : String :=
  "ops[" ++ toString index ++ "]." ++ field

/-- The write that an operation spells, for the operation at `index`. -/
def decode (index : Nat) : Operation → Except OperandError Write
  | put key value => do
    let key ← Hex.operand (role index "key") key
    let value ← Hex.operand (role index "value") value
    return .put ⟨key⟩ value
  | delete key => do
    let key ← Hex.operand (role index "key") key
    return .delete ⟨key⟩

/-- The writes that operations spell, counting them from `index`. -/
def decodeFrom (index : Nat) : List Operation → Except OperandError (List Write)
  | [] => .ok []
  | operation :: rest => do
    let write ← decode index operation
    let writes ← decodeFrom (index + 1) rest
    return write :: writes

/-- The writes that the operations of a file spell. -/
def decodeAll (operations : List Operation) : Except OperandError (List Write) :=
  decodeFrom 0 operations

end Operation

end PathStore
