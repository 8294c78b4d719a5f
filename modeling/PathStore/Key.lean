import PathStore.Hex

/-!
# Keys

A key of the store is a byte string.  Keys are compared byte by byte, a proper
beginning before what it begins, and are printed as hexadecimal digits.
-/

namespace PathStore

/-- A key of the store. -/
structure Key where
  bytes : Bytes
deriving DecidableEq, Repr

namespace Key

/-- The order of the bytes, first difference first. -/
def order : Bytes → Bytes → Ordering
  | [], [] => .eq
  | [], _ :: _ => .lt
  | _ :: _, [] => .gt
  | a :: as, b :: bs => (compare a.toNat b.toNat).then (order as bs)

instance : Ord Key :=
  ⟨fun a b => order a.bytes b.bytes⟩

/-- The digits of a key. -/
def render (key : Key) : String :=
  Hex.encode key.bytes

/-- The digits of a key under its name. -/
def describe (key : Key) : String :=
  "ByteKey(" ++ key.render ++ ")"

/-- Keys in ascending order. -/
def sort (keys : List Key) : List Key :=
  keys.mergeSort fun a b => compare a b != .gt

end Key

end PathStore
