import PathStore.Operation
import PathStore.Proofs.LastWrite
import PathStore.Proofs.Results

/-!
# Operations and their replay

An operation spells a write if its operands are hexadecimal text.  A file
decodes exactly if each of its operations spells a write, and then to these
writes in the order of the file.  Replaying writes is the plain meaning of a
list of them: each one in turn changes what its key reads as.
-/

namespace PathStore

universe v

/-! ## What operations spell -/

/-- The operands of an operation are the hexadecimal text of a key, and for a
put of a value. -/
inductive Operation.Spells : Operation → Write → Prop
  | put {keyText valueText : String} {key value : Bytes} (isKey : Hex.decode keyText = .ok key)
      (isValue : Hex.decode valueText = .ok value) :
      Spells (.put keyText valueText) (.put ⟨key⟩ value)
  | delete {keyText : String} {key : Bytes} (isKey : Hex.decode keyText = .ok key) :
      Spells (.delete keyText) (.delete ⟨key⟩)

theorem Hex.operand_eq_ok_iff {role text : String} {bytes : Bytes} :
    Hex.operand role text = .ok bytes ↔ Hex.decode text = .ok bytes := by
  rw [Hex.operand]
  cases Hex.decode text <;> simp

namespace Operation

variable {index : Nat} {operations : List Operation} {writes : List Write}

/-- An operation decodes exactly to the write that it spells. -/
theorem decode_eq_ok_iff {operation : Operation} {write : Write} :
    decode index operation = .ok write ↔ operation.Spells write := by
  constructor
  · intro decoded
    cases operation with
    | put keyText valueText =>
        rcases bind_eq_ok_iff.mp decoded with ⟨key, isKey, more⟩
        rcases bind_eq_ok_iff.mp more with ⟨value, isValue, done⟩
        cases done
        exact .put (Hex.operand_eq_ok_iff.mp isKey) (Hex.operand_eq_ok_iff.mp isValue)
    | delete keyText =>
        rcases bind_eq_ok_iff.mp decoded with ⟨key, isKey, done⟩
        cases done
        exact .delete (Hex.operand_eq_ok_iff.mp isKey)
  · rintro (⟨isKey, isValue⟩ | ⟨isKey⟩)
    · exact bind_eq_ok_iff.mpr ⟨_, Hex.operand_eq_ok_iff.mpr isKey,
        bind_eq_ok_iff.mpr ⟨_, Hex.operand_eq_ok_iff.mpr isValue, rfl⟩⟩
    · exact bind_eq_ok_iff.mpr ⟨_, Hex.operand_eq_ok_iff.mpr isKey, rfl⟩

theorem decodeFrom_eq_ok_iff :
    decodeFrom index operations = .ok writes ↔ List.Forall₂ Spells operations writes := by
  induction operations generalizing index writes with
  | nil => cases writes <;> simp [decodeFrom]
  | cons operation rest ih =>
      rw [decodeFrom, bind_eq_ok_iff]
      constructor
      · rintro ⟨write, isFirst, more⟩
        rcases bind_eq_ok_iff.mp more with ⟨others, areRest, done⟩
        cases done
        exact .cons (decode_eq_ok_iff.mp isFirst) (ih.mp areRest)
      · rintro (_ | ⟨isFirst, areRest⟩)
        exact ⟨_, decode_eq_ok_iff.mpr isFirst, bind_eq_ok_iff.mpr ⟨_, ih.mpr areRest, rfl⟩⟩

/-- Operations decode exactly to the writes that they spell, in order. -/
theorem decodeAll_eq_ok_iff :
    decodeAll operations = .ok writes ↔ List.Forall₂ Spells operations writes :=
  decodeFrom_eq_ok_iff

/-- Operations of which one spells no write do not decode. -/
theorem exists_decodeAll_eq_error {operation : Operation} (listed : operation ∈ operations)
    (unspelled : ∀ write, ¬ operation.Spells write) :
    ∃ error, decodeAll operations = .error error := by
  cases decoded : decodeAll operations with
  | error error => exact ⟨error, rfl⟩
  | ok writes =>
      rcases List.forall₂_iff_get.mp (decodeAll_eq_ok_iff.mp decoded) with ⟨same_length, spelled⟩
      rcases List.get_of_mem listed with ⟨place, rfl⟩
      exact absurd (spelled place.1 place.2 (same_length ▸ place.2)) (unspelled _)

end Operation

/-! ## Replaying writes -/

namespace Write

variable {ρ : Type v}

/-- What keys read as after writes that are made one after the other. -/
def replay (settle : Option Value → ρ) (reads : Key → ρ) (writes : List Write) : Key → ρ :=
  writes.foldl (fun reads change => Function.update reads change.key (settle change.outcome))
    reads

/-- A replay leaves the last write of each key. -/
theorem replay_eq_latest? (settle : Option Value → ρ) (reads : Key → ρ) (writes : List Write)
    (key : Key) :
    replay settle reads writes key = (latest? writes key).elim (reads key) settle := by
  refine foldl_eq_latest? key (fun reads : Key → ρ => reads key) settle _ ?_ writes reads
  intro reads change
  rw [Function.update_apply]
  simp only [eq_comm]

end Write

end PathStore
