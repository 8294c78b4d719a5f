import Mathlib.Data.String.Basic
import PathStore.Key
import PathStore.Proofs.HexText

/-!
# The order of keys

Keys are compared byte by byte, the first difference first, and a proper beginning
is smaller.  The digits of a key are two for each byte, the upper half first, and
digits are ordered like the halves that they stand for.  So printed keys are
compared, character by character, as the keys are, and a printed key is read as the
bytes that it shows.
-/

namespace PathStore

/-! ## Digits and bytes -/

namespace Nibble

theorem digit_lt_digit_iff {first second : Nibble} :
    first.digit < second.digit ↔ first < second := by
  revert first second
  decide

/-- Bytes are compared by their upper halves, and by the lower ones if those are
the same. -/
theorem lt_iff_halves_lt {first second : UInt8} :
    first < second ↔
      high first < high second ∨ high first = high second ∧ low first < low second := by
  simp only [UInt8.lt_iff_toNat_lt, Fin.lt_def, Fin.ext_iff, high, low]
  omega

theorem eq_iff_halves_eq {first second : UInt8} :
    first = second ↔ high first = high second ∧ low first = low second := by
  constructor
  · rintro rfl
    exact ⟨rfl, rfl⟩
  · rintro ⟨upper, lower⟩
    rw [← byte_high_low first, upper, lower, byte_high_low]

end Nibble

namespace Hex

theorem digits_cons (b : UInt8) (rest : Bytes) :
    digits (b :: rest) = (Nibble.high b).digit :: (Nibble.low b).digit :: digits rest :=
  rfl

/-- The digits of bytes are ordered as the bytes are. -/
theorem digits_lt_digits_iff {first second : Bytes} :
    digits first < digits second ↔ first < second := by
  induction first generalizing second with
  | nil =>
      cases second with
      | nil => simp
      | cons b second => simp [digits, Nibble.expand]
  | cons a first ih =>
      cases second with
      | nil => simp [digits, Nibble.expand]
      | cons b second =>
          -- Two digits are passed for one byte.
          rw [digits_cons, digits_cons, List.cons_lt_cons_iff, List.cons_lt_cons_iff, ih,
            Nibble.digit_lt_digit_iff, Nibble.digit_lt_digit_iff, Nibble.digit_injective.eq_iff,
            Nibble.digit_injective.eq_iff, List.cons_lt_cons_iff, Nibble.lt_iff_halves_lt,
            Nibble.eq_iff_halves_eq]
          tauto

/-- Digits in the lower case are read as the bytes that they are the digits of. -/
theorem decode_encode (bytes : Bytes) : decode (encode bytes) = .ok bytes := by
  apply decode_eq_ok_iff.mpr
  exact ⟨0, digits bytes, String.toList_ofList, Nibble.map_toLower_digit _⟩

end Hex

/-! ## Keys -/

namespace Key

/-- Keys are compared as the lists of their bytes. -/
theorem order_eq_compare (first second : Bytes) : order first second = compare first second := by
  induction first generalizing second with
  | nil => cases second <;> rfl
  | cons a first ih =>
      cases second with
      | nil => rfl
      | cons b second =>
          rw [order, List.compare_cons_cons, UInt8.compare_eq_toNat_compare_toNat, ih]

/-- The first difference decides, and a proper beginning is smaller. -/
theorem order_eq_lt_iff {first second : Bytes} : order first second = .lt ↔ first < second := by
  induction first generalizing second with
  | nil => cases second <;> simp [order]
  | cons a first ih =>
      cases second with
      | nil => simp [order]
      | cons b second =>
          rw [order, Ordering.then_eq_lt, Nat.compare_eq_lt, Nat.compare_eq_eq, ih,
            List.cons_lt_cons_iff, UInt8.lt_iff_toNat_lt, UInt8.toNat_inj]

theorem order_eq_eq_iff {first second : Bytes} : order first second = .eq ↔ first = second := by
  rw [order_eq_compare, Std.LawfulEqCmp.compare_eq_iff_eq]

/-- Keys compared the other way round give the opposite. -/
theorem order_swap (first second : Bytes) : (order first second).swap = order second first := by
  rw [order_eq_compare, order_eq_compare, ← Std.OrientedCmp.eq_swap]

theorem order_eq_gt_iff {first second : Bytes} : order first second = .gt ↔ second < first := by
  rw [← order_eq_lt_iff, ← order_swap, Ordering.swap_eq_gt]

instance : Std.TransOrd Key where
  eq_swap := (order_swap _ _).symm
  isLE_trans {first second third} := by
    change (order _ _).isLE → (order _ _).isLE → (order _ _).isLE
    rw [order_eq_compare, order_eq_compare, order_eq_compare]
    exact Std.TransCmp.isLE_trans

instance : Std.LawfulEqOrd Key where
  compare_self := order_eq_eq_iff.mpr rfl
  eq_of_compare same := congrArg Key.mk (order_eq_eq_iff.mp same)

theorem compare_eq_lt_iff {first second : Key} :
    compare first second = .lt ↔ first.bytes < second.bytes :=
  order_eq_lt_iff

/-- A proper beginning is smaller. -/
theorem lt_of_isPrefix {first second : Bytes} (begins : first <+: second)
    (different : first ≠ second) : first < second := by
  obtain ⟨rest, rfl⟩ := begins
  have rest_ne_nil : rest ≠ [] := by
    rintro rfl
    exact different (List.append_nil first).symm
  refine List.lt_iff_exists.mpr (.inl ⟨List.take_left.symm, ?_⟩)
  rw [List.length_append]
  exact Nat.lt_add_of_pos_right (List.length_pos_of_ne_nil rest_ne_nil)

/-- A printed key comes before another one exactly if the key does. -/
theorem compare_render_eq_lt_iff {first second : Key} :
    compare first.render second.render = .lt ↔ compare first second = .lt := by
  rw [compare_lt_iff_lt, render, render, Hex.encode, Hex.encode, String.lt_iff,
    String.toList_ofList, String.toList_ofList, Hex.digits_lt_digits_iff]
  exact compare_eq_lt_iff.symm

/-- Printed keys are compared as the keys are. -/
theorem compare_render (first second : Key) :
    compare first.render second.render = compare first second := by
  cases outcome : compare first second with
  | lt => exact compare_render_eq_lt_iff.mpr outcome
  | eq =>
      obtain rfl := Std.LawfulEqCmp.eq_of_compare outcome
      exact Std.ReflCmp.compare_self
  | gt =>
      rw [Std.OrientedCmp.gt_iff_lt] at outcome ⊢
      exact compare_render_eq_lt_iff.mpr outcome

/-! ## The main result -/

/-- The order of keys, their equality and their printed form agree.

* One key comes before another if its bytes do as words do: the first difference
  decides, and a proper beginning is smaller.
* Any two keys are comparable in one way, and the order is transitive.  Keys that
  are neither smaller nor greater are equal, and so are their bytes.
* Printed keys, digits in the lower case, are compared character by character as the
  keys are.
* A printed key is read as the bytes of the key. -/
theorem order_agrees_with_printed_form :
    (∀ first second : Key,
      (compare first second = .lt ↔ first.bytes < second.bytes) ∧
      (compare first second = .eq ↔ first.bytes = second.bytes) ∧
      (compare first second = .gt ↔ second.bytes < first.bytes)) ∧
    (∀ first second : Key, first.bytes <+: second.bytes → first ≠ second →
      compare first second = .lt) ∧
    (∀ first second : Key, compare second first = (compare first second).swap) ∧
    (∀ first second third : Key, (compare first second).isLE → (compare second third).isLE →
      (compare first third).isLE) ∧
    (∀ first second : Key, compare first second = .eq ↔ first = second) ∧
    (∀ first second : Key, compare first second = compare first.render second.render) ∧
    (∀ key : Key, ∀ c ∈ key.render.toList, Nibble.IsLowerDigit c) ∧
    ∀ (role : String) (key : Key), Hex.operand role key.render = .ok key.bytes := by
  refine ⟨fun _ _ => ⟨order_eq_lt_iff, order_eq_eq_iff, order_eq_gt_iff⟩, ?beginning, ?swap,
    fun _ _ _ => Std.TransCmp.isLE_trans, fun _ _ => Std.LawfulEqCmp.compare_eq_iff_eq,
    fun first second => (compare_render first second).symm, ?lower, ?read⟩
  case beginning =>
    intro first second begins different
    rw [compare_eq_lt_iff]
    exact lt_of_isPrefix begins fun same => different (congrArg Key.mk same)
  case swap =>
    intro first second
    exact Std.OrientedCmp.eq_swap
  case lower =>
    intro key c member
    rw [render, Hex.encode, String.toList_ofList] at member
    obtain ⟨n, _, rfl⟩ := List.mem_map.mp member
    exact Nibble.isLowerDigit_digit n
  case read =>
    intro role key
    rw [Hex.operand, render, Hex.decode_encode]

/-- Three keys, of which the first begins the second and the last differs from it in
a digit that is a letter. -/
theorem order_agrees_with_printed_form_beginning :
    ([0x0a] : Bytes) <+: [0x0a, 0x09] ∧
      compare (⟨[0x0a]⟩ : Key) ⟨[0x0a, 0x09]⟩ = .lt ∧
      compare (⟨[0x0a, 0x09]⟩ : Key) ⟨[0x0a, 0x0f]⟩ = .lt ∧
      (compare (⟨[0x0a]⟩ : Key) ⟨[0x0a, 0x0f]⟩).isLE ∧
      compare (⟨[0x0a, 0x09]⟩ : Key) ⟨[0x0a, 0x0f]⟩ = compare "0a09" "0a0f" ∧
      Hex.operand "key" "0a0f" = .ok [0x0a, 0x0f] := by
  obtain ⟨-, beginning, -, trans, -, printed, -, read⟩ := order_agrees_with_printed_form
  have begins : ([0x0a] : Bytes) <+: [0x0a, 0x09] := ⟨[0x09], rfl⟩
  have first := beginning ⟨[0x0a]⟩ ⟨[0x0a, 0x09]⟩ begins (by decide)
  have second : compare (⟨[0x0a, 0x09]⟩ : Key) ⟨[0x0a, 0x0f]⟩ = .lt := rfl
  have chained := trans ⟨[0x0a]⟩ ⟨[0x0a, 0x09]⟩ ⟨[0x0a, 0x0f]⟩ (by rw [first]; rfl)
    (by rw [second]; rfl)
  exact ⟨begins, first, second, chained, printed _ _, read "key" ⟨[0x0a, 0x0f]⟩⟩

end Key

end PathStore
