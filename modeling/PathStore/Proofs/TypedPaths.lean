import PathStore.Command.Run
import PathStore.Proofs.HexText
import PathStore.Proofs.Replay
import PathStore.Workspace.Basic

/-!
# Packing and unpacking as an operator types it

An operator types the digits of a path, in either case, and is shown its packed
form as hexadecimal text.  Typed in again, behind any number of `0x` marks and in
either case, the packed form brings back the digits, a `T` for the terminator and
the escapes of all symbols.  Backwards, whatever unpacks is packed again from the
digits that are shown.  Digits that are read always make a path, so packing them
is never refused.
-/

namespace PathStore

/-! ## What is shown of a path -/

namespace Path

/-- The line that shows a path, by its digits: the digits, a `T` if it is
terminated, a blank, and an escape for each digit and for the terminator. -/
def shown (digits : List Char) (terminated : Bool) : String :=
  String.ofList digits ++ (if terminated then "T" else "") ++ " "
    ++ String.ofList (digits.flatMap fun c => ['\\', 'x', '0', c])
    ++ (if terminated then "\\x10" else "") ++ "\n"

theorem symbolDigit_symbol (n : Nibble) : symbolDigit (symbol n) = n.digit := by
  revert n
  decide

theorem symbolEscape_symbol (n : Nibble) : symbolEscape (symbol n) = ['\\', 'x', '0', n.digit] := by
  revert n
  decide

/-- The symbols of a path are shown by the digits of its nibbles. -/
theorem render_symbols (path : Path) :
    render path.symbols ++ "\n" = shown (path.nibbles.map Nibble.digit) path.terminated := by
  obtain ⟨nibbles, terminated⟩ := path
  have digits_eq : (nibbles.map symbol).map symbolDigit = nibbles.map Nibble.digit := by
    simp [symbolDigit_symbol]
  have escapes_eq : (nibbles.map symbol).flatMap symbolEscape =
      (nibbles.map Nibble.digit).flatMap fun c => ['\\', 'x', '0', c] := by
    simp [List.flatMap_map, symbolEscape_symbol]
  apply String.toList_injective
  cases terminated with
  | false => simp [render, escapes, shown, symbols, digits_eq, escapes_eq]
  | true =>
      have closing : symbolDigit terminator = 'T' := rfl
      have closing_escape : symbolEscape terminator = ['\\', 'x', '1', '0'] := rfl
      simp [render, escapes, shown, symbols, digits_eq, escapes_eq, closing, closing_escape]

/-- What is typed to pack a path that is shown: the digits in front of the
blank, and whether a `T` stands behind them. -/
def retyped (line : String) : String × Bool :=
  let word := line.toList.takeWhile (· ≠ ' ')
  if word.getLast? = some 'T' then (String.ofList word.dropLast, true)
  else (String.ofList word, false)

/-- No symbol is shown as a blank. -/
theorem symbolDigit_ne_blank (value : UInt8) : symbolDigit value ≠ ' ' := by
  rw [symbolDigit]
  split
  · exact (Nibble.digit_ne _).2.2
  · split <;> decide

/-- The word in front of the blank shows every symbol by one character. -/
theorem takeWhile_render_append (symbols : List UInt8) (after : String) :
    (render symbols ++ after).toList.takeWhile (· ≠ ' ') = symbols.map symbolDigit := by
  have noBlank : ∀ c ∈ symbols.map symbolDigit, decide (c ≠ ' ') = true := by
    intro c member
    obtain ⟨value, _, rfl⟩ := List.mem_map.mp member
    exact decide_eq_true (symbolDigit_ne_blank value)
  have line_eq : (render symbols ++ after).toList =
      symbols.map symbolDigit ++ ' ' :: (escapes symbols ++ after).toList := by
    simp [render]
  rw [line_eq, List.takeWhile_append_of_pos noBlank]
  simp

/-- For a path the word holds its digits and the `T`. -/
theorem map_symbolDigit_symbols (path : Path) :
    path.symbols.map symbolDigit =
      path.nibbles.map Nibble.digit ++ if path.terminated then ['T'] else [] := by
  obtain ⟨nibbles, terminated⟩ := path
  have closing : symbolDigit terminator = 'T' := rfl
  cases terminated <;> simp [symbols, symbolDigit_symbol, closing]

/-- The digits and the terminator of a path are read off the line that shows it. -/
theorem retyped_render_append (path : Path) (after : String) :
    retyped (render path.symbols ++ after) =
      (String.ofList (path.nibbles.map Nibble.digit), path.terminated) := by
  rw [retyped, takeWhile_render_append, map_symbolDigit_symbols]
  obtain ⟨nibbles, terminated⟩ := path
  cases terminated with
  | true => simp
  | false =>
      have notClosed : (nibbles.map Nibble.digit).getLast? ≠ some 'T' := by
        intro closed
        obtain ⟨n, _, same⟩ := List.mem_map.mp (List.mem_of_getLast? closed)
        exact (Nibble.digit_ne n).1 same
      simp only [Bool.false_eq_true, if_false, List.append_nil, if_neg notClosed]

theorem retyped_shown (nibbles : List Nibble) (terminated : Bool) :
    retyped (shown (nibbles.map Nibble.digit) terminated) =
      (String.ofList (nibbles.map Nibble.digit), terminated) := by
  have line_eq := render_symbols ⟨nibbles, terminated⟩
  rw [← line_eq, retyped_render_append]

/-- Typed digits are those of the nibbles that are read. -/
theorem readText_eq_ok_iff {text : String} {nibbles : List Nibble} :
    readText text = .ok nibbles ↔ text.toList.map Char.toLower = nibbles.map Nibble.digit := by
  rw [readText, ← Nibble.readDigits_eq_ok_iff]
  cases Nibble.readDigits 0 text.toList <;> simp

end Path

/-! ## The two commands -/

namespace Command

/-- Typed digits make a path, and its packed form is printed. -/
theorem packDigits_of_readText {digits : String} {nibbles : List Nibble}
    (read : Path.readText digits = .ok nibbles) (terminated : Bool) :
    packDigits digits terminated =
      .ok (Hex.encode (⟨nibbles, terminated⟩ : Path).pack ++ "\n") := by
  have packed := Path.packSymbols_eq_ok_iff.mpr ⟨⟨nibbles, terminated⟩, rfl, rfl⟩
  simp only [Path.symbols] at packed
  rw [packDigits, read]
  simp only [packed]

/-- The texts that unpack are the digits of packed paths, in either case and
behind any number of marks. -/
theorem unpackText_eq_ok_iff {packed line : String} :
    unpackText packed = .ok line ↔
      ∃ (path : Path) (marks : Nat) (spelling : List Char),
        packed.toList = Hex.marked marks spelling ∧
        spelling.map Char.toLower = Hex.digits path.pack ∧
        line = Path.shown (path.nibbles.map Nibble.digit) path.terminated := by
  rw [unpackText]
  constructor
  · intro done
    split at done
    · cases done
    · rename_i bytes isOperand
      split at done
      · cases done
      · rename_i symbols unpacked
        cases done
        obtain ⟨path, rfl, rfl⟩ := Path.unpackSymbols_eq_ok_iff.mp unpacked
        obtain ⟨marks, spelling, split, spelled⟩ :=
          Hex.decode_eq_ok_iff.mp (Hex.operand_eq_ok_iff.mp isOperand)
        exact ⟨path, marks, spelling, split, spelled, Path.render_symbols path⟩
  · rintro ⟨path, marks, spelling, split, spelled, rfl⟩
    have isOperand : Hex.operand "encoded key" packed = .ok path.pack :=
      Hex.operand_eq_ok_iff.mpr (Hex.decode_eq_ok_iff.mpr ⟨marks, spelling, split, spelled⟩)
    have unpacked : Path.unpackSymbols path.pack = .ok path.symbols :=
      Path.unpackSymbols_eq_ok_iff.mpr ⟨path, rfl, rfl⟩
    rw [isOperand]
    simp only [unpacked, Path.render_symbols]

/-- Packing and unpacking undo each other as text.

* Digits of either case are packed, terminated or not, and the packed form is
  shown in the lower case.  Behind any number of marks and in any case it
  unpacks, and the digits are shown in the lower case.
* Whatever unpacks is what is packed again from the line that shows it: behind
  its marks it is digits, and their lower-case form is shown.
* Digits that are read are never refused when they are packed. -/
theorem pack_unpack_inverse {δ : Type} (engine : Engine δ) (disk : δ) :
    (∀ (digits : String) (terminated : Bool), (∀ c ∈ digits.toList, Nibble.IsDigit c) →
      ∃ packed : String,
        (pack digits terminated).run engine disk = (.ok (packed ++ "\n"), disk) ∧
        (∀ c ∈ packed.toList, Nibble.IsLowerDigit c) ∧
        ∀ marks spelling, spelling.map Char.toLower = packed.toList →
          (unpack (String.ofList (Hex.marked marks spelling))).run engine disk =
            (.ok (Path.shown (digits.toList.map Char.toLower) terminated), disk)) ∧
    (∀ packed line after, (unpack packed).run engine disk = (.ok line, after) →
      ∃ marks spelling, packed.toList = Hex.marked marks spelling ∧
        (∀ c ∈ spelling, Nibble.IsDigit c) ∧
        (pack (Path.retyped line).1 (Path.retyped line).2).run engine disk =
          (.ok (String.ofList (spelling.map Char.toLower) ++ "\n"), disk)) ∧
    ∀ digits nibbles, Path.readText digits = .ok nibbles → ∀ terminated : Bool, ∃ packed,
      Path.packSymbols (nibbles.map Path.symbol ++ if terminated then [Path.terminator] else []) =
        .ok packed := by
  refine ⟨?forth, ?back, ?accepted⟩
  case forth =>
    intro digits terminated areDigits
    obtain ⟨nibbles, spelled⟩ := Nibble.forall_isDigit_iff.mp areDigits
    have read := Path.readText_eq_ok_iff.mpr spelled
    refine ⟨_, congrArg (·, disk) (packDigits_of_readText read terminated), ?_, ?_⟩
    · intro c member
      rw [Hex.encode, String.toList_ofList] at member
      obtain ⟨n, _, rfl⟩ := List.mem_map.mp member
      exact Nibble.isLowerDigit_digit n
    · intro marks spelling same
      rw [Hex.encode, String.toList_ofList] at same
      rw [spelled]
      exact congrArg (·, disk) (unpackText_eq_ok_iff.mpr
        ⟨⟨nibbles, terminated⟩, marks, spelling, String.toList_ofList, same, rfl⟩)
  case back =>
    intro packed line after ran
    have done : unpackText packed = .ok line := congrArg Prod.fst ran
    obtain ⟨path, marks, spelling, split, spelled, rfl⟩ := unpackText_eq_ok_iff.mp done
    refine ⟨marks, spelling, split, Nibble.forall_isDigit_iff.mpr ⟨_, spelled⟩, ?_⟩
    have lower : (path.nibbles.map Nibble.digit).map Char.toLower =
        path.nibbles.map Nibble.digit := by
      simp [Nibble.toLower_digit]
    have read : Path.readText (String.ofList (path.nibbles.map Nibble.digit)) =
        .ok path.nibbles := by
      rw [Path.readText_eq_ok_iff, String.toList_ofList, lower]
    rw [Path.retyped_shown, spelled]
    exact congrArg (·, disk) (packDigits_of_readText read path.terminated)
  case accepted =>
    intro digits nibbles _ terminated
    exact ⟨_, Path.packSymbols_eq_ok_iff.mpr ⟨⟨nibbles, terminated⟩, rfl, rfl⟩⟩

/-- A closed path of five digits in both cases.  Its packed form is typed behind
two marks and in the upper case, and what is then shown is typed again. -/
theorem pack_unpack_inverse_marked :
    let line := "f1cb8T \\x0f\\x01\\x0c\\x0b\\x08\\x10\n"
    let engine := Workspace.engine fun _ => false
    let disk := Workspace.ofFiles (.bare [])
    (∀ c ∈ "F1cB8".toList, Nibble.IsDigit c) ∧
      (pack "F1cB8" true).run engine disk = (.ok "3f1cb8\n", disk) ∧
      "3F1CB8".toList.map Char.toLower = "3f1cb8".toList ∧
      (unpack "0x0x3F1CB8").run engine disk = (.ok line, disk) ∧
      Path.retyped line = ("f1cb8", true) ∧
      ∃ marks spelling, "0x0x3F1CB8".toList = Hex.marked marks spelling ∧
        (pack "f1cb8" true).run engine disk =
          (.ok (String.ofList (spelling.map Char.toLower) ++ "\n"), disk) := by
  intro line engine disk
  have areDigits : ∀ c ∈ "F1cB8".toList, Nibble.IsDigit c :=
    Nibble.forall_isDigit_iff.mpr ⟨[15, 1, 12, 11, 8], rfl⟩
  have printed : (pack "F1cB8" true).run engine disk = (.ok "3f1cb8\n", disk) := rfl
  have cased : "3F1CB8".toList.map Char.toLower = "3f1cb8".toList := rfl
  have typed : Path.retyped line = ("f1cb8", true) := by decide
  obtain ⟨forth, back, _⟩ := pack_unpack_inverse engine disk
  obtain ⟨packed, done, _, unpacks⟩ := forth "F1cB8" true areDigits
  obtain rfl : packed = "3f1cb8" := by
    have same : packed ++ "\n" = "3f1cb8" ++ "\n" :=
      Except.ok.inj (congrArg Prod.fst (done.symm.trans printed))
    have same_characters := congrArg String.toList same
    rw [String.toList_append, String.toList_append] at same_characters
    exact String.toList_injective (List.append_cancel_right same_characters)
  have unpacked : (unpack "0x0x3F1CB8").run engine disk = (.ok line, disk) :=
    unpacks 2 "3F1CB8".toList cased
  obtain ⟨marks, spelling, split, _, again⟩ := back "0x0x3F1CB8" line disk unpacked
  rw [typed] at again
  exact ⟨areDigits, printed, cased, unpacked, typed, marks, spelling, split, again⟩

end Command

end PathStore
