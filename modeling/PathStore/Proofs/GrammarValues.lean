import PathStore.Proofs.GrammarTokens

/-!
# Grammatical values are passed over

Whoever passes over a value stands behind it afterwards, with the same brackets open
as before, so nothing of the value is left and nothing behind it is touched.  The
proof is by induction on the value, inside of any brackets: an item of a list or a
member of a record is passed over inside of one bracket more, and a comma or the
closing bracket follows it.  All that is asked for is room for the brackets of the
value, and of this a value that nobody looks at needs none.
-/

namespace PathStore.Json

namespace Bracket

/-- The character that opens the bracket. -/
def opening : Bracket → Char
  | .list => '['
  | .record => '\x7b'

/-- The character that closes it. -/
def closing : Bracket → Char
  | .list => ']'
  | .record => '\x7d'

/-- The token that opens the bracket. -/
def opens : Bracket → Token
  | .list => .openList
  | .record => .openRecord

/-- The token that closes it. -/
def closes : Bracket → Token
  | .list => .closeList
  | .record => .closeRecord

/-- What is due behind the opening bracket. -/
def first : Bracket → Awaiting
  | .list => .item
  | .record => .field

/-- What is due behind a comma. -/
def further : Bracket → Awaiting
  | .list => .value
  | .record => .key

theorem scan_opening (bracket : Bracket) (rest : List Char) :
    Token.scan (bracket.opening :: rest) = bracket.opens :: Token.scan rest := by
  cases bracket <;> exact Token.scan_mark rfl rest

theorem scan_closing (bracket : Bracket) (rest : List Char) :
    Token.scan (bracket.closing :: rest) = bracket.closes :: Token.scan rest := by
  cases bracket <;> exact Token.scan_mark rfl rest

theorem endsNumber_closing (bracket : Bracket) (rest : List Char) :
    EndsNumber (bracket.closing :: rest) := by
  cases bracket <;> exact endsNumber_cons (by decide) rest

end Bracket

theorem endsNumber_colon (rest : List Char) : EndsNumber (':' :: rest) :=
  endsNumber_cons (by decide) rest

/-- A list or a record is scanned as its opening bracket and what is inside. -/
theorem Bracket.exists_scan (bracket : Bracket) {items : List (List Char)} {text : List Char}
    (enclosed : Enclosed bracket.opening bracket.closing items text) {rest : List Char}
    (ends : EndsNumber rest) :
    ∃ inside behind, Separated items inside ∧
      Token.scan (text ++ rest) =
        bracket.opens :: Token.scan (inside ++ bracket.closing :: behind) ∧
      Token.scan behind = Token.scan rest := by
  obtain ⟨inside, separated, spaced⟩ := enclosed
  obtain ⟨behind, -, scanned, same⟩ := spaced.exists_scan ends
  refine ⟨inside, behind, separated, ?_, same⟩
  rw [scanned, List.cons_append, List.append_assoc, List.singleton_append,
    bracket.scan_opening]

/-! ## Steps of passing over -/

/-- A value is due, be it the first of a list or not. -/
def Awaiting.IsValue (awaiting : Awaiting) : Prop :=
  awaiting = .value ∨ awaiting = .item

section

variable {care : Care} {awaiting : Awaiting} {opened : List Bracket} {rest : List Token}

theorem skip_word {token : Token} (isWord : token = .null ∨ ∃ value, token = .bool value)
    (isValue : awaiting.IsValue) :
    skip care awaiting opened (token :: rest) = skip care .next opened rest := by
  obtain rfl | ⟨value, rfl⟩ := isWord <;> obtain rfl | rfl := isValue <;> simp [skip]

theorem skip_number {numeral : Numeral} (admitted : care.admitsNumber numeral = true)
    (isValue : awaiting.IsValue) :
    skip care awaiting opened (.number numeral :: rest) = skip care .next opened rest := by
  obtain rfl | rfl := isValue <;> simp [skip, admitted]

theorem skip_text {pieces : List Piece} (admitted : care.admitsText pieces = true)
    (isValue : awaiting.IsValue) :
    skip care awaiting opened (.text pieces :: rest) = skip care .next opened rest := by
  obtain rfl | rfl := isValue <;> simp [skip, admitted]

theorem skip_name {pieces : List Piece} (admitted : care.admitsText pieces = true)
    (isName : awaiting = Bracket.record.first ∨ awaiting = Bracket.record.further) :
    skip care awaiting opened (.text pieces :: .colon :: rest) = skip care .value opened rest := by
  obtain rfl | rfl := isName <;> simp [skip, admitted, Bracket.first, Bracket.further]

theorem skip_opens (bracket : Bracket) (room : care.mayOpen opened = true)
    (isValue : awaiting.IsValue) :
    skip care awaiting opened (bracket.opens :: rest) =
      skip care bracket.first (bracket :: opened) rest := by
  cases bracket <;> obtain rfl | rfl := isValue <;>
    simp [skip, room, Bracket.opens, Bracket.first]

theorem skip_comma (bracket : Bracket) :
    skip care .next (bracket :: opened) (.comma :: rest) =
      skip care bracket.further (bracket :: opened) rest := by
  cases bracket <;> simp [skip, Bracket.further]

theorem skip_closes (bracket : Bracket)
    (mayClose : awaiting = bracket.first ∨ awaiting = .next) :
    skip care awaiting (bracket :: opened) (bracket.closes :: rest) =
      skip care .next opened rest := by
  cases bracket <;> obtain rfl | rfl := mayClose <;> simp [skip, Bracket.closes, Bracket.first]

end

/-! ## Items and members -/

/-- The text is passed over in front of anything, inside of the open brackets. -/
def Care.Passes (care : Care) (opened : List Bracket) (awaiting : Awaiting)
    (text : List Char) : Prop :=
  ∀ rest, EndsNumber rest →
    skip care awaiting opened (Token.scan (text ++ rest)) =
      skip care .next opened (Token.scan rest)

section

variable {care : Care} {outer : List Bracket}

/-- What is between brackets is passed over up to the closing one, if each of its
items is. -/
theorem skip_items {bracket : Bracket} {items : List (List Char)} (some_item : items ≠ [])
    (each : ∀ item ∈ items, ∀ awaiting, awaiting = bracket.first ∨ awaiting = bracket.further →
      care.Passes (bracket :: outer) awaiting item)
    {awaiting : Awaiting} (isDue : awaiting = bracket.first ∨ awaiting = bracket.further)
    (rest : List Char) :
    skip care awaiting (bracket :: outer)
        (Token.scan (List.intercalate [','] items ++ bracket.closing :: rest)) =
      skip care .next outer (Token.scan rest) := by
  induction items generalizing awaiting with
  | nil => exact absurd rfl some_item
  | cons item more ih =>
      obtain ⟨passed, each⟩ := List.forall_mem_cons.mp each
      cases more with
      | nil =>
          rw [List.intercalate_singleton, passed _ isDue _ (bracket.endsNumber_closing rest),
            bracket.scan_closing, skip_closes bracket (.inr rfl)]
      | cons other more =>
          rw [intercalate_comma_append, passed _ isDue _ (endsNumber_comma _), scan_comma,
            skip_comma, ih (List.cons_ne_nil _ _) each (.inr rfl)]

/-- A list or a record is passed over, if its items are. -/
theorem Bracket.passes (bracket : Bracket) {items : List (List Char)} {text : List Char}
    (enclosed : Enclosed bracket.opening bracket.closing items text)
    (room : care.mayOpen outer = true)
    (each : ∀ item ∈ items, ∀ awaiting, awaiting = bracket.first ∨ awaiting = bracket.further →
      care.Passes (bracket :: outer) awaiting item)
    {awaiting : Awaiting} (isValue : awaiting.IsValue) :
    care.Passes outer awaiting text := by
  intro rest ends
  obtain ⟨inside, behind, separated, scanned, same⟩ := bracket.exists_scan enclosed ends
  rw [scanned, skip_opens bracket room isValue, ← same]
  cases items with
  | nil =>
      rw [Blank.scan separated, bracket.scan_closing, skip_closes bracket (.inl rfl)]
  | cons item more =>
      rw [separated.eq_intercalate]
      exact skip_items (List.cons_ne_nil _ _) each (.inl rfl) behind

end

/-! ## Values -/

theorem Value.of_whole {demands : Demands} {depth : Nat} {whole : List Char}
    (isWhole : Numeral.Whole whole) (granted : demands.number ⟨false, whole, [], none⟩) :
    Value demands depth whole :=
  .number (.of_whole isWhole) granted (.refl _)

/-- What the demands grant is admitted. -/
structure Demands.Meets (demands : Demands) (care : Care) : Prop where
  text : ∀ pieces, demands.text pieces → care.admitsText pieces = true
  number : ∀ numeral, demands.number numeral → care.admitsNumber numeral = true

theorem Demands.grammar_meets : Demands.grammar.Meets .grammar :=
  ⟨fun _ _ => rfl, fun _ _ => rfl⟩

theorem Demands.meaning_meets (depth : Nat) : Demands.meaning.Meets (.meaning depth) := by
  refine ⟨?_, fun _ inRange => inRange⟩
  rintro pieces ⟨chars, denotes⟩
  rw [Care.admitsText, denotes.meaning?]
  rfl

/-- There is room for so many brackets inside of the open ones. -/
def Care.HasRoom (care : Care) (opened : List Bracket) (depth : Nat) : Prop :=
  ∀ inner : List Bracket, inner.length < opened.length + depth → care.mayOpen inner = true

theorem Care.hasRoom_grammar (opened : List Bracket) (depth : Nat) :
    Care.grammar.HasRoom opened depth :=
  fun _ _ => rfl

theorem Care.hasRoom_meaning {around depth : Nat} (shallow : around + depth < nestingLimit) :
    (Care.meaning around).HasRoom [] depth := by
  intro inner isInner
  rw [List.length_nil] at isInner
  simp only [mayOpen, decide_eq_true_eq]
  omega

theorem Care.HasRoom.inside {care : Care} {opened : List Bracket} {depth : Nat}
    (room : care.HasRoom opened (depth + 1)) (bracket : Bracket) :
    care.mayOpen opened = true ∧ care.HasRoom (bracket :: opened) depth := by
  refine ⟨room opened (by omega), fun inner isInner => room inner ?_⟩
  rw [List.length_cons] at isInner
  omega

/-- A value is passed over wherever there is room for its brackets. -/
theorem Value.passes {demands : Demands} {care : Care} (meets : demands.Meets care)
    {depth : Nat} {text : List Char} (value : Value demands depth text) {opened : List Bracket}
    (room : care.HasRoom opened depth) {awaiting : Awaiting} (isValue : awaiting.IsValue) :
    care.Passes opened awaiting text := by
  -- By induction on the value, for all open brackets at once: what is inside of it stands
  -- in one bracket more, and `room` says of both what may still be opened.
  induction value generalizing opened awaiting with
  | word isWord spaced =>
      intro rest ends
      obtain ⟨behind, -, scanned, same⟩ := spaced.exists_scan ends
      obtain ⟨token, isToken, scan⟩ := isWord.scan
      rw [scanned, scan, same, skip_word isToken isValue]
  | number written granted spaced =>
      intro rest ends
      obtain ⟨behind, endsBehind, scanned, same⟩ := spaced.exists_scan ends
      rw [scanned, written.scan_token endsBehind, same,
        skip_number (meets.number _ granted) isValue]
  | text literal granted =>
      intro rest ends
      rw [literal.scan ends, skip_text (meets.text _ granted) isValue]
  | list enclosed _ ih =>
      obtain ⟨mayOpen, roomInside⟩ := room.inside .list
      refine Bracket.list.passes enclosed mayOpen ?_ isValue
      exact fun item isItem awaiting isDue => ih item isItem roomInside isDue.symm
  | record enclosed names _ ih =>
      obtain ⟨mayOpen, roomInside⟩ := room.inside .record
      refine Bracket.record.passes enclosed mayOpen ?_ isValue
      intro item isItem awaiting isDue rest ends
      obtain ⟨⟨name, value⟩, isMember, rfl⟩ := List.mem_map.mp isItem
      obtain ⟨pieces, literal, granted⟩ := names _ isMember
      rw [List.append_assoc, List.cons_append, literal.scan (endsNumber_colon _),
        Token.scan_mark (c := ':') rfl, skip_name (meets.text _ granted) isDue,
        ih _ isMember roomInside (.inl rfl) rest ends]

end PathStore.Json
