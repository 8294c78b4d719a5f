import PathStore.Proofs.GrammarValues
import PathStore.Proofs.StringTexts

/-!
# What was written where a value is passed over

The converse of passing over a grammatical value: what is passed over is one.  A value
that is due is a word, a number or a string, or it opens a bracket; then items follow
up to the closing one, each of them shorter than the text, so the proof is by induction
on its length.  Behind the value the same brackets are open as before it, and how many
of them there may be bounds the depth of the value.
-/

namespace PathStore.Json

variable {care : Care} {bracket : Bracket} {opened outer : List Bracket}
  {tokens left : List Token}

/-! ## Steps of passing over -/

theorem skip_next_cases (done : skip care .next (bracket :: outer) tokens = .ok left) :
    (∃ rest, tokens = .comma :: rest ∧
      skip care bracket.further (bracket :: outer) rest = .ok left) ∨
    ∃ rest, tokens = bracket.closes :: rest ∧ skip care .next outer rest = .ok left := by
  cases tokens with
  | nil => cases bracket <;> cases done
  | cons token rest =>
      cases bracket
      all_goals
        cases token
        case comma => exact .inl ⟨rest, rfl, done⟩
        all_goals first
          | exact .inr ⟨rest, rfl, done⟩
          | cases done

/-- Behind an opening bracket stands the closing one or what stands behind a comma. -/
theorem skip_first_cases (done : skip care bracket.first (bracket :: outer) tokens = .ok left) :
    (∃ rest, tokens = bracket.closes :: rest ∧ skip care .next outer rest = .ok left) ∨
      skip care bracket.further (bracket :: outer) tokens = .ok left := by
  cases tokens with
  | nil => cases bracket <;> cases done
  | cons token rest =>
      cases bracket
      all_goals
        cases token
        all_goals first
          | exact .inr done
          | exact .inl ⟨rest, rfl, done⟩

/-- Behind a name stands a colon, and behind that a value. -/
theorem skip_key_cases (done : skip care .key opened tokens = .ok left) :
    ∃ pieces rest, tokens = .text pieces :: .colon :: rest ∧ care.admitsText pieces = true ∧
      skip care .value opened rest = .ok left := by
  cases tokens with
  | nil => cases done
  | cons token behind =>
      cases token with
      | text pieces =>
          simp only [skip] at done
          split_ifs at done with admitted
          cases behind with
          | nil => cases done
          | cons mark rest =>
              cases mark
              case colon => exact ⟨pieces, rest, rfl, admitted, done⟩
              all_goals cases done
      | _ => cases done

/-- The token is a value on its own that may be passed over. -/
def Care.Admits (care : Care) : Token → Prop
  | .null | .bool _ => True
  | .number numeral => care.admitsNumber numeral = true
  | .text pieces => care.admitsText pieces = true
  | _ => False

/-- A value is one token or begins with an opening bracket. -/
theorem skip_value_cases (done : skip care .value opened tokens = .ok left) :
    ∃ token rest, tokens = token :: rest ∧
      (care.Admits token ∧ skip care .next opened rest = .ok left ∨
        ∃ bracket : Bracket, token = bracket.opens ∧ care.mayOpen opened = true ∧
          skip care bracket.first (bracket :: opened) rest = .ok left) := by
  cases tokens with
  | nil => cases done
  | cons token rest =>
      refine ⟨token, rest, rfl, ?_⟩
      cases token with
      | null | bool => exact .inl ⟨trivial, done⟩
      | number | text =>
          simp only [skip] at done
          split_ifs at done with admitted
          exact .inl ⟨admitted, done⟩
      | openList =>
          simp only [skip] at done
          split_ifs at done with room
          exact .inr ⟨.list, rfl, room, done⟩
      | openRecord =>
          simp only [skip] at done
          split_ifs at done with room
          exact .inr ⟨.record, rfl, room, done⟩
      | _ => cases done

/-! ## Values that fit -/

/-- What is asked of a value that is passed over with this care. -/
def Care.demands : Care → Demands
  | .grammar => .grammar
  | .meaning _ => .meaning

/-- The text is a value that may be passed over inside of the open brackets. -/
def Care.Fits (care : Care) (opened : List Bracket) (text : List Char) : Prop :=
  ∃ depth, care.HasRoom opened depth ∧ Value care.demands depth text

theorem Literal.demanded {text : List Char} {pieces : List Piece} (literal : Literal text pieces)
    (admitted : care.admitsText pieces = true) : care.demands.text pieces := by
  cases care with
  | grammar => trivial
  | meaning => exact literal.exists_denotes admitted

theorem Care.demands_number {numeral : Numeral} (admitted : care.admitsNumber numeral = true) :
    care.demands.number numeral := by
  cases care with
  | grammar => trivial
  | meaning => exact admitted

/-- Whatever is not nested more deeply than allowed is not nested more deeply than that. -/
theorem Value.mono {demands : Demands} {depth more : Nat} {text : List Char}
    (value : Value demands depth text) (bound : depth ≤ more) : Value demands more text := by
  induction value generalizing more with
  | word isWord spaced => exact .word isWord spaced
  | number written granted spaced => exact .number written granted spaced
  | text literal granted => exact .text literal granted
  | list enclosed _ ih =>
      obtain ⟨more, rfl⟩ := Nat.exists_eq_add_of_le' bound
      exact .list enclosed fun item isItem => ih item isItem (Nat.le_add_left _ more)
  | record enclosed names _ ih =>
      obtain ⟨more, rfl⟩ := Nat.exists_eq_add_of_le' bound
      exact .record enclosed names fun member isMember =>
        ih member isMember (Nat.le_add_left _ more)

/-- Where one more bracket may be opened, there is room inside of it. -/
theorem Care.hasRoom_of_mayOpen (room : care.mayOpen opened = true) :
    care.HasRoom (bracket :: opened) 0 := by
  intro inner isInner
  cases care with
  | grammar => rfl
  | meaning around =>
      simp only [mayOpen, decide_eq_true_eq, List.length_cons] at *
      omega

theorem Care.HasRoom.max {first second : Nat} (room : care.HasRoom opened first)
    (other : care.HasRoom opened second) : care.HasRoom opened (max first second) := by
  intro inner isInner
  obtain fits | fits : inner.length < opened.length + first ∨
      inner.length < opened.length + second := by omega
  · exact room inner fits
  · exact other inner fits

/-- Values that fit into a bracket fit into it together. -/
theorem Care.exists_depth {values : List (List Char)} (room : care.mayOpen opened = true)
    (fits : ∀ value ∈ values, care.Fits (bracket :: opened) value) :
    ∃ depth, care.HasRoom opened (depth + 1) ∧
      ∀ value ∈ values, Value care.demands depth value := by
  have inside : ∃ depth, care.HasRoom (bracket :: opened) depth ∧
      ∀ value ∈ values, Value care.demands depth value := by
    induction values with
    | nil => exact ⟨0, hasRoom_of_mayOpen room, List.forall_mem_nil _⟩
    | cons value values ih =>
        obtain ⟨⟨first, roomFirst, isValue⟩, fits⟩ := List.forall_mem_cons.mp fits
        obtain ⟨second, roomSecond, areValues⟩ := ih fits
        refine ⟨max first second, roomFirst.max roomSecond, List.forall_mem_cons.mpr ⟨?_, ?_⟩⟩
        · exact isValue.mono (Nat.le_max_left _ _)
        · exact fun other isOther => (areValues other isOther).mono (Nat.le_max_right _ _)
  obtain ⟨depth, roomInside, areValues⟩ := inside
  refine ⟨depth, fun inner isInner => roomInside inner ?_, areValues⟩
  rw [List.length_cons]
  omega

/-- What may stand between the commas of a bracket. -/
def Bracket.Holds (bracket : Bracket) (care : Care) (opened : List Bracket) (item : List Char) :
    Prop :=
  match bracket with
  | .list => care.Fits (.list :: opened) item
  | .record => ∃ member : List Char × List Char, item = member.1 ++ ':' :: member.2 ∧
      (∃ pieces, Literal member.1 pieces ∧ care.demands.text pieces) ∧
      care.Fits (.record :: opened) member.2

theorem exists_map_eq {α β : Type} {write : α → β} {property : α → Prop} {items : List β}
    (each : ∀ item ∈ items, ∃ member, item = write member ∧ property member) :
    ∃ members : List α, items = members.map write ∧ ∀ member ∈ members, property member := by
  induction items with
  | nil => exact ⟨[], rfl, List.forall_mem_nil _⟩
  | cons item items ih =>
      obtain ⟨⟨member, rfl, holds⟩, others⟩ := List.forall_mem_cons.mp each
      obtain ⟨members, rfl, all⟩ := ih others
      exact ⟨member :: members, rfl, List.forall_mem_cons.mpr ⟨holds, all⟩⟩

/-- Items in brackets are a value. -/
theorem Bracket.fits {items : List (List Char)} {text : List Char}
    (room : care.mayOpen opened = true) (holds : ∀ item ∈ items, bracket.Holds care opened item)
    (enclosed : Enclosed bracket.opening bracket.closing items text) : care.Fits opened text := by
  cases bracket with
  | list =>
      obtain ⟨depth, roomInside, areValues⟩ := Care.exists_depth room holds
      exact ⟨depth + 1, roomInside, .list enclosed areValues⟩
  | record =>
      obtain ⟨members, rfl, each⟩ := exists_map_eq holds
      have fits : ∀ value ∈ members.map Prod.snd, care.Fits (.record :: opened) value :=
        List.forall_mem_map.mpr fun member isMember => (each member isMember).2
      obtain ⟨depth, roomInside, areValues⟩ := Care.exists_depth room fits
      exact ⟨depth + 1, roomInside,
        .record enclosed (fun member isMember => (each member isMember).1)
        (List.forall_mem_map.mp areValues)⟩

/-! ## Passing over -/

variable {text : List Char}

/-- A token that is a value on its own was written as one. -/
theorem Care.Admits.beginsWith {token : Token} (admits : care.Admits token)
    (room : care.HasRoom opened 0) (scanned : Token.scan text = token :: tokens) :
    BeginsWith (care.Fits opened) text tokens := by
  have word {letters : List Char} (isWord : Word letters)
      (spelled : token.letters? = some letters) : BeginsWith (care.Fits opened) text tokens :=
    (Token.beginsWith_word spelled scanned).imp fun _ spaced => ⟨0, room, .word isWord spaced⟩
  cases token with
  | null => exact word .null rfl
  | bool value =>
      cases value with
      | true => exact word .true rfl
      | false => exact word .false rfl
  | number numeral =>
      obtain ⟨before, digits, rest, blank, written, rfl, further⟩ :=
        Token.exists_of_scan_number scanned
      exact (beginsWith_spaced blank further).imp fun _ spaced =>
        ⟨0, room, .number written (demands_number admits) spaced⟩
  | text pieces =>
      exact (Token.beginsWith_literal scanned).imp fun _ literal =>
        ⟨0, room, .text literal (literal.demanded admits)⟩
  | _ => exact admits.elim

theorem Bracket.character?_opens (bracket : Bracket) :
    bracket.opens.character? = some bracket.opening := by
  cases bracket <;> rfl

theorem Bracket.character?_closes (bracket : Bracket) :
    bracket.closes.character? = some bracket.closing := by
  cases bracket <;> rfl

/-- Behind a name and a colon stands what is written behind them. -/
theorem BeginsWith.behind_colon {written other : List Char → Prop} {name : List Char}
    (begins : BeginsWith written text tokens)
    (each : ∀ value, written value → other (name ++ ':' :: value)) :
    BeginsWith other (name ++ ':' :: text) tokens := by
  obtain ⟨front, rest, rfl, further, isWritten⟩ := begins
  refine ⟨name ++ ':' :: front, rest, by simp, further, fun blanks blank => ?_⟩
  rw [List.append_assoc, List.cons_append]
  exact each _ (isWritten blanks blank)

/-- Blanks in front of a bracket and blanks behind the closing one stand around the two. -/
theorem Separated.beginsWith {before inside rest : List Char} {items : List (List Char)}
    (separated : Separated items inside) (blank : Blank before)
    (further : Token.scan rest = tokens) (bracket : Bracket) :
    BeginsWith (Enclosed bracket.opening bracket.closing items)
      (before ++ bracket.opening :: (inside ++ bracket.closing :: rest)) tokens := by
  have begins : BeginsWith (Spaced (bracket.opening :: (inside ++ [bracket.closing])))
      (before ++ (bracket.opening :: (inside ++ [bracket.closing]) ++ rest)) tokens :=
    beginsWith_spaced blank further
  rw [List.cons_append, List.append_assoc, List.singleton_append] at begins
  exact begins.imp fun _ spaced => ⟨inside, separated, spaced⟩

/-- Items that are passed over have commas between them, and the closing bracket behind
them. -/
theorem exists_of_skip_items {isItem : List Char → Prop} {size : Nat}
    (each : ∀ ⦃text : List Char⦄, text.length < size →
      skip care bracket.further (bracket :: outer) (Token.scan text) = .ok left →
        ∃ tokens, BeginsWith isItem text tokens ∧
          skip care .next (bracket :: outer) tokens = .ok left)
    (short : text.length < size)
    (done : skip care bracket.further (bracket :: outer) (Token.scan text) = .ok left) :
    ∃ items rest, items ≠ [] ∧ (∀ item ∈ items, isItem item) ∧
      text = List.intercalate [','] items ++ bracket.closing :: rest ∧
      skip care .next outer (Token.scan rest) = .ok left := by
  induction length : text.length using Nat.strong_induction_on generalizing text with
  | _ length ih =>
      subst length
      obtain ⟨tokens, begins, left⟩ := each short done
      obtain ⟨behind, rfl, further⟩ | ⟨behind, rfl, further⟩ := skip_next_cases left
      · obtain ⟨first, rest, isFirst, rfl, rfl⟩ := begins.exists_mark rfl
        have shorter : rest.length < (first ++ ',' :: rest).length := by
          simp only [List.length_append, List.length_cons]
          omega
        obtain ⟨items, rest, some_item, areItems, rfl, ended⟩ :=
          ih _ shorter (shorter.trans short) further rfl
        obtain ⟨second, items, rfl⟩ := List.exists_cons_of_ne_nil some_item
        exact ⟨first :: second :: items, rest, List.cons_ne_nil _ _,
          List.forall_mem_cons.mpr ⟨isFirst, areItems⟩, (intercalate_comma_append _ _ _ _).symm,
          ended⟩
      · obtain ⟨last, rest, isLast, rfl, rfl⟩ := begins.exists_mark bracket.character?_closes
        exact ⟨[last], rest, List.cons_ne_nil _ _, List.forall_mem_singleton.mpr isLast, by simp,
          further⟩

/-- Behind the opening bracket stand such items, if there are any. -/
theorem exists_of_skip_first {isItem : List Char → Prop} {size : Nat}
    (each : ∀ ⦃text : List Char⦄, text.length < size →
      skip care bracket.further (bracket :: outer) (Token.scan text) = .ok left →
        ∃ tokens, BeginsWith isItem text tokens ∧
          skip care .next (bracket :: outer) tokens = .ok left)
    (short : text.length < size)
    (done : skip care bracket.first (bracket :: outer) (Token.scan text) = .ok left) :
    ∃ items inside rest, (∀ item ∈ items, isItem item) ∧ Separated items inside ∧
      text = inside ++ bracket.closing :: rest ∧
      skip care .next outer (Token.scan rest) = .ok left := by
  obtain ⟨behind, scanned, further⟩ | done := skip_first_cases done
  · obtain ⟨blanks, rest, areBlank, rfl, rfl⟩ :=
      Token.exists_of_scan_mark bracket.character?_closes scanned
    exact ⟨[], blanks, rest, List.forall_mem_nil _, areBlank, rfl, further⟩
  · obtain ⟨items, rest, some_item, areItems, rfl, further⟩ := exists_of_skip_items each short done
    obtain ⟨first, items, rfl⟩ := List.exists_cons_of_ne_nil some_item
    exact ⟨_, _, rest, areItems, rfl, rfl, further⟩

/-- What is passed over between two commas of a bracket may stand there, if its value is
one. -/
theorem exists_of_skip_further {size : Nat}
    (value : ∀ ⦃text : List Char⦄, text.length < size →
      skip care .value (bracket :: opened) (Token.scan text) = .ok left →
        ∃ tokens, BeginsWith (care.Fits (bracket :: opened)) text tokens ∧
          skip care .next (bracket :: opened) tokens = .ok left)
    (short : text.length < size)
    (done : skip care bracket.further (bracket :: opened) (Token.scan text) = .ok left) :
    ∃ tokens, BeginsWith (bracket.Holds care opened) text tokens ∧
      skip care .next (bracket :: opened) tokens = .ok left := by
  cases bracket with
  | list => exact value short done
  | record =>
      obtain ⟨pieces, behind, scanned, admitted, valueDone⟩ := skip_key_cases done
      obtain ⟨name, rest, literal, rfl, rfl⟩ :=
        (Token.beginsWith_literal scanned).exists_mark rfl
      rw [List.length_append, List.length_cons] at short
      obtain ⟨tokens, begins, further⟩ := value (show rest.length < size by omega) valueDone
      refine ⟨tokens, begins.behind_colon fun text fits => ?_, further⟩
      exact ⟨(name, text), rfl, ⟨pieces, literal, literal.demanded admitted⟩, fits⟩

/-- A value that is passed over was written as one. -/
theorem exists_of_skip_value {size : Nat} (short : text.length < size)
    (room : care.HasRoom opened 0)
    (done : skip care .value opened (Token.scan text) = .ok left) :
    ∃ tokens, BeginsWith (care.Fits opened) text tokens ∧
      skip care .next opened tokens = .ok left := by
  -- By induction on a bound of the length, for all open brackets at once: what is inside of
  -- a bracket is shorter than the text.
  induction size generalizing text opened with
  | zero => exact absurd short (Nat.not_lt_zero _)
  | succ size ih =>
      obtain ⟨token, behind, scanned, ⟨admits, further⟩ | ⟨bracket, rfl, mayOpen, inside⟩⟩ :=
        skip_value_cases done
      · exact ⟨behind, admits.beginsWith room scanned, further⟩
      · obtain ⟨before, rest, blank, rfl, rfl⟩ :=
          Token.exists_of_scan_mark bracket.character?_opens scanned
        have shorter : rest.length < size := by
          simp only [List.length_append, List.length_cons] at short
          omega
        have each ⦃text : List Char⦄ (short : text.length < size)
            (done : skip care bracket.further (bracket :: opened) (Token.scan text) = .ok left) :=
          exists_of_skip_further
            (fun _ short done => ih short (Care.hasRoom_of_mayOpen mayOpen) done) short done
        obtain ⟨items, between, behind, holds, separated, rfl, further⟩ :=
          exists_of_skip_first each shorter inside
        refine ⟨_, (separated.beginsWith blank rfl bracket).imp fun text enclosed => ?_, further⟩
        exact Bracket.fits mayOpen holds enclosed

/-! ## Readers -/

theorem Care.hasRoom_nil : care.HasRoom [] 0 :=
  fun _ isInner => absurd isInner (Nat.not_lt_zero _)

/-- A value that is read over was written as one. -/
theorem beginsWith_of_skipValue (done : skipValue care (Token.scan text) = .ok tokens) :
    BeginsWith (care.Fits []) text tokens := by
  obtain ⟨behind, begins, ended⟩ :=
    exists_of_skip_value (Nat.lt_succ_self text.length) Care.hasRoom_nil done
  rw [skip] at ended
  cases ended
  exact begins

theorem passValue_takesOnly :
    (passValue .grammar).TakesOnly fun _ text => ∃ depth, Value .grammar depth text := by
  intro text value tokens done
  simp only [StateT.run, passValue] at done
  split at done
  · cases done
    refine (beginsWith_of_skipValue ‹_›).imp fun text fits => ?_
    obtain ⟨depth, -, isValue⟩ := fits
    exact ⟨depth, isValue⟩
  · cases done

/-- The text is a value that means something, nested no more deeply than is allowed inside
of so many brackets; and of a string all is kept. -/
def HeldAs (around : Nat) (shape : Shape) (text : List Char) : Prop :=
  (∃ depth, around + depth < Care.nestingLimit ∧ Value .meaning depth text) ∧
    ∀ value, shape = .text value → Says value text

theorem Care.Fits.exists_depth {around : Nat} (some_room : around < nestingLimit)
    (fits : (Care.meaning around).Fits [] text) :
    ∃ depth, around + depth < nestingLimit ∧ Value .meaning depth text := by
  obtain ⟨depth, room, isValue⟩ := fits
  refine ⟨depth, ?_, isValue⟩
  cases depth with
  | zero => exact some_room
  | succ depth =>
      have innermost := room (List.replicate depth .list) (by simp)
      simpa [mayOpen, Nat.add_assoc] using innermost

theorem Numeral.shape?_ne_text (numeral : Numeral) (value : String) :
    numeral.shape? ≠ some (.text value) := by
  intro isText
  simp only [shape?] at isText
  split_ifs at isText <;> simp at isText

/-- Only a string is kept as one. -/
theorem Token.shape_eq_text {token : Token} {value : String}
    (shaped : token.shape = .ok (.text value)) :
    ∃ pieces, token = .text pieces ∧ Text.string? pieces = some value := by
  cases token with
  | text pieces =>
      rw [shape] at shaped
      split at shaped
      · cases shaped
        exact ⟨pieces, rfl, ‹_›⟩
      · cases shaped
  | number numeral =>
      rw [shape] at shaped
      split at shaped
      · cases shaped
        exact absurd ‹_› (numeral.shape?_ne_text value)
      · cases shaped
  | _ => cases shaped

theorem exists_of_readHeld {around : Nat} {given : List Token} {shape : Shape}
    (done : (readHeld around).run given = .ok (shape, tokens)) :
    ∃ token rest, given = token :: rest ∧ token.shape = .ok shape ∧
      skipValue (.meaning around) given = .ok tokens := by
  simp only [StateT.run] at done
  unfold readHeld at done
  split at done
  · cases done
  · split at done
    · cases done
    · split at done <;> cases done
      exact ⟨_, _, rfl, ‹_›, ‹_›⟩

theorem readHeld_takesOnly {around : Nat} (some_room : around < Care.nestingLimit) :
    (readHeld around).TakesOnly (HeldAs around) := by
  intro text shape tokens done
  obtain ⟨token, rest, scanned, shaped, passed⟩ := exists_of_readHeld done
  by_cases isText : ∃ pieces, token = .text pieces
  · -- Of a string the shape has to be known on the text that was taken, and not only that
    -- some value was.
    obtain ⟨pieces, rfl⟩ := isText
    rw [scanned] at passed
    obtain ⟨token, behind, same, ⟨admits, ended⟩ | ⟨bracket, isOpening, -⟩⟩ :=
      skip_value_cases passed
    · cases same
      rw [skip] at ended
      cases ended
      refine (Token.beginsWith_literal scanned).imp fun text literal => ⟨?_, ?_⟩
      · exact ⟨0, some_room, .text literal (literal.exists_denotes admits)⟩
      · rintro value rfl
        obtain ⟨others, isText, meant⟩ := Token.shape_eq_text shaped
        cases isText
        exact literal.says meant
    · cases same
      cases bracket <;> cases isOpening
  · refine (beginsWith_of_skipValue passed).imp fun text fits => ?_
    refine ⟨fits.exists_depth some_room, ?_⟩
    rintro value rfl
    obtain ⟨pieces, rfl, -⟩ := Token.shape_eq_text shaped
    exact absurd ⟨pieces, rfl⟩ isText

end PathStore.Json
