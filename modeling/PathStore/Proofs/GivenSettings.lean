import PathStore.Command.Run
import PathStore.Proofs.GrammarReading
import PathStore.Proofs.SettingsText

/-!
# Settings that are given in part

A text gives some fields of the settings, as a record or by position, and leaves the
others at their defaults.  A record is read into a draft with one slot for each field:
a member with the name of a field fills the slot of that field and no other, and any
other member fills none.  So the order of the members does not matter, nor does what
stands under other names.
-/

namespace PathStore

open Json

namespace Settings

/-! ## What a text gives -/

/-- The text is the value of a field of the settings. -/
def Spells (settings : Settings) : Field → List Char → Prop
  | .dataDir, text => Says settings.dataDir text
  | .tree, text => Says settings.tree text
  | .databaseReset, text => Spaced (writeBool settings.databaseReset) text
  | .temporary, text => Spaced (writeBool settings.temporary) text

/-- The member gives a field of the settings; or it has another name, and then its
value may be anything. -/
def Gives (settings : Settings) (member : Member) : Option Field → Prop
  | some field => member.IsNamed field.name ∧ settings.Spells field member.value
  | none =>
    (∃ name, member.IsNamed name ∧ ∀ field : Field, name ≠ field.name) ∧
      ∃ depth, Json.Value .grammar depth member.value

/-- The text is the list of the values of these fields, which are the first ones. -/
def ByPosition (settings : Settings) (fields : List Field) (text : List Char) : Prop :=
  fields <+: Field.all ∧ ListOf settings.Spells fields text

/-- The text gives these fields of the settings, and no others. -/
def GivenIn (settings : Settings) (fields : List Field) (text : List Char) : Prop :=
  RecordGiving settings.Gives fields text ∨ settings.ByPosition fields text

/-- These fields of the settings, and the others of the base. -/
def givenOr (settings : Settings) (fields : List Field) (base : Settings) : Settings where
  dataDir := if .dataDir ∈ fields then settings.dataDir else base.dataDir
  tree := if .tree ∈ fields then settings.tree else base.tree
  databaseReset := if .databaseReset ∈ fields then settings.databaseReset else base.databaseReset
  temporary := if .temporary ∈ fields then settings.temporary else base.temporary

theorem givenOr_congr {settings base : Settings} {fields others : List Field}
    (same : ∀ field, field ∈ fields ↔ field ∈ others) :
    settings.givenOr fields base = settings.givenOr others base := by
  simp only [givenOr, same]

end Settings

/-- The settings that come of flags over others: the flags go first, and neither of the
two takes a reset back. -/
structure StoreFlags.LaidOver (flags : StoreFlags) (settings final : Settings) : Prop where
  dataDir : final.dataDir = flags.dataDir.getD settings.dataDir
  tree : final.tree = flags.tree.getD settings.tree
  databaseReset :
    final.databaseReset = true ↔ flags.reset = true ∨ settings.databaseReset = true
  temporary : final.temporary = settings.temporary

theorem StoreFlags.laidOver_applyTo (flags : StoreFlags) (settings : Settings) :
    flags.LaidOver settings (flags.applyTo settings) where
  dataDir := rfl
  tree := rfl
  databaseReset := Bool.or_eq_true_iff
  temporary := rfl

namespace Settings

namespace Field

theorem named?_name (field : Field) : named? field.name = some field := by
  cases field <;> decide

theorem named?_eq_none {name : String} (unknown : ∀ field : Field, name ≠ field.name) :
    named? name = none := by
  rw [named?, List.find?_eq_none]
  intro field _
  simpa using (unknown field).symm

end Field

namespace Draft

variable {settings : Settings}

/-! ## Values -/

theorem reads_writeBool {value : Bool} {text : List Char} (spelled : Spaced (writeBool value) text)
    (expected : String) : (readBool expected).Reads text value := by
  intro rest ends
  obtain ⟨behind, -, scanned, same⟩ := spelled.exists_scan ends
  rw [scanned, scan_writeBool, readBool_bool, same]

/-- The value of a field is read into its slot. -/
theorem readValue_reads {field : Field} {text : List Char} (spelled : settings.Spells field text)
    (draft : Draft) : (draft.readValue field).Reads text (draft.take settings field) := by
  cases field with
  | dataDir => exact (Says.reads spelled _).bind_pure _
  | tree => exact (Says.reads spelled _).bind_pure _
  | databaseReset => exact (reads_writeBool spelled _).bind_pure _
  | temporary => exact (reads_writeBool spelled _).bind_pure _

/-! ## Slots -/

/-- The fields that a draft has taken are those of the settings. -/
theorem complete_foldl_take (fields : List Field) (draft : Draft) :
    (fields.foldl (take settings) draft).complete = settings.givenOr fields draft.complete := by
  induction fields generalizing draft with
  | nil => simp [givenOr]
  | cons taken fields ih =>
      rw [List.foldl_cons, ih]
      cases taken <;> simp [givenOr, take, complete]

/-! ## The record -/

/-- Members with the names of fields fill the slots of these, and the others fill none. -/
theorem takesAll {members : List Member} {entries : List (Option Field)}
    (gives : List.Forall₂ settings.Gives members entries) (once : entries.reduceOption.Nodup)
    {draft : Draft} (fresh : ∀ field ∈ entries.reduceOption, draft.gives field = false) :
    TakesAll readField draft members (entries.reduceOption.foldl (take settings) draft) := by
  -- The slots that are still to be filled are empty: no later member has a name that was
  -- met, so `fresh` is kept when a slot is filled.
  induction gives generalizing draft with
  | nil => exact .nil
  | @cons member entry members entries isGiven _ ih =>
      cases entry with
      | none =>
          obtain ⟨⟨name, isNamed, unknown⟩, depth, value⟩ := isGiven
          rw [List.reduceOption_cons_of_none] at once fresh ⊢
          refine .cons ⟨name, isNamed, ?_⟩ (ih once fresh)
          rw [readField, Field.named?_eq_none unknown]
          exact (value.reads_passed.bind_pure fun _ => draft).behind_colon
      | some field =>
          obtain ⟨isNamed, spelled⟩ := isGiven
          rw [List.reduceOption_cons_of_some] at once fresh ⊢
          rw [List.nodup_cons] at once
          rw [List.forall_mem_cons] at fresh
          refine .cons ⟨field.name, isNamed, ?_⟩
            (ih once.2 (gives_take_of_not_mem settings fresh.2 once.1))
          rw [readField, Field.named?_name]
          simp only [fresh.1, Bool.false_eq_true, if_false]
          exact (readValue_reads spelled draft).behind_colon

/-! ## The list -/

theorem endsNumber_further (texts : List (List Char)) (rest : List Char) :
    EndsNumber (texts.flatMap (',' :: ·) ++ ']' :: rest) := by
  cases texts with
  | nil => exact Bracket.endsNumber_closing .list rest
  | cons text texts => exact endsNumber_comma _

/-- Further values are read up to the closing bracket, each into the next slot. -/
theorem readFurther_reads {fields slots : List Field} (leading : fields <+: slots)
    {texts : List (List Char)} (spelled : List.Forall₂ settings.Spells fields texts)
    (draft : Draft) (rest : List Char) :
    (draft.readFurther slots).run (Token.scan (texts.flatMap (',' :: ·) ++ ']' :: rest)) =
      .ok (fields.foldl (take settings) draft, Token.scan rest) := by
  induction slots generalizing fields texts draft with
  | nil =>
      obtain rfl := List.prefix_nil.mp leading
      cases spelled
      rw [List.flatMap_nil, List.nil_append, Token.scan_mark (c := ']') rfl]
      rfl
  | cons slot slots ih =>
      cases spelled with
      | nil =>
          rw [List.flatMap_nil, List.nil_append, Token.scan_mark (c := ']') rfl]
          rfl
      | @cons field text fields texts isSpelled spelled =>
          rw [List.cons_prefix_cons] at leading
          obtain ⟨rfl, leading⟩ := leading
          rw [List.flatMap_cons, List.cons_append, List.cons_append, List.append_assoc,
            scan_comma]
          change (draft.readValue field >>= fun draft => draft.readFurther slots).run _ = _
          have ended := endsNumber_further texts rest
          rw [Reader.run_bind_of_ok (readValue_reads isSpelled draft _ ended),
            ih leading spelled, List.foldl_cons]

/-- A list with values does not begin with its closing bracket. -/
theorem readPositions_of_ok {tokens : List Token} {result : Draft × List Token}
    (done : (empty.readValue .dataDir >>= fun draft =>
      draft.readFurther [.tree, .databaseReset, .temporary]).run tokens = .ok result) :
    readPositions.run tokens = .ok result := by
  change readPositions tokens = _
  rw [readPositions.eq_def]
  split
  · cases done
  · exact done

/-- A list of values is read into the first slots. -/
theorem readPositions_reads {fields : List Field} {text : List Char}
    (byPosition : settings.ByPosition fields text) {rest : List Char} (ends : EndsNumber rest) :
    ∃ inside, Token.scan (text ++ rest) = .openList :: inside ∧
      readPositions.run inside = .ok (fields.foldl (take settings) empty, Token.scan rest) := by
  obtain ⟨leading, texts, spelled, enclosed⟩ := byPosition
  obtain ⟨inside, behind, separated, scanned, same⟩ := Bracket.list.exists_scan enclosed ends
  refine ⟨_, scanned, ?_⟩
  rw [← same]
  cases spelled with
  | nil =>
      rw [Blank.scan separated, Bracket.scan_closing .list]
      rfl
  | @cons field first fields more isSpelled spelled =>
      rw [Field.all, List.cons_prefix_cons] at leading
      obtain ⟨rfl, leading⟩ := leading
      have reads := readValue_reads isSpelled empty _ (endsNumber_further more behind)
      have further := readFurther_reads leading spelled (empty.take settings .dataDir) behind
      rw [separated.eq_intercalate, intercalate_comma, List.append_assoc]
      exact readPositions_of_ok ((Reader.run_bind_of_ok reads).trans further)

end Draft

/-- Settings are read from a text that gives some of their fields. -/
theorem read_reads {settings : Settings} {fields : List Field} (once : fields.Nodup)
    {text : List Char} (givenIn : settings.GivenIn fields text) :
    read.Reads text (settings.givenOr fields default) := by
  intro rest ends
  obtain ⟨members, entries, gives, sameFields, record⟩ | byPosition := givenIn
  · have fresh : ∀ field ∈ entries.reduceOption, Draft.empty.gives field = false := by
      rintro (_ | _ | _ | _) _ <;> rfl
    have taken := Draft.takesAll gives (sameFields.nodup_iff.mpr once) fresh
    obtain ⟨inside, scanned, done⟩ := record.reads taken ends
    rw [scanned]
    change (Draft.complete <$> readRecord _ _ _).run inside = _
    rw [Reader.run_map_of_ok done, Draft.complete_foldl_take,
      givenOr_congr fun field => sameFields.mem_iff]
    rfl
  · obtain ⟨inside, scanned, done⟩ := Draft.readPositions_reads byPosition ends
    rw [scanned]
    change (Draft.complete <$> Draft.readPositions).run inside = _
    rw [Reader.run_map_of_ok done, Draft.complete_foldl_take]
    rfl

/-- A text that gives some fields of the settings is read as these fields and the
defaults of the others, in whatever order and among whatever else a record gives them,
and a list of the first values as the record of their fields.  A command that is led to
a file with the text goes by the flags where they say something, and by the file where
they do not; either of the two may ask for a reset. -/
theorem ofJson_eq_givenOr_default {settings : Settings} {fields : List Field} (once : fields.Nodup)
    {text : String} (givenIn : settings.GivenIn fields text.toList) :
    ofJson text = .ok (settings.givenOr fields default) ∧
      (∀ flags : StoreFlags, flags.LaidOver (settings.givenOr fields default)
        (flags.applyTo (settings.givenOr fields default))) ∧
      ∀ (choice : StoreChoice) (files : Files) (path : String), choice.config = some path →
        files.readText path = .ok text →
          choice.settings files = .ok (choice.flags.applyTo (settings.givenOr fields default)) := by
  have isRead : ofJson text = .ok (settings.givenOr fields default) :=
    (read_reads once givenIn).document
  refine ⟨isRead, fun flags => flags.laidOver_applyTo _, ?_⟩
  intro choice files path chosen found
  have loaded : load files path = .ok (settings.givenOr fields default) :=
    Files.load_eq_ok_iff.mpr ⟨text, found, isRead⟩
  rw [StoreChoice.settings, chosen]
  simp only [loaded]
  rfl

/-- Two fields are given out of order, one under an escaped name, behind a member whose
value means nothing. -/
theorem ofJson_eq_givenOr_default_anyOrder :
    [Field.tree, .temporary].Nodup ∧
      (⟨"", "t", false, true⟩ : Settings).GivenIn [.tree, .temporary]
        "\x7b\"x\":[1e999,\"\\ud800\"], \"temporary\":true,\"tr\\u0065e\" : \"t\"\x7d".toList ∧
      ofJson "\x7b\"x\":[1e999,\"\\ud800\"], \"temporary\":true,\"tr\\u0065e\" : \"t\"\x7d" =
        .ok ⟨"database", "t", false, true⟩ := by
  have once : [Field.tree, .temporary].Nodup := by decide
  have exponent : Numeral.Exponent ['e', '9', '9', '9'] (some (false, ['9', '9', '9'])) :=
    .present (.inl rfl) .none ⟨by decide, by simp [Decimal.isDigit]⟩
  have number : Json.Value .grammar 0 "1e999".toList :=
    .number (.intro false (.of_digit rfl : Numeral.Whole ['1']) .absent exponent) trivial (.refl _)
  have surrogate : Json.Value .grammar 0 "\"\\ud800\"".toList :=
    .text ⟨_, .numbered rfl .nil, .refl _⟩ trivial
  have items : Separated ["1e999".toList, "\"\\ud800\"".toList] "1e999,\"\\ud800\"".toList := rfl
  have list : Json.Value .grammar 1 "[1e999,\"\\ud800\"]".toList :=
    .list ⟨_, items, .refl _⟩
      (List.forall_mem_cons.mpr ⟨number, List.forall_mem_singleton.mpr surrogate⟩)
  have unknown : (⟨"", "t", false, true⟩ : Settings).Gives
      ⟨['x'].map .char, "[1e999,\"\\ud800\"]".toList⟩ none :=
    ⟨⟨"x", .of_chars _, by rintro (_ | _ | _ | _) <;> decide⟩, 1, list⟩
  have temporary : (⟨"", "t", false, true⟩ : Settings).Gives
      ⟨"temporary".toList.map .char, "true".toList⟩ (some .temporary) :=
    ⟨.of_chars _, .refl _⟩
  have tree : (⟨"", "t", false, true⟩ : Settings).Gives
      ⟨[.char 't', .char 'r', .unit 'e'.toNat, .char 'e'], " \"t\"".toList⟩ (some .tree) := by
    refine ⟨.char (.char (.unit (by decide) (.char .nil))), ?_⟩
    exact ⟨_, ⟨['t'], .of_plain rfl, [' '], [], by simp [Blank], by simp [Blank], rfl⟩,
      .of_chars _⟩
  have escaped : Literal "\"tr\\u0065e\" ".toList
      [.char 't', .char 'r', .unit 'e'.toNat, .char 'e'] :=
    ⟨"tr\\u0065e".toList, .plain (by decide) (by decide) (by decide)
      (.plain (by decide) (by decide) (by decide) (.numbered rfl (.of_plain rfl))),
      [], [' '], by simp [Blank], by simp [Blank], rfl⟩
  have spaced : Literal " \"temporary\"".toList ("temporary".toList.map .char) :=
    ⟨_, .of_plain rfl, [' '], [], by simp [Blank], by simp [Blank], rfl⟩
  have givenIn : (⟨"", "t", false, true⟩ : Settings).GivenIn [.tree, .temporary]
      "\x7b\"x\":[1e999,\"\\ud800\"], \"temporary\":true,\"tr\\u0065e\" : \"t\"\x7d".toList :=
    .inl ⟨_, _, .cons unknown (.cons temporary (.cons tree .nil)), .swap _ _ _,
      ["\"x\":[1e999,\"\\ud800\"]".toList, " \"temporary\":true".toList,
        "\"tr\\u0065e\" : \"t\"".toList],
      .cons ⟨_, .of_plain rfl, rfl⟩ (.cons ⟨_, spaced, rfl⟩ (.cons ⟨_, escaped, rfl⟩ .nil)),
      _, rfl, .refl _⟩
  exact ⟨once, givenIn, (ofJson_eq_givenOr_default once givenIn).1⟩

end Settings

end PathStore
