import PathStore.Proofs.GivenSettings
import PathStore.Proofs.RecordTexts

/-!
# The texts that settings are read from

Settings are read from the texts that give some of their fields and from no others.
Whatever the form of a text, a reader fills slots of a draft that were empty before, so
what a slot holds at the end is what the one value says that was read into it, and the
settings that the draft is completed to spell all the values of the text.
-/

namespace PathStore.Settings

open Json

/-- The text gives some fields of the settings, and the others are at their defaults. -/
def GivenBy (settings : Settings) (text : String) : Prop :=
  ∃ (named : Settings) (fields : List Field), fields.Nodup ∧
    named.GivenIn fields text.toList ∧ settings = named.givenOr fields .default

namespace Draft

/-! ## Slots that are filled -/

/-- One draft becomes another as values are read into empty slots, each as its text says. -/
inductive FilledTo : Draft → List (Field × List Char) → Draft → Prop
  | nil {draft : Draft} : FilledTo draft [] draft
  | cons {draft final : Draft} {settings : Settings} {field : Field} {text : List Char}
      {filled : List (Field × List Char)} :
      draft.gives field = false → settings.Spells field text →
        FilledTo (draft.take settings field) filled final →
        FilledTo draft ((field, text) :: filled) final

variable {draft final : Draft} {settings : Settings} {field : Field} {text : List Char}
  {filled : List (Field × List Char)}

theorem take_take (draft : Draft) (settings : Settings) (field : Field) :
    (draft.take settings field).take settings field = draft.take settings field := by
  cases field <;> rfl

theorem gives_of_take_eq (has : draft.take settings field = draft) :
    draft.gives field = true := by
  rw [← has, gives_take, decide_eq_true rfl, Bool.true_or]

theorem take_comm {other : Settings} {second : Field} (differ : field ≠ second) :
    (draft.take settings field).take other second =
      (draft.take other second).take settings field := by
  cases field <;> cases second <;> first | rfl | exact absurd rfl differ

/-- What a slot holds is not touched again. -/
theorem FilledTo.take_eq (isFilled : FilledTo draft filled final)
    (has : draft.take settings field = draft) : final.take settings field = final := by
  induction isFilled with
  | nil => exact has
  | @cons draft final other second text filled fresh _ _ ih =>
      refine ih ?_
      have differ : second ≠ field := by
        rintro rfl
        rw [gives_of_take_eq has] at fresh
        cases fresh
      rw [take_comm differ, has]

/-- The settings that a draft is completed to spell what its slots do. -/
theorem spells_complete (has : draft.take settings field = draft)
    (spelled : settings.Spells field text) : draft.complete.Spells field text := by
  rw [← has]
  cases field <;> exact spelled

theorem FilledTo.spells (isFilled : FilledTo draft filled final) :
    ∀ entry ∈ filled, final.complete.Spells entry.1 entry.2 := by
  induction isFilled with
  | nil => exact List.forall_mem_nil _
  | cons _ spelled further ih =>
      exact List.forall_mem_cons.mpr ⟨spells_complete (further.take_eq (take_take ..)) spelled, ih⟩

theorem FilledTo.gives_iff (isFilled : FilledTo draft filled final) (field : Field) :
    final.gives field = true ↔ draft.gives field = true ∨ field ∈ filled.map Prod.fst := by
  induction isFilled with
  | nil => simp
  | cons _ _ _ ih => simp [ih, gives_take, or_assoc, or_left_comm]

/-- Every slot is filled once. -/
theorem FilledTo.nodup (isFilled : FilledTo draft filled final) :
    (filled.map Prod.fst).Nodup ∧ ∀ field ∈ filled.map Prod.fst, draft.gives field = false := by
  induction isFilled with
  | nil => simp
  | @cons draft _ settings taken _ filled fresh _ _ ih =>
      obtain ⟨once, unfilled⟩ := ih
      simp only [gives_take, Bool.or_eq_false_iff, decide_eq_false_iff_not] at unfilled
      rw [List.map_cons, List.nodup_cons, List.forall_mem_cons]
      exact ⟨⟨fun isLater => (unfilled _ isLater).1 rfl, once⟩, fresh,
        fun field isLater => (unfilled field isLater).2⟩

theorem getD_eq_ite {α : Type} {slot : Option α} {isGiven : Prop} [Decidable isGiven]
    (given : slot.isSome = true → isGiven) (other : α) :
    slot.getD other = if isGiven then slot.getD other else other := by
  cases slot with
  | none => simp
  | some value => rw [if_pos (given rfl)]

/-- What is not given is at its default. -/
theorem complete_eq_givenOr {fields : List Field}
    (given : ∀ field, draft.gives field = true → field ∈ fields) :
    draft.complete = draft.complete.givenOr fields default := by
  simp only [complete, givenOr, Settings.mk.injEq]
  exact ⟨getD_eq_ite (given .dataDir) _, getD_eq_ite (given .tree) _,
    getD_eq_ite (given .databaseReset) _, getD_eq_ite (given .temporary) _⟩

/-- If empty slots were filled, a text that gives the fields of the completed settings gives
all that there is. -/
theorem FilledTo.givenBy (isFilled : FilledTo empty filled final) {text : String}
    (givenIn : final.complete.GivenIn (filled.map Prod.fst) text.toList) :
    final.complete.GivenBy text := by
  refine ⟨_, _, isFilled.nodup.1, givenIn, complete_eq_givenOr fun field given => ?_⟩
  obtain isEmpty | isField := (isFilled.gives_iff field).mp given
  · cases field <;> cases isEmpty
  · exact isField

/-! ## Reading -/

/-- A value is read into its slot as its text says. -/
theorem readValue_takesOnly (draft : Draft) (field : Field) :
    (draft.readValue field).TakesOnly fun next text =>
      ∃ settings, next = draft.take settings field ∧ settings.Spells field text := by
  intro text next tokens done
  cases field with
  | dataDir =>
      refine ((readString_takesOnly _).bind_pure _ done).imp ?_
      rintro text ⟨value, rfl, spelled⟩
      exact ⟨{ default with dataDir := value }, rfl, spelled⟩
  | tree =>
      refine ((readString_takesOnly _).bind_pure _ done).imp ?_
      rintro text ⟨value, rfl, spelled⟩
      exact ⟨{ default with tree := value }, rfl, spelled⟩
  | databaseReset =>
      refine ((readBool_takesOnly _).bind_pure _ done).imp ?_
      rintro text ⟨value, rfl, spelled⟩
      exact ⟨{ default with databaseReset := value }, rfl, spelled⟩
  | temporary =>
      refine ((readBool_takesOnly _).bind_pure _ done).imp ?_
      rintro text ⟨value, rfl, spelled⟩
      exact ⟨{ default with temporary := value }, rfl, spelled⟩

/-- What stands behind a name and its colon fills the slot of this name, or it is passed
over. -/
def Leads (draft : Draft) (name : String) (text : List Char) (next : Draft) : Prop :=
  (∃ field settings, name = Field.name field ∧ draft.gives field = false ∧
    settings.Spells field text ∧ next = draft.take settings field) ∨
  (∀ field : Field, name ≠ field.name) ∧ (∃ depth, Json.Value .grammar depth text) ∧ next = draft

theorem name_of_named? {name : String} (isNamed : Field.named? name = some field) :
    name = field.name := by
  simpa [eq_comm] using List.find?_some isNamed

theorem ne_name_of_named? {name : String} (unknown : Field.named? name = none) (field : Field) :
    name ≠ field.name := by
  rintro rfl
  rw [Field.named?_name] at unknown
  cases unknown

theorem readField_takesFields : TakesFields readField Leads := by
  intro draft name text next tokens done
  unfold readField at done
  split at done
  · rename_i field isNamed
    split_ifs at done with met
    · cases done
    · obtain ⟨blanks, rest, blank, rfl, begins⟩ :=
        (readValue_takesOnly draft field).behind_colon done
      refine ⟨blanks, rest, blank, rfl, begins.imp ?_⟩
      rintro text ⟨settings, rfl, spelled⟩
      exact .inl ⟨field, settings, name_of_named? isNamed, by simpa using met, spelled, rfl⟩
  · rename_i unknown
    obtain ⟨blanks, rest, blank, rfl, begins⟩ :=
      (passValue_takesOnly.bind_pure fun _ => draft).behind_colon done
    refine ⟨blanks, rest, blank, rfl, begins.imp ?_⟩
    rintro text ⟨_, rfl, isValue⟩
    exact .inr ⟨ne_name_of_named? unknown, isValue, rfl⟩

/-- Members fill the slots of the fields that they give. -/
theorem exists_filledTo {members : List Member} (led : Led Leads draft members final) :
    ∃ filled entries, FilledTo draft filled final ∧
      entries.reduceOption = filled.map Prod.fst ∧
      ∀ settings : Settings, (∀ entry ∈ filled, settings.Spells entry.1 entry.2) →
        List.Forall₂ settings.Gives members entries := by
  induction led with
  | nil => exact ⟨[], [], .nil, rfl, fun _ _ => .nil⟩
  | cons isNamed leads _ ih =>
      obtain ⟨filled, entries, isFilled, sameFields, gives⟩ := ih
      obtain ⟨field, settings, rfl, fresh, spelled, rfl⟩ | ⟨unknown, isValue, rfl⟩ := leads
      · refine ⟨(field, _) :: filled, some field :: entries, .cons fresh spelled isFilled, ?_, ?_⟩
        · rw [List.reduceOption_cons_of_some, sameFields, List.map_cons]
        · intro named spells
          obtain ⟨first, others⟩ := List.forall_mem_cons.mp spells
          exact .cons ⟨isNamed, first⟩ (gives named others)
      · refine ⟨filled, none :: entries, isFilled, ?_, fun named spells => ?_⟩
        · rw [List.reduceOption_cons_of_none, sameFields]
        · exact .cons ⟨⟨_, isNamed, unknown⟩, isValue⟩ (gives named spells)

/-! ## Positions -/

theorem forall₂_spells (spells : ∀ entry ∈ filled, settings.Spells entry.1 entry.2) :
    List.Forall₂ settings.Spells (filled.map Prod.fst) (filled.map Prod.snd) := by
  rw [List.forall₂_map_left_iff, List.forall₂_map_right_iff, List.forall₂_same]
  exact spells

/-- Further values fill the next slots, each behind a comma. -/
theorem exists_of_readFurther {slots : List Field} {tokens : List Token}
    (once : slots.Nodup) (fresh : ∀ field ∈ slots, draft.gives field = false)
    (done : (draft.readFurther slots).run (Token.scan text) = .ok (final, tokens)) :
    ∃ blanks filled rest, Blank blanks ∧ FilledTo draft filled final ∧
      filled.map Prod.fst <+: slots ∧
      text = blanks ++ ((filled.map Prod.snd).flatMap (',' :: ·) ++ ']' :: rest) ∧
      Token.scan rest = tokens := by
  induction slots generalizing draft text with
  | nil =>
      obtain ⟨_, middle, closed, finished⟩ := Reader.run_bind_eq_ok done
      cases finished
      obtain ⟨blanks, rest, blank, rfl, further⟩ :=
        Token.exists_of_scan_mark rfl (eq_of_readMark closed)
      exact ⟨blanks, [], rest, blank, .nil, List.prefix_rfl, rfl, further⟩
  | cons slot slots ih =>
      obtain ⟨isFresh, fresh⟩ := List.forall_mem_cons.mp fresh
      obtain ⟨notLater, once⟩ := List.nodup_cons.mp once
      simp only [StateT.run] at done
      unfold readFurther at done
      split at done
      · cases done
      · rename_i tail closed
        cases done
        obtain ⟨blanks, rest, blank, rfl, further⟩ := Token.exists_of_scan_mark rfl closed
        exact ⟨blanks, [], rest, blank, .nil, List.nil_prefix, rfl, further⟩
      · rename_i tail scanned
        obtain ⟨blanks, rest, blank, rfl, rfl⟩ := Token.exists_of_scan_mark rfl scanned
        obtain ⟨next, middle, reached, further⟩ := Reader.run_bind_eq_ok done
        obtain ⟨value, behind, rfl, rfl, isValue⟩ := readValue_takesOnly draft slot reached
        obtain ⟨settings, rfl, -⟩ := isValue [] (List.forall_mem_nil _)
        obtain ⟨spaces, filled, rest, areBlank, isFilled, leading, rfl, ended⟩ :=
          ih once (gives_take_of_not_mem _ fresh notLater) further
        obtain ⟨other, same, spelled⟩ := isValue spaces areBlank
        rw [same] at isFilled
        refine ⟨blanks, (slot, value ++ spaces) :: filled, rest, blank,
          .cons isFresh spelled isFilled, (List.prefix_cons_inj slot).mpr leading, ?_, ended⟩
        simp
      · cases done

/-- A list of values fills the first slots. -/
theorem beginsWith_of_readPositions {inside tokens : List Token} {text : List Char}
    (scanned : Token.scan text = .openList :: inside)
    (done : readPositions.run inside = .ok (final, tokens)) :
    BeginsWith (fun text => ∃ filled, FilledTo empty filled final ∧
      final.complete.ByPosition (filled.map Prod.fst) text) text tokens := by
  obtain ⟨before, rest, blank, rfl, rfl⟩ := Token.exists_of_scan_mark rfl scanned
  simp only [StateT.run] at done
  unfold readPositions at done
  split at done
  · rename_i tail closed
    cases done
    obtain ⟨blanks, rest, areBlank, rfl, further⟩ := Token.exists_of_scan_mark rfl closed
    have separated : Separated [] blanks := areBlank
    exact (separated.beginsWith blank further .list).imp fun _ enclosed =>
      ⟨[], .nil, List.nil_prefix, [], .nil, enclosed⟩
  · obtain ⟨next, middle, reached, further⟩ := Reader.run_bind_eq_ok done
    obtain ⟨value, behind, rfl, rfl, isValue⟩ := readValue_takesOnly empty .dataDir reached
    obtain ⟨settings, rfl, -⟩ := isValue [] (List.forall_mem_nil _)
    have fresh : ∀ field ∈ [Field.tree, .databaseReset, .temporary],
        (empty.take settings .dataDir).gives field = false :=
      gives_take_of_not_mem settings (by decide) (by decide)
    obtain ⟨spaces, filled, rest, areBlank, isFilled, leading, rfl, ended⟩ :=
      exists_of_readFurther (by decide) fresh further
    obtain ⟨other, same, spelled⟩ := isValue spaces areBlank
    rw [same] at isFilled
    have isFilled : FilledTo empty ((.dataDir, value ++ spaces) :: filled) final :=
      .cons rfl spelled isFilled
    have separated : Separated ((value ++ spaces) :: filled.map Prod.snd)
        (value ++ (spaces ++ (filled.map Prod.snd).flatMap (',' :: ·))) := by
      rw [Separated, intercalate_comma, List.append_assoc]
    have begins := separated.beginsWith blank ended .list
    simp only [List.append_assoc] at begins
    exact begins.imp fun _ enclosed => ⟨_, isFilled, (List.prefix_cons_inj _).mpr leading, _,
      forall₂_spells isFilled.spells, enclosed⟩

end Draft

/-! ## Whole texts -/

/-- Settings are read from the texts that give some of their fields, and from no others. -/
theorem ofJson_eq_ok_iff {settings : Settings} {text : String} :
    ofJson text = .ok settings ↔ settings.GivenBy text := by
  constructor
  · intro accepted
    have done := document_eq_ok_iff.mp accepted
    simp only [StateT.run] at done
    unfold read at done
    split at done
    · cases done
    · rename_i inside scanned
      rw [map_eq_pure_bind] at done
      obtain ⟨draft, middle, reached, finished⟩ := Reader.run_bind_eq_ok done
      cases finished
      obtain ⟨members, led, record⟩ :=
        (beginsWith_recordOf Draft.readField_takesFields scanned reached).whole
      obtain ⟨filled, entries, isFilled, sameFields, gives⟩ := Draft.exists_filledTo led
      exact isFilled.givenBy (.inl ⟨members, entries, gives _ isFilled.spells,
        .of_eq sameFields, record⟩)
    · rename_i inside scanned
      rw [map_eq_pure_bind] at done
      obtain ⟨draft, middle, reached, finished⟩ := Reader.run_bind_eq_ok done
      cases finished
      obtain ⟨filled, isFilled, byPosition⟩ :=
        (Draft.beginsWith_of_readPositions scanned reached).whole
      exact isFilled.givenBy (.inr byPosition)
    · cases done
  · rintro ⟨named, fields, once, givenIn, rfl⟩
    exact (read_reads once givenIn).document

end PathStore.Settings
