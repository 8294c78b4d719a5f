import PathStore.Proofs.AcceptedBatches
import PathStore.Proofs.OpenTrees
import PathStore.Proofs.StrayDigits
import PathStore.Proofs.Targets

/-!
# A command as a change of a map

The reference of a command knows nothing of overlays, of readers and of failures.  A
command acts if its settings name a tree that opens, and if all that it was given is
well written: digits for a key and a value, or a batch file of operations that are
spelled with such digits.  It then makes its writes one by one in that tree, behind the
reset that its settings may ask for, and no other command changes anything.

The command itself opens a store, decodes before or after that, and may fail at several
points.  It leaves what the reference says, unless it fails or only rehearses behind a
reset.
-/

namespace PathStore

/-! ## The reference -/

/-- An operation means a write: its operands are the digits of a key and of a value. -/
inductive Operation.Means : Operation → Write → Prop
  | put {keyText valueText : String} {key value : Bytes} (isKey : Hex.Spells keyText key)
      (isValue : Hex.Spells valueText value) : Means (.put keyText valueText) (.put ⟨key⟩ value)
  | delete {keyText : String} {key : Bytes} (isKey : Hex.Spells keyText key) :
      Means (.delete keyText) (.delete ⟨key⟩)

namespace Command

/-- The choice of a command that works on a store. -/
def choice? : Command → Option StoreChoice
  | get choice _ | put choice _ _ | delete choice _ | apply choice _ _ _ => some choice
  | pack .. | unpack .. | version => none

/-- The command only rehearses. -/
def isRehearsal : Command → Bool
  | apply _ _ dryRun _ => dryRun
  | _ => false

/-- The command asks for these writes, in this order. -/
inductive Asks (files : Files) : Command → List Write → Prop
  | put {choice : StoreChoice} {key value : String} {write : Write}
      (means : (Operation.put key value).Means write) : Asks files (put choice key value) [write]
  | delete {choice : StoreChoice} {key : String} {write : Write}
      (means : (Operation.delete key).Means write) : Asks files (delete choice key) [write]
  | apply {choice : StoreChoice} {batch text : String} {metrics : Bool}
      {operations : List Operation} {writes : List Write}
      (found : files.readText batch = .ok text)
      (file : Operation.FileOf .meaning operations text.toList)
      (means : List.Forall₂ Operation.Means operations writes) :
      Asks files (apply choice batch false metrics) writes

variable {δ : Type}

/-- The command acts: its settings name a tree that opens, and it asks for writes. -/
structure ActsBy (command : Command) (engine : Engine δ) (disk : δ) (settings : Settings)
    (writes : List Write) : Prop where
  means : ∃ choice, command.choice? = some choice ∧ choice.Means (engine.files disk) settings
  opens : ∃ opened, settings.Opens engine disk opened
  asks : command.Asks (engine.files disk) writes

/-- What the reference makes of the contents: a command that acts makes its writes in its
tree, and any other changes nothing. -/
inductive Settles (command : Command) (engine : Engine δ) (disk : δ) (before : Contents) :
    Contents → Prop
  | acts {settings : Settings} {writes : List Write} {tree : Place × String}
      (acts : command.ActsBy engine disk settings writes)
      (isNamed : tree = settings.named (engine.files disk).here) :
      Settles command engine disk before
        (Function.update before tree (Write.replay id (settings.start (before tree)) writes))
  | rests (rests : ∀ settings writes, ¬ command.ActsBy engine disk settings writes) :
      Settles command engine disk before before

end Command

/-! ## What operands and files mean -/

namespace Operation

theorem means_iff_spells {operation : Operation} {write : Write} :
    operation.Means write ↔ operation.Spells write := by
  constructor
  · rintro (⟨isKey, isValue⟩ | ⟨isKey⟩)
    · exact .put (Hex.decode_eq_ok_iff_spells.mpr isKey) (Hex.decode_eq_ok_iff_spells.mpr isValue)
    · exact .delete (Hex.decode_eq_ok_iff_spells.mpr isKey)
  · rintro (⟨isKey, isValue⟩ | ⟨isKey⟩)
    · exact .put (Hex.decode_eq_ok_iff_spells.mp isKey) (Hex.decode_eq_ok_iff_spells.mp isValue)
    · exact .delete (Hex.decode_eq_ok_iff_spells.mp isKey)

theorem decodeAll_eq_ok_iff_means {operations : List Operation} {writes : List Write} :
    decodeAll operations = .ok writes ↔ List.Forall₂ Means operations writes :=
  decodeAll_eq_ok_iff.trans ⟨.imp fun _ _ => means_iff_spells.mpr,
    .imp fun _ _ => means_iff_spells.mp⟩

/-- Operations are loaded exactly as the file holds them. -/
theorem load_eq_ok_iff {files : Files} {path : String} {operations : List Operation} :
    load files path = .ok operations ↔
      ∃ text, files.readText path = .ok text ∧ FileOf .meaning operations text.toList := by
  simp only [load, Files.load_eq_ok_iff, ofJson_eq_ok_iff]

end Operation

namespace Command

theorem putWrite_eq_ok_iff {key value : String} {write : Write} :
    putWrite key value = .ok write ↔ (Operation.put key value).Means write := by
  simp only [putWrite, bind_eq_ok_iff, Hex.operand_eq_ok_iff, Hex.decode_eq_ok_iff_spells]
  constructor
  · rintro ⟨key, isKey, value, isValue, ⟨⟩⟩
    exact .put isKey isValue
  · rintro ⟨isKey, isValue⟩
    exact ⟨_, isKey, _, isValue, rfl⟩

theorem deleteWrite_eq_ok_iff {key : String} {write : Write} :
    deleteWrite key = .ok write ↔ (Operation.delete key).Means write := by
  simp only [deleteWrite, bind_eq_ok_iff, Hex.operand_eq_ok_iff, Hex.decode_eq_ok_iff_spells]
  constructor
  · rintro ⟨key, isKey, ⟨⟩⟩
    exact .delete isKey
  · rintro (_ | isKey)
    exact ⟨_, isKey, rfl⟩

section

variable {files : Files} {command : Command} {choice : StoreChoice} {writes others : List Write}

theorem asks_put_iff {key value : String} :
    (put choice key value).Asks files writes ↔
      ∃ write, putWrite key value = .ok write ∧ writes = [write] := by
  simp only [putWrite_eq_ok_iff]
  constructor
  · rintro ⟨means⟩
    exact ⟨_, means, rfl⟩
  · rintro ⟨write, means, rfl⟩
    exact .put means

theorem asks_delete_iff {key : String} :
    (delete choice key).Asks files writes ↔
      ∃ write, deleteWrite key = .ok write ∧ writes = [write] := by
  simp only [deleteWrite_eq_ok_iff]
  constructor
  · rintro (_ | means)
    exact ⟨_, means, rfl⟩
  · rintro ⟨write, means, rfl⟩
    exact .delete means

/-- An application asks for what the operations of its file mean, if it is no rehearsal. -/
theorem asks_apply_iff {batch : String} {dryRun metrics : Bool} :
    (apply choice batch dryRun metrics).Asks files writes ↔
      ∃ operations, Operation.load files batch = .ok operations ∧ dryRun = false ∧
        List.Forall₂ Operation.Means operations writes := by
  simp only [Operation.load_eq_ok_iff]
  constructor
  · rintro (_ | _ | ⟨found, file, means⟩)
    exact ⟨_, ⟨_, found, file⟩, rfl, means⟩
  · rintro ⟨operations, ⟨text, found, file⟩, rfl, means⟩
    exact .apply found file means

/-- A command asks for one list of writes only. -/
theorem Asks.unique (asks : command.Asks files writes) (also : command.Asks files others) :
    writes = others := by
  cases command with
  | get | pack | unpack | version => cases asks
  | put choice key value =>
      obtain ⟨write, decoded, rfl⟩ := asks_put_iff.mp asks
      obtain ⟨other, alsoDecoded, rfl⟩ := asks_put_iff.mp also
      cases decoded.symm.trans alsoDecoded
      rfl
  | delete choice key =>
      obtain ⟨write, decoded, rfl⟩ := asks_delete_iff.mp asks
      obtain ⟨other, alsoDecoded, rfl⟩ := asks_delete_iff.mp also
      cases decoded.symm.trans alsoDecoded
      rfl
  | apply choice batch dryRun metrics =>
      obtain ⟨operations, loaded, -, means⟩ := asks_apply_iff.mp asks
      obtain ⟨others, also, -, alsoMeans⟩ := asks_apply_iff.mp also
      cases loaded.symm.trans also
      rw [← Operation.decodeAll_eq_ok_iff_means] at means alsoMeans
      exact Except.ok.inj (means.symm.trans alsoMeans)

end

section

variable {δ : Type} {engine : Engine δ} {disk : δ} {command : Command} {before after : Contents}

/-- The reference leaves one thing only. -/
theorem Settles.unique {other : Contents} (settles : command.Settles engine disk before after)
    (others : command.Settles engine disk before other) : after = other := by
  cases settles with
  | rests rests =>
      cases others with
      | rests => rfl
      | acts acts => exact absurd acts (rests _ _)
  | acts acts isNamed =>
      cases others with
      | rests rests => exact absurd acts (rests _ _)
      | acts also alsoNamed =>
          obtain ⟨choice, isChoice, means⟩ := acts.means
          obtain ⟨other, isOther, alsoMeans⟩ := also.means
          cases isChoice.symm.trans isOther
          cases means.unique alsoMeans
          rw [acts.asks.unique also.asks, isNamed, alsoNamed]

end

/-! ## What commands do with an open tree -/

section

variable {δ : Type} {engine : Engine δ} {contents : δ → Contents}

/-- The rest of a command makes the writes that are asked for in the tree that was opened
for it.  If none are asked for, it changes nothing, and unless it only rehearses it fails
on a tree of a directory that is empty. -/
structure Makes (contents : δ → Contents) (act : OpenTree engine → Report × δ)
    (asks : List Write → Prop) (isRehearsal : Bool) : Prop where
  writes : ∀ writes, asks writes → ∀ tree : OpenTree engine,
    contents (act tree).2 = (contents tree.disk).set tree.handle
      (Write.replay id ((contents tree.disk).reads tree.handle) writes)
  rests : (∀ writes, ¬ asks writes) → ∀ tree : OpenTree engine,
    contents (act tree).2 = contents tree.disk
  fails : (∀ writes, ¬ asks writes) → isRehearsal = false →
    ∀ (tree : OpenTree engine) (place : Place), tree.handle.home = .directory place →
      (∀ key, (contents tree.disk).reads tree.handle key = none) →
        ∃ failure, (act tree).1 = .error failure

variable (keeps : engine.Keeps contents)

include keeps

theorem makes_getValue (key : String) :
    Makes contents (fun tree : OpenTree engine => (getValue tree key, tree.disk))
      (fun _ => False) false where
  writes _ asks := asks.elim
  rests _ _ := rfl
  fails _ _ tree place isPlace isEmpty := by
    rcases tree with ⟨disk, home, name⟩
    obtain rfl : home = .directory place := isPlace
    rw [getValue]
    cases Hex.operand "key" key with
    | error error => exact ⟨_, rfl⟩
    | ok bytes =>
        dsimp only [Backend.read]
        cases found : engine.read disk ⟨.directory place, name⟩ ⟨bytes⟩ with
        | error reason => exact ⟨_, rfl⟩
        | ok value =>
            obtain rfl := (keeps.read found).trans (isEmpty ⟨bytes⟩)
            exact ⟨_, rfl⟩

variable (accepts : engine.Accepts)

include accepts

theorem makes_write (decoded : Except OperandError Write) :
    Makes contents
      (fun tree : OpenTree engine =>
        match decoded with
        | .error error => (.error error.failure, tree.disk)
        | .ok write => writeAndClose tree write)
      (fun writes => ∃ write, decoded = .ok write ∧ writes = [write]) false := by
  cases decoded with
  | error error =>
      refine ⟨?_, fun _ _ => rfl, fun _ _ _ _ _ _ => ⟨_, rfl⟩⟩
      rintro _ ⟨write, ⟨⟩, -⟩
  | ok change =>
      refine ⟨?_, fun unasked => absurd ⟨change, rfl, rfl⟩ (unasked _),
        fun unasked => absurd ⟨change, rfl, rfl⟩ (unasked _)⟩
      rintro _ ⟨_, ⟨⟩, rfl⟩ tree
      rcases accepted : (engine.write tree.handle change).run tree.disk with ⟨result, written⟩
      obtain rfl : result = .ok () :=
        (congrArg Prod.fst accepted).symm.trans (accepts.write tree.disk tree.handle change)
      change contents (writeAndClose tree change).2 = _
      rw [disk_writeAndClose_of_accepted tree accepted, keeps.flush, keeps.write accepted]
      rfl

theorem makes_applyAndClose (operations : List Operation) (dryRun metrics : Bool) :
    Makes contents (fun tree : OpenTree engine => applyAndClose tree operations dryRun metrics)
      (fun writes => dryRun = false ∧ List.Forall₂ Operation.Means operations writes) dryRun := by
  simp only [← Operation.decodeAll_eq_ok_iff_means]
  cases decoded : Operation.decodeAll operations with
  | error error =>
      have ends (tree : OpenTree engine) :=
        applyAndClose_of_decode_error tree dryRun metrics decoded
      refine ⟨?_, fun _ tree => ?_, fun _ _ tree _ _ _ => ?_⟩
      · rintro _ ⟨-, ⟨⟩⟩
      · rw [ends]
      · rw [ends]
        exact ⟨_, rfl⟩
  | ok writes =>
      cases dryRun with
      | true =>
          refine ⟨?_, fun _ tree => ?_, fun _ isReal => by cases isReal⟩
          · rintro _ ⟨⟨⟩, -⟩
          · rw [disk_applyAndClose_rehearsal tree metrics decoded, keeps.flush]
      | false =>
          refine ⟨?_, fun unasked => absurd ⟨rfl, rfl⟩ (unasked writes),
            fun unasked => absurd ⟨rfl, rfl⟩ (unasked writes)⟩
          rintro _ ⟨-, ⟨⟩⟩ tree
          rcases accepted : (engine.writeGroup tree.handle (.ofApplication writes)).run tree.disk
            with ⟨result, written⟩
          obtain rfl : result = .ok () :=
            (congrArg Prod.fst accepted).symm.trans (accepts.writeGroup tree.disk tree.handle _)
          rw [(applyAndClose_of_accepted tree metrics decoded accepted).1, keeps.flush,
            keeps.writeGroup accepted, ChangeGroup.settle_ofApplication]

end

/-! ## One command -/

section

variable {δ : Type} {engine : Engine δ} {contents : δ → Contents} {disk : δ}

theorem Makes.congr {act : OpenTree engine → Report × δ} {asks others : List Write → Prop}
    {isRehearsal : Bool} (makes : Makes contents act asks isRehearsal)
    (same : ∀ writes, others writes ↔ asks writes) : Makes contents act others isRehearsal := by
  obtain rfl : others = asks := funext fun writes => propext (same writes)
  exact makes

/-- A command that fails or only rehearses does not empty its tree. -/
def Careful (command : Command) (engine : Engine δ) (disk : δ) : Prop :=
  (command.isRehearsal = true ∨ ∃ failure, (command.run engine disk).1 = .error failure) →
    ∀ choice settings, command.choice? = some choice →
      choice.Means (engine.files disk) settings → settings.databaseReset = false

variable (keeps : engine.Keeps contents) {command : Command} {choice : StoreChoice}
  (isChoice : command.choice? = some choice) {act : OpenTree engine → Report × δ}
  (runs : command.run engine disk = withStore choice disk act)
  (makes : Makes contents act (command.Asks (engine.files disk)) command.isRehearsal)
  (careful : command.Careful engine disk)

include isChoice

theorem not_actsBy_of_unopened {settings : Settings}
    (means : choice.Means (engine.files disk) settings)
    (unopened : ∀ opened, ¬ settings.Opens engine disk opened) (other : Settings)
    (writes : List Write) : ¬ command.ActsBy engine disk other writes := by
  rintro ⟨⟨_, isOther, alsoMeans⟩, ⟨opened, opens⟩, -⟩
  cases isChoice.symm.trans isOther
  cases means.unique alsoMeans
  exact unopened opened opens

include makes careful

/-- A command whose store is open makes its writes there, or it leaves the tree that it
was not to reset. -/
theorem settles_of_ready {settings : Settings} {opened ready : δ}
    (means : choice.Means (engine.files disk) settings)
    (opens : settings.Opens engine disk opened)
    (changed : contents ready =
      Function.update (contents disk) (settings.named (engine.files disk).here)
        (settings.start (contents disk (settings.named (engine.files disk).here))))
    (runs : command.run engine disk = act ⟨ready, settings.handle (engine.files disk).here⟩) :
    command.Settles engine disk (contents disk) (contents (command.run engine disk).2) := by
  let tree : OpenTree engine := ⟨ready, settings.handle (engine.files disk).here⟩
  let named := settings.named (engine.files disk).here
  have held : (contents ready).reads tree.handle = settings.start (contents disk named) := by
    rw [changed]
    exact Contents.reads_set_directory _ _ _ _
  rw [runs]
  change command.Settles engine disk (contents disk) (contents (act tree).2)
  by_cases asked : ∃ writes, command.Asks (engine.files disk) writes
  · obtain ⟨writes, asks⟩ := asked
    have made : contents (act tree).2 = Function.update (contents disk) named
        (Write.replay id (settings.start (contents disk named)) writes) := by
      rw [makes.writes writes asks tree, held]
      change (contents ready).set tree.handle _ = _
      rw [changed]
      exact Contents.set_set (contents disk) tree.handle _ _
    rw [made]
    exact .acts ⟨⟨choice, isChoice, means⟩, ⟨opened, opens⟩, asks⟩ rfl
  · have unasked : ∀ writes, ¬ command.Asks (engine.files disk) writes :=
      fun writes asks => asked ⟨writes, asks⟩
    -- Without writes a command that resets its tree fails or only rehearses.
    have kept : settings.databaseReset = false := by
      cases reset : settings.databaseReset with
      | false => rfl
      | true =>
          have isEmpty : ∀ key, (contents tree.disk).reads tree.handle key = none := by
            intro key
            change (contents ready).reads tree.handle key = none
            rw [held, Settings.start, reset]
            rfl
          rw [← reset]
          refine careful ?_ choice settings isChoice means
          cases isReal : command.isRehearsal with
          | true => exact .inl rfl
          | false =>
              obtain ⟨failure, fails⟩ := makes.fails unasked isReal tree _ rfl isEmpty
              exact .inr ⟨failure, (congrArg Prod.fst runs).trans fails⟩
    have same : contents (act tree).2 = contents disk := by
      rw [makes.rests unasked tree]
      change contents ready = _
      rw [changed, Settings.start, kept]
      exact Function.update_eq_self _ _
    rw [same]
    exact .rests fun other writes acts => unasked writes acts.asks

include keeps runs

/-- A command on a store makes its writes in the tree that it is led to. -/
theorem settles_of_makes :
    command.Settles engine disk (contents disk) (contents (command.run engine disk).2) := by
  cases loaded : choice.settings (engine.files disk) with
  | error error =>
      have ends : (command.run engine disk).2 = disk := by
        rw [runs, withStore, StoreChoice.openStore, loaded]
      rw [ends]
      refine .rests ?_
      rintro settings writes ⟨⟨_, isOther, means⟩, -, -⟩
      cases isChoice.symm.trans isOther
      cases loaded.symm.trans (StoreChoice.settings_eq_ok_iff.mpr means)
  | ok settings =>
      have means := StoreChoice.settings_eq_ok_iff.mp loaded
      have opening := Settings.openEnds keeps settings disk
      rw [withStore, StoreChoice.openStore, loaded] at runs
      dsimp only at runs
      generalize (engine.openStore settings).run disk = result at opening runs
      cases opening with
      | refused unopened kept =>
          rw [runs]
          dsimp only
          rw [kept]
          exact .rests (not_actsBy_of_unopened isChoice means unopened)
      | @temporary handle number after unopened isTemporary kept =>
          have unchanged : contents (act ⟨after, handle⟩).2 = contents after := by
            by_cases asked : ∃ writes, command.Asks (engine.files disk) writes
            · obtain ⟨writes, asks⟩ := asked
              rw [makes.writes writes asks ⟨after, handle⟩, Contents.set_temporary isTemporary]
            · exact makes.rests (fun writes asks => asked ⟨writes, asks⟩) _
          rw [runs]
          dsimp only
          rw [unchanged, kept]
          exact .rests (not_actsBy_of_unopened isChoice means unopened)
      | ready opens done changed =>
          exact settles_of_ready isChoice makes careful means opens changed runs
      | unreset opens wanted =>
          have fails := careful (.inr ⟨_, congrArg Prod.fst runs⟩) choice settings isChoice means
          cases wanted.symm.trans fails

end

section

variable {δ : Type} {engine : Engine δ} {contents : δ → Contents}

/-- A command that asks for no writes and leaves everything as it is does so in the
reference. -/
theorem settles_of_unasked {command : Command} {disk : δ} (before : Contents)
    (unasked : ∀ writes, ¬ command.Asks (engine.files disk) writes) :
    command.Settles engine disk before before :=
  .rests fun _ writes acts => unasked writes acts.asks

/-- Over an engine that keeps contents and refuses no change, a command leaves the
contents that the reference says. -/
theorem run_settles (keeps : engine.Keeps contents) (accepts : engine.Accepts) {command : Command}
    {disk : δ} (careful : command.Careful engine disk) :
    command.Settles engine disk (contents disk) (contents (command.run engine disk).2) := by
  cases command with
  | pack digits terminated => exact settles_of_unasked _ nofun
  | unpack packed => exact settles_of_unasked _ nofun
  | version => exact settles_of_unasked _ nofun
  | get choice key =>
      exact settles_of_makes keeps rfl rfl
        ((makes_getValue keeps key).congr fun _ => ⟨nofun, False.elim⟩) careful
  | put choice key value =>
      exact settles_of_makes keeps rfl rfl
        ((makes_write keeps accepts (putWrite key value)).congr fun _ => asks_put_iff) careful
  | delete choice key =>
      exact settles_of_makes keeps rfl rfl
        ((makes_write keeps accepts (deleteWrite key)).congr fun _ => asks_delete_iff) careful
  | apply choice batch dryRun metrics =>
      cases loaded : Operation.load (engine.files disk) batch with
      | error error =>
          rw [run, loaded]
          refine settles_of_unasked _ fun writes asks => ?_
          obtain ⟨operations, also, -⟩ := asks_apply_iff.mp asks
          cases loaded.symm.trans also
      | ok operations =>
          have runs : (apply choice batch dryRun metrics).run engine disk =
              withStore choice disk fun tree : OpenTree engine =>
                applyAndClose tree operations dryRun metrics := by
            rw [run, loaded]
          refine settles_of_makes keeps rfl runs ((makes_applyAndClose keeps accepts operations
            dryRun metrics).congr fun writes => ?_) careful
          rw [asks_apply_iff]
          constructor
          · rintro ⟨others, also, means⟩
            cases loaded.symm.trans also
            exact means
          · exact fun means => ⟨operations, loaded, means⟩

end

end Command

end PathStore
