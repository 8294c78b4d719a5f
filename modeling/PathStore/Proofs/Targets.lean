import PathStore.Command.Run
import PathStore.Proofs.AcceptedSettings
import PathStore.Proofs.Contents

/-!
# The tree that a command is led to

A command is led to a tree by its settings: those that its file gives, or else the
defaults, with the flags laid over them.  They may not load, may describe a temporary
database, or may name a directory or a tree that is not opened; then no tree of a
directory changes.  Otherwise they name one tree, and opening the store changes that
tree alone, by a reset.
-/

namespace PathStore

/-! ## The settings of a command -/

/-- The settings that a choice means: those that its file gives, or else the defaults,
with the flags laid over them. -/
inductive StoreChoice.Means (files : Files) (choice : StoreChoice) (settings : Settings) : Prop
  | byDefault (noFile : choice.config = none) (laid : choice.flags.LaidOver .default settings)
  | byFile {path text : String} {base : Settings} (chosen : choice.config = some path)
      (found : files.readText path = .ok text) (given : base.GivenBy text)
      (laid : choice.flags.LaidOver base settings)

theorem StoreFlags.laidOver_iff {flags : StoreFlags} {base final : Settings} :
    flags.LaidOver base final ↔ flags.applyTo base = final := by
  constructor
  · rintro ⟨dataDir, tree, databaseReset, temporary⟩
    have reset : (flags.reset || base.databaseReset) = final.databaseReset := by
      rw [Bool.eq_iff_iff, Bool.or_eq_true, databaseReset]
    cases final
    simp_all [applyTo]
  · rintro rfl
    exact flags.laidOver_applyTo base

namespace StoreChoice

variable {choice : StoreChoice} {files : Files} {settings other : Settings}

/-- Settings are loaded exactly as the choice means them. -/
theorem settings_eq_ok_iff :
    choice.settings files = .ok settings ↔ choice.Means files settings := by
  rcases choice with ⟨_ | path, flags⟩
  · change Except.ok (flags.applyTo .default) = .ok settings ↔ _
    rw [Except.ok.injEq, ← StoreFlags.laidOver_iff]
    constructor
    · exact fun laid => .byDefault rfl laid
    · rintro (⟨-, laid⟩ | ⟨⟨⟩⟩)
      exact laid
  · change (Settings.load files path >>= fun base => .ok (flags.applyTo base)) = .ok settings ↔ _
    simp only [bind_eq_ok_iff, Except.ok.injEq, ← StoreFlags.laidOver_iff]
    constructor
    · rintro ⟨base, loaded, laid⟩
      obtain ⟨text, found, isRead⟩ := Files.load_eq_ok_iff.mp loaded
      exact .byFile rfl found (Settings.ofJson_eq_ok_iff.mp isRead) laid
    · rintro (⟨⟨⟩⟩ | ⟨⟨⟩, found, given, laid⟩)
      exact ⟨_, Files.load_eq_ok_iff.mpr ⟨_, found, Settings.ofJson_eq_ok_iff.mpr given⟩, laid⟩

theorem Means.unique (means : choice.Means files settings) (others : choice.Means files other) :
    settings = other :=
  Except.ok.inj ((settings_eq_ok_iff.mpr means).symm.trans (settings_eq_ok_iff.mpr others))

end StoreChoice

/-! ## The tree that settings name -/

namespace Settings

/-- The tree that settings name, in the directory to which their path leads. -/
def named (settings : Settings) (here : Place) : Place × String :=
  (.ofPath here settings.dataDir, settings.tree)

/-- The same tree when it is open. -/
def handle (settings : Settings) (here : Place) : Handle :=
  ⟨.directory (.ofPath here settings.dataDir), settings.tree⟩

/-- What a command finds in its tree, which a reset empties first. -/
def start (settings : Settings) (held : Key → Option Value) : Key → Option Value :=
  if settings.databaseReset then fun _ => none else held

variable {δ : Type}

/-- The settings name a directory, and its database and the tree in it are opened. -/
def Opens (settings : Settings) (engine : Engine δ) (disk opened : δ) : Prop :=
  settings.temporary = false ∧ ∃ home between,
    (engine.openDirectory settings.dataDir).run disk = (.ok home, between) ∧
      (engine.openTree ⟨home, settings.tree⟩).run between = (.ok (), opened)

/-- How opening the store of settings ends: it is refused, a tree of a temporary database
is open, the tree that the settings name is open and reset if that is wanted, or it was
opened and the reset is refused. -/
inductive OpenEnds (settings : Settings) (engine : Engine δ) (contents : δ → Contents) (disk : δ) :
    Except String Handle × δ → Prop
  | refused {reason : String} {after : δ}
      (unopened : ∀ opened, ¬ settings.Opens engine disk opened)
      (kept : contents after = contents disk) :
      OpenEnds settings engine contents disk (.error reason, after)
  | temporary {handle : Handle} {number : Nat} {after : δ}
      (unopened : ∀ opened, ¬ settings.Opens engine disk opened)
      (isTemporary : handle.home = .temporary number) (kept : contents after = contents disk) :
      OpenEnds settings engine contents disk (.ok handle, after)
  | ready {opened ready : δ} (opens : settings.Opens engine disk opened)
      (done : (engine.reset (settings.handle (engine.files disk).here)
        settings.databaseReset).run opened = (.ok (), ready))
      (changed : contents ready =
        Function.update (contents disk) (settings.named (engine.files disk).here)
          (settings.start (contents disk (settings.named (engine.files disk).here)))) :
      OpenEnds settings engine contents disk
        (.ok (settings.handle (engine.files disk).here), ready)
  | unreset {opened after : δ} {reason : String} {left : Key → Option Value}
      (opens : settings.Opens engine disk opened) (wanted : settings.databaseReset = true)
      (failed : (engine.reset (settings.handle (engine.files disk).here)
        settings.databaseReset).run opened = (.error reason, after))
      (partly : ∀ key, left key = none ∨
        left key = contents disk (settings.named (engine.files disk).here) key)
      (wholly : ((engine.clear (settings.handle (engine.files disk).here)).run opened).1 = .ok () →
        left = fun _ => none)
      (changed : contents after =
        Function.update (contents disk) (settings.named (engine.files disk).here) left) :
      OpenEnds settings engine contents disk (.error reason, after)

end Settings

section

variable {δ : Type} {engine : Engine δ} {contents : δ → Contents}

namespace Engine.Keeps

variable (keeps : engine.Keeps contents) {disk after : δ} {handle : Handle} {wanted : Bool}

include keeps

/-- A reset that succeeds empties the tree if it is wanted. -/
theorem reset (done : (engine.reset handle wanted).run disk = (.ok (), after)) :
    contents after = (contents disk).set handle
      (if wanted then fun _ => none else (contents disk).reads handle) := by
  cases wanted with
  | false =>
      cases done
      exact ((contents disk).set_reads handle).symm
  | true =>
      obtain ⟨_, between, cleared, flushed⟩ := run_bind_eq_ok done
      have kept := keeps.flush between handle.home
      rw [flushed] at kept
      exact kept.trans (keeps.clear cleared)

/-- A reset is refused if the tree is not cleared, or else if that is not made durable. -/
theorem reset_refused {reason : String}
    (refused : (engine.reset handle wanted).run disk = (.error reason, after)) :
    wanted = true ∧ ∃ left, (∀ key, left key = none ∨ left key = (contents disk).reads handle key) ∧
      (((engine.clear handle).run disk).1 = .ok () → left = fun _ => none) ∧
      contents after = (contents disk).set handle left := by
  cases wanted with
  | false => cases refused
  | true =>
      refine ⟨rfl, ?_⟩
      rw [Engine.reset, if_pos rfl, run_bind] at refused
      rcases cleared : (engine.clear handle).run disk with ⟨_ | _, between⟩ <;>
        rw [cleared] at refused
      · cases refused
        obtain ⟨left, partly, changed⟩ := keeps.clear_refused cleared
        exact ⟨left, partly, nofun, changed⟩
      · have kept := keeps.flush between handle.home
        dsimp only at refused
        rw [refused] at kept
        exact ⟨_, fun _ => .inl rfl, fun _ => rfl, kept.trans (keeps.clear cleared)⟩

/-- In a temporary database a reset changes no tree of a directory. -/
theorem reset_temporary {number : Nat} (isTemporary : handle.home = .temporary number) :
    contents ((engine.reset handle wanted).run disk).2 = contents disk := by
  rcases done : (engine.reset handle wanted).run disk with ⟨reason | _, after⟩
  · obtain ⟨-, left, -, -, changed⟩ := keeps.reset_refused done
    rw [changed, Contents.set_temporary isTemporary]
  · rw [keeps.reset done, Contents.set_temporary isTemporary]

end Engine.Keeps

namespace Settings

variable {settings : Settings} {disk : δ}

theorem not_opens_of_temporary (isTemporary : settings.temporary = true) (opened : δ) :
    ¬ settings.Opens engine disk opened := by
  rintro ⟨stays, -⟩
  rw [isTemporary] at stays
  cases stays

variable (keeps : engine.Keeps contents)

include keeps

theorem openEnds_temporary (isTemporary : settings.temporary = true) :
    settings.OpenEnds engine contents disk ((engine.openStore settings).run disk) := by
  have unopened : ∀ opened, ¬ settings.Opens engine disk opened :=
    not_opens_of_temporary isTemporary
  have keptHome := keeps.openTemporary disk
  rw [Engine.openStore, Engine.openHome, if_pos isTemporary, run_bind]
  rcases made : engine.openTemporary.run disk with ⟨reason | home, between⟩ <;>
    rw [made] at keptHome <;> dsimp only
  · exact .refused unopened keptHome
  obtain ⟨number, rfl⟩ := keeps.home_temporary made
  have keptTree := keeps.openTree between ⟨.temporary number, settings.tree⟩
  rw [run_bind]
  rcases tree : (engine.openTree ⟨.temporary number, settings.tree⟩).run between with
    ⟨reason | _, opened⟩ <;> rw [tree] at keptTree <;> dsimp only
  · exact .refused unopened (keptTree.trans keptHome)
  have keptReset : contents ((engine.reset ⟨.temporary number, settings.tree⟩
      settings.databaseReset).run opened).2 = contents opened :=
    keeps.reset_temporary rfl
  rw [run_bind]
  rcases done : (engine.reset ⟨.temporary number, settings.tree⟩ settings.databaseReset).run
    opened with ⟨reason | _, after⟩ <;> rw [done] at keptReset
  · exact .refused unopened (keptReset.trans (keptTree.trans keptHome))
  · exact .temporary unopened rfl (keptReset.trans (keptTree.trans keptHome))

theorem openEnds_directory (stays : settings.temporary = false) :
    settings.OpenEnds engine contents disk ((engine.openStore settings).run disk) := by
  have keptHome := keeps.openDirectory disk settings.dataDir
  rw [Engine.openStore, Engine.openHome, if_neg (by simp [stays]), run_bind]
  rcases made : (engine.openDirectory settings.dataDir).run disk with ⟨reason | home, between⟩ <;>
    rw [made] at keptHome <;> dsimp only
  · refine .refused ?_ keptHome
    rintro opened ⟨-, home, other, isHome, -⟩
    cases made.symm.trans isHome
  obtain rfl := keeps.home_directory made
  have keptTree := keeps.openTree between (settings.handle (engine.files disk).here)
  rw [run_bind]
  rcases tree : (engine.openTree (settings.handle (engine.files disk).here)).run between with
    ⟨reason | _, opened⟩ <;> rw [tree] at keptTree <;> rw [handle] at tree <;> rw [tree]
  · refine .refused ?_ (keptTree.trans keptHome)
    rintro opened ⟨-, home, other, isHome, isTree⟩
    cases made.symm.trans isHome
    cases tree.symm.trans isTree
  have opens : settings.Opens engine disk opened := ⟨stays, _, between, made, tree⟩
  have kept : contents opened = contents disk := keptTree.trans keptHome
  dsimp only
  rw [run_bind]
  rcases done : (engine.reset (settings.handle (engine.files disk).here)
    settings.databaseReset).run opened with ⟨reason | _, after⟩
  · obtain ⟨wanted, left, partly, wholly, changed⟩ := keeps.reset_refused done
    rw [kept] at partly changed
    rw [handle] at done
    rw [done]
    exact .unreset opens wanted done partly wholly changed
  · have changed := keeps.reset done
    rw [kept] at changed
    rw [handle] at done
    rw [done]
    exact .ready opens done changed

/-- There is no other way in which opening a store ends. -/
theorem openEnds (settings : Settings) (disk : δ) :
    settings.OpenEnds engine contents disk ((engine.openStore settings).run disk) := by
  cases isTemporary : settings.temporary with
  | true => exact openEnds_temporary keeps isTemporary
  | false => exact openEnds_directory keeps isTemporary

end Settings

end

end PathStore
