import PathStore.Proofs.CommandEffects

/-!
# Sessions of commands

Commands that are run one after the other change the trees of databases as if these
were plain maps.  Between the commands others may do as they like with everything but
the pairs, so that settings and batch files differ from command to command.
-/

namespace PathStore

/-- A turn of a session: somebody else changes what is beside the pairs, or a command is
run. -/
inductive Turn (δ : Type) where
  | edit (disk : δ)
  | run (command : Command)

namespace Engine

variable {δ : Type} (engine : Engine δ)

/-- What is there after turns that are taken one after the other. -/
def play (disk : δ) : List (Turn δ) → δ
  | [] => disk
  | .edit other :: rest => play other rest
  | .run command :: rest => play (command.run engine disk).2 rest

/-- The reference after the same turns: each command makes of the contents what its
reference does, and nothing else changes them. -/
inductive Follows : δ → Contents → List (Turn δ) → Contents → Prop
  | nil {disk : δ} {contents : Contents} : Follows disk contents [] contents
  | edit {disk other : δ} {before after : Contents} {rest : List (Turn δ)}
      (further : Follows other before rest after) : Follows disk before (.edit other :: rest) after
  | run {disk : δ} {command : Command} {before between after : Contents} {rest : List (Turn δ)}
      (settles : command.Settles engine disk before between)
      (further : Follows (command.run engine disk).2 between rest after) :
      Follows disk before (.run command :: rest) after

/-- Others leave the pairs alone, and commands are careful with resets. -/
def Fair (contents : δ → Contents) (disk : δ) : List (Turn δ) → Prop
  | [] => True
  | .edit other :: rest => contents other = contents disk ∧ Fair contents other rest
  | .run command :: rest =>
    command.Careful engine disk ∧ Fair contents (command.run engine disk).2 rest

variable {engine} {contents : δ → Contents} {disk : δ}

theorem Fair.of_append {earlier later : List (Turn δ)}
    (fair : engine.Fair contents disk (earlier ++ later)) :
    engine.Fair contents disk earlier := by
  induction earlier generalizing disk with
  | nil => trivial
  | cons turn rest ih => cases turn <;> exact ⟨fair.1, ih fair.2⟩

/-- The reference leaves one thing only. -/
theorem Follows.unique {turns : List (Turn δ)} {before after other : Contents}
    (follows : engine.Follows disk before turns after)
    (others : engine.Follows disk before turns other) : after = other := by
  induction follows with
  | nil =>
      cases others
      rfl
  | edit _ ih =>
      cases others with
      | edit further => exact ih further
  | run settles _ ih =>
      cases others with
      | run alsoSettles further =>
          cases settles.unique alsoSettles
          exact ih further

variable (keeps : engine.Keeps contents) (accepts : engine.Accepts)

include keeps accepts

theorem follows_play {turns : List (Turn δ)} (fair : engine.Fair contents disk turns) :
    engine.Follows disk (contents disk) turns (contents (engine.play disk turns)) := by
  induction turns generalizing disk with
  | nil => exact .nil
  | cons turn rest ih =>
      cases turn with
      | edit other =>
          have further := ih fair.2
          rw [fair.1] at further
          exact .edit further
      | run command => exact .run (command.run_settles keeps accepts fair.1) (ih fair.2)

/-- After each turn of a session, the trees of all directories hold what the reference
says, and nothing else. -/
theorem contents_play {turns : List (Turn δ)} (fair : engine.Fair contents disk turns)
    {earlier : List (Turn δ)} (isPrefix : earlier <+: turns) (after : Contents) :
    engine.Follows disk (contents disk) earlier after ↔
      after = contents (engine.play disk earlier) := by
  obtain ⟨later, rfl⟩ := isPrefix
  have follows := follows_play keeps accepts fair.of_append
  constructor
  · exact fun others => others.unique follows
  · rintro rfl
    exact follows

end Engine

/-! ## A session -/

namespace Command

variable {δ : Type} {engine : Engine δ} {disk : δ} {command : Command}

theorem careful_of_settings {choice : StoreChoice} {settings : Settings}
    (isChoice : command.choice? = some choice)
    (loaded : choice.settings (engine.files disk) = .ok settings)
    (noReset : settings.databaseReset = false) : command.Careful engine disk := by
  rintro - other also isOther means
  cases isChoice.symm.trans isOther
  cases means.unique (StoreChoice.settings_eq_ok_iff.mp loaded)
  exact noReset

theorem careful_of_success {output : String} (isReal : command.isRehearsal = false)
    (succeeds : (command.run engine disk).1 = .ok output) : command.Careful engine disk := by
  rintro (rehearses | ⟨failure, fails⟩)
  · cases isReal.symm.trans rehearses
  · cases succeeds.symm.trans fails

end Command

namespace Workspace

/-- Files in `/home`: settings that name a directory and a tree, the same settings with a
reset, and a batch of a put and a delete. -/
def furnished : Files :=
  (((Files.bare ["home"]).insert ["home", "tree.json"]
    (.file (Text.utf8 "\x7b\"tree\":\"t\",\"data_dir\":\"d\"\x7d".toList))).insert
    ["home", "reset.json"] (.file (Text.utf8 "[\"./d\",\"t\",true]".toList))).insert
    ["home", "ops.json"] (.file (Text.utf8 ("\x7b\"ops\":[[\"put\",\"0xAB\",\"02\"]," ++
      "\x7b\"op\":\"delete\",\"key\":\"0C\"\x7d]\x7d").toList))

/-- The tree that `tree.json` names, by another path to the directory. -/
def sameTree (path : String) : StoreChoice :=
  ⟨none, { StoreFlags.none with dataDir := some path, tree := some "t" }⟩

/-- Two keys are put into an emptied tree; a batch gives one of them another value under
another spelling and deletes the other; a key that does not decode and a rehearsal change
nothing; and all of them reach the tree by paths of their own. -/
def sampleTurns : List (Turn Workspace) :=
  [.edit (ofFiles furnished),
    .run (.put ⟨some "reset.json", .none⟩ "0x0xAb" "01"),
    .run (.put ⟨some "tree.json", .none⟩ "0c" "03"),
    .run (.apply (sameTree "../home/d") "ops.json" false false),
    .run (.delete (sameTree "/home/d/") "0xa"),
    .run (.apply (sameTree "d") "../home/ops.json" true true)]

theorem contents_furnished :
    (ofFiles furnished).contents = (ofFiles (.bare ["home"])).contents := by
  have settings := Files.spared_insert_of_ne (show "tree.json" ≠ Layout.pairs by decide)
  have resets := Files.spared_insert_of_ne (show "reset.json" ≠ Layout.pairs by decide)
  have batch := Files.spared_insert_of_ne (show "ops.json" ≠ Layout.pairs by decide)
  have spared : (Files.bare ["home"]).Spared furnished :=
    ((settings _ ["home"] _).trans (resets _ ["home"] _)).trans (batch _ ["home"] _)
  have kept : ({ ofFiles (.bare ["home"]) with files := furnished } : Workspace).contents = _ :=
    contents_of_spared spared
  exact kept

/-- Spellings of one key and paths to one directory lead to one pair. -/
theorem contents_play_spellings :
    let disk := ofFiles (.bare ["home"])
    let engine := engine fun _ => false
    let held (turns : List (Turn Workspace)) (key : UInt8) :=
      (engine.play disk turns).contents (["home", "d"], "t") ⟨[key]⟩
    engine.Keeps contents ∧ engine.Accepts ∧ engine.Fair contents disk sampleTurns ∧
      (∀ after, engine.Follows disk disk.contents sampleTurns after ↔
        after = (engine.play disk sampleTurns).contents) ∧
      held (sampleTurns.take 3) 0xab = some [1] ∧ held (sampleTurns.take 3) 0x0c = some [3] ∧
      held sampleTurns 0xab = some [2] ∧ held sampleTurns 0x0c = none := by
  intro disk engine held
  have fair : engine.Fair contents disk sampleTurns := by
    refine ⟨contents_furnished, ?_, ?_, ?_, ?_, ?_, trivial⟩
    · exact Command.careful_of_success rfl (show _ = Except.ok "" by decide +kernel)
    · exact Command.careful_of_success rfl (show _ = Except.ok "" by decide +kernel)
    · exact Command.careful_of_settings rfl
        (show _ = Except.ok (⟨"../home/d", "t", false, false⟩ : Settings) from rfl) rfl
    · exact Command.careful_of_settings rfl
        (show _ = Except.ok (⟨"/home/d/", "t", false, false⟩ : Settings) from rfl) rfl
    · exact Command.careful_of_settings rfl
        (show _ = Except.ok (⟨"d", "t", false, false⟩ : Settings) from rfl) rfl
  have settled := Engine.contents_play (keeps_contents _) (accepts _) fair List.prefix_rfl
  refine ⟨keeps_contents _, accepts _, fair, settled, ?_⟩
  decide +kernel

end Workspace

end PathStore
