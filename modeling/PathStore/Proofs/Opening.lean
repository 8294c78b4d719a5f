import PathStore.Proofs.Results
import PathStore.Workspace.Layout

/-!
# Opening a directory spares the pairs that are there

A claim makes directories, notes the format, sweeps large values and writes a
checkpoint, and it may fail after any of these.  Whatever it changes, and
wherever it stops, each database keeps its trees.  The reason is the name of the
files of pairs: it is none of those that a claim writes or removes, and an empty
database is put only where none was found.

A directory that opens is the one whose place the path names, however the path
is spelled.
-/

namespace PathStore

/-! ## Where a path leads -/

namespace Place

theorem names_ofList_append (front behind : List Char) :
    names (String.ofList (front ++ '/' :: behind)) =
      names (String.ofList front) ++ names (String.ofList behind) := by
  simp [names, parts, List.splitOn_append_cons_self]

variable {name : String} (plain : '/' ∉ name.toList) (counts : name ≠ "" ∧ name ≠ ".")

include plain

theorem start_inside (here : Place) (directory : String) :
    start here (Layout.inside directory name) = start here directory := by
  have notRooted : name.toList.head? ≠ some '/' := fun rooted =>
    plain (List.mem_of_mem_head? rooted)
  rw [start, start]
  by_cases bare : directory = ""
  · subst bare
    have alone : Layout.inside "" name = name := by simp [Layout.inside]
    rw [alone, if_neg notRooted]
    rfl
  · have kept : (Layout.inside directory name).toList.head? = directory.toList.head? := by
      have begins : directory.toList ≠ [] := by simpa using bare
      obtain ⟨first, rest, begins⟩ := List.exists_cons_of_ne_nil begins
      rw [Layout.inside]
      split <;> simp [begins]
    rw [kept]

include counts

/-- A name without a slash is the one name of its path. -/
theorem names_plain : names name = [name] := by
  have own : parts name = [name] := by
    rw [parts, List.splitOn_eq_singleton plain]
    simp
  rw [names, own]
  simp [counts]

/-- A plain name in a directory follows the names of the directory. -/
theorem names_inside (directory : String) :
    names (Layout.inside directory name) = names directory ++ [name] := by
  have last := names_plain plain counts
  rw [Layout.inside]
  split
  · rename_i bare
    rcases bare with rfl | slash
    · rw [String.empty_append, last]
      rfl
    · rcases List.getLast?_eq_some_iff.mp slash with ⟨front, split⟩
      have joined : directory ++ name = String.ofList (front ++ '/' :: name.toList) := by
        rw [← String.toList_inj]
        simp [split]
      have alone : directory = String.ofList (front ++ '/' :: []) := by
        rw [← String.toList_inj]
        simp [split]
      have nothing : names (String.ofList []) = [] := rfl
      rw [joined, names_ofList_append, String.ofList_toList, last, alone, names_ofList_append,
        nothing, List.append_nil]
  · have joined : directory ++ "/" ++ name =
        String.ofList (directory.toList ++ '/' :: name.toList) := by
      rw [← String.toList_inj]
      simp
    rw [joined, names_ofList_append, String.ofList_toList, String.ofList_toList, last]

theorem ofPath_inside (down : name ≠ "..") (here : Place) (directory : String) :
    ofPath here (Layout.inside directory name) = ofPath here directory ++ [name] := by
  rw [ofPath, names_inside plain counts, start_inside plain, List.foldl_append]
  exact if_neg down

end Place

namespace Files

/-- Names that can be followed lead to their place. -/
theorem place_of_walk {files : Files} {names : List String} {from_ place : Place} {entry : Entry}
    (found : files.walk from_ names = .ok (place, entry)) :
    place = names.foldl Place.step from_ := by
  induction names generalizing from_ with
  | nil =>
      cases found
      rfl
  | cons name rest ih =>
      rw [walk] at found
      split at found
      · exact ih found
      · rcases bind_eq_ok_iff.mp found with ⟨_, _, followed⟩
        split at followed
        · cases followed
        · exact ih followed
        · split at followed
          · rename_i isLast
            cases followed
            rw [List.isEmpty_iff.mp isLast]
            rfl
          · cases followed

/-- A spot lies at the place of its path, and shows what is there. -/
theorem spot_eq_ok {files : Files} {path : String} {place : Place} {entry : Option Entry}
    (found : files.spot path = .ok (place, entry)) :
    place = .ofPath files.here path ∧ entry = files.get? place := by
  rcases bind_eq_ok_iff.mp found with ⟨_, _, named⟩
  rcases List.eq_nil_or_concat (Place.names path) with none | ⟨front, last, split⟩
  · simp [none] at named
  · rw [List.concat_eq_append] at split
    rw [split, List.getLast?_concat] at named
    split at named
    · cases named
    · cases named
    · rename_i same
      cases same
      rcases bind_eq_ok_iff.mp named with ⟨⟨here, kind⟩, walked, more⟩
      rcases bind_eq_ok_iff.mp more with ⟨_, _, shown⟩
      rw [List.dropLast_concat] at walked
      split at shown
      · cases shown
        rw [Place.ofPath, split, List.foldl_append, ← place_of_walk walked]
        exact ⟨rfl, rfl⟩
      · cases shown

end Files

/-! ## What spares the databases -/

namespace Files

/-- Each database of a directory keeps its trees, and the working directory
stays. -/
structure Spared (before after : Files) : Prop where
  here : after.here = before.here
  trees : ∀ directory : Place,
    after.trees (directory ++ [Layout.pairs]) = before.trees (directory ++ [Layout.pairs])

theorem Spared.refl (files : Files) : Spared files files :=
  ⟨rfl, fun _ => rfl⟩

theorem Spared.trans {before between after : Files} (first : Spared before between)
    (second : Spared between after) : Spared before after :=
  ⟨second.here.trans first.here,
    fun directory => (second.trees directory).trans (first.trees directory)⟩

theorem trees_insert (files : Files) (place other : Place) (entry : Entry) :
    (files.insert place entry).trees other =
      if place = other then entry.trees else files.trees other := by
  rw [trees, get?_insert]
  split <;> rfl

/-- An entry spares the databases if it has the trees of what was there. -/
theorem spared_insert {files : Files} {place : Place} {entry : Entry}
    (same : entry.trees = files.trees place) : Spared files (files.insert place entry) where
  here := rfl
  trees directory := by
    rw [trees_insert]
    split
    · rename_i atPlace
      rw [same, atPlace]
    · rfl

/-- A new entry without trees takes the place of none. -/
theorem spared_insert_of_get?_eq_none {files : Files} {place : Place}
    (vacant : files.get? place = none) {entry : Entry} (treeless : entry.trees = Table.empty) :
    Spared files (files.insert place entry) := by
  apply spared_insert
  rw [treeless, trees, vacant]
  rfl

section

variable {name : String} (other : name ≠ Layout.pairs) (files : Files) (place : Place)

include other

/-- An entry with another name is no file of pairs. -/
theorem concat_ne_concat_pairs (directory : Place) :
    place ++ [name] ≠ directory ++ [Layout.pairs] := by
  simpa using fun _ => other

theorem spared_insert_of_ne (entry : Entry) :
    Spared files (files.insert (place ++ [name]) entry) where
  here := rfl
  trees directory := by
    rw [trees_insert, if_neg (concat_ne_concat_pairs other place directory)]

theorem spared_erase_of_ne : Spared files (files.erase (place ++ [name])) where
  here := rfl
  trees directory := by
    rw [trees, get?_erase_of_ne files (concat_ne_concat_pairs other place directory), trees]

end

/-! ## Actions -/

section

variable {ε α β : Type}

/-- From these files an action spares the databases, wherever it stops. -/
def Spares (files : Files) (action : ExceptT ε (StateM Files) α) : Prop :=
  Spared files (action.run files).2

theorem spares_pure (files : Files) (answer : α) :
    files.Spares (pure answer : ExceptT ε (StateM Files) α) :=
  .refl files

theorem spares_throw (files : Files) (error : ε) :
    files.Spares (throw error : ExceptT ε (StateM Files) α) :=
  .refl files

theorem spares_modify {files : Files} {change : Files → Files}
    (spared : Spared files (change files)) :
    files.Spares (modify change : ExceptT ε (StateM Files) Unit) :=
  spared

theorem spares_get_bind {files : Files} {next : Files → ExceptT ε (StateM Files) α}
    (spares : files.Spares (next files)) : files.Spares (get >>= next) :=
  spares

/-- The actions of a chain are run one after the other. -/
theorem spares_bind {files : Files} {action : ExceptT ε (StateM Files) α}
    {next : α → ExceptT ε (StateM Files) β} (first : files.Spares action)
    (second : ∀ answer between, Spared files between → Spares between (next answer)) :
    files.Spares (action >>= next) := by
  rw [Spares, run_bind]
  rw [Spares] at first
  rcases ran : action.run files with ⟨result, between⟩
  rw [ran] at first
  cases result with
  | ok answer => exact first.trans (second answer between first)
  | error error => exact first

theorem spares_forM {items : List α} {action : α → ExceptT ε (StateM Files) Unit}
    (each : ∀ item files, Spares files (action item)) (files : Files) :
    files.Spares (items.forM action) := by
  induction items generalizing files with
  | nil => exact spares_pure files _
  | cons item rest ih =>
      exact spares_bind (each item files) fun _ between _ => ih between

end

/-- Going down names makes directories where nothing is yet. -/
theorem spares_descend (names : List String) (files : Files) (place : Place) :
    files.Spares (descend place names) := by
  induction names generalizing files place with
  | nil => exact spares_pure files place
  | cons name rest ih =>
      rw [descend]
      split
      · exact ih files _
      · refine spares_bind ?_ fun _ files _ => spares_get_bind ?_
        · cases checkName name with
          | ok done => exact spares_pure files _
          | error error => exact spares_throw files error
        · split
          · exact ih files _
          · exact spares_throw files _
          · rename_i vacant
            exact spares_bind (spares_modify (spared_insert_of_get?_eq_none vacant rfl))
              fun _ files _ => ih files _

theorem spares_makeDirectory (files : Files) (path : String) :
    files.Spares (makeDirectory path) := by
  refine spares_bind ?_ fun _ files _ => spares_get_bind (spares_descend _ files _)
  cases checkPath path with
  | ok done => exact spares_pure files _
  | error error => exact spares_throw files error

end Files

namespace Layout

open Files

theorem spares_change {α : Type} {files : Files} {action : FileAction α}
    (spares : files.Spares action) : files.Spares (change action) :=
  spares

theorem run_look {α : Type} (question : Files → Except FileError α) (files : Files) :
    (look question).run files = ((question files).mapError .file, files) := by
  have ran : (get : Claim Files).run files = (.ok files, files) := rfl
  rw [look, run_bind, ran]
  dsimp only
  cases question files <;> rfl

/-- A question changes nothing. -/
theorem spares_look_bind {α β : Type} {files : Files}
    {question : Files → Except FileError α} {next : α → Claim β}
    (second : ∀ answer, question files = .ok answer → files.Spares (next answer)) :
    files.Spares (look question >>= next) := by
  rw [Spares, run_bind, run_look]
  cases answer : question files with
  | ok value => exact second value answer
  | error cause => exact .refl files

theorem spares_writeFormat (files : Files) (directory : String) :
    files.Spares (writeFormat directory) := by
  refine spares_look_bind ?_
  rintro ⟨place, entry⟩ found
  rw [(spot_eq_ok found).1, Place.ofPath_inside (by decide) (by decide) (by decide)]
  exact spares_modify (spared_insert_of_ne (by decide) files _ _)

theorem spares_checkFormat (files : Files) (directory : String) :
    files.Spares (checkFormat directory) := by
  refine spares_get_bind ?_
  split
  · exact spares_writeFormat files directory
  · exact spares_throw files _
  · split
    · exact spares_writeFormat files directory
    · split
      · exact spares_pure files _
      · exact spares_throw files _
  · exact spares_throw files _

theorem spares_makeLargeValues (files : Files) (directory : String) :
    files.Spares (makeLargeValues directory) := by
  refine spares_get_bind ?_
  split
  · exact spares_pure files _
  · exact spares_bind (spares_change (spares_makeDirectory files _)) fun _ files _ =>
      spares_pure files _

theorem spares_findPairs (files : Files) (directory : String) :
    files.Spares (findPairs directory) := by
  refine spares_look_bind ?_
  rintro ⟨place, entry⟩ found
  rcases entry with _ | _ | _ | _
  · exact spares_bind (spares_modify (spared_insert_of_get?_eq_none (spot_eq_ok found).2.symm rfl))
      fun _ files _ => spares_pure files _
  · exact spares_pure files _
  · exact spares_throw files _
  · exact spares_pure files _

/-- The file of pairs is in the directory, and what is found there has the trees
that are there. -/
theorem run_findPairs {files after : Files} {directory : String} {place : Place} {found : Entry}
    (ran : (findPairs directory).run files = (.ok (place, found), after)) :
    place = .ofPath files.here directory ++ [pairs] ∧ found.trees = after.trees place := by
  rw [findPairs, run_bind, run_look] at ran
  cases answer : files.spot (inside directory pairs) with
  | error cause =>
      rw [answer] at ran
      cases ran
  | ok spot =>
      rcases spot with ⟨place', entry⟩
      obtain ⟨atPath, shown⟩ := spot_eq_ok answer
      rw [Place.ofPath_inside (by decide) (by decide) (by decide)] at atPath
      rw [answer] at ran
      rcases entry with _ | _ | _ | _ <;> cases ran <;> refine ⟨atPath, ?_⟩
      · rw [trees_insert, if_pos rfl]
      · rw [trees, ← shown]
        rfl
      · rw [trees, ← shown]
        rfl

theorem spares_claim (files : Files) (directory : String) : files.Spares (claim directory) :=
  spares_bind (spares_makeLargeValues files directory) fun _ files _ =>
    spares_bind (spares_checkFormat files directory) fun _ files _ =>
      spares_findPairs files directory

theorem run_claim {files after : Files} {directory : String} {place : Place} {found : Entry}
    (ran : (claim directory).run files = (.ok (place, found), after)) :
    place = .ofPath files.here directory ++ [pairs] ∧ found.trees = after.trees place := by
  have first := spares_makeLargeValues files directory
  rw [claim, run_bind] at ran
  rw [Spares] at first
  split at ran <;> rename_i made <;> rw [made] at first
  · rename_i between
    have second := spares_checkFormat between directory
    rw [run_bind] at ran
    rw [Spares] at second
    split at ran <;> rename_i checked <;> rw [checked] at second
    · rw [← first.here, ← second.here]
      exact run_findPairs ran
    · cases ran
  · cases ran

/-- The file of pairs is named like no large value. -/
theorem spares_sweepValue (files : Files) (place : Place) (value : String × Entry) :
    files.Spares (sweepValue place value) := by
  rw [sweepValue]
  split
  · rename_i numbered
    split
    · exact spares_throw files _
    · refine spares_modify (spared_erase_of_ne ?_ files place)
      intro isPairs
      rw [isPairs] at numbered
      revert numbered
      decide
  · exact spares_pure files _

theorem spares_sweep (files : Files) (place : Place) : files.Spares (sweep place) := by
  have sweeps : ∀ (values : List (String × Entry)) (files : Files),
      files.Spares (values.forM (sweepValue (place ++ [largeValues]))) := fun _ files =>
    spares_forM (fun value files => spares_sweepValue files _ value) files
  refine spares_get_bind ?_
  split
  · exact spares_get_bind (sweeps _ files)
  · exact spares_bind (spares_throw files _) fun _ files _ => spares_get_bind (sweeps _ files)

theorem spares_checkCheckpoint (files : Files) (directory : String) (place : Place)
    (found : Entry) : files.Spares (checkCheckpoint directory place found) := by
  refine spares_get_bind ?_
  dsimp only
  split
  · split
    · exact spares_throw files _
    · split
      · exact spares_throw files _
      · exact spares_pure files _
  · exact spares_pure files _

theorem spares_recover (files : Files) (directory : String) (place : Place) (found : Entry) :
    files.Spares (recover directory place found) := by
  refine spares_bind (spares_checkCheckpoint files directory place found) fun _ files _ => ?_
  split
  · exact spares_bind (spares_sweep files place) fun _ files _ =>
      spares_modify (spared_insert_of_ne (by decide) files place _)
  · exact spares_pure files _

theorem spares_checkFree (files : Files) (inUse : Place → Bool) (place : Place) :
    files.Spares (checkFree inUse place) := by
  rw [checkFree]
  split
  · exact spares_throw files _
  · exact spares_pure files _

/-- An empty database is as empty as what it is put in place of. -/
theorem spares_overwrite {files : Files} {place : Place} {found : Entry}
    (shown : found.trees = files.trees place) : files.Spares (overwrite place found) := by
  cases found with
  | database trees => exact spares_pure files _
  | file content => exact spares_modify (spared_insert shown)
  | directory => exact spares_modify (spared_insert shown)

/-- Opening a directory keeps the trees of all databases, whether it succeeds or
not. -/
theorem spares_openDirectory (inUse : Place → Bool) (files : Files) (directory : String) :
    files.Spares (openDirectory inUse directory) := by
  have claimed := spares_claim files directory
  rw [Spares, openDirectory, run_bind]
  rw [Spares] at claimed
  rcases ran : (claim directory).run files with ⟨_ | ⟨place, found⟩, between⟩ <;>
    rw [ran] at claimed
  case error => exact claimed
  case ok =>
    obtain ⟨rfl, shown⟩ := run_claim ran
    refine claimed.trans ?_
    refine spares_bind (spares_checkFree between inUse _) fun _ free kept => ?_
    refine spares_bind (spares_recover free directory _ found) fun _ recovered sound => ?_
    refine spares_bind (spares_overwrite ?_) fun _ files _ => spares_pure files _
    rw [shown, ← kept.trees, ← sound.trees]

/-- A directory that opens has the place of its path. -/
theorem place_of_openDirectory {inUse : Place → Bool} {files after : Files} {directory : String}
    {place : Place} (opened : (openDirectory inUse directory).run files = (.ok place, after)) :
    place = .ofPath files.here directory := by
  obtain ⟨⟨pairsPlace, found⟩, _, claimed, opened⟩ := run_bind_eq_ok opened
  obtain ⟨_, _, _, opened⟩ := run_bind_eq_ok opened
  obtain ⟨_, _, _, opened⟩ := run_bind_eq_ok opened
  obtain ⟨_, _, _, opened⟩ := run_bind_eq_ok opened
  cases opened
  rw [(run_claim claimed).1, List.dropLast_concat]

end Layout

end PathStore
