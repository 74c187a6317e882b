import LowDimLP.Files.Directory
import LowDimLP.Proofs.Files.Paths
/-!
# Saved files

Saving a file takes no folder away (`KeepsFolders`), so every path that led to a place still leads there. The path
of a saved file therefore leads to the file, and every other file is as it was (`save_effect`). A path with another
last name leads into the same folder (`locate?_withFileName`).
-/

namespace LowDimLP.Directory

variable {dir made later : Directory} {place : Place} {path other : String} {contents : Bytes}

/-- All folders of the one directory are folders of the other. -/
def KeepsFolders (dir later : Directory) : Prop :=
  ∀ place, dir.hasFolder place = true → later.hasFolder place = true

theorem KeepsFolders.refl (dir : Directory) : dir.KeepsFolders dir := fun _ h => h

theorem KeepsFolders.trans (first : dir.KeepsFolders made) (second : made.KeepsFolders later) :
    dir.KeepsFolders later := fun place h => second place (first place h)

theorem keepsFolders_folder (dir : Directory) (place : Place) :
    dir.KeepsFolders { dir with folders := place :: dir.folders } := by
  intro folder h
  simp only [hasFolder, List.contains_cons, List.any_cons, Bool.or_eq_true] at h ⊢
  rcases h with ((outer | known) | around) | file
  · exact .inl (.inl (.inl outer))
  · exact .inl (.inl (.inr (.inr known)))
  · exact .inl (.inr (.inr around))
  · exact .inr file

theorem keepsFolders_put (dir : Directory) (place : Place) (contents : Bytes) :
    dir.KeepsFolders (dir.put place contents) := by
  intro folder h
  simp only [hasFolder, put, List.any_cons, Bool.or_eq_true] at h ⊢
  refine h.imp_right fun held => ?_
  -- A file that made the folder is kept, or it is the one that is written anew.
  obtain ⟨⟨held_at, old⟩, member, inside⟩ := List.any_eq_true.mp held
  by_cases same : held_at = place
  · exact .inl (same ▸ inside)
  · refine .inr (List.any_eq_true.mpr ⟨(held_at, old), ?_, inside⟩)
    exact List.mem_filter.mpr ⟨member, by simpa using same⟩

/-! ## Following paths -/

theorem enter?_mono (keeps : dir.KeepsFolders later) {segments : List (List Char)} {start stop : Place}
    (entered : dir.enter? start segments = some stop) : later.enter? start segments = some stop := by
  induction segments generalizing start with
  | nil => exact entered
  | cons segment segments ih =>
    rw [enter?] at entered ⊢
    split at entered
    · next folder =>
      rw [if_pos (keeps _ folder)]
      exact ih entered
    · cases entered

theorem getLast?_start (path : String) : (start path).2.getLast? = Path.lastSegment? path := by
  rw [start, Path.lastSegment?]
  split
  · next rooted => rw [rooted, List.getLast?_cons_cons]
  · rfl

/-- A place that a path leads to is named by the last segment, in a folder that the others lead to. -/
theorem locate?_eq_some_iff : dir.locate? path = some place ↔
    ∃ name outer, place = name :: outer ∧ Path.lastSegment? path = some name ∧ Path.isVoid name = false ∧
      Path.isUp name = false ∧ dir.enter? (start path).1 (start path).2.dropLast = some outer := by
  constructor
  · intro located
    obtain ⟨name, last, located⟩ := Option.bind_eq_some_iff.mp located
    split at located
    · cases located
    · next proper =>
      obtain ⟨outer, entered, named⟩ := Option.bind_eq_some_iff.mp located
      cases named
      rw [Bool.or_eq_true, not_or] at proper
      exact ⟨name, outer, rfl, (getLast?_start path).symm.trans last, Bool.eq_false_iff.mpr proper.1,
        Bool.eq_false_iff.mpr proper.2, entered⟩
  · rintro ⟨name, outer, rfl, last, proper, inner, entered⟩
    refine Option.bind_eq_some_iff.mpr ⟨name, (getLast?_start path).trans last, ?_⟩
    rw [proper, inner]
    exact Option.bind_eq_some_iff.mpr ⟨outer, entered, rfl⟩

theorem locate?_mono (keeps : dir.KeepsFolders later) (located : dir.locate? path = some place) :
    later.locate? path = some place := by
  obtain ⟨name, outer, named, last, proper, inner, entered⟩ := locate?_eq_some_iff.mp located
  exact locate?_eq_some_iff.mpr ⟨name, outer, named, last, proper, inner, enter?_mono keeps entered⟩

/-! ## Neighbours -/

theorem start_of_root {rest : List (List Char)} {name : List Char}
    (segments : Path.split path.toList = [] :: rest ++ [name]) : start path = (Place.root, rest ++ [name]) := by
  rw [start, segments]
  cases rest <;> rfl

theorem start_of_name {front : List (List Char)} {name : List Char}
    (segments : Path.split path.toList = front ++ [name]) (named : name ≠ []) (relative : front.head? ≠ some []) :
    start path = ([], front ++ [name]) := by
  rw [start, segments]
  split
  · next rooted =>
    cases front with
    | nil => exact absurd (List.cons.inj rooted).1 named
    | cons first rest => exact absurd (congrArg some (List.cons.inj rooted).1) relative
  · rfl

theorem enter?_append (dir : Directory) (place : Place) (segments others : List (List Char)) :
    dir.enter? place (segments ++ others) = (dir.enter? place segments).bind (dir.enter? · others) := by
  induction segments generalizing place with
  | nil => rfl
  | cons segment segments ih =>
    rw [List.cons_append, enter?, enter?, ih]
    split <;> rfl

/-- Segments that name nothing lead nowhere else. -/
theorem eq_of_enter?_void {segments : List (List Char)} (void : ∀ segment ∈ segments, Path.isVoid segment = true)
    {stop : Place} (entered : dir.enter? place segments = some stop) : place = stop := by
  induction segments with
  | nil => exact Option.some.inj entered
  | cons segment segments ih =>
    obtain ⟨here, others⟩ := List.forall_mem_cons.mp void
    rw [enter?, step, if_pos here] at entered
    split at entered
    · exact ih others entered
    · cases entered

theorem enter?_trim {front segments : List (List Char)} {stop : Place}
    (entered : dir.enter? place (front ++ segments) = some stop) :
    dir.enter? place (front ++ Path.trim segments) = some stop := by
  obtain ⟨cut, whole, void⟩ := Path.exists_eq_trim_append segments
  rw [whole, ← List.append_assoc, enter?_append] at entered
  obtain ⟨reached, entered, rest⟩ := Option.bind_eq_some_iff.mp entered
  rw [entered, eq_of_enter?_void void rest]

/-- A path with another last name leads to that name in the same folder. -/
theorem locate?_withFileName {other : String} {name : List Char} {outer : Place}
    (located : dir.locate? path = some (name :: outer)) (plain : '/' ∉ other.toList)
    (proper : Path.isVoid other.toList = false) (inner : Path.isUp other.toList = false) :
    dir.locate? (Path.withFileName path other) = some (other.toList :: outer) := by
  obtain ⟨_, _, named, last, proper_name, inner_name, entered⟩ := locate?_eq_some_iff.mp located
  cases named
  obtain ⟨front, segments⟩ := List.getLast?_eq_some_iff.mp last
  have renamed := Path.split_withFileName segments proper_name inner_name plain
  have last : Path.lastSegment? (Path.withFileName path other) = some other.toList := by
    rw [Path.lastSegment?, renamed]
    exact List.getLast?_concat
  refine locate?_eq_some_iff.mpr ⟨other.toList, outer, rfl, last, proper, inner, ?_⟩
  have ne_nil : ∀ {segment : List Char}, Path.isVoid segment = false → segment ≠ [] := by
    rintro _ named rfl
    cases named
  -- The segments start where they started, and what is cut out of them names nothing.
  by_cases rooted : front.head? = some []
  · obtain ⟨rest, rfl⟩ := List.head?_eq_some_iff.mp rooted
    rw [start_of_root segments, List.dropLast_concat] at entered
    rw [start_of_root renamed, List.dropLast_concat]
    have within : dir.enter? Place.root ([] ++ Path.trim rest) = some outer := enter?_trim entered
    exact within
  · have relative : (front.take 1 ++ Path.trim (front.drop 1)).head? ≠ some [] := by
      cases front with
      | nil => simp [Path.trim]
      | cons first rest => exact rooted
    rw [start_of_name segments (ne_nil proper_name) rooted, List.dropLast_concat,
      ← List.take_append_drop 1 front] at entered
    rw [start_of_name renamed (ne_nil proper) relative, List.dropLast_concat]
    exact enter?_trim entered

/-! ## Writing -/

theorem file?_put_self (dir : Directory) (place : Place) (contents : Bytes) :
    (dir.put place contents).file? place = some contents := by
  simp [file?, put]

theorem file?_put_of_ne (dir : Directory) {place held_at : Place} (contents : Bytes) (different : held_at ≠ place) :
    (dir.put place contents).file? held_at = dir.file? held_at := by
  have others : ∀ files : List (Place × Bytes),
      (files.filter (·.1 ≠ place)).lookup held_at = files.lookup held_at := by
    intro files
    induction files with
    | nil => rfl
    | cons file files ih =>
      obtain ⟨place', held⟩ := file
      by_cases same : place' = place
      · rw [List.filter_cons_of_neg (by simpa using same), ih, List.lookup_cons,
          beq_eq_false_iff_ne.mpr (same ▸ different)]
      · rw [List.filter_cons_of_pos (by simpa using same), List.lookup_cons, List.lookup_cons, ih]
  rw [file?, put, List.lookup_cons, beq_eq_false_iff_ne.mpr different]
  exact others dir.files

theorem createThrough?_spec {segments : List (List Char)} {start : Place}
    (created : dir.createThrough? start segments = some later) :
    dir.KeepsFolders later ∧ later.files = dir.files := by
  induction segments generalizing dir start with
  | nil =>
    cases created
    exact ⟨.refl _, rfl⟩
  | cons segment segments ih =>
    simp only [createThrough?] at created
    split at created
    · cases created
    split at created
    · exact ih created
    · obtain ⟨keeps, files⟩ := ih created
      exact ⟨(keepsFolders_folder dir _).trans keeps, files⟩

theorem createFolder?_spec {folder : String} (created : dir.createFolder? folder = some later) :
    dir.KeepsFolders later ∧ later.files = dir.files := createThrough?_spec created

theorem write?_spec (written : dir.write? path contents = some later) :
    ∃ place, dir.locate? path = some place ∧ later = dir.put place contents := by
  obtain ⟨place, located, written⟩ := Option.bind_eq_some_iff.mp written
  split at written
  · cases written
  · cases written
    exact ⟨place, located, rfl⟩

/-- Saving creates folders, and then puts the file at the place its path leads to. -/
theorem save_spec (saved : dir.save path contents = .ok later) :
    ∃ made place, dir.KeepsFolders made ∧ made.files = dir.files ∧ made.locate? path = some place ∧
      later = made.put place contents := by
  have created : ∃ made, dir.KeepsFolders made ∧ made.files = dir.files ∧
      made.write? path contents = some later := by
    simp only [save] at saved
    split at saved
    · next made created =>
      refine ⟨made, ?_⟩
      have folders : dir.KeepsFolders made ∧ made.files = dir.files := by
        split at created
        · cases created
          exact ⟨.refl _, rfl⟩
        · exact createFolder?_spec created
      refine ⟨folders.1, folders.2, ?_⟩
      dsimp only [pure, Except.pure, bind, Except.bind] at saved
      cases written : made.write? path contents with
      | none =>
        rw [written] at saved
        cases saved
      | some result =>
        rw [written] at saved
        cases saved
        rfl
    · cases saved
  obtain ⟨made, keeps, files, written⟩ := created
  obtain ⟨place, located, put⟩ := write?_spec written
  exact ⟨made, place, keeps, files, located, put⟩

/-- A path without folders is saved to when its place is not a folder. -/
theorem save_of_plain {place : Place} (contents : Bytes) (plain : (Path.parent? path).getD "" = "")
    (located : dir.locate? path = some place) (free : dir.hasFolder place = false) :
    dir.save path contents = .ok (dir.put place contents) := by
  have written : dir.write? path contents = some (dir.put place contents) := by
    rw [write?, located]
    show (if dir.hasFolder place = true then _ else _) = _
    rw [free]
    rfl
  rw [save, plain]
  dsimp only [pure, Except.pure, bind, Except.bind]
  rw [if_pos (by decide)]
  dsimp only
  rw [written]

/-- After a save the path leads to the file, no other file has changed, and no folder is gone. -/
theorem save_effect (saved : dir.save path contents = .ok later) :
    ∃ place, later.locate? path = some place ∧ later.file? place = some contents ∧
      (∀ other, other ≠ place → later.file? other = dir.file? other) ∧ dir.KeepsFolders later := by
  obtain ⟨made, place, keeps, files, located, rfl⟩ := save_spec saved
  have put := keepsFolders_put made place contents
  have untouched : ∀ other, other ≠ place → (made.put place contents).file? other = dir.file? other := by
    intro other elsewhere
    rw [file?_put_of_ne made contents elsewhere, file?, file?, files]
  exact ⟨place, locate?_mono put located, file?_put_self made place contents, untouched, keeps.trans put⟩

end LowDimLP.Directory
