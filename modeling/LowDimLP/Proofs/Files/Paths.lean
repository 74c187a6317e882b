import LowDimLP.Provenance
/-!
# Names at the end of paths

The last segment of a path is the name of the file it leads to, and no name has a slash in it
(`not_slash_mem_of_mem_split`). A path with another last name has the segments of the path in front of it, but for
those that name nothing (`split_withFileName`). A sidecar is never called like its artifact (`sidecarName_ne`): the
artifact's name goes on behind its stem with a point and an extension without points, if at all.
-/

namespace LowDimLP

namespace Path

theorem split_cons_of_ne {c : Char} (cs : List Char) (other : c ≠ '/') :
    ∃ segment segments, split cs = segment :: segments ∧ split (c :: cs) = (c :: segment) :: segments := by
  cases below : split cs with
  | nil =>
    cases cs with
    | nil => cases below
    | cons d cs =>
      rw [split] at below
      split at below
      · cases below
      · split at below <;> cases below
  | cons segment segments => exact ⟨segment, segments, rfl, by rw [split, if_neg other, below]⟩

theorem split_ne_nil (cs : List Char) : split cs ≠ [] := by
  cases cs with
  | nil => simp [split]
  | cons c cs =>
    by_cases slash : c = '/'
    · simp [split, slash]
    · obtain ⟨_, _, -, segments⟩ := split_cons_of_ne cs slash
      simp [segments]

theorem not_slash_mem_of_mem_split {cs segment : List Char} (member : segment ∈ split cs) : '/' ∉ segment := by
  induction cs generalizing segment with
  | nil =>
    obtain rfl := List.mem_singleton.mp member
    exact List.not_mem_nil
  | cons c cs ih =>
    by_cases slash : c = '/'
    · rw [split, if_pos slash] at member
      rcases List.mem_cons.mp member with rfl | member
      · exact List.not_mem_nil
      · exact ih member
    · obtain ⟨first, others, below, here⟩ := split_cons_of_ne cs slash
      rw [here] at member
      rw [below] at ih
      rcases List.mem_cons.mp member with rfl | member
      · have rest := ih List.mem_cons_self
        simp [Ne.symm slash, rest]
      · exact ih (List.mem_cons_of_mem _ member)

theorem split_of_not_mem {name : List Char} (plain : '/' ∉ name) : split name = [name] := by
  induction name with
  | nil => rfl
  | cons c name ih =>
    rw [List.mem_cons, not_or] at plain
    obtain ⟨other, rest⟩ := plain
    obtain ⟨segment, segments, below, here⟩ := split_cons_of_ne name (Ne.symm other)
    rw [ih rest] at below
    cases below
    exact here

theorem split_append_slash (front back : List Char) : split (front ++ '/' :: back) = split front ++ split back := by
  induction front with
  | nil => simp [split]
  | cons c front ih =>
    by_cases slash : c = '/'
    · simp [split, slash, ih]
    · obtain ⟨first, others, below, here⟩ := split_cons_of_ne (front ++ '/' :: back) slash
      obtain ⟨first', others', below', here'⟩ := split_cons_of_ne front slash
      rw [ih, below', List.cons_append] at below
      cases below
      rw [List.cons_append, here, here', List.cons_append]

theorem split_join {segments : List (List Char)} (some_segment : segments ≠ [])
    (plain : ∀ segment ∈ segments, '/' ∉ segment) : split (join segments) = segments := by
  induction segments with
  | nil => exact absurd rfl some_segment
  | cons segment segments ih =>
    obtain ⟨here, others⟩ := List.forall_mem_cons.mp plain
    cases segments with
    | nil => exact split_of_not_mem here
    | cons next segments =>
      show split (segment ++ '/' :: join (next :: segments)) = _
      rw [split_append_slash, split_of_not_mem here, ih (List.cons_ne_nil _ _) others]
      rfl

/-- The last segment of a path, where a file's name stands. -/
def lastSegment? (path : String) : Option (List Char) := (split path.toList).getLast?

/-- A file's name is the last segment. -/
theorem fileName?_of_lastSegment? {path : String} {name : List Char} (last : lastSegment? path = some name)
    (proper : isVoid name = false) (inner : isUp name = false) : fileName? path = some name := by
  rw [lastSegment?] at last
  rw [fileName?]
  cases segments : split path.toList with
  | nil => exact absurd segments (split_ne_nil _)
  | cons first rest =>
    rw [segments] at last
    rcases List.eq_nil_or_concat rest with rfl | ⟨front, ending, concat⟩
    · have first_eq : first = name := Option.some.inj last
      simp [trim, first_eq, proper, inner]
    · rw [List.concat_eq_append] at concat
      rw [concat, ← List.cons_append, List.getLast?_concat] at last
      have ending_eq : ending = name := Option.some.inj last
      simp [trim, concat, ending_eq, proper, inner]

/-! ## Another last name -/

/-- What is cut off by trimming names nothing. -/
theorem exists_eq_trim_append (segments : List (List Char)) :
    ∃ cut, segments = trim segments ++ cut ∧ ∀ segment ∈ cut, isVoid segment = true := by
  refine ⟨(segments.reverse.takeWhile isVoid).reverse, ?_, fun segment member => ?_⟩
  · rw [trim, ← List.reverse_append, List.takeWhile_append_dropWhile, List.reverse_reverse]
  · exact List.all_eq_true.mp List.all_takeWhile segment (List.mem_reverse.mp member)

theorem mem_of_mem_trim {segments : List (List Char)} {segment : List Char} (member : segment ∈ trim segments) :
    segment ∈ segments := by
  obtain ⟨cut, whole, -⟩ := exists_eq_trim_append segments
  rw [whole]
  exact List.mem_append_left cut member

theorem trim_concat (segments : List (List Char)) {name : List Char} (proper : isVoid name = false) :
    trim (segments ++ [name]) = segments ++ [name] := by
  simp [trim, proper]

theorem not_isVoid_getLast_trim {segments : List (List Char)} {last : List Char}
    (ends : (trim segments).getLast? = some last) : isVoid last = false := by
  rw [trim, List.getLast?_reverse] at ends
  have stop := List.head?_dropWhile_not isVoid segments.reverse
  rw [ends] at stop
  simpa using stop

/-- A name in the folder of a trimmed row of segments comes behind these segments. -/
theorem split_inFolder {first : List Char} {rest : List (List Char)} {name : String}
    (plain : ∀ segment ∈ first :: trim rest, '/' ∉ segment) (plain_name : '/' ∉ name.toList) :
    split (inFolder (textOf first (trim rest)) name).toList = first :: (trim rest ++ [name.toList]) := by
  have behind : split ("/" ++ name).toList = [[], name.toList] := by
    rw [String.toList_append]
    exact (split_append_slash [] name.toList).trans (by rw [split_of_not_mem plain_name]; rfl)
  rw [textOf]
  split
  · next root =>
    obtain ⟨empty, none⟩ := Bool.and_eq_true_iff.mp root
    rw [List.isEmpty_iff.mp empty, List.isEmpty_iff.mp none]
    exact behind
  · next other =>
    let folder := join (first :: trim rest)
    have segments : split folder = first :: trim rest := split_join (List.cons_ne_nil _ _) plain
    have some_folder : folder ≠ [] := by
      intro empty
      rw [empty] at segments
      obtain ⟨rfl, none⟩ := List.cons.inj segments
      exact other (by rw [← none]; rfl)
    -- A slash at the end would be followed by an empty segment, which trimming cuts off.
    have no_slash : folder.getLast? ≠ some '/' := by
      intro slash
      obtain ⟨front, ends⟩ := List.getLast?_eq_some_iff.mp slash
      rw [ends, split_append_slash] at segments
      have last : (first :: trim rest).getLast? = some [] := by
        rw [← segments]
        exact List.getLast?_concat
      cases ending : (trim rest).getLast? with
      | none =>
        have none := List.getLast?_eq_none_iff.mp ending
        rw [none] at last other
        have empty : first = [] := Option.some.inj last
        exact other (by rw [empty]; rfl)
      | some segment =>
        rw [List.getLast?_cons, ending] at last
        have void : segment = [] := Option.some.inj last
        exact absurd (not_isVoid_getLast_trim ending) (by rw [void]; decide)
    rw [inFolder, if_neg (by simpa using some_folder), if_neg (by simpa using no_slash)]
    have text : (String.ofList folder ++ "/" ++ name).toList = folder ++ '/' :: name.toList := by simp
    rw [text, split_append_slash, segments, split_of_not_mem plain_name]
    rfl

/-- A path with another last name keeps the segments in front, but for those behind the first that name nothing at
their end. -/
theorem split_withFileName {path other : String} {front : List (List Char)} {name : List Char}
    (segments : split path.toList = front ++ [name]) (proper : isVoid name = false) (inner : isUp name = false)
    (plain : '/' ∉ other.toList) :
    split (withFileName path other).toList = front.take 1 ++ trim (front.drop 1) ++ [other.toList] := by
  have last : lastSegment? path = some name := by
    rw [lastSegment?, segments]
    exact List.getLast?_concat
  have named := fileName?_of_lastSegment? last proper inner
  rw [withFileName, named, Option.isSome_some, if_pos rfl, parent?, segments]
  cases front with
  | nil =>
    have some_name : name.isEmpty = false := by
      rw [isVoid, Bool.or_eq_false_iff] at proper
      exact proper.1
    simp [trim, some_name, inFolder, split_of_not_mem plain]
  | cons first rest =>
    have ends : (trim (rest ++ [name])).reverse = name :: rest.reverse := by
      rw [trim_concat rest proper, List.reverse_append]
      rfl
    have each : ∀ segment ∈ first :: trim rest, '/' ∉ segment := by
      intro segment member
      have among : segment ∈ first :: rest := (List.mem_cons.mp member).elim (· ▸ List.mem_cons_self)
        fun behind => List.mem_cons_of_mem _ (mem_of_mem_trim behind)
      have segment_of_path : segment ∈ split path.toList := segments ▸ List.mem_append_left _ among
      exact not_slash_mem_of_mem_split segment_of_path
    simp only [List.cons_append, ends, List.reverse_reverse, Option.getD_some]
    exact split_inFolder each plain

/-! ## Extensions -/

/-- A name with an extension is its stem, a point, and the extension, which has no point. -/
theorem splitName_spec (name : List Char) :
    splitName name = (name, none) ∨ ∃ stem extension, splitName name = (stem, some extension) ∧
      name = stem ++ '.' :: extension ∧ '.' ∉ extension := by
  have cut := List.takeWhile_append_dropWhile (p := (· ≠ '.')) (l := name.reverse)
  rw [splitName]
  split
  · exact .inl rfl
  · exact .inl rfl
  · next point stem _ rest =>
    have stop : point = '.' := by
      have := List.head?_dropWhile_not (· ≠ '.') name.reverse
      rw [rest] at this
      simpa using this
    refine .inr ⟨_, _, rfl, ?_, ?_⟩
    · rw [rest, stop] at cut
      rw [← List.reverse_inj, List.reverse_append, List.reverse_cons, List.reverse_reverse,
        List.reverse_reverse, List.append_assoc, List.singleton_append, cut]
    · intro inside
      simpa using List.all_eq_true.mp List.all_takeWhile _ (List.mem_reverse.mp inside)

end Path

namespace Provenance

/-- The name of the sidecar of an artifact with the given name. -/
def sidecarName (name : List Char) : List Char := (Path.splitName name).1 ++ ".provenance.json".toList

/-- A sidecar is not called like its artifact. -/
theorem sidecarName_ne (name : List Char) : sidecarName name ≠ name := by
  intro same
  rcases Path.splitName_spec name with whole | ⟨stem, extension, cut, rfl, plain⟩
  · rw [sidecarName, whole] at same
    have lengths := congrArg List.length same
    rw [List.length_append] at lengths
    exact absurd lengths (by simp)
  · rw [sidecarName, cut, List.append_cancel_left_eq] at same
    have tail : "provenance.json".toList = extension := (List.cons.inj same).2
    exact plain (by rw [← tail]; decide)

theorem not_slash_mem_sidecarName {name : List Char} (plain : '/' ∉ name) : '/' ∉ sidecarName name := by
  have stem : ∀ c ∈ (Path.splitName name).1, c ∈ name := by
    intro c member
    rcases Path.splitName_spec name with whole | ⟨stem, extension, cut, rfl, -⟩
    · rwa [whole] at member
    · rw [cut] at member
      exact List.mem_append_left _ member
  intro member
  rcases List.mem_append.mp member with member | member
  · exact plain (stem _ member)
  · exact absurd member (by decide)

/-- The name of a sidecar is one of a file. -/
theorem sidecarName_proper (name : List Char) :
    Path.isVoid (sidecarName name) = false ∧ Path.isUp (sidecarName name) = false := by
  have long : 2 < (sidecarName name).length := by
    rw [sidecarName, List.length_append]
    exact Nat.lt_add_left _ (by decide)
  have longer : ∀ short : List Char, short.length ≤ 2 → sidecarName name ≠ short := by
    rintro short few rfl
    exact absurd long (by omega)
  exact ⟨by simp [Path.isVoid, longer [] (by decide), longer ['.'] (by decide)],
    by simp [Path.isUp, longer ['.', '.'] (by decide)]⟩

/-- A sidecar's path is its artifact's with the sidecar's name. -/
theorem sidecarPath_eq {artifact : String} {name : List Char} (named : Path.fileName? artifact = some name) :
    sidecarPath artifact = Path.withFileName artifact (String.ofList (sidecarName name)) := by
  have sidecar : (Path.stem? artifact).getD "artifact" ++ ".provenance.json" = String.ofList (sidecarName name) := by
    simp [Path.stem?, named, sidecarName]
  rw [sidecarPath, sidecar]

example : sidecarPath "runs/./r.v2.json" = "runs/r.v2.provenance.json" ∧
    sidecarPath "/.r" = "/.r.provenance.json" := by decide

end Provenance

end LowDimLP
