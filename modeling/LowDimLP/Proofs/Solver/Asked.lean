import LowDimLP.Proofs.Solver.Branches
import LowDimLP.Proofs.Solver.Insertion
/-!
# What a level asks of the level below

A level asks the level below about the traces of its half-spaces on one of their boundaries, or about the traces of
their recessions on the slice of its direction, and only if there are any. So if the traces of half-spaces with one
property have another property (`Passes`), then on a problem of the first kind two levels below that agree on the
problems of the second kind give one and the same run (`solveAbove_congr`).
-/

namespace LowDimLP

/-- The traces of a list are traces of its half-spaces. -/
theorem Frame.exists_of_mem_traces {α : Type} [Scalar α] {n : Nat} {frame : Frame α n} {tol : Tolerance α}
    {hs : List (HalfSpace α (n + 1))} {reduced : List (HalfSpace α n)} (traced : frame.traces tol hs = some reduced)
    {r : HalfSpace α n} (hr : r ∈ reduced) : ∃ h ∈ hs, h.reduce frame tol = .bound r := by
  induction hs generalizing reduced with
  | nil =>
    cases traced
    cases hr
  | cons h hs ih =>
    rw [traces] at traced
    cases trace : h.reduce frame tol with
    | bound first =>
      rw [trace] at traced
      obtain ⟨rest, tail, rfl⟩ := Option.map_eq_some_iff.mp traced
      rcases List.mem_cons.mp hr with rfl | later
      · exact ⟨h, List.mem_cons_self, trace⟩
      · obtain ⟨g, hg, bound⟩ := ih tail later
        exact ⟨g, List.mem_cons_of_mem h hg, bound⟩
    | free =>
      rw [trace] at traced
      obtain ⟨g, hg, bound⟩ := ih traced hr
      exact ⟨g, List.mem_cons_of_mem h hg, bound⟩
    | empty =>
      rw [trace] at traced
      cases traced

namespace Level

variable {σ α : Type} {n : Nat}

/-- Two levels give the same runs on every problem that has half-spaces, all of them with the property. -/
def AgreeOn (P : HalfSpace α n → Prop) (below below' : SolverOf σ α n) : Prop :=
  ∀ halfSpaces direction, halfSpaces ≠ [] → (∀ h ∈ halfSpaces, P h) →
    below halfSpaces direction = below' halfSpaces direction

variable [Scalar α] {tol : Tolerance α} {direction : Vec α (n + 1)} {P : HalfSpace α n → Prop}
  {Q : HalfSpace α (n + 1) → Prop} {below below' : SolverOf σ α n}

/-- What a level along `direction` asks about has the property `P` if its own half-spaces have the property
`Q`. -/
structure Passes (tol : Tolerance α) (direction : Vec α (n + 1)) (Q : HalfSpace α (n + 1) → Prop)
    (P : HalfSpace α n → Prop) : Prop where
  boundary : ∀ {h g r}, Q h → Q g → g.reduce (Frame.on h.boundary) tol = .bound r → P r
  slice : ∀ {slice g r}, Plane.ofEquation direction (-direction.length) = .ok slice → Q g →
    g.recession.reduce (Frame.on slice) tol = .bound r → P r

omit [Scalar α] in
theorem askBelow_congr (agree : AgreeOn P below below') {β : Type} (c : Vec α n) (missed unbounded : β)
    (reading : Solution α n → β) {traces : Option (List (HalfSpace α n))}
    (asked : ∀ reduced, traces = some reduced → ∀ r ∈ reduced, P r) :
    askBelow below c missed unbounded reading traces = askBelow below' c missed unbounded reading traces := by
  match traces with
  | none => rfl
  | some [] => rfl
  | some (r :: rs) => simp only [askBelow, agree (r :: rs) c (by simp) (asked _ rfl)]

section Insertion

variable (agree : AgreeOn P below below') (passes : Passes tol direction Q P)
  {accepted : List (HalfSpace α (n + 1))} {h : HalfSpace α (n + 1)}

include agree passes

theorem descend_congr (old : ∀ g ∈ accepted, Q g) (new : Q h) (bounded : Bool) :
    descend below tol direction accepted h bounded = descend below' tol direction accepted h bounded := by
  rw [descend_eq, descend_eq]
  refine askBelow_congr agree _ _ _ _ fun reduced traced r hr => ?_
  obtain ⟨g, hg, bound⟩ := Frame.exists_of_mem_traces traced hr
  exact passes.boundary new (old g hg) bound

theorem objectiveBounded_congr (old : ∀ g ∈ accepted, Q g) :
    objectiveBounded below tol direction accepted = objectiveBounded below' tol direction accepted := by
  rw [objectiveBounded_eq, objectiveBounded_eq]
  congr 1
  cases sliced : Plane.ofEquation direction (-direction.length) with
  | error e => rfl
  | ok slice =>
    refine askBelow_congr agree _ _ _ _ fun reduced traced r hr => ?_
    obtain ⟨_, recession, bound⟩ := Frame.exists_of_mem_traces traced hr
    obtain ⟨g, hg, rfl⟩ := List.mem_map.mp recession
    exact passes.slice sliced (old g hg) bound

theorem keepOrDescend_congr (old : ∀ g ∈ accepted, Q g) (new : Q h) (p : Point α (n + 1)) (bounded : Bool) :
    keepOrDescend below tol direction accepted h p bounded =
      keepOrDescend below' tol direction accepted h p bounded := by
  rw [keepOrDescend, keepOrDescend, descend_congr agree passes old new]

theorem insert_congr (old : ∀ g ∈ accepted, Q g) (new : Q h) (state : Option (Solution α (n + 1))) :
    insert below tol direction accepted state h = insert below' tol direction accepted state h := by
  have all : ∀ g ∈ accepted ++ [h], Q g := by
    intro g hg
    rcases List.mem_append.mp hg with earlier | last
    · exact old g earlier
    · exact List.mem_singleton.mp last ▸ new
  have keep := keepOrDescend_congr agree passes old new
  cases state with
  | none => rfl
  | some solution =>
    cases solution with
    | minimum p => exact keep p true
    | ambiguous p =>
      show insertUnsettled _ _ _ _ _ _ = insertUnsettled _ _ _ _ _ _
      simp only [insertUnsettled_eq, keep, descend_congr agree passes old new,
        objectiveBounded_congr agree passes old, objectiveBounded_congr agree passes all]
    | infeasible => rfl

end Insertion

variable [PickSource σ]

/-- Steps that agree on items with the property make loops that agree on them. -/
theorem insertAll_congr {ι β : Type} {Q : ι → Prop} {step step' : List ι → Option β → ι → Run σ β}
    {stops : β → Bool} (same : ∀ accepted state x, (∀ y ∈ accepted, Q y) → Q x →
      step accepted state x = step' accepted state x)
    {left : Nat} (pending : Vector ι left) (accepted : List ι) (state : Option β)
    (waiting : ∀ x ∈ pending.toList, Q x) (old : ∀ x ∈ accepted, Q x) :
    insertAll step stops pending accepted state = insertAll step' stops pending accepted state := by
  induction left generalizing accepted state with
  | zero => rfl
  | succ left ih =>
    rw [insertAll, insertAll]
    congr 1
    funext i
    have item : Q (Insertion.takeOut pending i).1 := waiting _ (Insertion.takeOut_mem pending i)
    have others : ∀ x ∈ (Insertion.takeOut pending i).2.toList, Q x := fun x hx =>
      waiting x ((Insertion.takeOut_perm pending i).mem_iff.mp (List.mem_cons_of_mem _ hx))
    have longer : ∀ x ∈ accepted ++ [(Insertion.takeOut pending i).1], Q x := by
      intro x hx
      rcases List.mem_append.mp hx with earlier | last
      · exact old x earlier
      · exact List.mem_singleton.mp last ▸ item
    simp only [same accepted state _ old item, ih _ _ _ others longer]

/-- A run asks the level below about nothing but what its half-spaces pass on. -/
theorem solveAbove_congr (agree : AgreeOn P below below') (passes : Passes tol direction Q P)
    {halfSpaces : List (HalfSpace α (n + 1))} (given : ∀ h ∈ halfSpaces, Q h) :
    solveAbove below tol halfSpaces direction = solveAbove below' tol halfSpaces direction := by
  have steps : (insertAll (insert below tol direction) Solution.isInfeasible (pending halfSpaces) [] none :
      Run σ _) = insertAll (insert below' tol direction) Solution.isInfeasible (pending halfSpaces) [] none :=
    insertAll_congr (fun accepted state h old new => insert_congr agree passes old new state) (pending halfSpaces)
      [] none given (by simp)
  simp only [solveAbove, steps]

end Level

end LowDimLP
