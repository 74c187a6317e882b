import Mathlib.Data.List.Sublists
import LowDimLP.Proofs.Geometry.Meet
import LowDimLP.Solver.Vertices
import LowDimLP.Proofs.Choices
/-!
# The scan for the best vertex

The scan tries every choice of `n` boundaries, and a choice is a sublist of that length (`mem_choices_iff`).
Linearly independent boundaries are different half-spaces, so some choice has them, in another order at
most, and meeting in general position finds their common point whatever the order. Hence the points found
are the vertices, all of them and nothing else (`mem_vertices_iff`), and the one kept has the smallest value
(`bestVertex?_spec`).
-/

namespace LowDimLP

variable {α : Type} [ExactScalar α] {n : Nat}

/-- A feasible point where `n` boundaries with linearly independent normals meet. -/
structure IsVertex (halfSpaces : List (HalfSpace α n)) (v : Point α n) : Prop where
  feasible : Feasible halfSpaces v
  corner : ∃ chosen : Fin n → HalfSpace α n, (∀ i, chosen i ∈ halfSpaces) ∧
    (∀ i, (chosen i).boundary.Holds v) ∧
      LinearIndependent α fun i (j : Fin n) => (chosen i).boundary.normal.coord j

theorem IsVertex.perm {halfSpaces others : List (HalfSpace α n)} {v : Point α n}
    (vertex : IsVertex halfSpaces v) (perm : halfSpaces.Perm others) : IsVertex others v := by
  obtain ⟨feasible, corner, from_list, rest⟩ := vertex
  exact ⟨(feasible_perm perm).mp feasible, corner, fun i => perm.mem_iff.mp (from_list i), rest⟩

section Scan

variable {tol : Tolerance α} {direction : Vec α n} {halfSpaces : List (HalfSpace α n)}

theorem mem_vertices {v : Point α n} :
    v ∈ vertices tol halfSpaces ↔
      (∃ chosen ∈ choices n halfSpaces, Plane.meet tol (chosen.map HalfSpace.boundary) = some v) ∧
        ∀ h ∈ halfSpaces, h.containsWithin v tol.feas = true := by
  simp only [vertices, List.mem_filterMap, Option.bind_eq_bind, Option.bind_eq_some_iff,
    Option.ite_none_right_eq_some, Option.pure_def, Option.some_inj, List.all_eq_true]
  constructor
  · intro ⟨chosen, choice, _, meets, inside, same⟩
    subst same
    exact ⟨⟨chosen, choice, meets⟩, inside⟩
  · intro ⟨⟨chosen, choice, meets⟩, inside⟩
    exact ⟨chosen, choice, v, meets, inside, rfl⟩

/-- From a first candidate on, the scan keeps one whose value no candidate undercuts. -/
theorem foldl_keepBetter_spec (direction : Vec α n) (points : List (Point α n)) (first : Point α n) :
    ∃ best, points.foldl (keepBetter direction) (some (first, direction.eval first)) =
        some (best, direction.eval best) ∧ best ∈ first :: points ∧
      ∀ w ∈ first :: points, direction.eval best ≤ direction.eval w := by
  induction points generalizing first with
  | nil => exact ⟨first, rfl, by simp, by simp⟩
  | cons v points ih =>
    rw [List.foldl_cons, keepBetter]
    split
    · next better =>
      obtain ⟨best, scanned, kept, least⟩ := ih v
      refine ⟨best, scanned, List.mem_cons_of_mem _ kept, List.forall_mem_cons.mpr ⟨?_, least⟩⟩
      exact (least v List.mem_cons_self).trans better.le
    · next worse =>
      obtain ⟨best, scanned, kept, least⟩ := ih first
      obtain ⟨least_first, least_points⟩ := List.forall_mem_cons.mp least
      refine ⟨best, scanned, ?_, List.forall_mem_cons.mpr ⟨least_first,
        List.forall_mem_cons.mpr ⟨least_first.trans (not_lt.mp worse), least_points⟩⟩⟩
      exact (List.mem_cons.mp kept).elim (fun same => same ▸ List.mem_cons_self)
        fun old => List.mem_cons_of_mem _ (List.mem_cons_of_mem _ old)

theorem vertices_eq_nil_of_bestVertex? (nothing : bestVertex? tol direction halfSpaces = none) :
    vertices tol halfSpaces = [] := by
  rw [bestVertex?] at nothing
  cases found : vertices tol halfSpaces with
  | nil => rfl
  | cons first points =>
    obtain ⟨best, scanned, -⟩ := foldl_keepBetter_spec direction points first
    rw [found, List.foldl_cons, keepBetter, scanned] at nothing
    cases nothing

theorem bestVertex?_spec {best : Point α n} (kept : bestVertex? tol direction halfSpaces = some best) :
    best ∈ vertices tol halfSpaces ∧
      ∀ w ∈ vertices tol halfSpaces, direction.eval best ≤ direction.eval w := by
  rw [bestVertex?] at kept
  cases found : vertices tol halfSpaces with
  | nil =>
    rw [found] at kept
    cases kept
  | cons first points =>
    obtain ⟨v, scanned, mem, least⟩ := foldl_keepBetter_spec direction points first
    rw [found, List.foldl_cons, keepBetter, scanned] at kept
    cases kept
    exact ⟨mem, least⟩

end Scan

section Corners

variable {tol : Tolerance α} {halfSpaces : List (HalfSpace α (n + 1))} {v : Point α (n + 1)}

/-- A vertex is found: its boundaries are pairwise different, so the list has them as a sublist, in some
order. -/
theorem mem_vertices_of_isVertex (det : tol.det = 0) (feas : tol.feas = 0)
    (normalised : ∀ h ∈ halfSpaces, h.Normalised) (vertex : IsVertex halfSpaces v) :
    v ∈ vertices tol halfSpaces := by
  obtain ⟨feasible, corner, from_list, holds, independent⟩ := vertex
  -- Independent normals are different, so no half-space of the corner is counted twice.
  have different : Function.Injective corner := by
    intro i j same
    apply independent.injective
    simp only [same]
  have sub : List.ofFn corner ⊆ halfSpaces := List.forall_mem_ofFn_iff.mpr from_list
  obtain ⟨chosen, perm, sublist⟩ := List.subperm_of_subset (List.nodup_ofFn.mpr different) sub
  have length : chosen.length = n + 1 := by simpa using perm.length_eq
  have separates : Separates ((chosen.map HalfSpace.boundary).map Plane.normal) := by
    refine (separates_ofFn_iff.mpr independent).mono (List.forall_mem_ofFn_iff.mpr fun i => ?_)
    have kept : corner i ∈ chosen := perm.mem_iff.mpr (List.mem_ofFn.mpr ⟨i, rfl⟩)
    exact List.mem_map_of_mem (List.mem_map_of_mem kept)
  refine mem_vertices.mpr ⟨⟨chosen, (mem_choices_iff n.succ_pos).mpr ⟨sublist, length⟩, ?_⟩, ?_⟩
  · refine (Plane.meet_eq_some_iff det ?_).mpr ⟨n.succ_pos, by simpa using length, separates, ?_⟩
    · exact List.forall_mem_map.mpr fun h hh => normalised h (sublist.subset hh)
    · refine List.forall_mem_map.mpr fun h hh => ?_
      obtain ⟨i, rfl⟩ := List.mem_ofFn.mp (perm.subset hh)
      exact holds i
  · intro h hh
    rw [feas]
    exact HalfSpace.containsWithin_zero_iff.mpr (feasible h hh)

theorem isVertex_of_mem_vertices (det : tol.det = 0) (feas : tol.feas = 0)
    (normalised : ∀ h ∈ halfSpaces, h.Normalised) (found : v ∈ vertices tol halfSpaces) :
    IsVertex halfSpaces v := by
  obtain ⟨⟨chosen, choice, meets⟩, inside⟩ := mem_vertices.mp found
  obtain ⟨sublist, length⟩ := (mem_choices_iff n.succ_pos).mp choice
  have units : ∀ p ∈ chosen.map HalfSpace.boundary, p.Normalised :=
    List.forall_mem_map.mpr fun h hh => normalised h (sublist.subset hh)
  obtain ⟨-, -, separates, holds⟩ := (Plane.meet_eq_some_iff det units).mp meets
  -- The choice itself is the corner, read by position.
  let corner : Fin (n + 1) → HalfSpace α (n + 1) := fun i => chosen.get (i.cast length.symm)
  have listed : List.ofFn corner = chosen := ofFn_get_cast length
  have from_chosen : ∀ i, corner i ∈ chosen := fun i => List.getElem_mem _
  refine ⟨fun h hh => ?_, corner, fun i => sublist.subset (from_chosen i), fun i => ?_, ?_⟩
  · have contained := inside h hh
    rwa [feas, HalfSpace.containsWithin_zero_iff] at contained
  · exact holds _ (List.mem_map_of_mem (from_chosen i))
  · apply separates_ofFn_iff.mp
    rw [← listed] at separates
    simpa [List.map_ofFn, Function.comp_def] using separates

theorem mem_vertices_iff (det : tol.det = 0) (feas : tol.feas = 0)
    (normalised : ∀ h ∈ halfSpaces, h.Normalised) :
    v ∈ vertices tol halfSpaces ↔ IsVertex halfSpaces v :=
  ⟨isVertex_of_mem_vertices det feas normalised, mem_vertices_of_isVertex det feas normalised⟩

end Corners

end LowDimLP
