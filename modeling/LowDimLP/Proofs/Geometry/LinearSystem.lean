import LowDimLP.Proofs.Geometry.Meet
import LowDimLP.Proofs.Geometry.Frames
/-!
# Planes as a linear system

The common points of planes are the solutions of the system their equations make. A square system whose
normals are linearly independent has exactly one (`Separates.exists_holds`, `Separates.eq_of_eval_eq`), and
`meet` finds it by eliminating one coordinate per plane. So it answers for those systems and for no others, with
the solution, and an elimination in another order ends in the same point (`AnyPlane.meet_solves_system`).
-/

namespace LowDimLP

variable {α : Type} {n : Nat}

namespace AnyPlane

theorem ofDim?_mk (plane : Plane α n) : ofDim? n ⟨n, plane⟩ = some plane := dif_pos rfl

/-- Planes of one dimension meet as planes of that dimension. -/
theorem meet_map [Scalar α] (tol : Tolerance α) (planes : List (Plane α n)) :
    meet tol (planes.map (Sigma.mk n)) = (Plane.meet tol planes).map (Sigma.mk n) := by
  cases planes with
  | nil => cases n <;> rfl
  | cons first rest =>
    have typed : ((first :: rest).map (Sigma.mk n)).mapM (ofDim? n) = some (first :: rest) :=
      mapM_eq_some_iff.mpr (List.forall₂_map_left_iff.mpr (List.forall₂_same.mpr fun p _ => ofDim?_mk p))
    rw [List.map_cons] at typed ⊢
    rw [meet, typed, Option.map_eq_bind]
    rfl

end AnyPlane

variable [ExactScalar α]

/-- A square system with separating normals has a solution, whatever the offsets. -/
theorem Separates.exists_holds {planes : Fin n → Plane α n}
    (separates : Separates (List.ofFn fun i => (planes i).normal)) : ∃ x, ∀ i, (planes i).Holds x := by
  let matrix : Matrix (Fin n) (Fin n) α := fun i j => (planes i).normal.coord j
  have regular : IsUnit matrix :=
    Matrix.linearIndependent_rows_iff_isUnit.mp (separates_ofFn_iff.mp separates)
  obtain ⟨x, solves⟩ := Matrix.mulVec_surjective_iff_isUnit.mpr regular fun i => (planes i).offset
  refine ⟨⟨Vector.ofFn x⟩, fun i => ?_⟩
  rw [Plane.Holds, Vec.eval_eq_sum le_rfl, ← congrFun solves i]
  exact Finset.sum_congr rfl fun j _ => by rw [Point.coord_ofFn]

namespace Plane

variable {tol : Tolerance α} {planes others : List (Plane α n)}

theorem separates_iff_linearIndependent (length : planes.length = n) :
    Separates (planes.map normal) ↔
      LinearIndependent α fun (i : Fin planes.length) (j : Fin n) => (planes.get i).normal.coord j := by
  have listed : planes.map normal = List.ofFn fun i : Fin n => (planes.get (i.cast length.symm)).normal := by
    rw [← Function.comp_def normal, ← List.map_ofFn, ofFn_get_cast length]
  rw [listed, separates_ofFn_iff]
  exact linearIndependent_equiv (R := α) (finCongr length.symm)
    (f := fun (i : Fin planes.length) (j : Fin n) => (planes.get i).normal.coord j)

theorem exists_common_point (length : planes.length = n) (separates : Separates (planes.map normal)) :
    ∃ x, ∀ p ∈ planes, p.Holds x := by
  rw [← ofFn_get_cast length, List.map_ofFn] at separates
  obtain ⟨x, solves⟩ := separates.exists_holds
  refine ⟨x, ?_⟩
  rw [← ofFn_get_cast length]
  exact List.forall_mem_ofFn_iff.mpr solves

theorem meet_perm (det : tol.det = 0) (normalised : ∀ p ∈ planes, p.Normalised)
    (perm : planes.Perm others) : meet tol others = meet tol planes := by
  have units : ∀ p ∈ others, p.Normalised := fun p hp => normalised p (perm.mem_iff.mpr hp)
  have separates_iff : Separates (others.map normal) ↔ Separates (planes.map normal) :=
    ⟨fun separates => separates.mono (perm.map normal).symm.subset,
      fun separates => separates.mono (perm.map normal).subset⟩
  apply Option.ext
  intro v
  rw [meet_eq_some_iff det normalised, meet_eq_some_iff det units, perm.length_eq, separates_iff]
  simp only [perm.mem_iff]

end Plane

namespace AnyPlane

variable {tol : Tolerance α}

/-- **Meeting solves the linear system.** For planes of one dimension it gives a point exactly if there are as
many planes as coordinates and their normals are linearly independent. The point has that dimension, lies on
every plane and is the only one that does; and the order of the planes does not matter. -/
theorem meet_solves_system (det : tol.det = 0) {planes : List (Plane α (n + 1))}
    (normalised : ∀ p ∈ planes, p.Normalised) :
    ((∃ v, meet tol (planes.map (Sigma.mk (n + 1))) = some v) ↔ planes.length = n + 1 ∧
      LinearIndependent α fun (i : Fin planes.length) (j : Fin (n + 1)) => (planes.get i).normal.coord j) ∧
    (∀ v, meet tol (planes.map (Sigma.mk (n + 1))) = some v →
      ∃ x : Point α (n + 1), v = ⟨n + 1, x⟩ ∧ (∀ p ∈ planes, p.Holds x) ∧
        ∀ y, (∀ p ∈ planes, p.Holds y) → y = x) ∧
    ∀ others, planes.Perm others →
      meet tol (others.map (Sigma.mk (n + 1))) = meet tol (planes.map (Sigma.mk (n + 1))) := by
  simp only [meet_map]
  refine ⟨?_, fun v met => ?_, fun others perm => ?_⟩
  · constructor
    · intro ⟨v, met⟩
      obtain ⟨x, typed, -⟩ := Option.map_eq_some_iff.mp met
      obtain ⟨-, length, separates, -⟩ := (Plane.meet_eq_some_iff det normalised).mp typed
      exact ⟨length, (Plane.separates_iff_linearIndependent length).mp separates⟩
    · intro ⟨length, independent⟩
      have separates := (Plane.separates_iff_linearIndependent length).mpr independent
      obtain ⟨x, holds⟩ := Plane.exists_common_point length separates
      have typed := (Plane.meet_eq_some_iff det normalised).mpr ⟨n.succ_pos, length, separates, holds⟩
      exact ⟨⟨n + 1, x⟩, by rw [typed, Option.map_some]⟩
  · obtain ⟨x, typed, rfl⟩ := Option.map_eq_some_iff.mp met
    obtain ⟨-, -, separates, holds⟩ := (Plane.meet_eq_some_iff det normalised).mp typed
    refine ⟨x, rfl, holds, fun y also => separates.eq_of_eval_eq ?_⟩
    exact List.forall_mem_map.mpr fun p hp => (also p hp).trans (holds p hp).symm
  · rw [Plane.meet_perm det normalised perm]

/-- The tilted plane and two across it. -/
noncomputable def tiltedSystem : List (Plane ℝ 3) :=
  [tiltedPlane, (HalfSpace.ofUnit ⟨#v[1, 0, 0]⟩ 0).boundary,
    (HalfSpace.ofUnit ⟨#v[0, 0, 1]⟩ (-1)).boundary]

theorem tiltedSystem_normalised : ∀ p ∈ tiltedSystem, p.Normalised := by
  simp only [tiltedSystem, List.forall_mem_cons]
  refine ⟨tiltedPlane_normalised, HalfSpace.normalised_ofUnit ?_ 0, HalfSpace.normalised_ofUnit ?_ (-1),
    by simp⟩
  · rw [Vec.dot_eq_sum, Fin.sum_univ_three]
    show (1 : ℝ) * 1 + 0 * 0 + 0 * 0 = 1
    norm_num
  · rw [Vec.dot_eq_sum, Fin.sum_univ_three]
    show (0 : ℝ) * 0 + 0 * 0 + 1 * 1 = 1
    norm_num

theorem tiltedSystem_separates : Separates (tiltedSystem.map Plane.normal) := by
  intro d flat
  simp only [tiltedSystem, List.map_cons, List.forall_mem_cons, Vec.dot_eq_sum, Fin.sum_univ_three] at flat
  have tilted : 6 / 23 * d.coord 0 + 18 / 23 * d.coord 1 + 13 / 23 * d.coord 2 = 0 := flat.1
  have first : 1 * d.coord 0 + 0 * d.coord 1 + 0 * d.coord 2 = 0 := flat.2.1
  have last : 0 * d.coord 0 + 0 * d.coord 1 + 1 * d.coord 2 = 0 := flat.2.2.1
  apply Vec.ext_coord
  intro i
  rw [Vec.coord_zero]
  fin_cases i
  · show d.coord 0 = 0
    linarith
  · show d.coord 1 = 0
    linarith
  · show d.coord 2 = 0
    linarith

theorem tiltedSystem_holds : ∀ p ∈ tiltedSystem, p.Holds ⟨#v[0, 2, -1]⟩ := by
  simp only [tiltedSystem, List.forall_mem_cons, Plane.Holds, Vec.eval_eq_sum le_rfl, Fin.sum_univ_three]
  refine ⟨?_, ?_, ?_, by simp⟩
  · show (6 / 23 : ℝ) * 0 + 18 / 23 * 2 + 13 / 23 * -1 = 1
    norm_num
  · show (1 : ℝ) * 0 + 0 * 2 + 0 * -1 = 0
    norm_num
  · show (0 : ℝ) * 0 + 0 * 2 + 1 * -1 = -1
    norm_num

/-- Three planes in general position meet in the point that solves their equations, from any of them first. -/
theorem meet_solves_tilted_system :
    (⟨0, 0⟩ : Tolerance ℝ).det = 0 ∧ (∀ p ∈ tiltedSystem, p.Normalised) ∧
    meet ⟨0, 0⟩ (tiltedSystem.map (Sigma.mk 3)) = some ⟨3, ⟨#v[0, 2, -1]⟩⟩ ∧
    meet ⟨0, 0⟩ (tiltedSystem.reverse.map (Sigma.mk 3)) = some ⟨3, ⟨#v[0, 2, -1]⟩⟩ := by
  have det : (⟨0, 0⟩ : Tolerance ℝ).det = 0 := rfl
  have independent := (Plane.separates_iff_linearIndependent rfl).mp tiltedSystem_separates
  obtain ⟨answers, solves, reorders⟩ := meet_solves_system det tiltedSystem_normalised
  obtain ⟨v, met⟩ := answers.mpr ⟨rfl, independent⟩
  obtain ⟨x, rfl, -, only⟩ := solves v met
  rw [← only _ tiltedSystem_holds] at met
  exact ⟨det, tiltedSystem_normalised, met, (reorders _ (List.reverse_perm _).symm).trans met⟩

end AnyPlane

end LowDimLP
