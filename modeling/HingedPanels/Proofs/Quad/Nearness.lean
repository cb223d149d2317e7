import HingedPanels.Proofs.Single.Latest
import HingedPanels.Proofs.Single.Missing
import HingedPanels.Quad

namespace HingedPanels

open Single

section Coordinates

variable {S : Type}

def Vec3.coordinate (v : Vec3 S) : Fin 3 → S
  | 0 => v.x
  | 1 => v.y
  | 2 => v.z

def Quad.distance [Scalar S] (p q : Quad S) (i : Fin 4) : S := (p.corner i - q.corner i).length

theorem Quad.forall_distance_iff [Scalar S] {p q : Quad S} {P : S → Prop} :
    (∀ d ∈ p.corners.zipWith (fun a b => (a - b).length) q.corners, P d) ↔ ∀ i, P (p.distance q i) := by
  simp only [corners, List.zipWith_cons_cons, List.zipWith_nil_left, List.forall_mem_cons, Fin.forall_fin_succ]
  simp [distance, corner]

end Coordinates

namespace Vec3

variable {v : Vec3 Float32}

theorem nonneg_length (numbers : ∀ k, (v.coordinate k).isNaN = false) : 0 ≤ v.length :=
  nonneg_sqrt (nonneg_add (nonneg_add (nonneg_mul_self (numbers 0)) (nonneg_mul_self (numbers 1)))
    (nonneg_mul_self (numbers 2)))

theorem isNaN_length {k : Fin 3} (missing : (v.coordinate k).isNaN = true) : v.length.isNaN = true := by
  apply isNaN_sqrt
  match k with
  | 0 => exact isNaN_add_left (isNaN_add_left (isNaN_mul_self missing) _) _
  | 1 => exact isNaN_add_left (isNaN_add_right _ (isNaN_mul_self missing)) _
  | 2 => exact isNaN_add_right _ (isNaN_mul_self missing)

/-- A length past the largest finite number is infinite, and still a number. -/
theorem isNaN_length_iff : v.length.isNaN = true ↔ ∃ k, (v.coordinate k).isNaN = true := by
  constructor
  · intro missing
    by_contra numbers
    simp only [not_exists, Bool.not_eq_true] at numbers
    rw [number_right (nonneg_length numbers)] at missing
    cases missing
  · rintro ⟨k, missing⟩
    exact isNaN_length missing

theorem nonneg_of_number (number : v.length.isNaN = false) : 0 ≤ v.length := by
  apply nonneg_length
  intro k
  by_contra missing
  rw [isNaN_length (Bool.not_eq_false _ ▸ missing)] at number
  cases number

end Vec3

namespace Quad

variable {p q : Quad Float32} {epsilon : Float32}

theorem isNaN_distance_iff {i : Fin 4} : (p.distance q i).isNaN = true ↔
    ∃ k, NoDifference ((p.corner i).coordinate k) ((q.corner i).coordinate k) := by
  rw [distance, Vec3.isNaN_length_iff]
  apply exists_congr
  intro k
  rw [← isNaN_sub_iff]
  match k with
  | 0 | 1 | 2 => rfl

theorem approxEq_iff : p.approxEq q epsilon = true ↔
    0 ≤ epsilon ∧ ∀ i, (p.distance q i).isNaN = false → p.distance q i ≤ epsilon := by
  rw [approxEq, decide_eq_true_iff, maxDistance, foldl_later_le_iff _ rfl]
  exact and_congr_right fun _ => forall_distance_iff

theorem approxEq_iff_of_numbers (numbers : ∀ i, (p.distance q i).isNaN = false) :
    p.approxEq q epsilon = true ↔ ∀ i, p.distance q i ≤ epsilon := by
  rw [approxEq_iff]
  constructor
  · rintro ⟨_, near⟩ i
    exact near i (numbers i)
  · intro near
    exact ⟨le_trans_single (Vec3.nonneg_of_number (numbers 0)) (near 0), fun i _ => near i⟩

theorem not_distance_le {i : Fin 4} (missing : (p.distance q i).isNaN = true) : ¬ p.distance q i ≤ epsilon := by
  intro near
  rw [number_left near] at missing
  cases missing

/-- Which quads count as near. A corner whose distance is no number is passed over, which is so if a coordinate
is none or infinite in both quads on the same side. If there is no such corner, the quads are near exactly if the
distance of every corner is within the bound. -/
theorem approxEq_single (p q : Quad Float32) (epsilon : Float32) :
    (p.approxEq q epsilon = true ↔
      0 ≤ epsilon ∧ ∀ i, (p.distance q i).isNaN = false → p.distance q i ≤ epsilon) ∧
    (∀ i, (p.distance q i).isNaN = true ↔
      ∃ k, NoDifference ((p.corner i).coordinate k) ((q.corner i).coordinate k)) ∧
    (∀ i, (p.distance q i).isNaN = true → ¬ p.distance q i ≤ epsilon) ∧
    ((∀ i, (p.distance q i).isNaN = false) → (p.approxEq q epsilon = true ↔ ∀ i, p.distance q i ≤ epsilon)) :=
  ⟨approxEq_iff, fun _ => isNaN_distance_iff, fun _ => not_distance_le, approxEq_iff_of_numbers⟩

def endless : Quad Float32 := { unitSquare with c2 := ⟨Float32.ofBits 0x7f800000, 1, 0⟩ }

/-- An infinite distance is a number. It is within an infinite bound and no other. -/
theorem approxEq_single_endless :
    endless.approxEq unitSquare (Float32.ofBits 0x7f800000) = true ∧
      endless.approxEq unitSquare (Float32.ofBits 0x7f7fffff) = false := by
  have numbers : ∀ i, (endless.distance unitSquare i).isNaN = false := by decide +kernel
  have within : ∀ i, endless.distance unitSquare i ≤ Float32.ofBits 0x7f800000 := by decide +kernel
  have beyond : ¬ endless.distance unitSquare 2 ≤ Float32.ofBits 0x7f7fffff := by decide +kernel
  refine ⟨((approxEq_single endless unitSquare _).2.2.2 numbers).mpr within, ?_⟩
  rw [Bool.eq_false_iff]
  intro near
  exact beyond (((approxEq_single endless unitSquare _).2.2.2 numbers).mp near 2)

def torn : Quad Float32 := { unitSquare with c0 := ⟨Float32.ofBits 0x7fc00000, 0, 0⟩ }

/-- A quad may count as near although one of its corners is at no distance from anything. -/
theorem approxEq_torn :
    torn.approxEq unitSquare Scalar.tolerance = true ∧ ¬ torn.distance unitSquare 0 ≤ Scalar.tolerance := by
  decide +kernel

end Quad

end HingedPanels
