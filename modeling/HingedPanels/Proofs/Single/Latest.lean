import HingedPanels.Proofs.Single.Number
import HingedPanels.Scalar
import Mathlib

namespace HingedPanels.Single

open Scalar (later)

variable {a b time : Float32}

theorem isNumber_iff {x : Float32} : Scalar.IsNumber x ↔ x.isNaN = false :=
  ⟨number_left, le_refl_single⟩

theorem later_of_number (number : a.isNaN = false) :
    later a b = if b < a ∨ b.isNaN = true then a else b := by
  simp only [later, isNumber_iff, number, true_and, Bool.not_eq_false]

theorem number_later (number : a.isNaN = false) : (later a b).isNaN = false := by
  rw [later_of_number number]
  split
  case isTrue => exact number
  case isFalse apart => exact Bool.eq_false_iff.mpr (not_or.mp apart).2

theorem le_of_lt_single (before : b < a) : b ≤ a := by
  rw [lt_iff_valueOf] at before
  exact le_iff_valueOf.mpr ⟨before.1, before.2.1, before.2.2.le⟩

/-- Of two values a number and something else, what is no number does not count. -/
theorem later_le_iff (number : a.isNaN = false) :
    later a b ≤ time ↔ a ≤ time ∧ (b.isNaN = false → b ≤ time) := by
  rw [later_of_number number]
  split
  case isTrue above =>
    have covered (ended : a ≤ time) (number' : b.isNaN = false) : b ≤ time := by
      rcases above with before | missing
      · exact le_trans_single (le_of_lt_single before) ended
      · exact absurd missing (Bool.eq_false_iff.mp number')
    exact ⟨fun ended => ⟨ended, covered ended⟩, And.left⟩
  case isFalse apart =>
    have number' : b.isNaN = false := Bool.eq_false_iff.mpr (not_or.mp apart).2
    have above : a ≤ b := (not_lt_iff_le number' number).mp (not_or.mp apart).1
    exact ⟨fun ended => ⟨le_trans_single above ended, fun _ => ended⟩, fun both => both.2 number'⟩

theorem number_foldl_later (xs : List Float32) (number : a.isNaN = false) :
    (xs.foldl later a).isNaN = false := by
  induction xs generalizing a with
  | nil => exact number
  | cons x xs ih => exact ih (number_later number)

theorem foldl_later_le_iff (xs : List Float32) (number : a.isNaN = false) :
    xs.foldl later a ≤ time ↔ a ≤ time ∧ ∀ x ∈ xs, x.isNaN = false → x ≤ time := by
  induction xs generalizing a with
  | nil => simp
  | cons x xs ih =>
    rw [List.foldl_cons, ih (number_later number), later_le_iff number, List.forall_mem_cons, and_assoc]

theorem earliest_le_iff : Earliest.earliest ≤ time ↔ time.isNaN = false := by
  rw [le_iff_valueOf]
  exact ⟨fun before => before.2.1, fun number => ⟨rfl, number, bot_le⟩⟩

theorem latest_le_iff {α : Type} {f : α → Float32} {xs : List α} (numbers : ∀ x ∈ xs, (f x).isNaN = false) :
    (xs.map f).foldl later Earliest.earliest ≤ time ↔ time.isNaN = false ∧ ∀ x ∈ xs, f x ≤ time := by
  rw [foldl_later_le_iff _ rfl, earliest_le_iff, List.forall_mem_map]
  apply and_congr_right
  intro _
  exact forall₂_congr fun x member => ⟨fun ended => ended (numbers x member), fun ended _ => ended⟩

end HingedPanels.Single
