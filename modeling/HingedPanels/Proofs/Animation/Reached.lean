import HingedPanels.Animation

/-!
The animations that come about: created from settings that keep their bounds, and then changed by adding
strips, one by one or several at a time. Every strip in one was built under its settings.
-/

namespace HingedPanels.Animation

variable {S : Type} [Scalar S] [Trig S]

inductive Reached : Animation S → Prop
  | create {settings : Settings S} {a : Animation S} (created : create settings = .ok a) : Reached a
  | add {a : Animation S} (reached : Reached a) (d : Description S) : Reached (a.add d).1
  | addAll {a : Animation S} (reached : Reached a) (ds : List (Description S)) : Reached (a.addAll ds).1

theorem Reached.standard [Trig Float32] : Reached (⟨Settings.standard, #[], []⟩ : Animation Float32) :=
  .create (show Animation.create Settings.standard = _ by rfl)

theorem addAll_induction {P : Animation S → Prop} (step : ∀ a d, P a → P (a.add d).1) (ds : List (Description S))
    {a : Animation S} (holds : P a) : P (a.addAll ds).1 := by
  induction ds generalizing a with
  | nil => exact holds
  | cons d ds ih => exact ih (step a d holds)

theorem Reached.induction {P : Animation S → Prop}
    (start : ∀ settings, settings.check = .ok () → P ⟨settings, #[], []⟩)
    (step : ∀ a d, P a → P (a.add d).1) {a : Animation S} (reached : Reached a) : P a := by
  induction reached with
  | @create settings a created =>
    unfold Animation.create at created
    split at created
    case h_1 accepted =>
      cases created
      exact start settings accepted
    case h_2 => cases created
  | add _ d ih => exact step _ d ih
  | addAll _ ds ih => exact addAll_induction step ds ih

theorem add_outcome (a : Animation S) (d : Description S) :
    ((a.idOf? d.label).isSome ∧ a.add d = (a, .error (.labelInUse d.label))) ∨
    (a.idOf? d.label = none ∧ ∃ fault, Strip.build a.settings d = .error fault ∧ a.add d = (a, .error fault)) ∨
    (a.idOf? d.label = none ∧ ∃ s, Strip.build a.settings d = .ok s ∧ a.add d = (a.insert s, .ok a.strips.size)) := by
  unfold add
  split
  case isTrue used => exact .inl ⟨used, rfl⟩
  case isFalse free =>
    have free := Option.not_isSome_iff_eq_none.mp free
    split
    case h_1 fault failed => exact .inr (.inl ⟨free, fault, failed, rfl⟩)
    case h_2 s built => exact .inr (.inr ⟨free, s, built, rfl⟩)

theorem add_cases (a : Animation S) (d : Description S) :
    (a.add d).1 = a ∨ ∃ s, Strip.build a.settings d = .ok s ∧ (a.add d).1 = a.insert s := by
  rcases add_outcome a d with ⟨_, same⟩ | ⟨_, _, _, same⟩ | ⟨_, s, built, same⟩
  · exact .inl (by rw [same])
  · exact .inl (by rw [same])
  · exact .inr ⟨s, built, by rw [same]⟩

theorem Reached.check_settings {a : Animation S} (reached : Reached a) : a.settings.check = .ok () := by
  apply Reached.induction (P := fun a => a.settings.check = .ok ()) _ _ reached
  · intro settings accepted
    exact accepted
  · intro a d accepted
    rcases add_cases a d with same | ⟨s, _, same⟩
    · rwa [same]
    · rwa [same]

theorem Reached.exists_build {a : Animation S} (reached : Reached a) {id : Nat} {s : Strip S}
    (there : a.strip? id = some s) : ∃ d, Strip.build a.settings d = .ok s := by
  revert there
  apply Reached.induction (P := fun a => a.strip? id = some s → ∃ d, Strip.build a.settings d = .ok s)
    _ _ reached
  · intro settings _ there
    cases there
  · intro a d ih there
    rcases add_cases a d with same | ⟨last, built, same⟩
    · rw [same] at there ⊢
      exact ih there
    · rw [same] at there ⊢
      unfold strip? insert at there
      rw [Array.getElem?_push] at there
      split at there
      · cases there
        exact ⟨d, built⟩
      · exact ih there

end HingedPanels.Animation
