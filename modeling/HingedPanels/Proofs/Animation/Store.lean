import HingedPanels.Proofs.Animation.Reached
import Mathlib

namespace HingedPanels

theorem Strip.label_of_build {S : Type} [Scalar S] [Trig S] {settings : Settings S} {d : Description S} {s : Strip S}
    (built : Strip.build settings d = .ok s) : s.label = d.label := by
  unfold Strip.build at built
  split at built
  case h_1 => cases built; rfl
  case h_2 => cases built

namespace Animation

variable {S : Type} {a b c : Animation S}

structure InStep (a : Animation S) : Prop where
  labels_eq : a.labels = a.strips.toList.mapIdx fun i s => (s.label, i)
  nodup : (a.strips.toList.map (·.label)).Nodup

theorem InStep.mem_labels_iff (step : a.InStep) {label : String} {id : Nat} :
    (label, id) ∈ a.labels ↔ ∃ s, a.strip? id = some s ∧ s.label = label := by
  rw [step.labels_eq, List.mem_mapIdx, strip?, ← Array.getElem?_toList]
  constructor
  · rintro ⟨i, bound, same⟩
    cases same
    exact ⟨_, List.getElem?_eq_getElem bound, rfl⟩
  · rintro ⟨s, there, rfl⟩
    obtain ⟨bound, rfl⟩ := List.getElem?_eq_some_iff.mp there
    exact ⟨id, bound, rfl⟩

theorem InStep.id_eq (step : a.InStep) {id id' : Nat} {s s' : Strip S} (there : a.strip? id = some s)
    (there' : a.strip? id' = some s') (same : s.label = s'.label) : id = id' := by
  rw [strip?, ← Array.getElem?_toList] at there there'
  obtain ⟨bound, rfl⟩ := List.getElem?_eq_some_iff.mp there
  obtain ⟨bound', rfl⟩ := List.getElem?_eq_some_iff.mp there'
  have below : id < (a.strips.toList.map (·.label)).length := by simpa using bound
  have below' : id' < (a.strips.toList.map (·.label)).length := by simpa using bound'
  have same' : (a.strips.toList.map (·.label))[id] = (a.strips.toList.map (·.label))[id'] := by simpa using same
  exact step.nodup.getElem_inj_iff.mp same'

theorem InStep.idOf?_eq_some_iff (step : a.InStep) {label : String} {id : Nat} :
    a.idOf? label = some id ↔ ∃ s, a.strip? id = some s ∧ s.label = label := by
  have sound {id : Nat} (found : a.idOf? label = some id) : ∃ s, a.strip? id = some s ∧ s.label = label := by
    obtain ⟨before, after, parts, _⟩ := List.lookup_eq_some_iff.mp found
    apply step.mem_labels_iff.mp
    rw [parts]
    simp
  constructor
  · exact sound
  · rintro ⟨s, there, named⟩
    cases found : a.idOf? label with
    | none =>
      have apart := List.lookup_eq_none_iff.mp found _ (step.mem_labels_iff.mpr ⟨s, there, named⟩)
      simp at apart
    | some id' =>
      rcases sound found with ⟨s', there', named'⟩
      rw [step.id_eq there there' (named.trans named'.symm)]

theorem mem_strips_iff {s : Strip S} : s ∈ a.strips ↔ ∃ id, a.strip? id = some s := Array.mem_iff_getElem?

theorem InStep.stripOf?_eq_some_iff (step : a.InStep) {label : String} {s : Strip S} :
    a.stripOf? label = some s ↔ s ∈ a.strips ∧ s.label = label := by
  rw [stripOf?, Option.bind_eq_some_iff, mem_strips_iff]
  constructor
  · rintro ⟨id, found, there⟩
    rcases step.idOf?_eq_some_iff.mp found with ⟨s', there', named⟩
    rw [there] at there'
    cases there'
    exact ⟨⟨id, there⟩, named⟩
  · rintro ⟨⟨id, there⟩, named⟩
    exact ⟨id, step.idOf?_eq_some_iff.mpr ⟨s, there, named⟩, there⟩

theorem InStep.idOf?_eq_none_iff (step : a.InStep) {label : String} :
    a.idOf? label = none ↔ ∀ s ∈ a.strips, s.label ≠ label := by
  constructor
  · intro free s member named
    obtain ⟨id, there⟩ := mem_strips_iff.mp member
    rw [step.idOf?_eq_some_iff.mpr ⟨s, there, named⟩] at free
    cases free
  · intro apart
    cases found : a.idOf? label with
    | none => rfl
    | some id =>
      rcases step.idOf?_eq_some_iff.mp found with ⟨s, there, named⟩
      exact absurd named (apart s (mem_strips_iff.mpr ⟨id, there⟩))

theorem InStep.stripOf?_eq_none_iff (step : a.InStep) {label : String} :
    a.stripOf? label = none ↔ ∀ s ∈ a.strips, s.label ≠ label := by
  rw [Option.eq_none_iff_forall_ne_some]
  constructor
  · intro missing s member named
    exact missing s (step.stripOf?_eq_some_iff.mpr ⟨member, named⟩)
  · intro apart s found
    obtain ⟨member, named⟩ := step.stripOf?_eq_some_iff.mp found
    exact apart s member named

theorem inStep_start (settings : Settings S) : InStep ⟨settings, #[], []⟩ := ⟨rfl, List.nodup_nil⟩

theorem InStep.insert (step : a.InStep) {s : Strip S} (free : a.idOf? s.label = none) : (a.insert s).InStep where
  labels_eq := by
    simp only [Animation.insert, Array.toList_push, List.mapIdx_append, step.labels_eq]
    simp
  nodup := by
    have apart := step.idOf?_eq_none_iff.mp free
    simp only [Animation.insert, Array.toList_push, List.map_append, List.map_cons, List.map_nil]
    apply List.Nodup.append step.nodup (List.nodup_singleton _)
    simpa using apart

theorem strip?_insert (s : Strip S) {id : Nat} {t : Strip S} (there : a.strip? id = some t) :
    (a.insert s).strip? id = some t := by
  have bound := (Array.getElem?_eq_some_iff.mp there).1
  rw [strip?, Animation.insert, Array.getElem?_push, if_neg (Nat.ne_of_lt bound)]
  exact there

theorem panelCount_eq_sum (a : Animation S) : a.panelCount = (a.strips.toList.map (·.panels.size)).sum := by
  rw [panelCount, List.sum, List.foldr_map]

variable [Scalar S] [Trig S]

theorem add_of_ok {d : Description S} {id : Nat} (added : (a.add d).2 = .ok id) :
    id = a.strips.size ∧ a.idOf? d.label = none ∧
      ∃ s, Strip.build a.settings d = .ok s ∧ (a.add d).1 = a.insert s := by
  rcases add_outcome a d with ⟨_, same⟩ | ⟨_, _, _, same⟩ | ⟨free, s, built, same⟩
  · rw [same] at added
    cases added
  · rw [same] at added
    cases added
  · rw [same] at added ⊢
    cases added
    exact ⟨rfl, free, s, built, rfl⟩

theorem add_ok_of_free {d : Description S} (free : a.idOf? d.label = none) {s : Strip S}
    (built : Strip.build a.settings d = .ok s) : (a.add d).2 = .ok a.strips.size := by
  rcases add_outcome a d with ⟨used, _⟩ | ⟨_, _, failed, _⟩ | ⟨_, _, _, same⟩
  · rw [free] at used
    cases used
  · rw [built] at failed
    cases failed
  · rw [same]

theorem add_of_error {d : Description S} {fault : Fault S} (refused : (a.add d).2 = .error fault) :
    (a.add d).1 = a := by
  rcases add_outcome a d with ⟨_, same⟩ | ⟨_, _, _, same⟩ | ⟨_, s, built, same⟩
  · rw [same]
  · rw [same]
  · rw [same] at refused
    cases refused

theorem InStep.add (step : a.InStep) (d : Description S) : (a.add d).1.InStep := by
  rcases add_outcome a d with ⟨_, same⟩ | ⟨_, _, _, same⟩ | ⟨free, s, built, same⟩
  · rwa [same]
  · rwa [same]
  · rw [same]
    rw [← Strip.label_of_build built] at free
    exact step.insert free

theorem Reached.inStep (reached : a.Reached) : a.InStep :=
  reached.induction (fun settings _ => inStep_start settings) fun _ d step => step.add d

/-- The second animation comes about from the first by adding strips. -/
inductive Later (a : Animation S) : Animation S → Prop
  | refl : Later a a
  | add {b : Animation S} (later : Later a b) (d : Description S) : Later a (b.add d).1
  | addAll {b : Animation S} (later : Later a b) (ds : List (Description S)) : Later a (b.addAll ds).1

theorem Later.induction {P : Animation S → Prop} (start : P a) (step : ∀ b d, P b → P (b.add d).1)
    (later : a.Later b) : P b := by
  induction later with
  | refl => exact start
  | add _ d ih => exact step _ d ih
  | addAll _ ds ih => exact addAll_induction step ds ih

theorem strip?_add (d : Description S) {id : Nat} {s : Strip S} (there : a.strip? id = some s) :
    (a.add d).1.strip? id = some s := by
  rcases add_cases a d with same | ⟨last, _, same⟩
  · rwa [same]
  · rw [same]
    exact strip?_insert last there

theorem Later.strip?_eq (later : a.Later b) {id : Nat} {s : Strip S} (there : a.strip? id = some s) :
    b.strip? id = some s :=
  later.induction (P := fun b => b.strip? id = some s) there fun _ d => strip?_add d

theorem settings_add (a : Animation S) (d : Description S) : (a.add d).1.settings = a.settings := by
  rcases add_cases a d with same | ⟨_, _, same⟩ <;> rw [same]
  rfl

theorem strip?_of_add {d : Description S} {id : Nat} (added : (a.add d).2 = .ok id) :
    ∃ s, Strip.build a.settings d = .ok s ∧ (a.add d).1.strip? id = some s := by
  rcases add_of_ok added with ⟨rfl, _, s, built, same⟩
  refine ⟨s, built, ?_⟩
  rw [same]
  exact Array.getElem?_push_size

theorem strip?_of_addAll {ds : List (Description S)} {k id : Nat} (added : (a.addAll ds).2[k]? = some (.ok id)) :
    ∃ d s, ds[k]? = some d ∧ Strip.build a.settings d = .ok s ∧ (a.addAll ds).1.strip? id = some s := by
  induction ds generalizing a k with
  | nil => cases added
  | cons d ds ih =>
    cases k with
    | zero =>
      rcases strip?_of_add (Option.some.inj added) with ⟨s, built, there⟩
      exact ⟨d, s, rfl, built, addAll_induction (P := fun b => b.strip? id = some s) (fun _ d => strip?_add d) ds there⟩
    | succ k =>
      rcases ih (a := (a.add d).1) added with ⟨d', s, place, built, there⟩
      rw [settings_add] at built
      exact ⟨d', s, place, built, there⟩

/-- The store of an animation that has come about. Its labels and its strips are in step, an addition
appends one strip or changes nothing, and a number keeps naming the strip that it was given for. -/
theorem Reached.store (reached : a.Reached) :
    a.InStep ∧
    (∀ label s, a.stripOf? label = some s ↔ s ∈ a.strips ∧ s.label = label) ∧
    (∀ label, a.stripOf? label = none ↔ ∀ s ∈ a.strips, s.label ≠ label) ∧
    a.panelCount = (a.strips.toList.map (·.panels.size)).sum ∧
    (∀ d id, (a.add d).2 = .ok id ↔ id = a.strips.size ∧ (∀ s ∈ a.strips, s.label ≠ d.label) ∧
      ∃ s, Strip.build a.settings d = .ok s ∧ (a.add d).1.settings = a.settings ∧ (a.add d).1.strips = a.strips.push s) ∧
    (∀ d fault, (a.add d).2 = .error fault → (a.add d).1 = a) ∧
    (∀ d id c, (a.add d).2 = .ok id → (a.add d).1.Later c →
      ∃ s, Strip.build a.settings d = .ok s ∧ c.strip? id = some s) ∧
    ∀ (ds : List (Description S)) (k id : Nat) (c : Animation S), (a.addAll ds).2[k]? = some (.ok id) →
      (a.addAll ds).1.Later c → ∃ d s, ds[k]? = some d ∧ Strip.build a.settings d = .ok s ∧ c.strip? id = some s := by
  have step := reached.inStep
  refine ⟨step, fun _ _ => step.stripOf?_eq_some_iff, fun _ => step.stripOf?_eq_none_iff, panelCount_eq_sum a, ?_,
    fun _ _ => add_of_error, ?_, ?_⟩
  · intro d id
    constructor
    · intro added
      rcases add_of_ok added with ⟨number, free, s, built, same⟩
      refine ⟨number, step.idOf?_eq_none_iff.mp free, s, built, ?_, ?_⟩ <;> rw [same] <;> rfl
    · rintro ⟨rfl, apart, s, built, _⟩
      exact add_ok_of_free (step.idOf?_eq_none_iff.mpr apart) built
  · intro d id c added later
    rcases strip?_of_add added with ⟨s, built, there⟩
    exact ⟨s, built, later.strip?_eq there⟩
  · intro ds k id c added later
    rcases strip?_of_addAll added with ⟨d, s, place, built, there⟩
    exact ⟨d, s, place, built, later.strip?_eq there⟩

/-- The second strip takes the label of the first, and the third cannot be read until its next attempt. -/
def attempts : List (Description Float32) :=
  [("wing", ""), ("wing", ""), ("tail", "A9"), ("tail", "")].map fun (label, grammar) =>
    { Description.standard with label, grammar }

theorem Reached.store_retry : ∃ a : Animation Float32, a.Reached ∧ a.labels = [("wing", 0), ("tail", 1)] ∧
    a.InStep ∧ ∀ label s, a.stripOf? label = some s ↔ s ∈ a.strips ∧ s.label = label := by
  have reached := Reached.standard.addAll attempts
  have store := reached.store
  exact ⟨_, reached, by decide +kernel, store.1, store.2.1⟩

end Animation

end HingedPanels
