import HingedPanels.Proofs.Animation.Store
import HingedPanels.Proofs.Strip.Assembled
import Mathlib

namespace HingedPanels

namespace Animation

variable {S : Type} {a : Animation S} {ds es : List (Description S)} {results : List (Except (Fault S) Nat)}

/-- The descriptions that were added, in the order in which they came. -/
def accepted (ds : List (Description S)) (results : List (Except (Fault S) Nat)) : List (Description S) :=
  ((ds.zip results).filter (·.2.isOk)).map (·.1)

theorem isOk_iff {r : Except (Fault S) Nat} : r.isOk = true ↔ ∃ id, r = .ok id := by
  cases r <;> simp [Except.isOk, Except.toBool]

theorem mem_accepted_iff {d : Description S} :
    d ∈ accepted ds results ↔ ∃ (k id : Nat), ds[k]? = some d ∧ results[k]? = some (.ok id) := by
  have zipped (x : Description S × Except (Fault S) Nat) :
      x ∈ ds.zip results ↔ ∃ k : Nat, ds[k]? = some x.1 ∧ results[k]? = some x.2 := by
    rw [List.mem_iff_getElem?]
    simp only [List.getElem?_zip_eq_some]
  simp only [accepted, List.mem_map, List.mem_filter, zipped, isOk_iff]
  constructor
  · intro found
    rcases found with ⟨⟨_, _⟩, ⟨⟨k, place, result⟩, id, same⟩, rfl⟩
    exact ⟨k, id, place, result.trans (congrArg some same)⟩
  · intro found
    rcases found with ⟨k, id, place, result⟩
    exact ⟨(d, .ok id), ⟨⟨k, place, result⟩, id, rfl⟩, rfl⟩

theorem length_accepted (matched : ds.length = results.length) :
    (accepted ds results).length = results.countP (·.isOk) := by
  have results_eq : (ds.zip results).map (·.2) = results := List.map_snd_zip matched.ge
  rw [accepted, List.length_map, ← List.countP_eq_length_filter]
  nth_rewrite 2 [← results_eq]
  rw [List.countP_map]
  rfl

/-- No label of the batch is in use, and none occurs twice in it. -/
structure Fresh (a : Animation S) (ds : List (Description S)) : Prop where
  distinct : (ds.map (·.label)).Nodup
  unused : ∀ d ∈ ds, ∀ s ∈ a.strips, s.label ≠ d.label

theorem Fresh.of_perm (fresh : a.Fresh ds) (perm : es.Perm ds) : a.Fresh es where
  distinct := (perm.map (·.label)).nodup_iff.mpr fresh.distinct
  unused d member := fresh.unused d (perm.mem_iff.mp member)

structure Renumbered (b c : Animation S) : Prop where
  settings_eq : b.settings = c.settings
  strips_perm : b.strips.toList.Perm c.strips.toList
  stripOf?_eq : ∀ label, b.stripOf? label = c.stripOf? label

variable [Scalar S] [Trig S]

theorem length_addAll (a : Animation S) (ds : List (Description S)) : (a.addAll ds).2.length = ds.length := by
  induction ds generalizing a with
  | nil => rfl
  | cons d ds ih => simp [addAll, ih]

theorem settings_addAll (a : Animation S) (ds : List (Description S)) : (a.addAll ds).1.settings = a.settings :=
  addAll_induction (P := fun b => b.settings = a.settings) (fun b d kept => (settings_add b d).trans kept) ds rfl

theorem strips_addAll (a : Animation S) (ds : List (Description S)) :
    ∃ added : List (Strip S), (a.addAll ds).1.strips.toList = a.strips.toList ++ added ∧
      (accepted ds (a.addAll ds).2).map (Strip.build a.settings) = added.map .ok := by
  induction ds generalizing a with
  | nil => exact ⟨[], by simp [addAll], rfl⟩
  | cons d ds ih =>
    rcases ih (a.add d).1 with ⟨added, strips, built⟩
    rw [settings_add] at built
    rcases add_outcome a d with ⟨_, same⟩ | ⟨_, fault, _, same⟩ | ⟨_, s, builds, same⟩
    · simp only [addAll, same] at strips built ⊢
      exact ⟨added, strips, built⟩
    · simp only [addAll, same] at strips built ⊢
      exact ⟨added, strips, built⟩
    · simp only [addAll, same] at strips built ⊢
      refine ⟨s :: added, ?_, ?_⟩
      · simpa [Animation.insert] using strips
      · rw [List.map_cons, ← built, ← builds]
        rfl

theorem size_addAll (a : Animation S) (ds : List (Description S)) :
    (a.addAll ds).1.strips.size = a.strips.size + (a.addAll ds).2.countP (·.isOk) := by
  rcases strips_addAll a ds with ⟨added, strips, built⟩
  have total := congrArg List.length strips
  have count := congrArg List.length built
  rw [List.length_map, List.length_map, length_accepted (length_addAll a ds).symm] at count
  rw [List.length_append, Array.length_toList, Array.length_toList] at total
  rw [total, count]

theorem exists_label_addAll_iff {label : String} : (∃ s ∈ (a.addAll ds).1.strips, s.label = label) ↔
    (∃ s ∈ a.strips, s.label = label) ∨ ∃ d ∈ accepted ds (a.addAll ds).2, d.label = label := by
  rcases strips_addAll a ds with ⟨added, strips, built⟩
  have member (s : Strip S) : s ∈ (a.addAll ds).1.strips ↔ s ∈ a.strips ∨ s ∈ added := by
    rw [← Array.mem_toList_iff, strips, List.mem_append, Array.mem_toList_iff]
  constructor
  · intro used
    rcases used with ⟨s, there, rfl⟩
    rcases (member s).mp there with old | new
    · exact .inl ⟨s, old, rfl⟩
    · have image : .ok s ∈ (accepted ds (a.addAll ds).2).map (Strip.build a.settings) := by
        rw [built]
        exact List.mem_map_of_mem new
      rcases List.mem_map.mp image with ⟨d, given, builds⟩
      exact .inr ⟨d, given, (Strip.label_of_build builds).symm⟩
  · intro used
    rcases used with ⟨s, old, rfl⟩ | ⟨d, given, rfl⟩
    · exact ⟨s, (member s).mpr (.inl old), rfl⟩
    · have image : Strip.build a.settings d ∈ added.map .ok := by
        rw [← built]
        exact List.mem_map_of_mem given
      rcases List.mem_map.mp image with ⟨s, new, builds⟩
      exact ⟨s, (member s).mpr (.inr new), Strip.label_of_build builds.symm⟩

/-- A label is taken when the description at place `k` of a batch has its turn: a strip from before bears it,
or an earlier description of the batch that was itself added. -/
def Taken (a : Animation S) (ds : List (Description S)) (k : Nat) (label : String) : Prop :=
  (∃ s ∈ a.strips, s.label = label) ∨
    ∃ j d id, j < k ∧ ds[j]? = some d ∧ (a.addAll ds).2[j]? = some (.ok id) ∧ d.label = label

theorem take_addAll (a : Animation S) (ds : List (Description S)) (k : Nat) :
    (a.addAll (ds.take k)).2 = (a.addAll ds).2.take k := by
  induction ds generalizing a k with
  | nil => simp [addAll]
  | cons d ds ih =>
    cases k with
    | zero => rfl
    | succ k => simp [addAll, ih]

theorem result_addAll {k : Nat} {d : Description S} (place : ds[k]? = some d) :
    (a.addAll ds).2[k]? = some ((a.addAll (ds.take k)).1.add d).2 := by
  induction ds generalizing a k with
  | nil => cases place
  | cons e ds ih =>
    cases k with
    | zero =>
      cases place
      rfl
    | succ k => exact ih (a := (a.add e).1) place

theorem taken_iff {k : Nat} {label : String} :
    a.Taken ds k label ↔ ∃ s ∈ (a.addAll (ds.take k)).1.strips, s.label = label := by
  rw [Taken, exists_label_addAll_iff, take_addAll]
  apply or_congr_right
  constructor
  · intro taken
    rcases taken with ⟨j, d, id, before, place, result, named⟩
    refine ⟨d, mem_accepted_iff.mpr ⟨j, id, ?_, ?_⟩, named⟩
    · rwa [List.getElem?_take_of_lt before]
    · rwa [List.getElem?_take_of_lt before]
  · intro taken
    rcases taken with ⟨d, given, named⟩
    rcases mem_accepted_iff.mp given with ⟨j, id, place, result⟩
    have before : j < k := by
      by_contra beyond
      rw [List.getElem?_take_eq_none (not_lt.mp beyond)] at place
      cases place
    rw [List.getElem?_take_of_lt before] at place result
    exact ⟨j, d, id, before, place, result, named⟩

structure Answers (a : Animation S) (ds : List (Description S)) (k : Nat) (d : Description S)
    (r : Except (Fault S) Nat) : Prop where
  inUse_iff : (∃ label, r = .error (.labelInUse label)) ↔ a.Taken ds k d.label
  inUse : a.Taken ds k d.label → r = .error (.labelInUse d.label)
  fails : ¬ a.Taken ds k d.label → ∀ fault, Strip.build a.settings d = .error fault → r = .error fault
  builds : ¬ a.Taken ds k d.label → ∀ s, Strip.build a.settings d = .ok s →
    r = .ok (a.strips.size + ((a.addAll ds).2.take k).countP (·.isOk))

theorem Reached.answers (reached : a.Reached) {k : Nat} {d : Description S} (place : ds[k]? = some d) :
    ∃ r, (a.addAll ds).2[k]? = some r ∧ a.Answers ds k d r := by
  have step := (reached.addAll (ds.take k)).inStep
  have settings := settings_addAll a (ds.take k)
  have size := size_addAll a (ds.take k)
  rw [take_addAll] at size
  have free_iff : (a.addAll (ds.take k)).1.idOf? d.label = none ↔ ¬ a.Taken ds k d.label := by
    rw [taken_iff, step.idOf?_eq_none_iff]
    simp
  refine ⟨_, result_addAll place, ?_⟩
  rcases add_outcome (a.addAll (ds.take k)).1 d with
    ⟨used, same⟩ | ⟨free, fault, failed, same⟩ | ⟨free, s, built, same⟩
  · have taken : a.Taken ds k d.label := by
      by_contra free
      rw [free_iff.mpr free] at used
      cases used
    rw [same]
    exact ⟨⟨fun _ => taken, fun _ => ⟨_, rfl⟩⟩, fun _ => rfl, absurd taken, absurd taken⟩
  · have untaken := free_iff.mp free
    rw [settings] at failed
    rw [same]
    constructor
    · rcases Strip.build_eq_error_iff.mp failed with ⟨cause, rfl, _⟩
      simp [untaken]
    · exact fun taken => absurd taken untaken
    · intro _ fault' failed'
      rw [failed] at failed'
      cases failed'
      rfl
    · intro _ s built
      rw [failed] at built
      cases built
  · have untaken := free_iff.mp free
    rw [settings] at built
    rw [same, size]
    constructor
    · simp [untaken]
    · exact fun taken => absurd taken untaken
    · intro _ fault failed
      rw [built] at failed
      cases failed
    · exact fun _ _ _ => rfl

theorem Fresh.untaken (fresh : a.Fresh ds) {k : Nat} {d : Description S} (place : ds[k]? = some d) :
    ¬ a.Taken ds k d.label := by
  intro taken
  rcases taken with ⟨s, there, named⟩ | ⟨j, e, id, before, place', _, named⟩
  · exact fresh.unused d (List.mem_of_getElem? place) s there named
  · have apart := List.pairwise_iff_getElem.mp fresh.distinct j k
    rcases List.getElem?_eq_some_iff.mp place with ⟨bound, rfl⟩
    rcases List.getElem?_eq_some_iff.mp place' with ⟨bound', rfl⟩
    simp only [List.length_map, List.getElem_map] at apart
    exact apart bound' bound before named

theorem Fresh.tail {d : Description S} (fresh : a.Fresh (d :: ds)) : (a.add d).1.Fresh ds := by
  have distinct := List.nodup_cons.mp fresh.distinct
  have unused : ∀ e ∈ ds, ∀ s ∈ a.strips, s.label ≠ e.label := by
    intro e member
    exact fresh.unused e (List.mem_cons_of_mem d member)
  refine ⟨distinct.2, ?_⟩
  intro e member s there
  rcases add_cases a d with same | ⟨last, built, same⟩
  · rw [same] at there
    exact unused e member s there
  · rw [same, Animation.insert, Array.mem_push] at there
    rcases there with old | rfl
    · exact unused e member s old
    · rw [Strip.label_of_build built]
      intro named
      exact distinct.1 (List.mem_map.mpr ⟨e, member, named.symm⟩)

theorem Fresh.strips_addAll (fresh : a.Fresh ds) (step : a.InStep) :
    (a.addAll ds).1.strips.toList =
      a.strips.toList ++ ds.filterMap fun d => (Strip.build a.settings d).toOption := by
  induction ds generalizing a with
  | nil => simp [addAll]
  | cons d ds ih =>
    have rest := ih fresh.tail (step.add d)
    have free : a.idOf? d.label = none := step.idOf?_eq_none_iff.mpr (fresh.unused d List.mem_cons_self)
    rw [settings_add] at rest
    rw [addAll]
    rcases add_outcome a d with ⟨used, _⟩ | ⟨_, fault, failed, same⟩ | ⟨_, s, built, same⟩
    · rw [free] at used
      cases used
    · rw [same] at rest ⊢
      simpa [failed, Except.toOption] using rest
    · rw [same] at rest ⊢
      simpa [built, Except.toOption, Animation.insert] using rest

theorem Fresh.renumbered (fresh : a.Fresh ds) (reached : a.Reached) (perm : es.Perm ds) :
    (a.addAll es).1.Renumbered (a.addAll ds).1 := by
  have step := (reached.addAll ds).inStep
  have step' := (reached.addAll es).inStep
  have strips : (a.addAll es).1.strips.toList.Perm (a.addAll ds).1.strips.toList := by
    rw [fresh.strips_addAll reached.inStep, (fresh.of_perm perm).strips_addAll reached.inStep]
    exact (perm.filterMap _).append_left _
  refine ⟨?_, strips, ?_⟩
  · rw [settings_addAll, settings_addAll]
  · intro label
    apply Option.ext
    intro s
    rw [step.stripOf?_eq_some_iff, step'.stripOf?_eq_some_iff, ← Array.mem_toList_iff, ← Array.mem_toList_iff,
      strips.mem_iff]

theorem Fresh.result (fresh : a.Fresh ds) (reached : a.Reached) {k : Nat} {d : Description S}
    (place : ds[k]? = some d) :
    (∀ fault, Strip.build a.settings d = .error fault → (a.addAll ds).2[k]? = some (.error fault)) ∧
      ∀ s, Strip.build a.settings d = .ok s →
        ∃ id, (a.addAll ds).2[k]? = some (.ok id) ∧ (a.addAll ds).1.strip? id = some s := by
  rcases reached.answers place with ⟨r, result, answers⟩
  have untaken := fresh.untaken place
  constructor
  · intro fault failed
    rw [result, answers.fails untaken fault failed]
  · intro s built
    rw [answers.builds untaken s built] at result
    rcases strip?_of_addAll result with ⟨e, s', place', built', there⟩
    rw [place] at place'
    cases place'
    rw [built] at built'
    cases built'
    exact ⟨_, result, there⟩

/-- What adding several strips to an animation that has come about gives. A description is refused for its
label if that is taken when its turn comes, else for what it says, and else its strip gets the next number; the
strips come to stand in the order of their descriptions. Where no label is taken or repeated the order counts
for nothing but the numbers. -/
theorem Reached.batch (reached : a.Reached) (ds : List (Description S)) :
    (a.addAll ds).2.length = ds.length ∧
    (∀ k d, ds[k]? = some d → ∃ r, (a.addAll ds).2[k]? = some r ∧ a.Answers ds k d r) ∧
    (∃ added : List (Strip S), (a.addAll ds).1.strips.toList = a.strips.toList ++ added ∧
      (accepted ds (a.addAll ds).2).map (Strip.build a.settings) = added.map .ok) ∧
    (a.Fresh ds → ∀ es : List (Description S), es.Perm ds →
      (∀ (i j : Nat) (d : Description S), ds[i]? = some d → es[j]? = some d →
        (∃ fault : Fault S, (a.addAll ds).2[i]? = some (.error fault) ∧ (a.addAll es).2[j]? = some (.error fault)) ∨
        ∃ (id id' : Nat) (s : Strip S), (a.addAll ds).2[i]? = some (.ok id) ∧ (a.addAll es).2[j]? = some (.ok id') ∧
          (a.addAll ds).1.strip? id = some s ∧ (a.addAll es).1.strip? id' = some s) ∧
      (a.addAll es).1.Renumbered (a.addAll ds).1) := by
  refine ⟨length_addAll a ds, fun _ _ => reached.answers, strips_addAll a ds, ?_⟩
  intro fresh es perm
  refine ⟨?_, fresh.renumbered reached perm⟩
  intro i j d place place'
  have result := fresh.result reached place
  have result' := (fresh.of_perm perm).result reached place'
  cases outcome : Strip.build a.settings d with
  | error fault => exact .inl ⟨fault, result.1 fault outcome, result'.1 fault outcome⟩
  | ok s =>
    rcases result.2 s outcome with ⟨id, given, there⟩
    rcases result'.2 s outcome with ⟨id', given', there'⟩
    exact .inr ⟨id, id', s, given, given', there, there'⟩

/-- A batch in which a label comes twice and one description cannot be read, and a pair in both orders. -/
theorem Reached.batch_attempts : ∃ (a : Animation Float32) (wing tail : Description Float32), a.Reached ∧
    accepted attempts (a.addAll attempts).2 = [wing, tail] ∧ (a.addAll attempts).2.length = attempts.length ∧
    (a.addAll [wing, tail]).1.labels = [("wing", 0), ("tail", 1)] ∧
    (a.addAll [tail, wing]).1.labels = [("tail", 0), ("wing", 1)] ∧
    ∀ label, (a.addAll [tail, wing]).1.stripOf? label = (a.addAll [wing, tail]).1.stripOf? label := by
  let a : Animation Float32 := ⟨Settings.standard, #[], []⟩
  let wing : Description Float32 := { Description.standard with label := "wing", grammar := "" }
  let tail : Description Float32 := { Description.standard with label := "tail", grammar := "" }
  have reached : a.Reached := Reached.standard
  have fresh : a.Fresh [wing, tail] := ⟨by decide, by simp [a]⟩
  have orders := (reached.batch [wing, tail]).2.2.2 fresh [tail, wing] (List.Perm.swap wing tail [])
  exact ⟨a, wing, tail, reached, by decide +kernel, (reached.batch attempts).1, by decide +kernel,
    by decide +kernel, orders.2.stripOf?_eq⟩

end Animation

end HingedPanels
