import HingedPanels.Proofs.Animation.Settled
import Mathlib

namespace HingedPanels

section Numbering

variable {α β γ : Type} {f : Nat → α → β}

theorem pairwise_mapIdx_of_lt {R : β → β → Prop} (ordered : ∀ i j x y, i < j → R (f i x) (f j y)) (xs : List α) :
    (xs.mapIdx f).Pairwise R := by
  rw [List.pairwise_iff_getElem]
  intro i j _ _ below
  simpa using ordered i j _ _ below

theorem map_mapIdx (g : β → γ) (xs : List α) : (xs.mapIdx f).map g = xs.mapIdx fun i x => g (f i x) := by
  apply List.ext_getElem
  · simp
  · simp

theorem mapIdx_eq_map (g : α → β) (xs : List α) : (xs.mapIdx fun _ x => g x) = xs.map g := by
  apply List.ext_getElem
  · simp
  · simp

end Numbering

namespace Split

variable {α β : Type}

theorem flatMap_eq (split : Split) (f : α → List β) (xs : List α) : split.flatMap f xs = xs.flatMap f := by
  induction split generalizing xs with
  | whole => rfl
  | cut position before after before_ih after_ih =>
    rw [flatMap, before_ih, after_ih, ← List.flatMap_append, List.take_append_drop]

def pieces : Split → Nat → List α → List (List (Nat × α))
  | whole, start, xs => [xs.mapIdx fun i x => (start + i, x)]
  | cut position before after, start, xs =>
    before.pieces start (xs.take position) ++ after.pieces (start + position) (xs.drop position)

theorem flatten_pieces (split : Split) (start : Nat) (xs : List α) :
    (split.pieces start xs).flatten = xs.mapIdx fun i x => (start + i, x) := by
  induction split generalizing start xs with
  | whole => simp [pieces]
  | cut position before after before_ih after_ih =>
    rw [pieces, List.flatten_append, before_ih, after_ih]
    rcases Nat.le_total position xs.length with inside | beyond
    · have length_take : (xs.take position).length = position := List.length_take_of_le inside
      conv_rhs => rw [← List.take_append_drop position xs, List.mapIdx_append, length_take]
      simp only [Nat.add_assoc, Nat.add_comm position]
    · rw [List.take_of_length_le beyond, List.drop_of_length_le beyond]
      simp

/-- Works on numbered pieces in the order in which they come up, and joins the results by their numbers. -/
def joined (f : α → List β) (jobs : List (Nat × α)) : List β :=
  ((jobs.map fun job => (job.1, f job.2)).mergeSort fun x y => x.1 ≤ y.1).flatMap (·.2)

/-- What is numbered from zero on has one order by its numbers, whatever order it came in. -/
theorem mergeSort_eq_of_perm {f : α → β} {xs : List α} {done : List (Nat × β)}
    (all : done.Perm (xs.mapIdx fun k x => (k, f x))) :
    (done.mergeSort fun x y => x.1 ≤ y.1) = xs.mapIdx fun k x => (k, f x) := by
  have same := (List.mergeSort_perm done fun x y => x.1 ≤ y.1).trans all
  have sorted : (done.mergeSort fun x y => x.1 ≤ y.1).Pairwise fun x y => decide (x.1 ≤ y.1) = true := by
    apply List.pairwise_mergeSort
    · intro x y z
      simpa using Nat.le_trans
    · intro x y
      simpa using Nat.le_total x.1 y.1
  have numbered : (xs.mapIdx fun k x => (k, f x)).Pairwise fun x y => decide (x.1 ≤ y.1) = true := by
    apply pairwise_mapIdx_of_lt
    intro i j _ _ below
    simpa using Nat.le_of_lt below
  apply List.Perm.eq_of_pairwise _ sorted numbered same
  intro x y left right below above
  rcases List.mem_mapIdx.mp (same.mem_iff.mp left) with ⟨i, _, rfl⟩
  rcases List.mem_mapIdx.mp right with ⟨j, _, rfl⟩
  cases Nat.le_antisymm (of_decide_eq_true below) (of_decide_eq_true above)
  rfl

theorem joined_eq_flatMap {f : α → List β} {xs : List α} {jobs : List (Nat × α)}
    (all : jobs.Perm (xs.mapIdx Prod.mk)) : joined f jobs = xs.flatMap f := by
  have done : (jobs.map fun job => (job.1, f job.2)).Perm (xs.mapIdx fun k x => (k, f x)) := by
    simpa only [map_mapIdx] using all.map fun job => (job.1, f job.2)
  rw [joined, mergeSort_eq_of_perm done, List.flatMap_def, map_mapIdx, mapIdx_eq_map, List.flatMap_def]

end Split

variable {S : Type}

def Tagged.Before (x y : Tagged S) : Prop :=
  x.strip < y.strip ∨ (x.strip = y.strip ∧ x.panel.index < y.panel.index)

theorem Animation.pairwise_numbered (a : Animation S) : a.numbered.Pairwise fun s t => s.1 < t.1 := by
  apply pairwise_mapIdx_of_lt
  intro i j _ _ below
  exact below

variable [Scalar S] [Trig S]

theorem Strip.length_sample (s : Strip S) (time : S) : (s.sample time).length = s.panels.size := by
  simp [Strip.sample]

theorem Strip.pairwise_sample (s : Strip S) (time : S) : (s.sample time).Pairwise fun x y => x.index < y.index := by
  apply pairwise_mapIdx_of_lt
  intro i j _ _ below
  exact below

namespace Animation

theorem length_frame (a : Animation S) (time : S) : (a.frame time).length = a.panelCount := by
  have length_tag (i : Nat) (s : Strip S) : (tag time (i, s)).length = s.panels.size := by
    rw [tag, List.length_map, Strip.length_sample]
  simp only [frame, numbered, List.length_flatMap, map_mapIdx, length_tag, mapIdx_eq_map, panelCount_eq_sum]

theorem pairwise_frame (a : Animation S) (time : S) : (a.frame time).Pairwise Tagged.Before := by
  rw [frame, List.pairwise_flatMap]
  constructor
  · intro s _
    rw [tag, List.pairwise_map]
    exact (s.2.pairwise_sample time).imp fun below => .inr ⟨rfl, below⟩
  · apply a.pairwise_numbered.imp
    intro s t below x left y right
    rcases List.mem_map.mp left with ⟨_, _, rfl⟩
    rcases List.mem_map.mp right with ⟨_, _, rfl⟩
    exact .inl below

theorem exists_mem_frame_iff {a : Animation S} {time : S} {id i : Nat} :
    (∃ x ∈ a.frame time, x.strip = id ∧ x.panel.index = i) ↔ ∃ s, a.strip? id = some s ∧ i < s.panels.size := by
  constructor
  · rintro ⟨x, member, rfl, rfl⟩
    rcases mem_frame_iff.mp member with ⟨s, panel, there, place, _⟩
    exact ⟨s, there, (Array.getElem?_eq_some_iff.mp place).1⟩
  · rintro ⟨s, there, bound⟩
    have place : s.panels[i]? = some s.panels[i] := Array.getElem?_eq_getElem bound
    exact ⟨⟨id, s.panels[i].sample i time⟩, mem_frame_iff.mpr ⟨s, s.panels[i], there, place, rfl⟩, rfl, rfl⟩

theorem frameBy_eq (split : Split) (a : Animation S) (time : S) : frameBy split a time = a.frame time :=
  split.flatMap_eq _ _

theorem joined_pieces_eq {a : Animation S} {split : Split} {jobs : List (Nat × List (Nat × Strip S))}
    (all : jobs.Perm ((split.pieces 0 a.strips.toList).mapIdx Prod.mk)) (time : S) :
    Split.joined (·.flatMap (tag time)) jobs = a.frame time := by
  have numbered_eq : (split.pieces 0 a.strips.toList).flatten = a.numbered := by
    simpa [numbered] using split.flatten_pieces 0 a.strips.toList
  rw [Split.joined_eq_flatMap all, frame, ← numbered_eq, ← List.flatMap_id, List.flatMap_assoc]
  rfl

/-- A frame holds every panel of every strip once, strip after strip and in the order of the panels, each as
it is sampled by itself. Cutting the strips into pieces, down to any size, and sampling the pieces in any
order changes nothing. -/
theorem frame_in_order (a : Animation S) (time : S) :
    (a.frame time).length = a.panelCount ∧
    (a.frame time).Pairwise Tagged.Before ∧
    (∀ id i, (∃ x ∈ a.frame time, x.strip = id ∧ x.panel.index = i) ↔
      ∃ s, a.strip? id = some s ∧ i < s.panels.size) ∧
    (∀ x ∈ a.frame time, ∃ s panel, a.strip? x.strip = some s ∧ s.panels[x.panel.index]? = some panel ∧
      x.panel = panel.sample x.panel.index time) ∧
    a.frameInPieces time = a.frame time ∧
    ∀ split : Split, frameBy split a time = a.frame time ∧
      ∀ jobs, jobs.Perm ((split.pieces 0 a.strips.toList).mapIdx Prod.mk) →
        Split.joined (·.flatMap (tag time)) jobs = a.frame time := by
  refine ⟨a.length_frame time, a.pairwise_frame time, ?_, ?_, frameBy_eq _ a time, ?_⟩
  · intro id i
    exact exists_mem_frame_iff
  · intro x member
    exact mem_frame_iff.mp member
  · intro split
    refine ⟨frameBy_eq split a time, ?_⟩
    intro jobs all
    exact joined_pieces_eq all time

/-- The corner of a box and a post, a piece for each of them, while the box still folds up. The post is
sampled first. -/
theorem frame_in_order_corner : ∃ (a : Animation Float32) (corner post : List (Nat × Strip Float32)),
    @Reached _ _ tableTrig a ∧ (Split.cut 1 .whole .whole).pieces 0 a.strips.toList = [corner, post] ∧
      (@frame _ _ tableTrig a (Float32.ofBits 0x3f000000)).length = 4 ∧
      Split.joined (·.flatMap (@tag _ _ tableTrig (Float32.ofBits 0x3f000000))) [(1, post), (0, corner)] =
        @frame _ _ tableTrig a (Float32.ofBits 0x3f000000) := by
  let _ : Trig Float32 := tableTrig
  let a := (addAll ⟨Settings.standard, #[], []⟩ [.corner, .post]).1
  have count : a.panelCount = 4 := by decide +kernel
  rcases a.frame_in_order (Float32.ofBits 0x3f000000) with ⟨complete, _, _, _, _, split⟩
  refine ⟨a, _, _, Reached.standard.addAll _, rfl, complete.trans count, ?_⟩
  apply (split (.cut 1 .whole .whole)).2
  exact List.Perm.swap _ _ []

end Animation

end HingedPanels
