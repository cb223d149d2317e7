import HingedPanels.Proofs.Animation.Frames
import HingedPanels.Vertex

namespace HingedPanels

section Groups

variable {α β : Type} {f : α → List β} {width : Nat} (same : ∀ x, (f x).length = width)

include same

theorem length_flatMap_groups (xs : List α) : (xs.flatMap f).length = width * xs.length := by
  simp only [List.length_flatMap, same, List.map_const', List.sum_const_nat]
  exact Nat.mul_comm _ _

variable {xs : List α} {k : Nat} {x : α}

theorem group_flatMap (there : xs[k]? = some x) : ((xs.flatMap f).drop (width * k)).take width = f x := by
  induction xs generalizing k with
  | nil => cases there
  | cons first rest ih =>
    cases k with
    | zero =>
      cases there
      exact List.take_left' (same x)
    | succ k =>
      have offset : width * (k + 1) = (f first).length + width * k := by
        rw [same, Nat.mul_succ, Nat.add_comm]
      rw [List.flatMap_cons, offset, List.drop_length_add_append]
      exact ih there

theorem getElem?_flatMap_groups (there : xs[k]? = some x) {j : Nat} (inside : j < width) :
    (xs.flatMap f)[width * k + j]? = (f x)[j]? := by
  rw [← group_flatMap same there, List.getElem?_take_of_lt inside, List.getElem?_drop]

end Groups

section Triangles

/-- Every number that is computed on the way is one of the six, so none of them wraps around. -/
theorem toNat_triangles {q : Nat} (small : 4 * q + 3 < UInt32.size) :
    (triangles (.ofNat q)).map UInt32.toNat = [0, 1, 2, 0, 2, 3].map (4 * q + ·) := by
  have size : UInt32.size = 2 ^ 32 := rfl
  have base : (UInt32.ofNat q * 4).toNat = 4 * q := by
    simp only [UInt32.toNat_mul, UInt32.toNat_ofNat, UInt32.toNat_ofNat']
    omega
  have step (i : UInt32) (corner : i.toNat ≤ 3) : (UInt32.ofNat q * 4 + i).toNat = 4 * q + i.toNat := by
    rw [UInt32.toNat_add, base]
    exact Nat.mod_eq_of_lt (by omega)
  simp only [triangles, List.map_cons, List.map_nil, base, step 1 (by decide), step 2 (by decide),
    step 3 (by decide)]
  rfl

variable {n : Nat} (small : n ≤ 2 ^ 30)

include small

theorem quadIndices_eq : quadIndices n = (List.range n).flatMap fun q => triangles (.ofNat q) := by
  have size : UInt32.size = 2 ^ 32 := rfl
  rw [quadIndices, Nat.mod_eq_of_lt (by omega)]

theorem map_toNat_quadIndices : (quadIndices n).map UInt32.toNat =
    (List.range n).flatMap fun q => [0, 1, 2, 0, 2, 3].map (4 * q + ·) := by
  have size : UInt32.size = 2 ^ 32 := rfl
  rw [quadIndices_eq small, List.map_flatMap]
  apply List.flatMap_congr
  intro q below
  have below := List.mem_range.mp below
  exact toNat_triangles (by omega)

theorem length_quadIndices : (quadIndices n).length = 6 * n := by
  have six : ∀ q, (triangles (.ofNat q)).length = 6 := fun _ => rfl
  rw [quadIndices_eq small, length_flatMap_groups six, List.length_range]

theorem group_quadIndices {k : Nat} (below : k < n) :
    (((quadIndices n).drop (6 * k)).take 6).map UInt32.toNat = [0, 1, 2, 0, 2, 3].map (4 * k + ·) := by
  have six : ∀ q, ([0, 1, 2, 0, 2, 3].map (4 * q + ·)).length = 6 := fun _ => rfl
  rw [List.map_take, List.map_drop, map_toNat_quadIndices small]
  exact group_flatMap six (List.getElem?_range below)

theorem mem_quadIndices_iff {v : Nat} : v ∈ (quadIndices n).map UInt32.toNat ↔ v < 4 * n := by
  rw [map_toNat_quadIndices small, List.mem_flatMap]
  constructor
  · rintro ⟨q, inside, member⟩
    rcases List.mem_map.mp member with ⟨i, corner, rfl⟩
    have inside := List.mem_range.mp inside
    have corners : ∀ i ∈ [0, 1, 2, 0, 2, 3], i ≤ 3 := by decide
    have corner := corners i corner
    omega
  · intro below
    have corner : v % 4 ∈ [0, 1, 2, 0, 2, 3] := by
      have inside : v % 4 < 4 := Nat.mod_lt v (by decide)
      simp only [List.mem_cons, List.not_mem_nil, or_false]
      omega
    exact ⟨v / 4, List.mem_range.mpr (by omega), List.mem_map.mpr ⟨v % 4, corner, Nat.div_add_mod v 4⟩⟩

end Triangles

variable {S : Type}

theorem Sample.length_vertices (x : Sample S) : x.vertices.length = 4 := rfl

theorem Sample.getElem?_vertices (x : Sample S) (i : Fin 4) :
    x.vertices[i.val]? = some ⟨x.geometry.corner i, x.material⟩ := by
  match i with
  | 0 | 1 | 2 | 3 => rfl

namespace Animation

variable [Scalar S] [Trig S] (a : Animation S) (time : S)

def shown : List (Tagged S) := (a.frame time).filter (·.panel.visible)

theorem filter_tag (s : Nat × Strip S) :
    (tag time s).filter (·.panel.visible) = (s.2.visible time).map (⟨s.1, ·⟩) := by
  rw [tag, List.filter_map]
  rfl

theorem frameVertices_frame :
    frameVertices (a.frame time) = a.strips.toList.flatMap (·.vertices time) := by
  have each (s : Nat × Strip S) :
      ((tag time s).filter (·.panel.visible)).flatMap (·.panel.vertices) = s.2.vertices time := by
    rw [filter_tag, List.flatMap_map]
    rfl
  rw [frameVertices, frame, List.filter_flatMap, List.flatMap_assoc]
  simp only [each]
  rw [List.flatMap_def, List.flatMap_def, numbered, map_mapIdx]
  exact congrArg List.flatten (mapIdx_eq_map (·.vertices time) a.strips.toList)

theorem length_frameVertices : (frameVertices (a.frame time)).length = 4 * (a.shown time).length :=
  length_flatMap_groups (fun x => x.panel.length_vertices) _

theorem getElem?_frameVertices {k : Nat} {x : Tagged S} (there : (a.shown time)[k]? = some x) (i : Fin 4) :
    (frameVertices (a.frame time))[4 * k + i.val]? = some ⟨x.panel.geometry.corner i, x.panel.material⟩ := by
  rw [← x.panel.getElem?_vertices i]
  exact getElem?_flatMap_groups (fun x => x.panel.length_vertices) there i.isLt

theorem triangles_frameVertices (small : (a.shown time).length ≤ 2 ^ 30) {k : Nat} {x : Tagged S}
    (there : (a.shown time)[k]? = some x) :
    (((quadIndices (a.shown time).length).drop (6 * k)).take 6).map ((frameVertices (a.frame time))[·.toNat]?) =
      [0, 1, 2, 0, 2, 3].map fun i : Fin 4 => some ⟨x.panel.geometry.corner i, x.panel.material⟩ := by
  have below : k < (a.shown time).length := (List.getElem?_eq_some_iff.mp there).1
  calc
    _ = ((((quadIndices (a.shown time).length).drop (6 * k)).take 6).map UInt32.toNat).map
        ((frameVertices (a.frame time))[·]?) := (List.map_map ..).symm
    _ = [0, 1, 2, 0, 2, 3].map fun i : Fin 4 => (frameVertices (a.frame time))[4 * k + i.val]? := by
      rw [group_quadIndices small below, List.map_map]
      rfl
    _ = _ := by simp only [a.getElem?_frameVertices time there]

/-- How a frame is drawn. Its vertices are those of its strips in turn, four for each panel that is shown, in
the order of the panels and of their corners. The triangles of up to `2 ^ 30` quads are numbered exactly; those
of a quad join corners of its own group, and together they name every vertex and nothing else. -/
theorem frame_drawn :
    frameVertices (a.frame time) = a.strips.toList.flatMap (·.vertices time) ∧
    (frameVertices (a.frame time)).length = 4 * (a.shown time).length ∧
    (∀ (k : Nat) (x : Tagged S), (a.shown time)[k]? = some x → ∀ i : Fin 4,
      (frameVertices (a.frame time))[4 * k + i.val]? = some ⟨x.panel.geometry.corner i, x.panel.material⟩) ∧
    (∀ n, n ≤ 2 ^ 30 → (quadIndices n).length = 6 * n ∧
      (quadIndices n).map UInt32.toNat = ((List.range n).flatMap fun q => [0, 1, 2, 0, 2, 3].map (4 * q + ·)) ∧
      (∀ k, k < n → (((quadIndices n).drop (6 * k)).take 6).map UInt32.toNat = [0, 1, 2, 0, 2, 3].map (4 * k + ·)) ∧
      ∀ v, v ∈ (quadIndices n).map UInt32.toNat ↔ v < 4 * n) ∧
    ((a.shown time).length ≤ 2 ^ 30 → ∀ (k : Nat) (x : Tagged S), (a.shown time)[k]? = some x →
      (((quadIndices (a.shown time).length).drop (6 * k)).take 6).map ((frameVertices (a.frame time))[·.toNat]?) =
        [0, 1, 2, 0, 2, 3].map fun i : Fin 4 => some ⟨x.panel.geometry.corner i, x.panel.material⟩) := by
  refine ⟨a.frameVertices_frame time, a.length_frameVertices time, ?_, ?_, ?_⟩
  · intro k x there i
    exact a.getElem?_frameVertices time there i
  · intro n small
    refine ⟨length_quadIndices small, map_toNat_quadIndices small, ?_, ?_⟩
    · intro k below
      exact group_quadIndices small below
    · intro v
      exact mem_quadIndices_iff small
  · intro small k x there
    exact a.triangles_frameVertices time small there

/-- The corner of a box and a post when the last panel of the corner is not shown yet. The post comes next. -/
theorem frame_drawn_corner : ∃ (a : Animation Float32) (x : Tagged Float32), @Reached _ _ tableTrig a ∧
    a.panelCount = 4 ∧ (@shown _ _ tableTrig a (Float32.ofBits 0x3ecccccd))[2]? = some x ∧ x.strip = 1 ∧
      (frameVertices (@frame _ _ tableTrig a (Float32.ofBits 0x3ecccccd))).length = 12 ∧
      (((quadIndices 3).drop 12).take 6).map
        ((frameVertices (@frame _ _ tableTrig a (Float32.ofBits 0x3ecccccd)))[·.toNat]?) =
        [0, 1, 2, 0, 2, 3].map fun i : Fin 4 => some ⟨x.panel.geometry.corner i, x.panel.material⟩ := by
  let _ : Trig Float32 := tableTrig
  let time := Float32.ofBits 0x3ecccccd
  let a := (addAll ⟨Settings.standard, #[], []⟩ [.corner, .post]).1
  have computed : a.panelCount = 4 ∧ (a.shown time).length = 3 ∧
      (((a.shown time)[2]?).any fun x => x.strip = 1) = true := by decide +kernel
  obtain ⟨count, seen, last⟩ := computed
  obtain ⟨x, there, strip⟩ := (Option.any_eq_true _ _).mp last
  obtain ⟨_, length, _, _, drawn⟩ := a.frame_drawn time
  have triangles := drawn (by rw [seen]; decide) 2 x there
  rw [seen] at length triangles
  exact ⟨a, x, Reached.standard.addAll _, count, there, of_decide_eq_true strip, length, triangles⟩

end Animation

end HingedPanels
