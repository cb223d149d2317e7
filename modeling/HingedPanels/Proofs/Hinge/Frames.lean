import HingedPanels.Hinge

/-!
What a hinge says about its quad. A hinge is found exactly where the edge and the distance of its third
corner are sound, and its frame is then determined. A quad can be placed if all of its corners are finite.
-/

namespace HingedPanels

variable {S : Type} [Scalar S]

structure Quad.Frames (q : Quad S) (e : Edge) (h : Hinge S) : Prop where
  edge_eq : h.edge = e
  anchor_eq : h.anchor = q.corner e.first
  sound_run : IsSound (q.corner e.second - h.anchor).length
  along_eq : h.along = (q.corner e.second - h.anchor) / (q.corner e.second - h.anchor).length
  sound_side : IsSound (h.along.cross (q.corner e.third - h.anchor)).length
  upward_eq : h.upward =
    h.along.cross (q.corner e.third - h.anchor) / (h.along.cross (q.corner e.third - h.anchor)).length
  outward_eq : h.outward = (h.along.cross h.upward).unit

theorem Quad.hinge_eq_ok_iff {q : Quad S} {e : Edge} {h : Hinge S} : q.hinge e = .ok h ↔ q.Frames e h := by
  constructor
  · intro found
    unfold hinge at found
    dsimp only at found
    split at found
    case isFalse => cases found
    case isTrue sound_run =>
      split at found
      case isFalse => cases found
      case isTrue sound_side =>
        cases found
        exact ⟨rfl, rfl, sound_run, rfl, sound_side, rfl, rfl⟩
  · rintro ⟨rfl, anchor, sound_run, along, sound_side, upward, outward⟩
    rcases h with ⟨e, _, _, _, _⟩
    dsimp only at *
    subst anchor along upward outward
    unfold hinge
    dsimp only
    rw [if_pos sound_run, if_pos sound_side]

theorem Quad.exists_frames_iff {q : Quad S} {e : Edge} : (∃ h, q.Frames e h) ↔
    IsSound (q.corner e.second - q.corner e.first).length ∧
      IsSound (((q.corner e.second - q.corner e.first) / (q.corner e.second - q.corner e.first).length).cross
        (q.corner e.third - q.corner e.first)).length := by
  constructor
  · intro found
    rcases found with ⟨h, _, anchor, sound_run, along, sound_side, _, _⟩
    rw [along, anchor] at sound_side
    rw [anchor] at sound_run
    exact ⟨sound_run, sound_side⟩
  · intro sound
    have found : ∃ h, q.hinge e = .ok h := by
      unfold hinge
      dsimp only
      rw [if_pos sound.1, if_pos sound.2]
      exact ⟨_, rfl⟩
    rcases found with ⟨h, found⟩
    exact ⟨h, hinge_eq_ok_iff.mp found⟩

theorem Quad.edge_of_hinge_error {q : Quad S} {e : Edge} {fault : DegenerateEdge S}
    (refused : q.hinge e = .error fault) : fault.edge = e := by
  unfold hinge at refused
  dsimp only at refused
  split at refused
  · split at refused
    · cases refused
    · cases refused
      rfl
  · cases refused
    rfl

theorem Quad.Frames.of_corners {q r : Quad S} {e : Edge} {h : Hinge S} (frames : q.Frames e h)
    (first : r.corner e.first = q.corner e.first) (second : r.corner e.second = q.corner e.second)
    (third : r.corner e.third = q.corner e.third) : r.Frames e h := by
  constructor
  case edge_eq => exact frames.edge_eq
  case anchor_eq => rw [first, frames.anchor_eq]
  case sound_run =>
    rw [second]
    exact frames.sound_run
  case along_eq =>
    rw [second]
    exact frames.along_eq
  case sound_side =>
    rw [third]
    exact frames.sound_side
  case upward_eq =>
    rw [third]
    exact frames.upward_eq
  case outward_eq => exact frames.outward_eq

namespace Quad

structure StraysAt (q : Quad S) (i : Fin 4) : Prop where
  astray : (q.corner i).isFinite = false
  sound : ∀ j < i, (q.corner j).isFinite = true

theorem find?_eq_some_iff {q : Quad S} {i : Fin 4} :
    (List.finRange 4).find? (fun i => !(q.corner i).isFinite) = some i ↔ q.StraysAt i := by
  rw [List.find?_eq_some_iff_getElem]
  simp only [List.getElem_finRange, Bool.not_eq_eq_eq_not, Bool.not_true, Bool.not_not]
  constructor
  · intro found
    rcases found with ⟨astray, k, bound, rfl, sound⟩
    exact ⟨astray, fun j below => sound j below⟩
  · intro strays
    exact ⟨strays.astray, i, by simp, rfl, fun j below => strays.sound _ below⟩

theorem requireFinite_eq_error_iff {q : Quad S} {fault : DegenerateEdge S} :
    q.requireFinite = .error fault ↔ ∃ i, q.StraysAt i ∧ fault = ⟨.ofIndex i, .notFinite i (q.corner i)⟩ := by
  unfold requireFinite
  simp only [← find?_eq_some_iff]
  cases (List.finRange 4).find? (fun i => !(q.corner i).isFinite) with
  | none => simp
  | some i => simp [eq_comm]

theorem requireFinite_eq_ok_iff {q : Quad S} : q.requireFinite = .ok () ↔ ∀ i, (q.corner i).isFinite = true := by
  unfold requireFinite
  cases found : (List.finRange 4).find? (fun i => !(q.corner i).isFinite) with
  | none => simpa using found
  | some i => simpa using ⟨i, (find?_eq_some_iff.mp found).astray⟩

end Quad

variable [Trig S]

theorem Quad.turnAbout_eq_ok_iff {q r : Quad S} {e : Edge} {angle : S} :
    q.turnAbout e angle = .ok r ↔ ∃ h, q.Frames e h ∧ r = h.turn q angle := by
  unfold turnAbout
  constructor
  · intro turned
    split at turned
    case h_1 h found =>
      cases turned
      exact ⟨h, hinge_eq_ok_iff.mp found, rfl⟩
    case h_2 => cases turned
  · rintro ⟨h, frames, rfl⟩
    rw [hinge_eq_ok_iff.mpr frames]

theorem Quad.turnAbout_eq_error_iff {q : Quad S} {e : Edge} {angle : S} {fault : DegenerateEdge S} :
    q.turnAbout e angle = .error fault ↔ q.hinge e = .error fault := by
  unfold turnAbout
  cases q.hinge e <;> simp

theorem Quad.Frames.turnAbout_eq {q : Quad S} {e : Edge} {h : Hinge S} (frames : q.Frames e h) (angle : S) :
    q.turnAbout e angle = .ok (h.turn q angle) :=
  turnAbout_eq_ok_iff.mpr ⟨h, frames, rfl⟩

end HingedPanels
