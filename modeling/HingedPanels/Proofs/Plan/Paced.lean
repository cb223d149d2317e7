import HingedPanels.Proofs.Machine.Coupled

namespace HingedPanels

namespace Face

/-- The sign of the angle at which a panel starts on this side of its parent. -/
def Leans : Face → Float32 → Prop
  | front, angle => angle < 0
  | back, angle => 0 < angle

instance (f : Face) (angle : Float32) : Decidable (f.Leans angle) :=
  match f with
  | front => inferInstanceAs (Decidable (angle < 0))
  | back => inferInstanceAs (Decidable (0 < angle))

theorem leans_foldedAngle (f : Face) (turn : Turn) : f.Leans (f.foldedAngle turn.radians) := by
  cases f <;> cases turn <;> decide +kernel

theorem foldedAngle_eq_or (f f' : Face) (turn : Turn) :
    f.foldedAngle (turn.radians : Float32) = f'.foldedAngle turn.radians ∨
      f.foldedAngle (turn.radians : Float32) = -f'.foldedAngle turn.radians := by
  cases f <;> cases f' <;> cases turn <;> decide +kernel

theorem abs_foldedAngle (f : Face) (turn : Turn) :
    Scalar.abs (f.foldedAngle turn.radians - 0) = (turn.radians : Float32) := by
  cases f <;> cases turn <;> decide +kernel

end Face

theorem Window.endTime_sweep (startTime speed : Float32) (f : Face) (turn : Turn) :
    (sweep startTime (f.foldedAngle turn.radians) speed).endTime = startTime + turn.radians / speed := by
  rw [sweep, sweepTime, f.abs_foldedAngle]

namespace Plan

/-- Two plans with the same place in the tree and the same times, with angles that differ in sign at most. -/
structure SamePace (plan plan' : Plan Float32) : Prop where
  parent_eq : plan.attachment.map (·.parent) = plan'.attachment.map (·.parent)
  depth_eq : plan.depth = plan'.depth
  target_eq : plan.target = plan'.target
  startTime_eq : plan.window.startTime = plan'.window.startTime
  endTime_eq : plan.window.endTime = plan'.window.endTime
  startAngle_eq : plan.window.startAngle = plan'.window.startAngle ∨
    plan.window.startAngle = -plan'.window.startAngle
  leans : ∀ a, plan.attachment = some a → a.face.Leans plan.window.startAngle
  leans' : ∀ a, plan'.attachment = some a → a.face.Leans plan'.window.startAngle

theorem samePace_root (startTime : Float32) : (root startTime).SamePace (root startTime) where
  parent_eq := rfl
  depth_eq := rfl
  target_eq := rfl
  startTime_eq := rfl
  endTime_eq := rfl
  startAngle_eq := .inl rfl
  leans := by simp [root]
  leans' := by simp [root]

theorem startTime_fold (settings : Settings Float32) (cursor : Cursor Float32) (depth : Nat) (edge : Edge)
    (face : Face) (turn : Turn) (offset : Nat) :
    (fold settings cursor depth edge face turn offset).window.startTime = cursor.time := rfl

theorem samePace_fold (settings : Settings Float32) (cursor : Cursor Float32) (depth : Nat) (edge edge' : Edge)
    (face face' : Face) (turn : Turn) (offset offset' : Nat) :
    (fold settings cursor depth edge face turn offset).SamePace
      (fold settings cursor depth edge' face' turn offset') where
  parent_eq := rfl
  depth_eq := rfl
  target_eq := rfl
  -- The windows as a whole differ, so their starts are not compared before they are read off.
  startTime_eq := by rw [startTime_fold, startTime_fold]
  endTime_eq := by rw [fold, fold, Window.endTime_sweep, Window.endTime_sweep]
  startAngle_eq := face.foldedAngle_eq_or face' turn
  leans := by
    rintro _ ⟨⟩
    exact face.leans_foldedAngle turn
  leans' := by
    rintro _ ⟨⟩
    exact face'.leans_foldedAngle turn

end Plan

def Coupling.pace (settings : Settings Float32) : Coupling settings settings where
  token t t' := t.shape = t'.shape
  time := Eq
  plan := Plan.SamePace
  limit_eq := rfl
  shape_eq := id
  branch same := by rw [same]
  fold {edge edge' face face' turn turn' offset offset' x x'} panel depth head same := by
    cases head
    subst same
    have pace := Plan.samePace_fold settings ⟨panel, x⟩ depth edge edge' face face' turn offset offset'
    exact ⟨pace, pace.endTime_eq⟩

/-- Grammars with the same turns and the same braces are both planned or both too deep, whatever the settings
and the start. Their plans have the same tree and the same times, and only the sides differ. -/
theorem Plan.ofGrammar_paced {g g' : String} {tokens tokens' : List Token} (scanned : Token.ofGrammar g = .ok tokens)
    (scanned' : Token.ofGrammar g' = .ok tokens') (shapes : tokens.map Token.shape = tokens'.map Token.shape)
    (settings : Settings Float32) (startTime : Float32) :
    Alike (fun e e' => e.fault = .branchTooDeep settings.maxBranchDepth ∧
        e'.fault = .branchTooDeep settings.maxBranchDepth)
      (fun plans plans' => List.Forall₂ SamePace plans.toList plans'.toList)
      (ofGrammar settings g startTime) (ofGrammar settings g' startTime) := by
  have together : List.Forall₂ (Coupling.pace settings).token tokens tokens' := by
    rwa [← List.forall₂_eq_eq_eq, List.forall₂_map_left_iff, List.forall₂_map_right_iff] at shapes
  have alike := Coupling.ofGrammar scanned scanned' together rfl (samePace_root startTime)
  apply alike.mono
  · rintro _ _ ⟨_, _, _, rfl, rfl⟩
    exact ⟨rfl, rfl⟩
  · exact fun _ _ => id

/-- Every edge and every face is another one, the speed is negative and the delay is no number. -/
theorem Plan.ofGrammar_paced_sides :
    let settings : Settings Float32 := ⟨Float32.ofBits 0xbf800000, Float32.ofBits 0x7fc00000, 1⟩
    ∃ plans plans', ofGrammar settings "A0{b1}C2" 0 = .ok plans ∧
      ofGrammar settings "d0 {A1} b2" 0 = .ok plans' ∧ plans.size = 4 ∧
      List.Forall₂ SamePace plans.toList plans'.toList := by
  intro settings
  have scanned : Token.ofGrammar "A0{b1}C2" = .ok [.fold .a .front .quarter 0, .branchOpen 2,
      .fold .b .back .half 3, .branchClose 5, .fold .c .front .threeQuarter 6] := by
    cbv
  have scanned' : Token.ofGrammar "d0 {A1} b2" = .ok [.fold .d .back .quarter 0, .branchOpen 3,
      .fold .a .front .half 4, .branchClose 6, .fold .b .back .threeQuarter 8] := by
    cbv
  have planned := (ofGrammar_eq_run scanned settings 0).trans rfl
  have planned' := (ofGrammar_eq_run scanned' settings 0).trans rfl
  have alike := ofGrammar_paced scanned scanned' rfl settings 0
  rw [planned, planned'] at alike
  cases alike with
  | ok paced => exact ⟨_, _, planned, planned', rfl, paced⟩

end HingedPanels
