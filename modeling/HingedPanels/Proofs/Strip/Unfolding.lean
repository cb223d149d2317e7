import HingedPanels.Proofs.Strip.Bias

/-!
Panels unfold one way. Phases follow one another in one order, and as long as the length of its window is
finite a panel in motion turns towards its rest without turning back, although the time that has passed, its
share of the window, the product with the angle and the sum are rounded one after the other.
-/

namespace HingedPanels

open Single

/-- The place of a phase in the order in which a panel goes through them. -/
def Phase.rank {S : Type} : Phase S → Nat
  | dormant => 0
  | unfolding _ => 1
  | settled => 2

theorem Phase.isVisible_iff {S : Type} (phase : Phase S) : phase.isVisible = true ↔ 1 ≤ phase.rank := by
  cases phase <;> simp [isVisible, rank]

noncomputable def Phase.progress : Phase Float32 → ℝ
  | dormant => 0
  | unfolding bias => realOf bias
  | settled => 1

/-! ### Angles -/

/-- The angle that is left of a sweep, with the product and the sum rounded. -/
noncomputable def swept (angle share : ℝ) : ℝ := rounded (angle + rounded (share * -angle))

section Swept

variable {angle share share' : ℝ}

theorem swept_zero (whole : rounded angle = angle) : swept angle 0 = angle := by
  rw [swept, zero_mul, rounded_zero, add_zero, whole]

theorem swept_one (whole : rounded angle = angle) : swept angle 1 = 0 := by
  rw [swept, one_mul, rounded_neg, whole, add_neg_cancel, rounded_zero]

theorem swept_neg (angle share : ℝ) : swept (-angle) share = -swept angle share := by
  have mirrored : share * - -angle = -(share * -angle) := by ring
  rw [swept, swept, mirrored, rounded_neg, ← neg_add, rounded_neg]

theorem swept_le_swept (nonneg : 0 ≤ angle) (further : share ≤ share') : swept angle share' ≤ swept angle share := by
  have turned : share' * -angle ≤ share * -angle := mul_le_mul_of_nonpos_right further (neg_nonpos.mpr nonneg)
  have turned := rounded_mono turned
  exact rounded_mono (by linarith)

theorem swept_nonneg (whole : rounded angle = angle) (nonneg : 0 ≤ angle) (short : share ≤ 1) : 0 ≤ swept angle share := by
  rw [← swept_one whole]
  exact swept_le_swept nonneg short

theorem swept_nonpos (whole : rounded angle = angle) (nonpos : angle ≤ 0) (short : share ≤ 1) : swept angle share ≤ 0 := by
  have flipped : rounded (-angle) = -angle := by rw [rounded_neg, whole]
  have left := swept_nonneg flipped (neg_nonneg.mpr nonpos) short
  rw [swept_neg] at left
  exact neg_nonneg.mp left

theorem abs_swept_le (whole : rounded angle = angle) (further : share ≤ share') (short : share' ≤ 1) :
    |swept angle share'| ≤ |swept angle share| := by
  rcases le_total 0 angle with nonneg | nonpos
  · rw [abs_of_nonneg (swept_nonneg whole nonneg short), abs_of_nonneg (swept_nonneg whole nonneg (further.trans short))]
    exact swept_le_swept nonneg further
  · rw [abs_of_nonpos (swept_nonpos whole nonpos short), abs_of_nonpos (swept_nonpos whole nonpos (further.trans short)),
      ← swept_neg, ← swept_neg]
    exact swept_le_swept (neg_nonneg.mpr nonpos) further

end Swept

namespace Panel

structure Motion (p : Panel Float32) : Prop where
  bot_lt_start : ⊥ < valueOf p.window.startTime
  start_le_end : p.window.startTime ≤ p.window.endTime
  flat : p.window.endAngle = 0
  startAngle_eq : p.pivot = none ∧ p.window.startAngle = 0 ∨
    p.pivot ≠ none ∧ ∃ (face : Face) (turn : Turn), p.window.startAngle = face.foldedAngle turn.radians

variable {p : Panel Float32} {time time' : Float32}

namespace Motion

variable (motion : p.Motion)

include motion

theorem within_startAngle : Within 3 p.window.startAngle := by
  rcases motion.startAngle_eq with ⟨_, still⟩ | ⟨_, face, turn, folded⟩
  · rw [still]
    exact (within_zero (by decide +kernel) (by decide +kernel)).mono (by norm_num)
  · rw [folded]
    cases face with
    | front => exact turn.within_radians.neg
    | back => exact turn.within_radians

theorem angleAt_of_isZero {bias : Float32} (zero : IsZero bias) : p.window.angleAt bias = p.window.startAngle := by
  rw [Window.angleAt, motion.flat]
  rcases motion.startAngle_eq with ⟨_, still⟩ | ⟨_, face, turn, folded⟩
  · rw [still]
    rcases zero with rfl | rfl <;> rfl
  · rw [folded]
    rcases zero with rfl | rfl <;> cases face <;> cases turn <;> rfl

/-- The phases in their order: before the window, in it, and after it. A root is always in the last. -/
theorem phaseAt_cases (number : time.isNaN = false) :
    (p.phaseAt time = .dormant ∧ time < p.window.startTime) ∨
    (p.phaseAt time = .unfolding (p.window.bias time) ∧ p.window.Running time) ∨
    (p.phaseAt time = .settled ∧ (p.pivot = none ∨ p.window.endTime ≤ time)) := by
  unfold phaseAt
  split_ifs with free early late
  · exact .inr (.inr ⟨rfl, .inl (by simpa using free)⟩)
  · exact .inl ⟨rfl, early⟩
  · exact .inr (.inr ⟨rfl, .inr late⟩)
  · have started := (not_lt_iff_le number (number_left motion.start_le_end)).mp early
    have running := (not_le_iff_lt (number_right motion.start_le_end) number).mp late
    exact .inr (.inl ⟨rfl, motion.bot_lt_start, started, running⟩)

theorem settled_of_settled (settled : p.phaseAt time = .settled) (ordered : time ≤ time') :
    p.phaseAt time' = .settled := by
  rcases motion.phaseAt_cases (number_left ordered) with ⟨same, _⟩ | ⟨same, _⟩ | ⟨_, free | ended⟩
  · rw [same] at settled
    cases settled
  · rw [same] at settled
    cases settled
  · unfold phaseAt
    rw [free]
    rfl
  · exact settled_of_le motion.start_le_end (le_trans_single ended ordered)

theorem not_dormant_of_running (running : p.window.Running time) (ordered : time ≤ time') :
    p.phaseAt time' ≠ .dormant := by
  have started := le_trans_single running.started ordered
  intro early
  rcases motion.phaseAt_cases (number_right ordered) with ⟨_, before⟩ | ⟨same, _⟩ | ⟨same, _⟩
  · exact (not_lt_iff_le (number_right ordered) (number_left started)).mpr started before
  · rw [same] at early
    cases early
  · rw [same] at early
    cases early

theorem rank_phaseAt_mono (ordered : time ≤ time') : (p.phaseAt time).rank ≤ (p.phaseAt time').rank := by
  rcases motion.phaseAt_cases (number_left ordered) with ⟨same, _⟩ | ⟨same, running⟩ | ⟨same, _⟩
  · rw [same]
    exact Nat.zero_le _
  · have seen := motion.not_dormant_of_running running ordered
    rw [same]
    cases later : p.phaseAt time' with
    | dormant => exact absurd later seen
    | unfolding bias => exact Nat.le_refl 1
    | settled => exact Nat.le_succ 1
  · rw [same, motion.settled_of_settled same ordered]

variable (bounded : (p.window.endTime - p.window.startTime).isFinite = true)

include bounded

theorem progress_mem (number : time.isNaN = false) :
    0 ≤ (p.phaseAt time).progress ∧ (p.phaseAt time).progress ≤ 1 := by
  rcases motion.phaseAt_cases number with ⟨same, _⟩ | ⟨same, running⟩ | ⟨same, _⟩
  · rw [same]
    exact ⟨le_rfl, zero_le_one⟩
  · obtain ⟨nonneg, short⟩ := running.realOf_elapsed bounded
    have positive := running.realOf_length_pos bounded
    have one : rounded 1 = 1 := rounded_two_zpow (k := 0) (by norm_num)
    rw [same, Phase.progress, (running.bias_spec bounded).2]
    exact ⟨rounded_nonneg (div_nonneg nonneg positive.le),
      (rounded_mono ((div_le_one positive).mpr short)).trans_eq one⟩
  · rw [same]
    exact ⟨zero_le_one, le_rfl⟩

theorem progress_mono (ordered : time ≤ time') : (p.phaseAt time).progress ≤ (p.phaseAt time').progress := by
  rcases motion.phaseAt_cases (number_left ordered) with ⟨same, _⟩ | ⟨same, running⟩ | ⟨same, _⟩
  · rw [same]
    exact (motion.progress_mem bounded (number_right ordered)).1
  · rcases motion.phaseAt_cases (number_right ordered) with ⟨same', _⟩ | ⟨same', running'⟩ | ⟨same', _⟩
    · exact absurd same' (motion.not_dormant_of_running running ordered)
    · have elapsed := sub_le_sub_single running.finite_time running.finite_start ordered
      have further := (le_iff_realOf (running.finite_elapsed bounded) (running'.finite_elapsed bounded)).mp elapsed
      rw [same, same', Phase.progress, Phase.progress, (running.bias_spec bounded).2, (running'.bias_spec bounded).2]
      exact rounded_mono (div_le_div_of_nonneg_right further (running.realOf_length_pos bounded).le)
    · rw [same']
      exact (motion.progress_mem bounded (number_left ordered)).2
  · rw [same, motion.settled_of_settled same ordered]

theorem angle_spec (number : time.isNaN = false) : (p.angle (p.phaseAt time)).isFinite = true ∧
    realOf (p.angle (p.phaseAt time)) = swept (realOf p.window.startAngle) (p.phaseAt time).progress := by
  have folded := motion.within_startAngle
  have whole := rounded_realOf p.window.startAngle
  rcases motion.phaseAt_cases number with ⟨same, _⟩ | ⟨same, running⟩ | ⟨same, _⟩
  · rw [same, angle, Phase.progress, swept_zero whole]
    exact ⟨folded.finite, rfl⟩
  · have share : Within 0 (p.window.bias time) :=
      Window.within_bias (number_right motion.start_le_end) (running.finite_elapsed bounded)
    have rest : Within 3 (0 : Float32) := (within_zero (by decide +kernel) (by decide +kernel)).mono (by norm_num)
    have back := rest.sub folded (by norm_num)
    have turned := share.mul back (by norm_num)
    have left := (folded.mono (by norm_num)).add turned (by norm_num)
    rw [same, angle, Window.angleAt, motion.flat, Phase.progress]
    have zero : realOf (0 : Float32) = 0 := rfl
    rw [(realOf_add left.finite).1, (realOf_mul turned.finite).1, realOf_sub back.finite, zero, zero_sub, rounded_neg,
      whole, swept]
    exact ⟨left.finite, rfl⟩
  · rw [same, angle, motion.flat, Phase.progress, swept_one whole]
    exact ⟨rfl, rfl⟩

theorem angle_at_start (opens : p.window.startTime < p.window.endTime) (started : time ≤ p.window.startTime)
    (begun : p.window.startTime ≤ time) : p.angle (p.phaseAt time) = p.window.startAngle := by
  rcases motion.phaseAt_cases (number_left started) with ⟨_, early⟩ | ⟨same, running⟩ | ⟨same, free | ended⟩
  · exact absurd early ((not_lt_iff_le (number_left started) (number_left begun)).mpr begun)
  · rw [same]
    exact motion.angleAt_of_isZero (running.isZero_bias started bounded)
  · rcases motion.startAngle_eq with ⟨_, still⟩ | ⟨pivots, _⟩
    · rw [same, angle, motion.flat, still]
    · exact absurd free pivots
  · have closed := le_trans_single ended started
    exact absurd opens ((not_lt_iff_le (number_right started) (number_left ended)).mpr closed)

theorem finite_bias {bias : Float32} (number : time.isNaN = false) (moves : p.phaseAt time = .unfolding bias) :
    bias.isFinite = true := by
  have running := running_of_phaseAt motion.bot_lt_start motion.start_le_end number moves
  rw [eq_bias_of_phaseAt moves]
  exact (running.bias_spec bounded).1

theorem bias_mono {bias bias' : Float32} (ordered : time ≤ time') (moves : p.phaseAt time = .unfolding bias)
    (moves' : p.phaseAt time' = .unfolding bias') : bias ≤ bias' := by
  have finite := motion.finite_bias bounded (number_left ordered) moves
  have finite' := motion.finite_bias bounded (number_right ordered) moves'
  have further := motion.progress_mono bounded ordered
  rw [moves, moves', Phase.progress, Phase.progress] at further
  exact (le_iff_realOf finite finite').mpr further

end Motion

end Panel

theorem Single.abs_le_abs_single {x y : Float32} (finite : x.isFinite = true) (finite' : y.isFinite = true)
    (below : |realOf x| ≤ |realOf y|) : x.abs ≤ y.abs := by
  obtain ⟨number, same⟩ := (abs_spec finite (canonical_unpacked x)).valueOf_eq (unpacked_abs x)
  obtain ⟨number', same'⟩ := (abs_spec finite' (canonical_unpacked y)).valueOf_eq (unpacked_abs y)
  rw [le_iff_valueOf, same, same']
  exact ⟨number, number', nearest_mono below⟩

theorem Machine.Reads.angles {settings : Settings Float32} {startTime : Float32} {front : List Token}
    {m : Machine Float32} (reads : Reads settings startTime front m) {i : Nat} {plan : Plan Float32}
    (there : m.plans[i]? = some plan) : plan.window.endAngle = 0 ∧
      (plan.attachment = none ∧ plan.window.startAngle = 0 ∨ ¬ plan.attachment = none ∧
        ∃ (face : Face) (turn : Turn), plan.window.startAngle = face.foldedAngle turn.radians) := by
  cases hangs : plan.attachment with
  | none =>
    have first := (reads.attachment_eq_none_iff there).mp hangs
    rw [first, reads.root_eq] at there
    cases there
    exact ⟨rfl, .inl ⟨rfl, rfl⟩⟩
  | some a =>
    rcases reads.follows there hangs with ⟨_, _, follows⟩
    rcases reads.exists_fold there hangs with ⟨_, turn, _, _, _, records⟩
    refine ⟨follows.endAngle_eq, .inr ⟨by simp, a.face, turn, ?_⟩⟩
    rw [follows.startAngle_eq, records.target_eq]
    cases a.face <;> rfl

namespace Animation.Reached

variable [Trig Float32] {a : Animation Float32} (reached : a.Reached) {id : Nat} {s : Strip Float32}
  (there : a.strip? id = some s) {i : Nat} {panel : Panel Float32} (place : s.panels[i]? = some panel)

include reached there place

theorem motion : panel.Motion := by
  obtain ⟨d, built⟩ := reached.exists_build there
  obtain ⟨_, _, _, planned, assembled⟩ := Strip.of_build built
  obtain ⟨_, _, m, _, _, reads, rfl⟩ := Plan.ofGrammar_reads planned
  rcases assembled.exists_plan place with ⟨plan, planned', builds⟩
  have planned' : m.plans[i]? = some plan := by simpa using planned'
  have cascades := reached.cascades there
  refine ⟨reached.bot_lt_startTime there place, cascades.start_le_end place, ?_, ?_⟩
  · rw [builds.window_eq]
    exact (reads.angles planned').1
  · rw [builds.window_eq, builds.pivot_eq, Option.map_eq_none_iff, ne_eq, Option.map_eq_none_iff]
    exact (reads.angles planned').2

/-- Panels unfold one way: later phases and smaller angles. -/
theorem unfolds {time time' : Float32} (ordered : time ≤ time') :
    (panel.phaseAt time).rank ≤ (panel.phaseAt time').rank ∧
    ((panel.phaseAt time).isVisible = true → (panel.phaseAt time').isVisible = true) ∧
    ((panel.window.endTime - panel.window.startTime).isFinite = true →
      (panel.window.startTime < panel.window.endTime → ∀ start : Float32, start ≤ panel.window.startTime →
        panel.window.startTime ≤ start → panel.angle (panel.phaseAt start) = panel.window.startAngle) ∧
      (0 ≤ panel.window.startAngle → 0 ≤ panel.angle (panel.phaseAt time)) ∧
      (panel.window.startAngle ≤ 0 → panel.angle (panel.phaseAt time) ≤ 0) ∧
      (panel.angle (panel.phaseAt time')).abs ≤ (panel.angle (panel.phaseAt time)).abs ∧
      ∀ bias bias', panel.phaseAt time = .unfolding bias → panel.phaseAt time' = .unfolding bias' → bias ≤ bias') := by
  have motion := reached.motion there place
  have rank := motion.rank_phaseAt_mono ordered
  refine ⟨rank, ?_, ?_⟩
  · rw [Phase.isVisible_iff, Phase.isVisible_iff]
    exact fun seen => seen.trans rank
  · intro bounded
    obtain ⟨finite, angle⟩ := motion.angle_spec bounded (number_left ordered)
    obtain ⟨finite', angle'⟩ := motion.angle_spec bounded (number_right ordered)
    have whole := rounded_realOf panel.window.startAngle
    have short := (motion.progress_mem bounded (number_left ordered)).2
    have short' := (motion.progress_mem bounded (number_right ordered)).2
    have further := motion.progress_mono bounded ordered
    have folded := motion.within_startAngle.finite
    refine ⟨?_, ?_, ?_, ?_, ?_⟩
    · exact fun opens start started begun => motion.angle_at_start bounded opens started begun
    · intro nonneg
      rw [nonneg_iff_realOf finite, angle]
      exact swept_nonneg whole ((nonneg_iff_realOf folded).mp nonneg) short
    · intro nonpos
      rw [nonpos_iff_realOf finite, angle]
      exact swept_nonpos whole ((nonpos_iff_realOf folded).mp nonpos) short
    · apply Single.abs_le_abs_single finite' finite
      rw [angle, angle']
      exact abs_swept_le whole further short'
    · exact fun _ _ => motion.bias_mono bounded ordered

end Animation.Reached

theorem Animation.Reached.unfolds_corner :
    ∃ (a : Animation Float32) (s : Strip Float32) (panel : Panel Float32) (bias bias' : Float32),
      @Animation.Reached _ _ tableTrig a ∧ a.strip? 0 = some s ∧ s.panels[1]? = some panel ∧
        panel.angle (panel.phaseAt 0) = panel.window.startAngle ∧
        panel.phaseAt (Float32.ofBits 0x3dcccccd) = .unfolding bias ∧
        panel.phaseAt (Float32.ofBits 0x3e4ccccd) = .unfolding bias' ∧ bias ≤ bias' ∧
        (panel.angle (.unfolding bias')).abs ≤ (panel.angle (.unfolding bias)).abs := by
  let _ : Trig Float32 := tableTrig
  let time := Float32.ofBits 0x3dcccccd
  let time' := Float32.ofBits 0x3e4ccccd
  have reached := Animation.Reached.standard.add .corner
  have built : (((Animation.add ⟨Settings.standard, #[], []⟩ .corner).1.strip? 0).any fun s =>
      s.panels[1]?.any fun panel => panel.phaseAt time = .unfolding (panel.window.bias time) ∧
        panel.phaseAt time' = .unfolding (panel.window.bias time') ∧ panel.window.startTime = 0 ∧
        panel.window.startTime < panel.window.endTime ∧
        (panel.window.endTime - panel.window.startTime).isFinite = true) = true := by
    decide +kernel
  obtain ⟨s, there, built⟩ := (Option.any_eq_true _ _).mp built
  obtain ⟨panel, place, built⟩ := (Option.any_eq_true _ _).mp built
  obtain ⟨moves, moves', start, opens, bounded⟩ := of_decide_eq_true built
  have ordered : time ≤ time' := by decide +kernel
  have zero : (0 : Float32) ≤ 0 := by decide +kernel
  obtain ⟨begins, _, _, angles, biases⟩ := (Animation.Reached.unfolds reached there place ordered).2.2 bounded
  rw [moves, moves'] at angles
  rw [start] at begins
  exact ⟨_, s, panel, _, _, reached, there, place, begins (start ▸ opens) 0 zero zero, moves, moves',
    biases _ _ moves moves', angles⟩

end HingedPanels
