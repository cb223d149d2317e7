import HingedPanels.Proofs.Plan.Appended
import HingedPanels.Proofs.Strip.Assembled

namespace HingedPanels

variable {S : Type} [Scalar S] [Trig S]

namespace Panel

variable {seed : Quad S} {material : UInt32} {built panels : Array (Panel S)} {plans : List (Plan S)}

theorem assemble_append (seed : Quad S) (material : UInt32) (built : Array (Panel S)) (plans more : List (Plan S)) :
    assemble seed material built (plans ++ more) =
      (assemble seed material built plans).bind (assemble seed material · more) := by
  induction plans generalizing built with
  | nil => rfl
  | cons plan plans ih =>
    rw [List.cons_append, assemble, assemble]
    cases ofPlan seed material built plan with
    | error fault => rfl
    | ok panel => exact ih (built.push panel)

theorem toList_of_assemble (made : assemble seed material built plans = .ok panels) :
    built.toList <+: panels.toList := by
  induction plans generalizing built with
  | nil =>
    cases made
    exact List.prefix_rfl
  | cons plan plans ih =>
    rw [assemble] at made
    split at made
    · cases made
    · rename_i panel _
      have kept : built.toList <+: (built.push panel).toList := by simp
      exact kept.trans (ih made)

theorem exists_assemble_of_append {more : List (Plan S)}
    (made : assemble seed material built (plans ++ more) = .ok panels) :
    ∃ first, assemble seed material built plans = .ok first ∧ first.toList <+: panels.toList := by
  rw [assemble_append] at made
  cases begun : assemble seed material built plans with
  | error fault =>
    rw [begun] at made
    cases made
  | ok first =>
    rw [begun] at made
    exact ⟨first, rfl, toList_of_assemble made⟩

end Panel

namespace Strip

variable {before after : String} {front : List Token}

theorem build_of_append {settings : Settings S} {d : Description S} {longer : Strip S}
    (scanned : Token.ofGrammar before = .ok front)
    (built : build settings { d with grammar := before ++ after } = .ok longer) :
    ∃ s, build settings { d with grammar := before } = .ok s ∧ s.panels.toList <+: longer.panels.toList := by
  rcases Description.panels_eq_ok_iff.mp (build_eq_ok_iff.mp built).1 with ⟨plans, started, placed, planned, assembled⟩
  rcases Plan.ofGrammar_of_append scanned planned with ⟨shorter, planned', kept, _⟩
  rcases kept with ⟨more, parts⟩
  rw [← parts] at assembled
  rcases Panel.exists_assemble_of_append assembled with ⟨panels, assembled', same⟩
  refine ⟨⟨d.label, panels⟩, build_eq_ok_iff.mpr ⟨?_, rfl⟩, same⟩
  exact Description.panels_eq_ok_iff.mpr ⟨shorter, started, placed, planned', assembled'⟩

/-- Text after a grammar changes nothing about the panels of the grammar. Whatever can be planned or built with
more text can be planned or built without it, and comes out as the first part, or as the whole if a stray
brace ends the grammar; closing the branches that it leaves open makes no difference. -/
theorem build_appended (scanned : Token.ofGrammar before = .ok front) (after : String) (settings : Settings S)
    (startTime : S) :
    (∀ longer, Plan.ofGrammar settings (before ++ after) startTime = .ok longer →
      ∃ plans, Plan.ofGrammar settings before startTime = .ok plans ∧ plans.toList <+: longer.toList ∧
        (¬ Token.Sheltered front → plans = longer)) ∧
    (∀ count : Nat, Token.balance front = count →
      Plan.ofGrammar settings (before ++ Token.closings count) startTime = Plan.ofGrammar settings before startTime) ∧
    ∀ (d : Description S) (longer : Strip S), build settings { d with grammar := before ++ after } = .ok longer →
      ∃ s, build settings { d with grammar := before } = .ok s ∧ s.panels.toList <+: longer.panels.toList := by
  refine ⟨?_, ?_, ?_⟩
  · intro longer planned
    exact Plan.ofGrammar_of_append scanned planned
  · intro count level
    exact Plan.ofGrammar_closings scanned settings startTime level
  · intro d longer built
    exact build_of_append scanned built

/-- A branch that is still open, and text that closes it and goes on. -/
theorem build_appended_open : ∃ s longer : Strip Float32,
    @build _ _ tableTrig .standard { Description.standard with grammar := "A0\x7bB0" ++ "\x7dC0" } = .ok longer ∧
      longer.panels.size = 4 ∧
      @build _ _ tableTrig .standard { Description.standard with grammar := "A0\x7bB0" } = .ok s ∧
      s.panels.toList <+: longer.panels.toList ∧
      Plan.ofGrammar .standard ("A0\x7bB0" ++ Token.closings 1) (0 : Float32) = Plan.ofGrammar .standard "A0\x7bB0" 0 := by
  let _ : Trig Float32 := tableTrig
  have scanned : Token.ofGrammar "A0\x7bB0" =
      .ok [.fold .a .front .quarter 0, .branchOpen 2, .fold .b .front .quarter 3] := by
    cbv
  have succeeds : ((build .standard { Description.standard with grammar := "A0\x7bB0" ++ "\x7dC0" }).toOption.any
      fun s : Strip Float32 => s.panels.size = 4) = true := by
    decide +kernel
  rcases exists_ok_of_any succeeds with ⟨longer, built, size⟩
  rcases build_appended scanned "\x7dC0" .standard (0 : Float32) with ⟨_, closed, onward⟩
  rcases onward .standard longer built with ⟨s, built', kept⟩
  exact ⟨s, longer, built, by simpa using size, built', kept, closed 1 rfl⟩

end Strip

end HingedPanels
