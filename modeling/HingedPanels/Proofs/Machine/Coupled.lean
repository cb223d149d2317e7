import HingedPanels.Proofs.Machine.Simulation

/-!
Two runs of the machine side by side. If the tokens of both belong together one by one, and what belongs
together stays together through one fold and one branch, then it does so through the whole run, and both
runs come to an end in the same way.
-/

namespace HingedPanels

/-- Two results that are both values, and then belong together, or both faults that do. -/
inductive Alike {ε ε' α β : Type} (fault : ε → ε' → Prop) (value : α → β → Prop) : Except ε α → Except ε' β → Prop
  | ok {a : α} {b : β} (same : value a b) : Alike fault value (.ok a) (.ok b)
  | error {e : ε} {e' : ε'} (same : fault e e') : Alike fault value (.error e) (.error e')

theorem Alike.mono {ε ε' α β : Type} {fault weaker : ε → ε' → Prop} {value wider : α → β → Prop} {x : Except ε α}
    {y : Except ε' β} (alike : Alike fault value x y) (faults : ∀ e e', fault e e' → weaker e e')
    (values : ∀ a b, value a b → wider a b) : Alike weaker wider x y := by
  cases alike with
  | ok same => exact .ok (values _ _ same)
  | error same => exact .error (faults _ _ same)

theorem Alike.mapError {ε ε' α β : Type} {value : α → β → Prop} {x : Except ε α} {y : Except ε β}
    (alike : Alike Eq value x y) (name : ε → ε') : Alike Eq value (x.mapError name) (y.mapError name) := by
  cases alike with
  | ok same => exact .ok same
  | error same => exact .error (congrArg name same)

theorem Alike.bind {ε α β γ δ : Type} {value : α → β → Prop} {value' : γ → δ → Prop} {x : Except ε α} {y : Except ε β}
    (alike : Alike Eq value x y) {f : α → Except ε γ} {g : β → Except ε δ}
    (next : ∀ a b, value a b → Alike Eq value' (f a) (g b)) : Alike Eq value' (x >>= f) (y >>= g) := by
  cases alike with
  | ok same => exact next _ _ same
  | error same => exact .error same

theorem forall₂_toList_push {α β : Type} {R : α → β → Prop} {xs : Array α} {ys : Array β} {x : α} {y : β}
    (related : List.Forall₂ R xs.toList ys.toList) (last : R x y) :
    List.Forall₂ R (xs.push x).toList (ys.push y).toList := by
  simpa only [Array.toList_push] using List.rel_append related (.cons last .nil)

/-- What is left of a token without its edge, its face and its place. -/
inductive Token.Shape where
  | fold (turn : Turn)
  | branchOpen
  | branchClose
  deriving DecidableEq, Repr

def Token.shape : Token → Shape
  | fold _ _ turn _ => .fold turn
  | branchOpen _ => .branchOpen
  | branchClose _ => .branchClose

variable {S : Type} [Scalar S]

/-- How tokens, times and plans belong together in two runs, each under its own settings. -/
structure Coupling (settings settings' : Settings S) where
  token : Token → Token → Prop
  time : S → S → Prop
  plan : Plan S → Plan S → Prop
  limit_eq : settings.maxBranchDepth = settings'.maxBranchDepth
  shape_eq : ∀ {t t' : Token}, token t t' → t.shape = t'.shape
  branch : ∀ {x x' : S}, time x x' → time (branchTime x settings.branchDelay) (branchTime x' settings'.branchDelay)
  fold : ∀ {edge edge' : Edge} {face face' : Face} {turn turn' : Turn} {offset offset' : Nat} {x x' : S}
    (panel depth : Nat), token (.fold edge face turn offset) (.fold edge' face' turn' offset') → time x x' →
    let made := Plan.fold settings ⟨panel, x⟩ depth edge face turn offset
    let made' := Plan.fold settings' ⟨panel, x'⟩ depth edge' face' turn' offset'
    plan made made' ∧ time made.window.endTime made'.window.endTime

namespace Coupling

variable {settings settings' : Settings S} (c : Coupling settings settings')

def cursor (x x' : Cursor S) : Prop := x.panel = x'.panel ∧ c.time x.time x'.time

def plans (made made' : Array (Plan S)) : Prop := List.Forall₂ c.plan made.toList made'.toList

def fault (e e' : GrammarError) : Prop :=
  ∃ offset offset', c.token (.branchOpen offset) (.branchOpen offset') ∧
    e = ⟨offset, some '{', .branchTooDeep settings.maxBranchDepth⟩ ∧
    e' = ⟨offset', some '{', .branchTooDeep settings.maxBranchDepth⟩

structure Coupled (m m' : Machine S) : Prop where
  cursor : c.cursor m.cursor m'.cursor
  saved : List.Forall₂ c.cursor m.saved m'.saved
  plans : c.plans m.plans m'.plans

variable {c} {m m' : Machine S}

theorem Coupled.add (coupled : c.Coupled m m') {edge edge' : Edge} {face face' : Face} {turn turn' : Turn}
    {offset offset' : Nat} (head : c.token (.fold edge face turn offset) (.fold edge' face' turn' offset')) :
    c.Coupled (m.add (Plan.fold settings m.cursor m.saved.length edge face turn offset))
      (m'.add (Plan.fold settings' m'.cursor m'.saved.length edge' face' turn' offset')) := by
  rcases m with ⟨⟨panel, x⟩, saved, made⟩
  rcases m' with ⟨⟨panel', x'⟩, saved', made'⟩
  obtain ⟨same, times⟩ : panel = panel' ∧ c.time x x' := coupled.cursor
  have level : saved.length = saved'.length := coupled.saved.length_eq
  have size : made.size = made'.size := coupled.plans.length_eq
  subst same
  have step := c.fold panel saved.length head times
  rw [level] at step ⊢
  exact ⟨⟨size, step.2⟩, coupled.saved, forall₂_toList_push coupled.plans step.1⟩

theorem Coupled.branch (coupled : c.Coupled m m') :
    c.Coupled ⟨m.cursor.branch settings, m.cursor :: m.saved, m.plans⟩
      ⟨m'.cursor.branch settings', m'.cursor :: m'.saved, m'.plans⟩ :=
  ⟨⟨coupled.cursor.1, c.branch coupled.cursor.2⟩, .cons coupled.cursor coupled.saved, coupled.plans⟩

theorem Coupled.result_run (coupled : c.Coupled m m') {tokens tokens' : List Token}
    (together : List.Forall₂ c.token tokens tokens') :
    Alike c.fault c.plans ((Machine.run settings tokens m).result settings)
      ((Machine.run settings' tokens' m').result settings') := by
  induction together generalizing m m' with
  | nil => exact .ok coupled.plans
  | @cons token token' rest rest' head _ ih =>
    -- Tokens that belong together have the same shape, so the machines take the same branch.
    have shape := c.shape_eq head
    cases token with
    | fold edge face turn offset =>
      cases token' with
      | fold edge' face' turn' offset' => exact ih (coupled.add head)
      | branchOpen | branchClose => cases shape
    | branchOpen offset =>
      cases token' with
      | branchOpen offset' =>
        have level : m.saved.length = m'.saved.length := coupled.saved.length_eq
        rw [Machine.run, Machine.run, ← c.limit_eq, ← level]
        split
        · exact .error ⟨offset, offset', head, rfl, by rw [c.limit_eq]⟩
        · exact ih coupled.branch
      | fold | branchClose => cases shape
    | branchClose offset =>
      cases token' with
      | branchClose offset' =>
        rcases m with ⟨cursor, saved, made⟩
        rcases m' with ⟨cursor', saved', made'⟩
        cases coupled.saved with
        | nil => exact .ok coupled.plans
        | cons outer inner => exact ih ⟨outer, inner, coupled.plans⟩
      | fold | branchOpen => cases shape

theorem ofGrammar {g g' : String} {tokens tokens' : List Token} (scanned : Token.ofGrammar g = .ok tokens)
    (scanned' : Token.ofGrammar g' = .ok tokens') (together : List.Forall₂ c.token tokens tokens') {x x' : S}
    (times : c.time x x') (roots : c.plan (.root x) (.root x')) :
    Alike c.fault c.plans (Plan.ofGrammar settings g x) (Plan.ofGrammar settings' g' x') := by
  have start : c.Coupled (.start x) (.start x') := ⟨⟨rfl, times⟩, .nil, .cons roots .nil⟩
  rw [Plan.ofGrammar_eq_run scanned, Plan.ofGrammar_eq_run scanned']
  exact start.result_run together

end Coupling

end HingedPanels
