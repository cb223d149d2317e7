import HingedPanels.Proofs.Machine.Around

namespace HingedPanels

structure Stretch where
  start : Nat
  length : Nat

namespace Stretch

variable (x : Stretch)

def holds (offset : Nat) : Bool := x.start ≤ offset && offset < x.start + x.length

/-- Where a byte outside of the stretch stands once the stretch is gone. -/
def without (offset : Nat) : Nat := if offset < x.start then offset else offset - x.length

end Stretch

variable {S : Type}

namespace Plan

variable (x : Stretch) (plans : List (Plan S))

def standsOutside (plan : Plan S) : Bool := plan.attachment.all fun a => !x.holds a.offset

/-- The number of a panel when only those outside of the stretch are counted. -/
def rank (number : Nat) : Nat := (plans.take number).countP (standsOutside x)

def ranked (plan : Plan S) : Plan S :=
  ⟨plan.attachment.map fun a => ⟨rank x plans a.parent, a.edge, a.face, x.without a.offset⟩,
    plan.target, plan.window, plan.depth⟩

/-- The plans outside of a stretch, numbered among themselves. -/
def cutOut : List (Plan S) := (plans.filter (standsOutside x)).map (ranked x plans)

end Plan

/-- The plans before a stretch, those of its tokens and those after it, numbered as without the stretch. -/
structure Plan.Parted (x : Stretch) (base added tail : List (Plan S)) : Prop where
  before : ∀ plan ∈ base, ∀ a, plan.attachment = some a → a.offset < x.start ∧ a.parent < base.length
  within : ∀ plan ∈ added, ∃ a, plan.attachment = some a ∧ x.holds a.offset = true
  after : ∀ plan ∈ tail, ∀ a, plan.attachment = some a →
    x.start ≤ a.offset ∧ a.parent < base.length + tail.length

namespace Plan.Parted

variable {x : Stretch} {base added tail : List (Plan S)}

def whole (x : Stretch) (base added tail : List (Plan S)) : List (Plan S) :=
  base ++ added ++ tail.map (Plan.raised base.length added.length x.length)

theorem outside_base (parted : Parted x base added tail) : ∀ plan ∈ base, plan.standsOutside x = true := by
  intro plan member
  simp only [standsOutside, Option.all_eq_true, Stretch.holds]
  intro a hangs
  have early := (parted.before plan member a hangs).1
  simp
  omega

theorem inside_added (parted : Parted x base added tail) : ∀ plan ∈ added, ¬ plan.standsOutside x = true := by
  intro plan member
  obtain ⟨a, hangs, inside⟩ := parted.within plan member
  simp [standsOutside, hangs, inside]

theorem outside_tail (parted : Parted x base added tail) :
    ∀ plan ∈ tail.map (Plan.raised base.length added.length x.length), plan.standsOutside x = true := by
  intro plan member
  obtain ⟨origin, inside, rfl⟩ := List.mem_map.mp member
  simp only [standsOutside, Option.all_eq_true, Stretch.holds, Plan.raised, Option.map_eq_some_iff]
  rintro _ ⟨a, hangs, rfl⟩
  have late := (parted.after origin inside a hangs).1
  simp
  omega

theorem rank_raise (parted : Parted x base added tail) {number : Nat}
    (bound : number ≤ base.length + tail.length) :
    rank x (whole x base added tail) (raise base.length added.length number) = number := by
  have all_base : base.countP (standsOutside x) = base.length := List.countP_eq_length.mpr parted.outside_base
  have no_added : added.countP (standsOutside x) = 0 := List.countP_eq_zero.mpr parted.inside_added
  unfold rank whole raise
  split
  case isTrue early =>
    have part : ∀ plan ∈ base.take number, standsOutside x plan = true :=
      fun plan member => parted.outside_base plan (List.mem_of_mem_take member)
    rw [List.append_assoc, List.take_append_of_le_length (Nat.le_of_lt early), List.countP_eq_length.mpr part,
      List.length_take, Nat.min_eq_left (Nat.le_of_lt early)]
  case isFalse late =>
    have split : number + added.length = (base ++ added).length + (number - base.length) := by
      rw [List.length_append]
      omega
    have part : ∀ plan ∈ (tail.map (Plan.raised base.length added.length x.length)).take (number - base.length),
        standsOutside x plan = true := fun plan member => parted.outside_tail plan (List.mem_of_mem_take member)
    rw [split, List.take_length_add_append, List.countP_append, List.countP_append, all_base, no_added,
      List.countP_eq_length.mpr part]
    simp
    omega

theorem ranked_base (parted : Parted x base added tail) {plan : Plan S} (member : plan ∈ base) :
    ranked x (whole x base added tail) plan = plan := by
  cases hangs : plan.attachment with
  | none =>
    cases plan
    cases hangs
    rfl
  | some a =>
    have early := parted.before plan member a hangs
    have number := parted.rank_raise (Nat.le_of_lt (Nat.lt_add_right tail.length early.2))
    rw [raise, if_pos early.2] at number
    have place : x.without a.offset = a.offset := if_pos early.1
    simp only [ranked, hangs, Option.map_some, number, place]
    cases plan
    cases hangs
    rfl

theorem ranked_raised (parted : Parted x base added tail) {plan : Plan S} (member : plan ∈ tail) :
    ranked x (whole x base added tail) (plan.raised base.length added.length x.length) = plan := by
  cases hangs : plan.attachment with
  | none =>
    cases plan
    cases hangs
    rfl
  | some a =>
    have late := parted.after plan member a hangs
    have number := parted.rank_raise (Nat.le_of_lt late.2)
    have place : x.without (a.offset + x.length) = a.offset := by
      rw [Stretch.without, if_neg (by omega), Nat.add_sub_cancel]
    simp only [ranked, Plan.raised, hangs, Option.map_some, number, place]
    cases plan
    cases hangs
    rfl

theorem cutOut_whole (parted : Parted x base added tail) : cutOut x (whole x base added tail) = base ++ tail := by
  have left : (whole x base added tail).filter (standsOutside x) =
      base ++ tail.map (Plan.raised base.length added.length x.length) := by
    rw [whole, List.filter_append, List.filter_append, List.filter_eq_self.mpr parted.outside_base,
      List.filter_eq_nil_iff.mpr parted.inside_added, List.filter_eq_self.mpr parted.outside_tail, List.append_nil]
  have same : base.map (ranked x (whole x base added tail)) = base :=
    (List.map_congr_left fun _ member => parted.ranked_base member).trans (List.map_id base)
  have back : tail.map (ranked x (whole x base added tail) ∘ Plan.raised base.length added.length x.length) = tail :=
    (List.map_congr_left fun _ member => parted.ranked_raised member).trans (List.map_id tail)
  rw [cutOut, left, List.map_append, same, List.map_map, back]

theorem getElem?_whole (parted : Parted x base added tail) {number : Nat} (bound : number < base.length + tail.length) :
    ∃ plan, (whole x base added tail)[raise base.length added.length number]? = some plan ∧
      plan.standsOutside x = true := by
  unfold whole raise
  split
  case isTrue early =>
    rw [List.append_assoc, List.getElem?_append_left early]
    exact ⟨base[number], List.getElem?_eq_getElem early, parted.outside_base _ (List.getElem_mem early)⟩
  case isFalse late =>
    have inside : number + added.length - (base ++ added).length <
        (tail.map (Plan.raised base.length added.length x.length)).length := by
      rw [List.length_map, List.length_append]
      omega
    rw [List.getElem?_append_right (by rw [List.length_append]; omega)]
    exact ⟨_, List.getElem?_eq_getElem inside, parted.outside_tail _ (List.getElem_mem inside)⟩

theorem parent_outside (parted : Parted x base added tail) {plan : Plan S} (member : plan ∈ whole x base added tail)
    (outside : plan.standsOutside x = true) {a : Attachment} (hangs : plan.attachment = some a) :
    ∃ parent, (whole x base added tail)[a.parent]? = some parent ∧ parent.standsOutside x = true := by
  unfold whole at member
  rw [List.append_assoc] at member
  rcases List.mem_append.mp member with early | member
  · have bound := (parted.before plan early a hangs).2
    have there := parted.getElem?_whole (Nat.lt_add_right tail.length bound)
    rwa [raise, if_pos bound] at there
  · rcases List.mem_append.mp member with inside | late
    · exact absurd outside (parted.inside_added plan inside)
    · obtain ⟨origin, inside, rfl⟩ := List.mem_map.mp late
      obtain ⟨b, hangs', rfl⟩ := Option.map_eq_some_iff.mp hangs
      exact parted.getElem?_whole (parted.after origin inside b hangs').2

end Plan.Parted

namespace Token

@[simp] theorem lift_movedBy (distance : Nat) (t : Token) : (t.movedBy distance).lift = t.lift := by
  cases t <;> rfl

@[simp] theorem balance_map_movedBy (distance : Nat) (tokens : List Token) :
    balance (tokens.map (movedBy distance)) = balance tokens := by
  induction tokens with
  | nil => rfl
  | cons t tokens ih => simp [ih]

theorem Sheltered.map_movedBy {tokens : List Token} (sheltered : Sheltered tokens) (distance : Nat) :
    Sheltered (tokens.map (movedBy distance)) := by
  intro count
  rw [← List.map_take, balance_map_movedBy]
  exact sheltered count

variable {before inside after : String} {front inner back : List Token}

theorem ofGrammar_branch (scanned : ofGrammar before = .ok front) (within : ofGrammar inside = .ok inner)
    (scanned' : ofGrammar after = .ok back) :
    ofGrammar (before ++ "\x7b" ++ inside ++ "\x7d" ++ after) =
      .ok (front ++ branchOpen before.utf8ByteSize :: (inner.map (movedBy (before.utf8ByteSize + 1)) ++
        branchClose (before.utf8ByteSize + 1 + inside.utf8ByteSize) ::
          (back.map (movedBy before.utf8ByteSize)).map (movedBy (inside.utf8ByteSize + 2)))) := by
  have opening : ofGrammar "\x7b" = .ok [branchOpen 0] := rfl
  have closing : ofGrammar "\x7d" = .ok [branchClose 0] := rfl
  have scanned_all := ofGrammar_append (ofGrammar_append (ofGrammar_append (ofGrammar_append scanned opening) within) closing) scanned'
  have brace : "\x7b".utf8ByteSize = 1 ∧ "\x7d".utf8ByteSize = 1 := by decide
  have twice (tokens : List Token) : (tokens.map (movedBy before.utf8ByteSize)).map (movedBy (inside.utf8ByteSize + 2)) =
      tokens.map (movedBy (before.utf8ByteSize + 1 + inside.utf8ByteSize + 1)) := by
    rw [List.map_map]
    apply List.map_congr_left
    intro t _
    exact (movedBy_movedBy _ _ t).trans (congrArg (movedBy · t) (by omega))
  rw [scanned_all, twice]
  simp [String.utf8ByteSize_append, brace]

end Token

theorem Plan.StandsAt.unmoved {plan : Plan S} {tokens : List Token} {distance : Nat}
    (stands : plan.StandsAt (tokens.map (Token.movedBy distance))) :
    ∃ a, plan.attachment = some a ∧ ∃ token ∈ tokens, a.offset = token.offset + distance := by
  obtain ⟨a, hangs, _, present, place⟩ := stands
  obtain ⟨token, member, rfl⟩ := List.mem_map.mp present
  exact ⟨a, hangs, token, member, by simp [← place, Token.movedBy]⟩

namespace Plan

variable [Scalar S] {settings : Settings S} {before inside after : String} {front inner back : List Token}
  {startTime : S} {longer : Array (Plan S)}

theorem parted_of_ofGrammar (scanned : Token.ofGrammar before = .ok front) (within : Token.ofGrammar inside = .ok inner)
    (scanned' : Token.ofGrammar after = .ok back) (sheltered : Token.Sheltered inner) (level : Token.balance inner = 0)
    (planned : ofGrammar settings (before ++ "\x7b" ++ inside ++ "\x7d" ++ after) startTime = .ok longer) :
    ∃ base added tail, Parted ⟨before.utf8ByteSize, inside.utf8ByteSize + 2⟩ base added tail ∧
      longer = (Parted.whole ⟨before.utf8ByteSize, inside.utf8ByteSize + 2⟩ base added tail).toArray ∧
      ofGrammar settings (before ++ after) startTime = .ok (base ++ tail).toArray := by
  rw [ofGrammar_eq_run (Token.ofGrammar_branch scanned within scanned')] at planned
  have moved : Token.balance (inner.map (Token.movedBy (before.utf8ByteSize + 1))) = 0 := by
    rw [Token.balance_map_movedBy, level]
  obtain ⟨base, added, tail, places, stands, stands', whole, short⟩ :=
    Machine.result_around (sheltered.map_movedBy _) moved planned
  rw [← ofGrammar_eq_run (Token.ofGrammar_append scanned scanned')] at short
  refine ⟨base, added, tail, ⟨?_, ?_, ?_⟩, whole, short⟩
  · intro plan member a hangs
    obtain ⟨bound, token, present, place⟩ := places plan member a hangs
    exact ⟨place ▸ Token.offset_lt_of_ofGrammar scanned present, bound⟩
  · intro plan member
    obtain ⟨a, hangs, token, present, place⟩ := (stands plan member).unmoved
    have early := Token.offset_lt_of_ofGrammar within present
    refine ⟨a, hangs, ?_⟩
    simp [Stretch.holds, place]
    omega
  · intro plan member a hangs
    obtain ⟨_, hangs', token, present, place⟩ := (stands' plan member).unmoved
    cases hangs.symm.trans hangs'
    obtain ⟨_, _, m, _, _, reads, same⟩ := ofGrammar_reads short
    have bound := (reads.places (by simp [same, member]) hangs).1
    rw [same, List.size_toArray, List.length_append] at bound
    exact ⟨place ▸ Nat.le_add_left _ _, bound⟩

/-- A branch leaves its surroundings as they were. Without it the text is planned too, and its plans are
those outside of the branch, numbered among themselves; these do not hang on panels of the branch. -/
theorem ofGrammar_cutOut (scanned : Token.ofGrammar before = .ok front) (within : Token.ofGrammar inside = .ok inner)
    (scanned' : Token.ofGrammar after = .ok back) (sheltered : Token.Sheltered inner) (level : Token.balance inner = 0)
    (planned : ofGrammar settings (before ++ "\x7b" ++ inside ++ "\x7d" ++ after) startTime = .ok longer) :
    let x : Stretch := ⟨before.utf8ByteSize, inside.utf8ByteSize + 2⟩
    ofGrammar settings (before ++ after) startTime = .ok (cutOut x longer.toList).toArray ∧
      ∀ plan ∈ longer, plan.standsOutside x = true → ∀ a, plan.attachment = some a →
        ∃ parent, longer[a.parent]? = some parent ∧ parent.standsOutside x = true := by
  intro x
  obtain ⟨base, added, tail, parted, rfl, short⟩ := parted_of_ofGrammar scanned within scanned' sheltered level planned
  constructor
  · rw [short, List.toList_toArray, parted.cutOut_whole]
  · intro plan member outside a hangs
    rw [List.getElem?_toArray]
    exact parted.parent_outside (List.mem_toArray.mp member) outside hangs

/-- The branch stands inside another one, and a stray brace ends the strip after it. -/
theorem ofGrammar_cutOut_nested :
    ∃ longer, ofGrammar .standard ("A0\x7bb0" ++ "\x7b" ++ "B1{c2}" ++ "\x7d" ++ "C2\x7dd1\x7dD0") (0 : Float32) = .ok longer ∧
      longer.size = 7 ∧
      ofGrammar .standard ("A0\x7bb0" ++ "C2\x7dd1\x7dD0") (0 : Float32) = .ok (cutOut ⟨5, 8⟩ longer.toList).toArray := by
  have scanned : Token.ofGrammar "A0\x7bb0" = .ok [.fold .a .front .quarter 0, .branchOpen 2, .fold .b .back .quarter 3] := by
    cbv
  have within : Token.ofGrammar "B1{c2}" =
      .ok [.fold .b .front .half 0, .branchOpen 2, .fold .c .back .threeQuarter 3, .branchClose 5] := by
    cbv
  have scanned' : Token.ofGrammar "C2\x7dd1\x7dD0" = .ok [.fold .c .front .threeQuarter 0, .branchClose 2,
      .fold .d .back .half 3, .branchClose 5, .fold .d .front .quarter 6] := by
    cbv
  have planned := (ofGrammar_eq_run (Token.ofGrammar_branch scanned within scanned') .standard (0 : Float32)).trans rfl
  exact ⟨_, planned, rfl, (ofGrammar_cutOut scanned within scanned' (by decide) rfl planned).1⟩

end Plan

end HingedPanels
