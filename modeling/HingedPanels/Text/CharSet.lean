namespace HingedPanels.Text

/-- Ascending code points: the set starts at the first, stops at the second, and so on. -/
abbrev CharSet := List Nat

def CharSet.contains (changes : CharSet) (c : Char) : Bool :=
  (changes.takeWhile (· ≤ c.toNat)).length % 2 = 1

end HingedPanels.Text
