import HingedPanels.Scalar

namespace HingedPanels

def depthLimit : Nat := 256

structure Settings (S : Type) where
  angularSpeed : S
  /-- Seconds from the branching of a chain to the first panel of the branch. -/
  branchDelay : S
  maxBranchDepth : Nat
  deriving DecidableEq, Repr

inductive SettingFault (S : Type) where
  | angularSpeed (value : S)
  | branchDelay (value : S)
  | noBranches
  | tooManyBranches (depth : Nat)
  | startTime (value : S)
  deriving DecidableEq, Repr

namespace Settings

variable {S : Type} [Scalar S]

def check (s : Settings S) : Except (SettingFault S) Unit :=
  if Scalar.isFinite s.angularSpeed = false ∨ s.angularSpeed ≤ 0 then .error (.angularSpeed s.angularSpeed)
  else if Scalar.isFinite s.branchDelay = false ∨ s.branchDelay < 0 then .error (.branchDelay s.branchDelay)
  else if s.maxBranchDepth = 0 then .error .noBranches
  else if depthLimit < s.maxBranchDepth then .error (.tooManyBranches s.maxBranchDepth)
  else .ok ()

/-- One turn per second, a quarter of a second before a branch, and branches 32 deep. -/
def standard : Settings Float32 := ⟨Float32.ofBits 0x40c90fdb, Float32.ofBits 0x3e800000, 32⟩

end Settings

end HingedPanels
