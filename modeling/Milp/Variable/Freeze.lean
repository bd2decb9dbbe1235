/-
Milp.Variable.Freeze — counted freezing of a variable.

A variable may be frozen several times over and is released by as many
releases. The count is a 32-bit word. Only the first freeze and the last
release are transitions that a solver hears of.

* `Freeze.count_deepen` and `Freeze.release_frozen_of_ne`: freezing adds one
  release to the count, and a release that is not the last takes one away.
* `Freeze.isFrozen_deepen` and `Freeze.isFrozen_release_of_ne`: what is not
  such a transition leaves a variable frozen or not as it was.
-/

namespace Milp

/-- How often a variable is frozen. -/
inductive Freeze where
  | unfrozen
  | frozen (count : UInt32)
  deriving DecidableEq, Repr, Inhabited

namespace Freeze

/-- Frozen once more. -/
def deepen : Freeze → Freeze
  | unfrozen => frozen 1
  | frozen n => frozen (n + 1)

/-- Frozen once less; an unfrozen variable stays as it is. -/
def release : Freeze → Freeze
  | unfrozen => unfrozen
  | frozen n => if n = 1 then unfrozen else frozen (n - 1)

/-- How many releases are owed. -/
def count : Freeze → UInt32
  | unfrozen => 0
  | frozen n => n

/-- Whether the variable is frozen at all. -/
def isFrozen : Freeze → Bool
  | unfrozen => false
  | frozen _ => true

/-! ## Counting -/

@[simp] theorem isFrozen_deepen (f : Freeze) : f.deepen.isFrozen = true := by
  cases f <;> rfl

@[simp] theorem count_deepen (f : Freeze) : f.deepen.count = f.count + 1 := by
  cases f <;> rfl

@[simp] theorem release_unfrozen : unfrozen.release = unfrozen := rfl

/-- The last release ends the freezing. -/
@[simp] theorem release_frozen_one : (frozen 1).release = unfrozen := rfl

/-- Any other release leaves one release fewer to make. -/
theorem release_frozen_of_ne {n : UInt32} (h : n ≠ 1) : (frozen n).release = frozen (n - 1) :=
  if_neg h

/-- Only the last release ends the freezing. -/
theorem isFrozen_release_of_ne {f : Freeze} (h : f ≠ frozen 1) :
    f.release.isFrozen = f.isFrozen := by
  cases f with
  | unfrozen => rfl
  | frozen n =>
    rw [release_frozen_of_ne fun hn => h (congrArg frozen hn)]
    rfl

/-! ## Text -/

/-- The state in a full description. -/
def debugText : Freeze → String
  | unfrozen => "Unfrozen"
  | frozen n => s!"Frozen({n.toNat})"

end Freeze

end Milp
