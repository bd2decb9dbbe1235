/-
Milp.Proofs.UndefinedSides — constraints with an undefined side.

An undefined number compares with nothing, its distance to any number is
undefined too, and neither is within a tolerance (`LawfulUndefined`; machine
numbers and exact ones both obey it). The three-way comparison still has to
answer, and answers that the left side is greater (`Scalar.compare_undefined`).

A row has no such comparison in between, and is not satisfied by an undefined
activity (`Row.isSatisfied_undefined`). A constraint asks the comparison, which
does for `≤` and `=`; but `≥` accepts what is greater, and so it accepts every
pair of sides of which one is undefined (`Constraint.isSatisfied_undefined`).
-/
import Milp.Model.Basic
import Milp.Number.Double
import Milp.Number.Exact
import Milp.Problem.Basic

namespace Milp

/-! ## Undefined numbers -/

/-- Undefined numbers stay undefined, and compare with nothing. -/
class LawfulUndefined (α : Type) [Scalar α] : Prop where
  isNaN_add {a b : α} (h : Scalar.isNaN a = true ∨ Scalar.isNaN b = true) :
    Scalar.isNaN (a + b) = true
  isNaN_mul {a b : α} (h : Scalar.isNaN a = true ∨ Scalar.isNaN b = true) :
    Scalar.isNaN (a * b) = true
  isNaN_sub {a b : α} (h : Scalar.isNaN a = true ∨ Scalar.isNaN b = true) :
    Scalar.isNaN (a - b) = true
  isNaN_abs {a : α} (h : Scalar.isNaN a = true) : Scalar.isNaN (Scalar.abs a) = true
  beq_of_isNaN {a b : α} (h : Scalar.isNaN a = true ∨ Scalar.isNaN b = true) : (a == b) = false
  lt_of_isNaN {a b : α} (h : Scalar.isNaN a = true ∨ Scalar.isNaN b = true) :
    Scalar.lt a b = false
  le_of_isNaN {a b : α} (h : Scalar.isNaN a = true ∨ Scalar.isNaN b = true) :
    Scalar.le a b = false

namespace Exact

theorem isNaN_iff {a : Exact} : Scalar.isNaN a = true ↔ a = undefined := by
  cases a with
  | finite q => simp [Scalar.isNaN]
  | infinite s => cases s <;> decide
  | undefined => decide

instance : LawfulUndefined Exact where
  isNaN_add {a b} h := by
    rw [isNaN_iff, isNaN_iff] at h
    rw [isNaN_iff]
    obtain rfl | rfl := h
    · rfl
    · cases a <;> rfl
  isNaN_mul {a b} h := by
    rw [isNaN_iff, isNaN_iff] at h
    rw [isNaN_iff]
    obtain rfl | rfl := h
    · rfl
    · cases a <;> rfl
  isNaN_sub {a b} h := by
    rw [isNaN_iff, isNaN_iff] at h
    rw [isNaN_iff]
    obtain rfl | rfl := h
    · rfl
    · cases a <;> rfl
  isNaN_abs {a} h := by
    rw [isNaN_iff] at h
    subst h
    rfl
  beq_of_isNaN {a b} h := by
    rw [isNaN_iff, isNaN_iff] at h
    obtain rfl | rfl := h
    · rfl
    · cases a <;> rfl
  lt_of_isNaN {a b} h := by
    rw [isNaN_iff, isNaN_iff] at h
    obtain rfl | rfl := h
    · rfl
    · cases a <;> rfl
  le_of_isNaN {a b} h := by
    rw [isNaN_iff, isNaN_iff] at h
    obtain rfl | rfl := h
    · rfl
    · cases a <;> rfl

end Exact

/-! ## Machine numbers -/

namespace Double

open Float.Model

theorem compare_self {x : UnpackedFloat} (h : x ≠ .notANumber) : x.compare x = some .eq := by
  cases x with
  | infinity s => cases s <;> rfl
  | notANumber => exact absurd rfl h
  | zero s => rfl
  | finite s m e hm =>
    have hself : (compare e e).then (compare m m) = .eq := by
      rw [Std.compare_self, Std.compare_self]
      rfl
    cases s with
    | positive => exact congrArg some hself
    | negative => exact congrArg (fun o => some o.swap) hself

theorem compare_undefined {x y : UnpackedFloat} (h : x = .notANumber ∨ y = .notANumber) :
    x.compare y = none := by
  obtain rfl | rfl := h
  · rfl
  · cases x <;> rfl

theorem isNaN_iff {a : Float} : Scalar.isNaN a = true ↔ a.toModel.unpack = .notANumber := by
  have hself : Scalar.isNaN a = !(a.toModel.unpack.compare a.toModel.unpack == some .eq) := rfl
  rw [hself]
  by_cases h : a.toModel.unpack = .notANumber
  · rw [compare_undefined (.inl h)]
    exact iff_of_true rfl h
  · rw [compare_self h]
    exact iff_of_false (by decide) h

/-- What an undefined result is packed into is undefined. -/
theorem isNaN_pack {x : UnpackedFloat} (h : x = .notANumber) :
    Scalar.isNaN (⟨pack x⟩ : Float) = true := by
  subst h
  exact isNaN_iff.mpr rfl

instance : LawfulUndefined Float where
  isNaN_add {a b} h := by
    rw [isNaN_iff, isNaN_iff] at h
    refine isNaN_pack ?_
    obtain h | h := h <;> rw [h]
    · rfl
    · cases a.toModel.unpack <;> rfl
  isNaN_mul {a b} h := by
    rw [isNaN_iff, isNaN_iff] at h
    refine isNaN_pack ?_
    obtain h | h := h <;> rw [h]
    · rfl
    · cases a.toModel.unpack <;> rfl
  isNaN_sub {a b} h := by
    rw [isNaN_iff, isNaN_iff] at h
    refine isNaN_pack ?_
    obtain h | h := h <;> rw [h]
    · rfl
    · cases a.toModel.unpack <;> rfl
  isNaN_abs {a} h := by
    rw [isNaN_iff] at h
    exact isNaN_pack (by rw [h]; rfl)
  beq_of_isNaN {a b} h := by
    rw [isNaN_iff, isNaN_iff] at h
    change (a.toModel.unpack.compare b.toModel.unpack == some .eq) = false
    rw [compare_undefined h]
    rfl
  lt_of_isNaN {a b} h := by
    rw [isNaN_iff, isNaN_iff] at h
    refine decide_eq_false fun hlt => ?_
    have hcompare : (a.toModel.unpack.compare b.toModel.unpack == some .lt) = true :=
      of_decide_eq_true hlt
    rw [compare_undefined h] at hcompare
    cases hcompare
  le_of_isNaN {a b} h := by
    rw [isNaN_iff, isNaN_iff] at h
    refine decide_eq_false fun hle => ?_
    have hcompare : (a.toModel.unpack.compare b.toModel.unpack).any Ordering.isLE = true :=
      of_decide_eq_true hle
    rw [compare_undefined h] at hcompare
    cases hcompare

end Double

/-! ## Adding up -/

section

variable {α ε : Type} [Scalar α] [LawfulUndefined α] {read : VariableRef → Except ε α}

/-- A sum that is undefined, or comes by an undefined value, ends undefined. -/
theorem isNaN_foldlM {terms : List (VariableRef × α)} {start sum : α}
    (hsum : terms.foldlM (fun sum (v, c) => (read v).map fun x => sum + c * x) start = .ok sum)
    (h : Scalar.isNaN start = true
      ∨ ∃ t ∈ terms, ∃ x, read t.1 = .ok x ∧ Scalar.isNaN x = true) :
    Scalar.isNaN sum = true := by
  induction terms generalizing start with
  | nil =>
    obtain rfl : start = sum := Except.ok.inj hsum
    exact h.resolve_right (by simp)
  | cons t rest ih =>
    rw [List.foldlM_cons] at hsum
    cases hread : read t.1 with
    | error e =>
      simp only [hread] at hsum
      cases hsum
    | ok x =>
      simp only [hread] at hsum
      refine ih hsum ?_
      obtain hstart | ⟨u, hu, y, hy, hnan⟩ := h
      · exact .inl (LawfulUndefined.isNaN_add (.inl hstart))
      · obtain rfl | hu := List.mem_cons.mp hu
        · obtain rfl : x = y := Except.ok.inj (hread.symm.trans hy)
          exact .inl (LawfulUndefined.isNaN_add (.inr (LawfulUndefined.isNaN_mul (.inr hnan))))
        · exact .inr ⟨u, hu, y, hy, hnan⟩

/-- An expression with a variable whose value is undefined is undefined, even
where the variable cancels. -/
theorem Expression.isNaN_value {e : Expression α} {y : α} (hvalue : e.value read = .ok y)
    {v : VariableRef} (hv : v ∈ e.vars) {x : α} (hread : read v = .ok x)
    (hx : Scalar.isNaN x = true) : Scalar.isNaN y = true := by
  obtain ⟨t, ht, rfl⟩ := List.mem_map.mp (List.mem_eraseDups.mp hv)
  exact isNaN_foldlM hvalue (.inr ⟨t, ht, x, hread, hx⟩)

end

/-! ## Comparing -/

variable {α : Type} [Scalar α] [LawfulUndefined α]

/-- Where one number is undefined, the comparison answers that the left one is
greater. -/
theorem Scalar.compare_undefined {a b : α}
    (h : Scalar.isNaN a = true ∨ Scalar.isNaN b = true) : Scalar.compare a b = .gt := by
  have hfar : Scalar.le (Scalar.abs (a - b)) Scalar.tolerance = false :=
    LawfulUndefined.le_of_isNaN (.inl (LawfulUndefined.isNaN_abs (LawfulUndefined.isNaN_sub h)))
  rw [Scalar.compare, LawfulUndefined.beq_of_isNaN h, hfar, LawfulUndefined.lt_of_isNaN h]
  rfl

/-- A row is not satisfied by an undefined activity, whatever its sense and the
tolerance. -/
theorem Row.isSatisfied_undefined {r : Row α} {values : List α}
    (h : Scalar.isNaN (r.activity values) = true) (tolerance : α) :
    r.isSatisfied values tolerance = false := by
  rw [Row.isSatisfied]
  cases r.sense with
  | atMost => exact LawfulUndefined.le_of_isNaN (.inl h)
  | equal =>
    have hdistance := LawfulUndefined.isNaN_sub (b := r.bound) (.inl h)
    exact LawfulUndefined.le_of_isNaN (.inl (LawfulUndefined.isNaN_abs hdistance))
  | atLeast => exact LawfulUndefined.le_of_isNaN (.inr h)

namespace Constraint

/-- A constraint of which a side is undefined is satisfied if and only if it
asks that the left side be at least the right one; whichever side it is and
whatever the other one is. -/
theorem isSatisfied_undefined {ε : Type} (c : Constraint α) (read : VariableRef → Except ε α)
    {lhs rhs : α} (hlhs : c.lhs.value read = .ok lhs) (hrhs : c.rhs.value read = .ok rhs)
    (h : Scalar.isNaN lhs = true ∨ Scalar.isNaN rhs = true) :
    c.isSatisfied read = .ok (decide (c.sense = .atLeast)) := by
  have hanswer : c.isSatisfied read = .ok (c.sense.holds (Scalar.compare lhs rhs)) := by
    rw [isSatisfied, hlhs, hrhs]
    rfl
  rw [hanswer, Scalar.compare_undefined h]
  cases c.sense <;> rfl

/-- In particular this holds where a variable of either side has an undefined
value. -/
theorem isSatisfied_of_undefined_value {ε : Type} {c : Constraint α}
    {read : VariableRef → Except ε α} {lhs rhs : α} (hlhs : c.lhs.value read = .ok lhs)
    (hrhs : c.rhs.value read = .ok rhs) {v : VariableRef} (hv : v ∈ c.vars) {x : α}
    (hread : read v = .ok x) (hx : Scalar.isNaN x = true) :
    c.isSatisfied read = .ok (decide (c.sense = .atLeast)) := by
  refine isSatisfied_undefined c read hlhs hrhs ?_
  rw [vars, List.mem_eraseDups, List.mem_append] at hv
  exact hv.imp (fun hv => Expression.isNaN_value hlhs hv hread hx)
    fun hv => Expression.isNaN_value hrhs hv hread hx

/-- A constraint with an undefined side is satisfied if and only if it asks that
the left side be at least the right one, whichever side is undefined; a row with
an undefined activity is not satisfied, whatever it asks. -/
theorem undefined_side {ε : Type} (c : Constraint α) (read : VariableRef → Except ε α)
    {lhs rhs : α} (hlhs : c.lhs.value read = .ok lhs) (hrhs : c.rhs.value read = .ok rhs)
    (h : Scalar.isNaN lhs = true ∨ Scalar.isNaN rhs = true) :
    c.isSatisfied read = .ok (decide (c.sense = .atLeast))
      ∧ ∀ (r : Row α) (values : List α) (tolerance : α),
        Scalar.isNaN (r.activity values) = true → r.isSatisfied values tolerance = false :=
  ⟨isSatisfied_undefined c read hlhs hrhs h, fun _ _ tolerance hactivity =>
    Row.isSatisfied_undefined hactivity tolerance⟩

/-- `x - x` compared with `1`. -/
def ofCancelling (sense : Sense) : Constraint Float :=
  ⟨0, "Con_0", (Expression.ofVariable ⟨0⟩).minus (.ofVariable ⟨0⟩), sense, .ofConstant 1⟩

/-- Where `x` is infinite, `x - x` is undefined. It is neither at most `1` nor
equal to it, yet it passes for at least `1`; the row `x - y ≥ 1` does not pass
where `x` and `y` are infinite. -/
theorem isSatisfied_ofCancelling :
    let answer := fun sense =>
      (ofCancelling sense).isSatisfied (ε := Unit) fun _ => .ok Unbounded.infinity
    let row : Row Float := ⟨.atLeast, [(0, 1), (1, -1)], 1, "Con_0"⟩
    answer .atMost = .ok false ∧ answer .equal = .ok false ∧ answer .atLeast = .ok true
      ∧ row.isSatisfied [Unbounded.infinity, Unbounded.infinity] Scalar.tolerance = false := by
  obtain ⟨hatMost, -⟩ := undefined_side (ε := Unit) (ofCancelling .atMost)
    (fun _ => .ok Unbounded.infinity) rfl rfl (.inl (by decide +kernel))
  obtain ⟨hequal, -⟩ := undefined_side (ε := Unit) (ofCancelling .equal)
    (fun _ => .ok Unbounded.infinity) rfl rfl (.inl (by decide +kernel))
  obtain ⟨hatLeast, hrow⟩ := undefined_side (ε := Unit) (ofCancelling .atLeast)
    (fun _ => .ok Unbounded.infinity) rfl rfl (.inl (by decide +kernel))
  exact ⟨hatMost, hequal, hatLeast, hrow _ _ _ (by decide +kernel)⟩

/-- Where `x` has an undefined value, `x ≥ 1` is satisfied. -/
theorem accepts_undefined : ∃ lhs rhs : Float,
    let c : Constraint Float := ⟨0, "Con_0", .ofVariable ⟨0⟩, .atLeast, .ofConstant 1⟩
    let read : VariableRef → Except Unit Float := fun _ => .ok (0 / 0)
    c.lhs.value read = .ok lhs ∧ c.rhs.value read = .ok rhs ∧ Scalar.isNaN lhs = true
      ∧ c.isSatisfied read = .ok true := by
  refine ⟨0 + 1 * (0 / 0), 1, rfl, rfl, by decide +kernel, ?_⟩
  have hgreater : Scalar.compare (0 + 1 * (0 / 0) : Float) 1 = .gt := by decide +kernel
  exact congrArg (fun o => Except.ok (Sense.holds .atLeast o)) hgreater

end Constraint

end Milp
