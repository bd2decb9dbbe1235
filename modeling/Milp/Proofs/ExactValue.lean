/-
Milp.Proofs.ExactValue — what expressions and rows evaluate to in exact
arithmetic.

Over finite coefficients and values the terms of an expression add up to a
rational, and their order does not matter any more; the constant may still
be an infinity, and then it decides the value (`value_eq_ok`). So merging
keeps the sum (`dot_mergeTerms`), and assembling changes it by the dropped
terms only (`dot_assemble`); nothing is lost where no merged coefficient is
both small and different from zero. The activity of a row is the sum of the
terms it was numbered from (`sum_eq_finite`).

The comparisons within the tolerance are read off in the same way
(`compare_finite`); against an infinite bound they ask only for its sign.
-/
import Mathlib.Algebra.BigOperators.Group.List.Basic
import Mathlib.Algebra.Order.Field.Rat
import Mathlib.Tactic.Ring
import Mathlib.Tactic.Linarith
import Milp.Number.Exact
import Milp.Proofs.Merging

namespace Milp

namespace Exact

/-! ## Numbers -/

/-- The rational that a finite number is. -/
def toRat : Exact → ℚ
  | finite q => q
  | _ => 0

@[simp] theorem toRat_finite (q : ℚ) : (finite q).toRat = q := rfl

theorem eq_finite_of_isFinite {x : Exact} (h : Scalar.isFinite x = true) :
    x = finite x.toRat := by
  cases x with
  | finite q => rfl
  | infinite s => cases h
  | undefined => cases h

@[simp] theorem abs_finite (q : ℚ) : Scalar.abs (finite q) = finite |q| := by
  change finite (if q < 0 then -q else q) = finite |q|
  split
  · next h => rw [abs_of_neg h]
  · next h => rw [abs_of_nonneg (not_lt.mp h)]

/-- Finite numbers compare by their distance first. -/
theorem compare_finite (a b : ℚ) : Scalar.compare (finite a) (finite b) =
    if |a - b| ≤ 1 / 1000000 then .eq else if a < b then .lt else .gt := by
  by_cases h : |a - b| ≤ 1 / 1000000
  · simp only [Scalar.compare, finite_sub, abs_finite, tolerance_eq, le_finite, h,
      decide_true, Bool.or_true, if_true]
  · have hne : a ≠ b := by
      rintro rfl
      exact h (by norm_num)
    simp only [Scalar.compare, finite_sub, abs_finite, tolerance_eq, le_finite, lt_finite, h,
      finite_beq, hne, decide_false, Bool.or_self, Bool.false_eq_true, if_false,
      decide_eq_true_eq]

theorem approxEq_zero_iff (q : ℚ) :
    Scalar.approxEq (finite q) 0 = true ↔ |q| ≤ 1 / 1000000 := by
  rw [Scalar.approxEq, zero_eq, compare_finite, sub_zero]
  split
  · next h => simpa using h
  · next h =>
    split <;> simpa using h

theorem compare_ne_lt_iff (a b : ℚ) :
    Scalar.compare (finite a) (finite b) ≠ .lt ↔ b - 1 / 1000000 ≤ a := by
  rw [compare_finite]
  split
  · next h =>
    have := (abs_le.mp h).1
    simp only [ne_eq, reduceCtorEq, not_false_eq_true, true_iff]
    linarith
  · next h =>
    split
    · next hlt =>
      simp only [ne_eq, not_true_eq_false, false_iff, not_le]
      rw [abs_of_neg (by linarith)] at h
      linarith
    · next hge =>
      simp only [ne_eq, reduceCtorEq, not_false_eq_true, true_iff]
      linarith

theorem compare_ne_gt_iff (a b : ℚ) :
    Scalar.compare (finite a) (finite b) ≠ .gt ↔ a ≤ b + 1 / 1000000 := by
  rw [compare_finite]
  split
  · next h =>
    have := (abs_le.mp h).2
    simp only [ne_eq, reduceCtorEq, not_false_eq_true, true_iff]
    linarith
  · next h =>
    split
    · next hlt =>
      simp only [ne_eq, reduceCtorEq, not_false_eq_true, true_iff]
      linarith
    · next hge =>
      simp only [ne_eq, not_true_eq_false, false_iff, not_le]
      rw [abs_of_nonneg (by linarith)] at h
      linarith

theorem compare_eq_iff (a b : ℚ) :
    Scalar.compare (finite a) (finite b) = .eq ↔ |a - b| ≤ 1 / 1000000 := by
  rw [compare_finite]
  split
  · next h => simpa using h
  · next h =>
    split <;> simpa using h

theorem add_finite_zero (a : Exact) : a + finite 0 = a := by
  cases a with
  | finite q => rw [finite_add, add_zero]
  | infinite s => rfl
  | undefined => rfl

theorem add_finite_add_finite (a : Exact) (p q : ℚ) :
    a + finite p + finite q = a + finite (p + q) := by
  cases a with
  | finite r => rw [finite_add, finite_add, finite_add, add_assoc]
  | infinite s => rfl
  | undefined => rfl

theorem mul_neg_one (a : Exact) : a * -1 = -a := by
  cases a with
  | finite q => rw [one_eq, finite_neg, finite_mul, finite_neg, mul_neg, mul_one]
  | infinite s => cases s <;> rfl
  | undefined => rfl

/-- A list of finite numbers adds up to the rational sum. -/
theorem sum_eq_finite {β : Type} (f : β → ℚ) (xs : List β) :
    Scalar.sum (xs.map fun x => finite (f x)) = finite (xs.map f).sum := by
  suffices h : ∀ start : ℚ, (xs.map fun x => finite (f x)).foldl (· + ·) (finite start)
      = finite (start + (xs.map f).sum) by
    simpa [Scalar.sum] using h 0
  induction xs with
  | nil => simp
  | cons x rest ih =>
    intro start
    rw [List.map_cons, List.foldl_cons, finite_add, ih, List.map_cons, List.sum_cons, add_assoc]

end Exact

/-! ## Values of expressions -/

/-- All coefficients of an expression are finite. -/
def Expression.HasFiniteTerms {α : Type} [Scalar α] (e : Expression α) : Prop :=
  ∀ t ∈ e.terms, Scalar.isFinite t.2 = true

instance {α : Type} [Scalar α] (e : Expression α) : Decidable e.HasFiniteTerms :=
  inferInstanceAs (Decidable (∀ t ∈ e.terms, Scalar.isFinite t.2 = true))

namespace Expression

open Exact

/-- What terms add up to where `x` gives the values of the variables. -/
def dot (x : VariableRef → ℚ) (terms : List (VariableRef × Exact)) : ℚ :=
  (terms.map fun t => t.2.toRat * x t.1).sum

variable {x : VariableRef → ℚ}

@[simp] theorem dot_nil : dot x [] = 0 := rfl

@[simp] theorem dot_cons (t : VariableRef × Exact) (rest : List (VariableRef × Exact)) :
    dot x (t :: rest) = t.2.toRat * x t.1 + dot x rest := by
  simp [dot]

theorem dot_append (a b : List (VariableRef × Exact)) : dot x (a ++ b) = dot x a + dot x b := by
  simp [dot]

theorem dot_filter_add (p : VariableRef × Exact → Bool) (terms : List (VariableRef × Exact)) :
    dot x (terms.filter p) + dot x (terms.filter fun t => !p t) = dot x terms := by
  induction terms with
  | nil => simp
  | cons t rest ih =>
    cases h : p t with
    | true =>
      simp only [List.filter_cons, h, if_true, Bool.not_true, Bool.false_eq_true, if_false,
        dot_cons]
      linarith
    | false =>
      simp only [List.filter_cons, h, if_true, Bool.not_false, Bool.false_eq_true, if_false,
        dot_cons]
      linarith

theorem foldlM_eq_ok {ε : Type} {read : VariableRef → Except ε Exact}
    {terms : List (VariableRef × Exact)} (start : Exact)
    (hterms : ∀ t ∈ terms, Scalar.isFinite t.2 = true)
    (hread : ∀ t ∈ terms, read t.1 = .ok (finite (x t.1))) :
    terms.foldlM (fun sum (v, c) => (read v).map fun y => sum + c * y) start
      = .ok (start + finite (dot x terms)) := by
  induction terms generalizing start with
  | nil =>
    rw [dot_nil, add_finite_zero]
    rfl
  | cons t rest ih =>
    have hstep : ((read t.1).map fun y => start + t.2 * y)
        = .ok (start + finite (t.2.toRat * x t.1)) := by
      rw [hread t List.mem_cons_self, eq_finite_of_isFinite (hterms t List.mem_cons_self)]
      rfl
    rw [List.foldlM_cons]
    simp only [hstep]
    refine (ih _ (fun u hu => hterms u (List.mem_cons_of_mem t hu))
      (fun u hu => hread u (List.mem_cons_of_mem t hu))).trans ?_
    rw [add_finite_add_finite, dot_cons]

/-- The value of an expression is its constant and its terms added up. -/
theorem value_eq_ok {ε : Type} {read : VariableRef → Except ε Exact} {e : Expression Exact}
    (he : e.HasFiniteTerms) (hread : ∀ v ∈ e.vars, read v = .ok (finite (x v))) :
    e.value read = .ok (e.constant + finite (dot x e.terms)) :=
  foldlM_eq_ok _ he fun t ht => hread t.1 (mem_vars_iff.mpr (List.mem_map_of_mem ht))

/-! ## Merging -/

/-- Inserting a term adds its value, and keeps finite terms finite. -/
theorem dot_insertTerm {terms : List (VariableRef × Exact)} {new : VariableRef × Exact}
    (hterms : ∀ t ∈ terms, Scalar.isFinite t.2 = true) (hnew : Scalar.isFinite new.2 = true) :
    dot x (insertTerm terms new) = dot x terms + new.2.toRat * x new.1
      ∧ ∀ t ∈ insertTerm terms new, Scalar.isFinite t.2 = true := by
  induction terms with
  | nil => simp [insertTerm, hnew]
  | cons t rest ih =>
    obtain ⟨v, c⟩ := t
    have hc := eq_finite_of_isFinite (hterms (v, c) List.mem_cons_self)
    have hn := eq_finite_of_isFinite hnew
    have hrest : ∀ t ∈ rest, Scalar.isFinite t.2 = true := fun t ht =>
      hterms t (List.mem_cons_of_mem _ ht)
    by_cases hv : v = new.1
    · have hsum : c + new.2 = finite (c.toRat + new.2.toRat) := by
        rw [← finite_add, ← hc, ← hn]
      constructor
      · simp only [insertTerm, hv, if_true, dot_cons, hsum, toRat_finite]
        ring
      · simp only [insertTerm, hv, if_true, List.mem_cons, forall_eq_or_imp]
        exact ⟨by rw [hsum]; rfl, hrest⟩
    · obtain ⟨hdot, hfin⟩ := ih hrest
      constructor
      · simp only [insertTerm, hv, if_false, dot_cons, hdot]
        ring
      · simp only [insertTerm, hv, if_false, List.mem_cons, forall_eq_or_imp]
        exact ⟨hterms (v, c) List.mem_cons_self, hfin⟩

/-- Merging keeps the value, and keeps finite terms finite. -/
theorem dot_mergeTerms {terms : List (VariableRef × Exact)}
    (hterms : ∀ t ∈ terms, Scalar.isFinite t.2 = true) :
    dot x (mergeTerms terms) = dot x terms
      ∧ ∀ t ∈ mergeTerms terms, Scalar.isFinite t.2 = true := by
  induction terms using List.reverseRecOn with
  | nil => simp [mergeTerms]
  | append_singleton terms new ih =>
    obtain ⟨hdot, hfin⟩ := ih fun t ht => hterms t (by simp [ht])
    obtain ⟨hdot', hfin'⟩ := dot_insertTerm (x := x) hfin (hterms new (by simp))
    rw [mergeTerms_concat]
    refine ⟨?_, hfin'⟩
    rw [hdot', hdot, dot_append]
    simp

/-- Every merged coefficient that is within the tolerance of zero is zero. -/
def NoSmallCoefficient (e : Expression Exact) : Prop :=
  ∀ t ∈ mergeTerms e.terms, Scalar.le (Scalar.abs t.2) Scalar.tolerance = true → t.2 = 0

instance (e : Expression Exact) : Decidable e.NoSmallCoefficient :=
  inferInstanceAs (Decidable (∀ t ∈ mergeTerms e.terms,
    Scalar.le (Scalar.abs t.2) Scalar.tolerance = true → t.2 = 0))

/-- Assembling keeps the value where only zeros are dropped. -/
theorem dot_assemble {e : Expression Exact} (he : e.HasFiniteTerms) (hsmall : e.NoSmallCoefficient) :
    dot x e.assemble.terms = dot x e.terms := by
  obtain ⟨hdot, hfin⟩ := dot_mergeTerms (x := x) he
  have hdropped : dot x ((mergeTerms e.terms).filter fun t => !!Scalar.approxEq t.2 0) = 0 := by
    refine List.sum_eq_zero fun y hy => ?_
    obtain ⟨t, ht, rfl⟩ := List.mem_map.mp hy
    obtain ⟨hmem, happrox⟩ := List.mem_filter.mp ht
    have hfinite := eq_finite_of_isFinite (hfin t hmem)
    have hzero : t.2 = 0 := by
      refine hsmall t hmem ?_
      rw [Bool.not_not, hfinite, approxEq_zero_iff] at happrox
      rw [hfinite, abs_finite, tolerance_eq, le_finite]
      exact decide_eq_true happrox
    rw [hzero, zero_eq, toRat_finite, zero_mul]
  rw [← hdot, ← dot_filter_add (fun t => !Scalar.approxEq t.2 0) (mergeTerms e.terms), hdropped,
    add_zero]
  rfl

theorem hasFiniteTerms_assemble {e : Expression Exact} (he : e.HasFiniteTerms) :
    e.assemble.HasFiniteTerms := fun t ht =>
  (dot_mergeTerms (x := fun _ => 0) he).2 t (List.mem_of_mem_filter ht)

/-! ## Differences -/

theorem hasFiniteTerms_minus {a b : Expression Exact} (ha : a.HasFiniteTerms)
    (hb : b.HasFiniteTerms) : (a.minus b).HasFiniteTerms := by
  intro t ht
  rw [minus, terms_plus, List.mem_append] at ht
  rcases ht with ht | ht
  · exact ha t ht
  · obtain ⟨u, hu, rfl⟩ := List.mem_map.mp ht
    simp only
    rw [mul_neg_one, eq_finite_of_isFinite (hb u hu)]
    rfl

theorem constant_minus (a b : Expression Exact) :
    (a.minus b).constant = a.constant - b.constant := by
  rw [minus, constant_plus, negate, constant_times, mul_neg_one]
  rfl

theorem dot_minus {a b : Expression Exact} (hb : b.HasFiniteTerms) :
    dot x (a.minus b).terms = dot x a.terms - dot x b.terms := by
  rw [minus, terms_plus, dot_append, negate, terms_times]
  suffices h : ∀ terms : List (VariableRef × Exact),
      (∀ t ∈ terms, Scalar.isFinite t.2 = true) →
      dot x (terms.map fun (v, c) => (v, c * -1)) = -dot x terms by
    rw [h b.terms hb]
    ring
  intro terms hterms
  induction terms with
  | nil => simp
  | cons t rest ih =>
    have hneg : (t.2 * -1).toRat = -t.2.toRat := by
      rw [mul_neg_one, eq_finite_of_isFinite (hterms t List.mem_cons_self)]
      rfl
    rw [List.map_cons, dot_cons, dot_cons, ih fun u hu => hterms u (List.mem_cons_of_mem t hu)]
    simp only [hneg]
    ring

end Expression

end Milp
