/-
Milp.Proofs.Assembly — what an assembled expression is.

The terms of an expression are merged one after the other, each into the
list that those before it have left. What comes of it is said here without
the list: every variable stands where it first appears, with its own
coefficients added from the left (`mergeTerms_eq_map`), so that its terms can
be read off the expression variable by variable (`Expression.coefficient`).

`assemble_merges` is the whole of it. Assembling leaves out the variables whose
coefficient is zero within the tolerance and no others, and a second time it
changes nothing. In exact arithmetic the value changes by what the variables
left out would have added, which the tolerance bounds.
-/
import Mathlib.Algebra.Order.Ring.Abs
import Milp.Proofs.ExactValue

namespace Milp

namespace Expression

variable {α : Type} [Scalar α]

/-! ## Coefficients -/

/-- The numbers that a variable has in a list of terms, in their order. -/
def coefficientsOf (terms : List (VariableRef × α)) (v : VariableRef) : List α :=
  (terms.filter fun t => t.1 = v).map Prod.snd

/-- Numbers added from the left. The first is taken as it is; of none, `0`. -/
def total : List α → α
  | [] => 0
  | c :: rest => rest.foldl (· + ·) c

/-- What the terms of a variable add up to. -/
def coefficient (e : Expression α) (v : VariableRef) : α := total (coefficientsOf e.terms v)

theorem total_concat {cs : List α} (h : cs ≠ []) (c : α) : total (cs ++ [c]) = total cs + c := by
  cases cs with
  | nil => exact absurd rfl h
  | cons first rest => rw [List.cons_append, total, List.foldl_concat, total]

omit [Scalar α] in
theorem coefficientsOf_concat (terms : List (VariableRef × α)) (new : VariableRef × α)
    (v : VariableRef) : coefficientsOf (terms ++ [new]) v
      = if v = new.1 then coefficientsOf terms v ++ [new.2] else coefficientsOf terms v := by
  by_cases h : v = new.1
  · simp [coefficientsOf, h]
  · simp [coefficientsOf, h, Ne.symm h]

omit [Scalar α] in
theorem coefficientsOf_eq_nil_iff {terms : List (VariableRef × α)} {v : VariableRef} :
    coefficientsOf terms v = [] ↔ v ∉ terms.map Prod.fst := by
  rw [coefficientsOf, List.map_eq_nil_iff, List.filter_eq_nil_iff, List.mem_map]
  simp only [decide_eq_true_eq, not_exists, not_and]

/-! ## Merging -/

/-- A term of a variable that has one is added to it. -/
theorem insertTerm_map_of_mem {vars : List VariableRef} (hvars : vars.Nodup)
    {new : VariableRef × α} (h : new.1 ∈ vars) (f : VariableRef → α) :
    insertTerm (vars.map fun v => (v, f v)) new
      = vars.map fun v => (v, if v = new.1 then f v + new.2 else f v) := by
  induction vars with
  | nil => cases h
  | cons w rest ih =>
    rw [List.nodup_cons] at hvars
    by_cases hw : w = new.1
    · -- the variable stands nowhere else, so the rest stays
      have hrest : rest.map (fun v => (v, f v))
          = rest.map fun v => (v, if v = new.1 then f v + new.2 else f v) := by
        refine List.map_congr_left fun v hv => ?_
        have hne : v ≠ new.1 := fun hv' => hvars.1 (hw ▸ hv' ▸ hv)
        rw [if_neg hne]
      simp only [List.map_cons, insertTerm, if_pos hw, hrest]
    · have hlater : new.1 ∈ rest := (List.mem_cons.mp h).resolve_left (Ne.symm hw)
      simp only [List.map_cons, insertTerm, if_neg hw, ih hvars.2 hlater]

/-- Merged terms, variable by variable. -/
theorem mergeTerms_eq_map (terms : List (VariableRef × α)) :
    mergeTerms terms
      = (terms.map Prod.fst).eraseDups.map fun v => (v, total (coefficientsOf terms v)) := by
  induction terms using List.reverseRecOn with
  | nil => rfl
  | append_singleton terms new ih =>
    have hvars := map_fst_mergeTerms (terms ++ [new])
    rw [mergeTerms_concat] at hvars ⊢
    by_cases h : new.1 ∈ terms.map Prod.fst
    · have hmem : new.1 ∈ (mergeTerms terms).map Prod.fst := by
        rw [map_fst_mergeTerms]
        exact List.mem_eraseDups.mpr h
      rw [map_fst_insertTerm_of_mem hmem, map_fst_mergeTerms] at hvars
      rw [← hvars, ih, insertTerm_map_of_mem (nodup_eraseDups _) (List.mem_eraseDups.mpr h)]
      refine List.map_congr_left fun v _ => ?_
      rw [coefficientsOf_concat]
      split
      · next hv =>
        have hsome : coefficientsOf terms v ≠ [] := fun hnil =>
          coefficientsOf_eq_nil_iff.mp hnil (hv ▸ h)
        rw [total_concat hsome]
      · rfl
    · have hnew : new.1 ∉ (mergeTerms terms).map Prod.fst := by
        rw [map_fst_mergeTerms, List.mem_eraseDups]
        exact h
      rw [insertTerm_of_not_mem hnew, List.map_append, map_fst_mergeTerms] at hvars
      rw [insertTerm_of_not_mem hnew, ← hvars, List.map_append, ih]
      have hold : (terms.map Prod.fst).eraseDups.map (fun v => (v, total (coefficientsOf terms v)))
          = (terms.map Prod.fst).eraseDups.map
            fun v => (v, total (coefficientsOf (terms ++ [new]) v)) := by
        refine List.map_congr_left fun v hv => ?_
        have hne : v ≠ new.1 := fun hv' => h (hv' ▸ List.mem_eraseDups.mp hv)
        rw [coefficientsOf_concat, if_neg hne]
      have hlast : total (coefficientsOf (terms ++ [new]) new.1) = new.2 := by
        rw [coefficientsOf_concat, if_pos rfl, coefficientsOf_eq_nil_iff.mpr h]
        rfl
      rw [← hold, List.map_cons, List.map_nil, List.map_cons, List.map_nil, hlast]

/-- The terms of an assembled expression, variable by variable. -/
theorem terms_assemble (e : Expression α) :
    e.assemble.terms = (e.vars.filter fun v => !Scalar.approxEq (e.coefficient v) 0).map
      fun v => (v, e.coefficient v) := by
  rw [assemble, mergeTerms_eq_map, List.filter_map]
  rfl

/-- Terms of different variables are merged already. -/
theorem mergeTerms_of_nodup {terms : List (VariableRef × α)}
    (h : (terms.map Prod.fst).Nodup) : mergeTerms terms = terms := by
  induction terms using List.reverseRecOn with
  | nil => rfl
  | append_singleton terms new ih =>
    rw [List.map_append, List.nodup_append] at h
    have hnew : new.1 ∉ terms.map Prod.fst := fun hmem =>
      h.2.2 new.1 hmem new.1 (List.mem_singleton.mpr rfl) rfl
    rw [mergeTerms_concat, ih h.1, insertTerm_of_not_mem hnew]

/-- Assembling twice is assembling once. -/
theorem assemble_assemble (e : Expression α) : e.assemble.assemble = e.assemble := by
  have hmerged : mergeTerms e.assemble.terms = e.assemble.terms :=
    mergeTerms_of_nodup (nodup_assemble e)
  rw [assemble, hmerged]
  simp [assemble, List.filter_filter]

/-- An expression is what is left of another when its terms are merged and
those that cancel are dropped. -/
structure Assembles (e r : Expression α) : Prop where
  constant : r.constant = e.constant
  distinct : (r.terms.map Prod.fst).Nodup
  /-- The variables stand in the order of their first appearance. -/
  order : (r.terms.map Prod.fst).Sublist e.vars
  coefficient : ∀ t ∈ r.terms, t.2 = e.coefficient t.1
  dropped : ∀ v ∈ e.vars, v ∉ r.terms.map Prod.fst ↔ Scalar.approxEq (e.coefficient v) 0 = true

theorem assembles_assemble (e : Expression α) : e.Assembles e.assemble where
  constant := rfl
  distinct := nodup_assemble e
  order := by
    have hvars : e.assemble.terms.map Prod.fst
        = e.vars.filter fun v => !Scalar.approxEq (e.coefficient v) 0 := by
      rw [terms_assemble, List.map_map]
      exact List.map_id' _
    rw [hvars]
    exact List.filter_sublist
  coefficient := fun t ht => by
    rw [terms_assemble] at ht
    obtain ⟨v, -, rfl⟩ := List.mem_map.mp ht
    rfl
  dropped := fun v hv => by
    simp [terms_assemble, hv]

/-! ## Exact values -/

open Exact

/-- What a variable's terms add up to as a rational. -/
def weight (e : Expression Exact) (v : VariableRef) : ℚ :=
  ((coefficientsOf e.terms v).map toRat).sum

theorem total_eq_finite {cs : List Exact} (h : ∀ c ∈ cs, Scalar.isFinite c = true) :
    total cs = finite (cs.map toRat).sum := by
  induction cs using List.reverseRecOn with
  | nil => rfl
  | append_singleton cs c ih =>
    have hc := eq_finite_of_isFinite (h c (by simp))
    have hcs := ih fun c' hc' => h c' (List.mem_append_left _ hc')
    by_cases hnil : cs = []
    · subst hnil
      simpa [total] using hc
    · rw [total_concat hnil, hcs, hc, finite_add]
      simp

/-- Where all terms are finite, so is the coefficient of every variable. -/
theorem coefficient_eq_finite {e : Expression Exact} (he : e.HasFiniteTerms) (v : VariableRef) :
    e.coefficient v = finite (e.weight v) := by
  refine total_eq_finite fun c hc => ?_
  obtain ⟨t, ht, rfl⟩ := List.mem_map.mp hc
  exact he t (List.mem_of_mem_filter ht)

/-- The variables that assembling leaves out. -/
def droppedVars (e : Expression α) : List VariableRef :=
  e.vars.filter fun v => Scalar.approxEq (e.coefficient v) 0

theorem mem_droppedVars_iff {e : Expression Exact} (he : e.HasFiniteTerms) {v : VariableRef} :
    v ∈ e.droppedVars ↔ v ∈ e.vars ∧ |e.weight v| ≤ 1 / 1000000 := by
  rw [droppedVars, List.mem_filter, coefficient_eq_finite he, approxEq_zero_iff]

/-- The terms lose in assembling what the variables left out would have
added. -/
theorem dot_sub_dot_assemble {x : VariableRef → ℚ} {e : Expression Exact}
    (he : e.HasFiniteTerms) :
    dot x e.terms - dot x e.assemble.terms
      = (e.droppedVars.map fun v => (e.coefficient v).toRat * x v).sum := by
  have hsplit := dot_filter_add (x := x) (fun t => !Scalar.approxEq t.2 0) (mergeTerms e.terms)
  have hlost : dot x ((mergeTerms e.terms).filter fun t => !!Scalar.approxEq t.2 0)
      = (e.droppedVars.map fun v => (e.coefficient v).toRat * x v).sum := by
    rw [mergeTerms_eq_map, List.filter_map, dot, List.map_map]
    simp only [Bool.not_not]
    rfl
  rw [(dot_mergeTerms he).1, hlost] at hsplit
  rw [← hsplit]
  exact add_sub_cancel_left _ _

/-- Products with small factors add up to little. -/
theorem abs_sum_mul_le {vars : List VariableRef} {f x : VariableRef → ℚ} {δ : ℚ}
    (h : ∀ v ∈ vars, |f v| ≤ δ) :
    |(vars.map fun v => f v * x v).sum| ≤ δ * (vars.map fun v => |x v|).sum := by
  induction vars with
  | nil => simp
  | cons v rest ih =>
    have hfirst : |f v * x v| ≤ δ * |x v| := by
      rw [abs_mul]
      exact mul_le_mul_of_nonneg_right (h v List.mem_cons_self) (abs_nonneg _)
    have hrest := ih fun w hw => h w (List.mem_cons_of_mem v hw)
    calc |((v :: rest).map fun v => f v * x v).sum|
        = |f v * x v + (rest.map fun v => f v * x v).sum| := by rw [List.map_cons, List.sum_cons]
      _ ≤ |f v * x v| + |(rest.map fun v => f v * x v).sum| := abs_add_le _ _
      _ ≤ δ * |x v| + δ * (rest.map fun v => |x v|).sum := add_le_add hfirst hrest
      _ = δ * ((v :: rest).map fun v => |x v|).sum := by
          rw [List.map_cons, List.sum_cons, mul_add]

end Expression

open Exact Expression

/-- Whatever the numbers are, an assembled expression has the constant of the
expression and its variables, each once and in the order of first appearance,
with what the coefficients of that very variable add up to from the left; only
the variables for which this is zero within the tolerance are missing, and
assembling once more changes nothing.

Where numbers are exact, the value of the expression and that of the assembled
one differ by what the missing variables would have added: at most the
tolerance times the magnitudes of their values. -/
theorem assemble_merges :
    (∀ {α : Type} [Scalar α] (e : Expression α),
      e.Assembles e.assemble ∧ e.assemble.assemble = e.assemble)
    ∧ ∀ {ε : Type} (e : Expression Exact) (read : VariableRef → Except ε Exact)
        (x : VariableRef → ℚ), e.HasFiniteTerms → Scalar.isFinite e.constant = true →
        (∀ v ∈ e.vars, read v = .ok (finite (x v))) →
        ∃ before after : ℚ, e.value read = .ok (finite before)
          ∧ e.assemble.value read = .ok (finite after)
          ∧ before - after = (e.droppedVars.map fun v => (e.coefficient v).toRat * x v).sum
          ∧ |before - after|
            ≤ (Scalar.tolerance : Exact).toRat * (e.droppedVars.map fun v => |x v|).sum := by
  refine ⟨fun e => ⟨assembles_assemble e, assemble_assemble e⟩, ?_⟩
  intro ε e read x he hconstant hread
  have hk := eq_finite_of_isFinite hconstant
  have hbefore := value_eq_ok he hread
  have hafter := value_eq_ok (hasFiniteTerms_assemble he) fun v hv => by
    obtain ⟨t, ht, rfl⟩ := List.mem_map.mp (mem_vars_iff.mp hv)
    exact hread t.1 (mem_vars_of_mem_assemble ht)
  have hlost : e.constant.toRat + dot x e.terms - (e.constant.toRat + dot x e.assemble.terms)
      = (e.droppedVars.map fun v => (e.coefficient v).toRat * x v).sum := by
    rw [add_sub_add_left_eq_sub, dot_sub_dot_assemble he]
  rw [hk, finite_add] at hbefore
  rw [constant_assemble, hk, finite_add] at hafter
  refine ⟨_, _, hbefore, hafter, hlost, ?_⟩
  rw [hlost]
  refine abs_sum_mul_le fun v hv => ?_
  rw [coefficient_eq_finite he]
  exact ((mem_droppedVars_iff he).mp hv).2

/-! ## A residue -/

/-- The first variable cancels up to a residue below the tolerance. -/
def residualExpression : Expression Exact :=
  ⟨finite 3, [(⟨0⟩, finite (1 / 2)), (⟨1⟩, 1), (⟨0⟩, finite (-999999 / 2000000))]⟩

/-- The residue is dropped, and its value is lost. -/
theorem value_residualExpression : ∃ before after : ℚ,
    residualExpression.value (fun v => Except.ok (ε := Unit) (finite (v.index + 4)))
        = .ok (finite before)
      ∧ residualExpression.assemble.value (fun v => Except.ok (ε := Unit) (finite (v.index + 4)))
        = .ok (finite after)
      ∧ before - after = 1 / 500000 := by
  obtain ⟨before, after, hbefore, hafter, hlost, -⟩ := assemble_merges.2
    residualExpression (fun v => Except.ok (ε := Unit) (finite (v.index + 4)))
    (fun v => v.index + 4) (by decide +kernel) rfl fun _ _ => rfl
  refine ⟨before, after, hbefore, hafter, hlost.trans ?_⟩
  decide +kernel

example : residualExpression.assemble.terms = [(⟨1⟩, 1)] := by decide +kernel

end Milp
