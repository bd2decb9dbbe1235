/-
Milp.Proofs.WrittenFormulas — expressions evaluate as they are written.

A formula over finite numbers that divides only by numbers other than zero has
a meaning in rational arithmetic (`Formula.meaning`), and its variables stand in
it from left to right (`Formula.leaves`). The expression it builds keeps both:
its terms are over the same variables in the same order, repeats included, and
its constant and terms add up to the meaning (`Formula.exists_build`). Nothing is
merged on the way, so a variable whose coefficients cancel is still read.

The terms are read in order, which decides the rest. The value is there exactly
when every variable has one (`Expression.isOk_value_iff`), and otherwise the
first variable without one is named (`Expression.value_of_unread`).
-/
import Mathlib.Tactic.Ring
import Milp.Model.Formula
import Milp.Variable.Basic
import Milp.Proofs.MovedTerms

namespace Milp

open Exact

/-! ## Reading the terms -/

namespace Variable

variable {α : Type} {x : Variable α}

theorem isOk_value : x.value.isOk = x.isAssigned := by
  rw [value, level?, Entity.isAssigned]
  cases x.assigned <;> rfl

theorem value_of_not_assigned (h : x.isAssigned = false) :
    x.value = .error (.unassigned x.name.text) := by
  rw [Entity.isAssigned, Option.isSome_eq_false_iff, Option.isNone_iff_eq_none] at h
  rw [value, level?, h]
  rfl

end Variable

namespace Expression

section

variable {α ε : Type} [Scalar α] {read : VariableRef → Except ε α}

/-- Terms whose variables all have values add up to something. -/
theorem isOk_foldlM {terms : List (VariableRef × α)}
    (h : ∀ t ∈ terms, (read t.1).isOk = true) (start : α) :
    (terms.foldlM (fun sum (v, c) => (read v).map fun x => sum + c * x) start).isOk = true := by
  induction terms generalizing start with
  | nil => rfl
  | cons t rest ih =>
    have hread : (read t.1).isOk = true := h t List.mem_cons_self
    rw [List.foldlM_cons]
    cases hvalue : read t.1 with
    | ok x =>
      simp only [hvalue]
      exact ih (fun u hu => h u (List.mem_cons_of_mem t hu)) _
    | error e =>
      rw [hvalue] at hread
      cases hread

/-- The first variable without a value decides the error, whatever is added up
before it. -/
theorem foldlM_of_unread {terms : List (VariableRef × α)} {v : VariableRef} {e : ε}
    (hfirst : (terms.map Prod.fst).find? (fun w => !(read w).isOk) = some v)
    (herror : read v = .error e) (start : α) :
    terms.foldlM (fun sum (v, c) => (read v).map fun x => sum + c * x) start = .error e := by
  induction terms generalizing start with
  | nil => cases hfirst
  | cons t rest ih =>
    rw [List.map_cons, List.find?_cons] at hfirst
    rw [List.foldlM_cons]
    cases hread : read t.1 with
    | ok x =>
      simp only [hread] at hfirst ⊢
      exact ih hfirst _
    | error e' =>
      simp only [hread] at hfirst ⊢
      obtain rfl : t.1 = v := Option.some.inj hfirst
      exact hread.symm.trans herror

variable {e : Expression α}

/-- The first variable without a value is the one that is named. -/
theorem value_of_unread {v : VariableRef} {err : ε}
    (hfirst : (e.terms.map Prod.fst).find? (fun w => !(read w).isOk) = some v)
    (herror : read v = .error err) : e.value read = .error err :=
  foldlM_of_unread hfirst herror e.constant

/-- There is a value exactly when every variable of the terms has one. -/
theorem isOk_value_iff :
    (e.value read).isOk = true ↔ ∀ v ∈ e.terms.map Prod.fst, (read v).isOk = true := by
  constructor
  · intro hok v hv
    by_contra hunread
    obtain ⟨w, hfirst⟩ : ∃ w, (e.terms.map Prod.fst).find? (fun w => !(read w).isOk) = some w :=
      Option.isSome_iff_exists.mp (List.find?_isSome.mpr ⟨v, hv, by simpa using hunread⟩)
    cases hread : read w with
    | ok x =>
      have hw := List.find?_some hfirst
      rw [hread] at hw
      cases hw
    | error err =>
      rw [value_of_unread hfirst hread] at hok
      cases hok
  · intro hread
    exact isOk_foldlM (fun t ht => hread t.1 (List.mem_map_of_mem ht)) e.constant

end

/-! ## Scaling and adding -/

variable {x : VariableRef → ℚ}

/-- What an expression comes to where `x` gives the values of the variables. -/
def exactValue (x : VariableRef → ℚ) (e : Expression Exact) : ℚ := e.constant.toRat + dot x e.terms

theorem exactValue_plus {a b : Expression Exact} (ha : a.IsFinite) (hb : b.IsFinite) :
    (a.plus b).exactValue x = a.exactValue x + b.exactValue x := by
  rw [exactValue, ha.toRat_constant_plus hb, terms_plus, dot_append, exactValue, exactValue]
  ring

theorem IsFinite.times {e : Expression Exact} (he : e.IsFinite) (k : ℚ) :
    (e.times (finite k)).IsFinite where
  constant := by
    rw [constant_times, eq_finite_of_isFinite he.constant]
    rfl
  terms := by
    intro t ht
    obtain ⟨u, hu, rfl⟩ := List.mem_map.mp ht
    simp only
    rw [eq_finite_of_isFinite (he.terms u hu)]
    rfl

theorem dot_times {terms : List (VariableRef × Exact)}
    (hterms : ∀ t ∈ terms, Scalar.isFinite t.2 = true) (k : ℚ) :
    dot x (terms.map fun (v, c) => (v, c * finite k)) = dot x terms * k := by
  induction terms with
  | nil => simp
  | cons t rest ih =>
    have hcoefficient : (t.2 * finite k).toRat = t.2.toRat * k := by
      rw [eq_finite_of_isFinite (hterms t List.mem_cons_self)]
      rfl
    rw [List.map_cons, dot_cons, dot_cons, ih fun u hu => hterms u (List.mem_cons_of_mem t hu)]
    simp only [hcoefficient]
    ring

theorem exactValue_times {e : Expression Exact} (he : e.IsFinite) (k : ℚ) :
    (e.times (finite k)).exactValue x = e.exactValue x * k := by
  have hconstant : (e.constant * finite k).toRat = e.constant.toRat * k := by
    rw [eq_finite_of_isFinite he.constant]
    rfl
  rw [exactValue, constant_times, hconstant, terms_times, dot_times he.terms, exactValue]
  ring

theorem map_fst_times {α : Type} [Scalar α] (e : Expression α) (k : α) :
    (e.times k).terms.map Prod.fst = e.terms.map Prod.fst := by
  rw [terms_times, List.map_map]
  rfl

/-- A quotient by a finite number other than zero is a product with a finite
number. -/
theorem dividedBy?_finite (e : Expression Exact) {k : ℚ} (hk : k ≠ 0) :
    e.dividedBy? (finite k) = some (e.times (finite k⁻¹)) := by
  have hzero : (finite k == (0 : Exact)) = false := by
    rw [zero_eq, finite_beq]
    exact decide_eq_false hk
  have hinverse : (1 : Exact) / finite k = finite k⁻¹ := by
    change (finite 1 : Exact) * Exact.inv (finite k) = _
    rw [Exact.inv, if_neg hk, finite_mul, one_mul]
  rw [dividedBy?, hzero, hinverse]
  rfl

end Expression

/-! ## Meaning -/

namespace Formula

/-- The variables of a formula from left to right, with their repeats. -/
def leaves {α : Type} : Formula α VariableRef (Expression α) → List VariableRef
  | number _ => []
  | var v => [v]
  | term _ v => [v]
  | given e => e.terms.map Prod.fst
  | plus a b | minus a b => a.leaves ++ b.leaves
  | times a _ | dividedBy a _ | negate a | assemble a => a.leaves

/-- The rational that a formula stands for where `x` gives the values of the
variables. -/
def meaning (x : VariableRef → ℚ) : Formula Exact VariableRef (Expression Exact) → ℚ
  | number k => k.toRat
  | var v => x v
  | term k v => k.toRat * x v
  | given e => e.exactValue x
  | plus a b => a.meaning x + b.meaning x
  | minus a b => a.meaning x - b.meaning x
  | times a k => a.meaning x * k.toRat
  | dividedBy a k => a.meaning x / k.toRat
  | negate a => -a.meaning x
  | assemble a => a.meaning x

/-- A formula over finite numbers that divides only by numbers other than zero,
and merges nothing. -/
def IsArithmetic : Formula Exact VariableRef (Expression Exact) → Prop
  | number k | term k _ => Scalar.isFinite k = true
  | var _ => True
  | given e => e.IsFinite
  | plus a b | minus a b => a.IsArithmetic ∧ b.IsArithmetic
  | times a k => a.IsArithmetic ∧ Scalar.isFinite k = true
  | dividedBy a k => a.IsArithmetic ∧ Scalar.isFinite k = true ∧ k ≠ 0
  | negate a => a.IsArithmetic
  | assemble _ => False

/-- An expression over the variables of a formula, in their order, that comes to
what the formula stands for. -/
structure Expresses (f : Formula Exact VariableRef (Expression Exact)) (e : Expression Exact) :
    Prop where
  isFinite : e.IsFinite
  leaves : e.terms.map Prod.fst = f.leaves
  exactValue (x : VariableRef → ℚ) : e.exactValue x = f.meaning x

variable {f a b : Formula Exact VariableRef (Expression Exact)} {e e' : Expression Exact}

theorem Expresses.plus (ha : Expresses a e) (hb : Expresses b e') :
    Expresses (.plus a b) (e.plus e') where
  isFinite := ha.isFinite.plus hb.isFinite
  leaves := by rw [Expression.terms_plus, List.map_append, ha.leaves, hb.leaves, Formula.leaves]
  exactValue x := by
    rw [Expression.exactValue_plus ha.isFinite hb.isFinite, ha.exactValue, hb.exactValue, meaning]

theorem Expresses.times (ha : Expresses a e) {k : Exact} (hk : Scalar.isFinite k = true) :
    Expresses (.times a k) (e.times k) := by
  rw [eq_finite_of_isFinite hk]
  exact {
    isFinite := ha.isFinite.times _
    leaves := by rw [Expression.map_fst_times, ha.leaves, Formula.leaves]
    exactValue := fun x => by
      rw [Expression.exactValue_times ha.isFinite, ha.exactValue, meaning, toRat_finite] }

theorem Expresses.negate (ha : Expresses a e) : Expresses (.negate a) e.negate where
  isFinite := ha.isFinite.times (-1)
  leaves := by rw [Expression.negate, Expression.map_fst_times, ha.leaves, Formula.leaves]
  exactValue x := by
    have htimes : e.negate.exactValue x = e.exactValue x * -1 :=
      Expression.exactValue_times ha.isFinite (-1)
    rw [htimes, ha.exactValue, meaning, mul_neg, mul_one]

theorem Expresses.minus (ha : Expresses a e) (hb : Expresses b e') :
    Expresses (.minus a b) (e.minus e') := by
  have hsum : Expresses (.plus a (.negate b)) (e.minus e') := ha.plus hb.negate
  exact ⟨hsum.isFinite, hsum.leaves, fun x => (hsum.exactValue x).trans (sub_eq_add_neg _ _).symm⟩

/-- The quotient, which is the product with the reciprocal. -/
theorem Expresses.dividedBy (ha : Expresses a e) {k : Exact} (hk : Scalar.isFinite k = true)
    (hzero : k ≠ 0) : ∃ quotient, e.dividedBy? k = some quotient
      ∧ Expresses (.dividedBy a k) quotient := by
  have hfinite := eq_finite_of_isFinite hk
  have hne : k.toRat ≠ 0 := fun h => hzero (by rw [hfinite, h, zero_eq])
  refine ⟨e.times (finite k.toRat⁻¹), ?_, ?_⟩
  · rw [hfinite]
    exact Expression.dividedBy?_finite e hne
  · have hproduct : Expresses (.times a (finite k.toRat⁻¹)) (e.times (finite k.toRat⁻¹)) :=
      ha.times rfl
    exact ⟨hproduct.isFinite, hproduct.leaves, fun x =>
      (hproduct.exactValue x).trans (div_eq_mul_inv _ _).symm⟩

theorem Expresses.term {k : Exact} (hk : Scalar.isFinite k = true) (v : VariableRef) :
    Expresses (.term k v) (.term k v) where
  isFinite := ⟨rfl, fun t ht => by rw [List.mem_singleton.mp ht]; exact hk⟩
  leaves := rfl
  exactValue x := by
    rw [Expression.exactValue, meaning]
    change (0 : ℚ) + Expression.dot x [(v, k)] = _
    rw [Expression.dot_cons, Expression.dot_nil, zero_add, add_zero]

/-- A variable on its own, with its coefficient of one. -/
theorem Expresses.var (v : VariableRef) : Expresses (.var v) (.ofVariable v) := by
  have hterm : Expresses (.term 1 v) (.ofVariable v) := Expresses.term rfl v
  exact ⟨hterm.isFinite, hterm.leaves, fun x => (hterm.exactValue x).trans (one_mul _)⟩

/-- What is not a variable alone is scaled as a whole. -/
theorem build_times (ha : ∀ v, a ≠ .var v) (k : Exact) :
    (Formula.times a k).build = a.build.map (·.times k) := by
  rw [build]
  exact ha

/-- What an arithmetic formula builds is over its variables in their order, and
comes to what it stands for. -/
theorem exists_build (hf : f.IsArithmetic) : ∃ e, f.build = .ok e ∧ Expresses f e := by
  induction f with
  | number k =>
    exact ⟨_, rfl, ⟨hf, fun t ht => absurd ht List.not_mem_nil⟩, rfl, fun x => add_zero _⟩
  | var v => exact ⟨_, rfl, .var v⟩
  | term k v => exact ⟨_, rfl, .term hf v⟩
  | given e => exact ⟨e, rfl, hf, rfl, fun _ => rfl⟩
  | plus a b iha ihb =>
    obtain ⟨e, hbuild, he⟩ := iha hf.1
    obtain ⟨e', hbuild', he'⟩ := ihb hf.2
    exact ⟨_, by rw [build, hbuild, hbuild']; rfl, he.plus he'⟩
  | minus a b iha ihb =>
    obtain ⟨e, hbuild, he⟩ := iha hf.1
    obtain ⟨e', hbuild', he'⟩ := ihb hf.2
    exact ⟨_, by rw [build, hbuild, hbuild']; rfl, he.minus he'⟩
  | times a k iha =>
    by_cases hvar : ∃ v, a = .var v
    · obtain ⟨v, rfl⟩ := hvar
      have hterm : Expresses (.term k v) (.term k v) := .term hf.2 v
      exact ⟨_, rfl, hterm.isFinite, hterm.leaves, fun x =>
        (hterm.exactValue x).trans (mul_comm _ _)⟩
    · obtain ⟨e, hbuild, he⟩ := iha hf.1
      exact ⟨_, by rw [build_times (not_exists.mp hvar), hbuild]; rfl, he.times hf.2⟩
  | dividedBy a k iha =>
    obtain ⟨e, hbuild, he⟩ := iha hf.1
    obtain ⟨quotient, hquotient, hq⟩ := he.dividedBy hf.2.1 hf.2.2
    refine ⟨quotient, ?_, hq⟩
    rw [build, hbuild]
    simp only [Except.bind, hquotient]
  | negate a iha =>
    obtain ⟨e, hbuild, he⟩ := iha hf
    exact ⟨_, by rw [build, hbuild]; rfl, he.negate⟩
  | assemble a => exact absurd hf id

/-! ## Value -/

/-- Whatever the state of its variables, what an arithmetic formula builds has a
value exactly when every variable in the formula is assigned, those whose
coefficients cancel included. It is then the number the formula stands for, and
otherwise the first variable from the left that is not assigned is named. -/
theorem value_as_written (hf : f.IsArithmetic) (variableAt : VariableRef → Variable Exact) :
    ∃ e, f.build = .ok e
      ∧ ((e.value fun v => (variableAt v).value).isOk = true
        ↔ ∀ v ∈ f.leaves, (variableAt v).isAssigned = true)
      ∧ (∀ x : VariableRef → ℚ, (∀ v ∈ f.leaves, (variableAt v).value = .ok (finite (x v))) →
        e.value (fun v => (variableAt v).value) = .ok (finite (f.meaning x)))
      ∧ ∀ v, f.leaves.find? (fun v => !(variableAt v).isAssigned) = some v →
        let cause := ModelError.unassigned (variableAt v).name.text
        e.value (fun v => (variableAt v).value) = .error cause ∧ cause.kind = .invalidState := by
  obtain ⟨e, hbuild, he⟩ := exists_build hf
  refine ⟨e, hbuild, ?_, ?_, ?_⟩
  · rw [Expression.isOk_value_iff, he.leaves]
    simp only [Variable.isOk_value]
  · intro x hx
    have hvalues : ∀ v ∈ e.vars, (variableAt v).value = .ok (finite (x v)) := fun v hv =>
      hx v (he.leaves ▸ Expression.mem_vars_iff.mp hv)
    have htotal : finite (e.exactValue x) = e.constant + finite (Expression.dot x e.terms) := by
      rw [eq_finite_of_isFinite he.isFinite.constant, finite_add]
      rfl
    rw [Expression.value_eq_ok he.isFinite.terms hvalues, ← htotal, he.exactValue]
  · intro v hfirst
    have hunassigned : (variableAt v).isAssigned = false := by
      simpa using List.find?_some hfirst
    have hunread : (e.terms.map Prod.fst).find? (fun w => !(variableAt w).value.isOk) = some v := by
      rw [he.leaves]
      simpa only [Variable.isOk_value] using hfirst
    have herror := Variable.value_of_not_assigned hunassigned
    exact ⟨Expression.value_of_unread hunread herror, rfl⟩

/-! ## Coefficients that cancel -/

/-- `(3·x + y / 2 - 3·x) + 0·(z + 1)`, over the variables `x`, `y` and `z` in
this order. -/
def cancellingFormula : Formula Exact VariableRef (Expression Exact) :=
  .plus
    (.minus (.plus (.term (finite 3) ⟨0⟩) (.dividedBy (.var ⟨1⟩) (finite 2)))
      (.times (.var ⟨0⟩) (finite 3)))
    (.times (.plus (.var ⟨2⟩) (.number 1)) 0)

/-- Variables of which the first ones have the given values, and no other has
one. -/
def assignedFirst (values : List ℚ) (v : VariableRef) : Variable Exact :=
  { Variable.ofSpec v.index ⟨"", 0, 1, .continuous⟩ with
    assigned := values[v.index]?.map fun q => ⟨⟨1, v.index⟩, finite q, 0⟩ }

/-- With all three values the formula is worth half of `y`; without that of `z`
it has no value, though `z` has no coefficient but zero, and without those of `y`
and `z` the error is about `y`. -/
theorem value_cancellingFormula : ∃ e, cancellingFormula.build = .ok e
    ∧ e.value (fun v => (assignedFirst [5, 8, 7] v).value) = .ok (finite 4)
    ∧ e.value (fun v => (assignedFirst [5, 8] v).value) = .error (.unassigned "Var_2")
    ∧ e.value (fun v => (assignedFirst [5] v).value) = .error (.unassigned "Var_1") := by
  have harithmetic : cancellingFormula.IsArithmetic := by
    refine ⟨⟨⟨rfl, trivial, rfl, ?_⟩, trivial, rfl⟩, ⟨trivial, rfl⟩, rfl⟩
    decide
  obtain ⟨e, hbuild, -, hvalue, -⟩ := value_as_written harithmetic (assignedFirst [5, 8, 7])
  obtain ⟨e', hbuild', -, -, herror⟩ := value_as_written harithmetic (assignedFirst [5, 8])
  obtain ⟨e'', hbuild'', -, -, herror'⟩ := value_as_written harithmetic (assignedFirst [5])
  obtain rfl : e = e' := Except.ok.inj (hbuild.symm.trans hbuild')
  obtain rfl : e = e'' := Except.ok.inj (hbuild.symm.trans hbuild'')
  refine ⟨e, hbuild, ?_, (herror ⟨2⟩ rfl).1, (herror' ⟨1⟩ rfl).1⟩
  have hhalf := hvalue (fun v => ([5, 8, 7] : List ℚ).getD v.index 0) (by decide +kernel)
  rw [hhalf]
  decide +kernel

end Formula

end Milp
