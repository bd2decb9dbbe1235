/-
Milp.Proofs.ViolationReport — the check of a problem reports every defect, once
and in order.

What is wrong with a problem is said without the check (`Problem.HasDefect`): an
objective of another length than the columns; a row with a term on a column that
does not exist, of which the first counts; a row with an undefined bound; a column
with crossed bounds. The defects found are exactly these
(`Problem.mem_violations_iff`).

Defects have an order (`Violation.Before`): the objective, then the rows, then the
columns, each by their numbers, and in a row the columns it names before its bound.
A list in this order has nothing twice, and at most one unknown column for a row.
There is only one list in order of given defects (`Violation.eq_of_pairwise_before`),
so which they are says all about the report.
-/
import Milp.Proofs.Validity

namespace Milp

variable {α : Type}

/-! ## The order of defects -/

namespace Violation

/-- The part of a problem that a defect is in: the objective, the rows or the
columns. -/
def part : Violation α → Nat
  | coefficientCount .. => 0
  | unknownColumn .. => 1
  | undefinedBound .. => 1
  | crossedBounds .. => 2

/-- The number of the row or the column. -/
def line : Violation α → Nat
  | coefficientCount .. => 0
  | unknownColumn row .. => row
  | undefinedBound row _ => row
  | crossedBounds column .. => column

/-- In a row, the columns come first and then the bound. -/
def rank : Violation α → Nat
  | undefinedBound .. => 1
  | _ => 0

/-- The one defect comes before the other: by part, then by line, then by rank. -/
def Before (v w : Violation α) : Prop :=
  v.part < w.part
    ∨ v.part = w.part ∧ (v.line < w.line ∨ v.line = w.line ∧ v.rank < w.rank)

theorem Before.asymm {v w : Violation α} (h : v.Before w) : ¬ w.Before v := by
  unfold Before at *
  omega

theorem Before.ne {v w : Violation α} (h : v.Before w) : v ≠ w := by
  intro hsame
  subst hsame
  exact h.asymm h

/-- Lists in order with the same defects are the same. -/
theorem eq_of_pairwise_before {found other : List (Violation α)}
    (hmem : ∀ v, v ∈ found ↔ v ∈ other) (hfound : found.Pairwise Before)
    (hother : other.Pairwise Before) : found = other := by
  have hperm : found.Perm other :=
    (List.perm_ext_iff_of_nodup (hfound.imp Before.ne) (hother.imp Before.ne)).mpr hmem
  exact hperm.eq_of_pairwise (fun v w _ _ h h' => absurd h' h.asymm) hfound hother

end Violation

/-! ## Numbered lists -/

section

variable {β γ : Type}

theorem mem_flatMap_zipIdx_iff {f : β × Nat → List γ} {xs : List β} {c : γ} :
    c ∈ xs.zipIdx.flatMap f ↔ ∃ n b, xs[n]? = some b ∧ c ∈ f (b, n) := by
  rw [List.mem_flatMap]
  constructor
  · rintro ⟨⟨b, n⟩, hb, hc⟩
    exact ⟨n, b, List.mem_zipIdx_iff_getElem?.mp hb, hc⟩
  · rintro ⟨n, b, hb, hc⟩
    exact ⟨(b, n), List.mem_zipIdx_iff_getElem?.mpr hb, hc⟩

theorem pairwise_snd_zipIdx (xs : List β) : xs.zipIdx.Pairwise fun a b => a.2 < b.2 := by
  rw [← List.pairwise_map, List.zipIdx_map_snd]
  exact List.pairwise_lt_range'

theorem part_of_mem_flatMap_zipIdx {f : β × Nat → List (Violation α)} {part : Nat} {xs : List β}
    (hplace : ∀ b n, ∀ v ∈ f (b, n), v.part = part ∧ v.line = n) {v : Violation α}
    (hv : v ∈ xs.zipIdx.flatMap f) : v.part = part := by
  obtain ⟨n, b, -, hv⟩ := mem_flatMap_zipIdx_iff.mp hv
  exact (hplace b n v hv).1

/-- What a numbered list is made into is in order, if what each element is made
into is, and stands at the number of the element. -/
theorem pairwise_flatMap_zipIdx {f : β × Nat → List (Violation α)} {part : Nat} (xs : List β)
    (hplace : ∀ b n, ∀ v ∈ f (b, n), v.part = part ∧ v.line = n)
    (horder : ∀ b n, (f (b, n)).Pairwise Violation.Before) :
    (xs.zipIdx.flatMap f).Pairwise Violation.Before := by
  rw [List.pairwise_flatMap]
  refine ⟨fun entry _ => horder entry.1 entry.2, (pairwise_snd_zipIdx xs).imp ?_⟩
  intro a b hlt v hv w hw
  obtain ⟨hvpart, hvline⟩ := hplace a.1 a.2 v hv
  obtain ⟨hwpart, hwline⟩ := hplace b.1 b.2 w hw
  unfold Violation.Before
  omega

end

/-! ## Terms of a row -/

/-- The row names the column, which does not exist, and before it only columns
that do. -/
def Row.FirstUnknown (columns : Nat) (row : Row α) (offset : Nat) : Prop :=
  ∃ before coefficient after, row.terms = before ++ (offset, coefficient) :: after
    ∧ (∀ t ∈ before, t.1 < columns) ∧ columns ≤ offset

theorem Row.find?_eq_some_iff {row : Row α} {columns offset : Nat} :
    (∃ coefficient, row.terms.find? (fun t => decide (columns ≤ t.1)) = some (offset, coefficient))
      ↔ row.FirstUnknown columns offset := by
  simp only [List.find?_eq_some_iff_append, FirstUnknown]
  constructor
  · rintro ⟨coefficient, hoffset, before, after, hterms, hbefore⟩
    refine ⟨before, coefficient, after, hterms, fun t ht => ?_, by simpa using hoffset⟩
    simpa using hbefore t ht
  · rintro ⟨before, coefficient, after, hterms, hbefore, hoffset⟩
    refine ⟨coefficient, by simpa using hoffset, before, after, hterms, fun t ht => ?_⟩
    simpa using hbefore t ht

/-- Of the columns that a row names and that do not exist, one is the first. -/
theorem Row.exists_firstUnknown {row : Row α} {columns : Nat} {t : Nat × α} (ht : t ∈ row.terms)
    (h : columns ≤ t.1) : ∃ offset, row.FirstUnknown columns offset := by
  have hfound : (row.terms.find? fun t => decide (columns ≤ t.1)).isSome = true :=
    List.find?_isSome.mpr ⟨t, ht, decide_eq_true h⟩
  obtain ⟨⟨offset, coefficient⟩, hterm⟩ := Option.isSome_iff_exists.mp hfound
  exact ⟨offset, find?_eq_some_iff.mp ⟨coefficient, hterm⟩⟩

variable [Scalar α]

/-! ## Rows and columns -/

theorem Row.mem_violations_iff {row : Row α} {columns number : Nat} {v : Violation α} :
    v ∈ row.violations columns number ↔
      (∃ offset, row.FirstUnknown columns offset
        ∧ v = .unknownColumn number row.name offset columns)
      ∨ Scalar.isNaN row.bound = true ∧ v = .undefinedBound number row.name := by
  simp only [← Row.find?_eq_some_iff, violations, List.mem_append]
  refine or_congr ?_ ?_
  · cases hfind : row.terms.find? (fun t => decide (columns ≤ t.1)) with
    | none => simp
    | some t => simp [Prod.ext_iff]
  · split <;> simp [*]

theorem Row.place_of_mem_violations {row : Row α} {columns number : Nat} {v : Violation α}
    (h : v ∈ row.violations columns number) : v.part = 1 ∧ v.line = number := by
  obtain ⟨offset, -, rfl⟩ | ⟨-, rfl⟩ := mem_violations_iff.mp h
  · exact ⟨rfl, rfl⟩
  · exact ⟨rfl, rfl⟩

theorem Row.pairwise_violations (row : Row α) (columns number : Nat) :
    (row.violations columns number).Pairwise Violation.Before := by
  rw [violations, List.pairwise_append]
  refine ⟨?_, ?_, ?_⟩
  · split <;> simp
  · split <;> simp
  · intro v hv w hw
    split at hv <;> split at hw <;> simp at hv hw
    subst hv hw
    exact .inr ⟨rfl, .inr ⟨rfl, Nat.zero_lt_one⟩⟩

theorem Column.mem_violations_iff {column : Column α} {number : Nat} {v : Violation α} :
    v ∈ column.violations number ↔ Scalar.lt column.upper column.lower = true
      ∧ v = .crossedBounds number column.name.text column.lower column.upper := by
  unfold violations
  split <;> simp [*]

theorem Column.place_of_mem_violations {column : Column α} {number : Nat} {v : Violation α}
    (h : v ∈ column.violations number) : v.part = 2 ∧ v.line = number := by
  obtain ⟨-, rfl⟩ := mem_violations_iff.mp h
  exact ⟨rfl, rfl⟩

theorem Column.pairwise_violations (column : Column α) (number : Nat) :
    (column.violations number).Pairwise Violation.Before := by
  unfold violations
  split <;> simp

/-! ## Problems -/

namespace Problem

/-- The problem has the defect. -/
inductive HasDefect (p : Problem α) : Violation α → Prop
  | coefficientCount (h : p.objective.coefficients.length ≠ p.columns.length) :
      HasDefect p (.coefficientCount p.objective.coefficients.length p.columns.length)
  | unknownColumn {number : Nat} {row : Row α} {offset : Nat} (hrow : p.rows[number]? = some row)
      (h : row.FirstUnknown p.columns.length offset) :
      HasDefect p (.unknownColumn number row.name offset p.columns.length)
  | undefinedBound {number : Nat} {row : Row α} (hrow : p.rows[number]? = some row)
      (h : Scalar.isNaN row.bound = true) : HasDefect p (.undefinedBound number row.name)
  | crossedBounds {number : Nat} {column : Column α} (hcolumn : p.columns[number]? = some column)
      (h : Scalar.lt column.upper column.lower = true) :
      HasDefect p (.crossedBounds number column.name.text column.lower column.upper)

variable {p : Problem α} {v : Violation α}

/-- The defects that are found are those that the problem has. -/
theorem mem_violations_iff : v ∈ p.violations ↔ p.HasDefect v := by
  simp only [violations, List.mem_append, mem_flatMap_zipIdx_iff, Row.mem_violations_iff,
    Column.mem_violations_iff]
  constructor
  · rintro ((hcosts | ⟨n, row, hrow, ⟨offset, hoffset, rfl⟩ | ⟨hbound, rfl⟩⟩) | ⟨n, c, hc, h, rfl⟩)
    · split at hcosts
      · cases hcosts
      · next hne =>
        rw [List.mem_singleton.mp hcosts]
        exact .coefficientCount hne
    · exact .unknownColumn hrow hoffset
    · exact .undefinedBound hrow hbound
    · exact .crossedBounds hc h
  · intro h
    cases h with
    | coefficientCount h => exact .inl (.inl (by simp [h]))
    | unknownColumn hrow h => exact .inl (.inr ⟨_, _, hrow, .inl ⟨_, h, rfl⟩⟩)
    | undefinedBound hrow h => exact .inl (.inr ⟨_, _, hrow, .inr ⟨h, rfl⟩⟩)
    | crossedBounds hcolumn h => exact .inr ⟨_, _, hcolumn, h, rfl⟩

omit [Scalar α] in
theorem part_of_mem_costs (hv : v ∈ if p.objective.coefficients.length = p.columns.length then []
    else [.coefficientCount p.objective.coefficients.length p.columns.length]) : v.part = 0 := by
  split at hv
  · cases hv
  · rw [List.mem_singleton.mp hv]
    rfl

/-- The defects that are found are in order. -/
theorem pairwise_violations (p : Problem α) : p.violations.Pairwise Violation.Before := by
  have hrows : ∀ (row : Row α) n, ∀ v ∈ row.violations p.columns.length n,
      v.part = 1 ∧ v.line = n := fun _ _ _ => Row.place_of_mem_violations
  have hcolumns : ∀ (column : Column α) n, ∀ v ∈ column.violations n,
      v.part = 2 ∧ v.line = n := fun _ _ _ => Column.place_of_mem_violations
  rw [violations, List.pairwise_append, List.pairwise_append]
  refine ⟨⟨?objective, ?rows, ?rowsBehind⟩, ?columns, ?columnsBehind⟩
  case objective => split <;> simp
  case rows =>
    exact pairwise_flatMap_zipIdx p.rows hrows
      fun row n => row.pairwise_violations p.columns.length n
  case columns =>
    exact pairwise_flatMap_zipIdx p.columns hcolumns fun column n => column.pairwise_violations n
  case rowsBehind =>
    intro v hv w hw
    rw [Violation.Before, part_of_mem_costs hv, part_of_mem_flatMap_zipIdx hrows hw]
    exact .inl (by decide)
  case columnsBehind =>
    intro v hv w hw
    rw [Violation.Before, part_of_mem_flatMap_zipIdx hcolumns hw]
    rcases List.mem_append.mp hv with hv | hv
    · rw [part_of_mem_costs hv]
      exact .inl (by decide)
    · rw [part_of_mem_flatMap_zipIdx hrows hv]
      exact .inl (by decide)

/-- Nothing is found in a problem exactly if it is well-shaped, no bound of a row
is undefined and the bounds of no column are crossed. -/
theorem violations_eq_nil_iff : p.violations = [] ↔ p.WellShaped
    ∧ (∀ row ∈ p.rows, Scalar.isNaN row.bound = false)
    ∧ ∀ column ∈ p.columns, Scalar.lt column.upper column.lower = false := by
  constructor
  · intro hnil
    have hnone : ∀ v, ¬ p.HasDefect v := by
      intro v hv
      rw [← mem_violations_iff, hnil] at hv
      cases hv
    refine ⟨⟨?_, ?_⟩, ?_, ?_⟩
    · by_contra hne
      exact hnone _ (.coefficientCount hne)
    · intro row hrow t ht
      by_contra hge
      obtain ⟨n, hn⟩ := List.mem_iff_getElem?.mp hrow
      obtain ⟨offset, hoffset⟩ := Row.exists_firstUnknown ht (Nat.le_of_not_lt hge)
      exact hnone _ (.unknownColumn hn hoffset)
    · intro row hrow
      by_contra hbound
      obtain ⟨n, hn⟩ := List.mem_iff_getElem?.mp hrow
      exact hnone _ (.undefinedBound hn (eq_true_of_ne_false hbound))
    · intro column hcolumn
      by_contra hcrossed
      obtain ⟨n, hn⟩ := List.mem_iff_getElem?.mp hcolumn
      exact hnone _ (.crossedBounds hn (eq_true_of_ne_false hcrossed))
  · rintro ⟨hshaped, hbounds, hcrossed⟩
    rw [violations_of_wellShaped hshaped, undefinedBounds_eq_nil_iff.mpr hbounds,
      crossedBounds_eq_nil_iff.mpr hcrossed, List.nil_append]

/-- A problem passes exactly if its objective has one coefficient for each column,
its rows name columns that exist, no bound of a row is undefined and the bounds of
no column are crossed. Otherwise it is invalid, and the words are those for each of
its defects, once, in order and joined by semicolons; no other list in order has
these defects. -/
theorem validate_reports (p : Problem α) (number : α → String) :
    (p.validate = .ok () ↔ p.WellShaped ∧ (∀ row ∈ p.rows, Scalar.isNaN row.bound = false)
      ∧ ∀ column ∈ p.columns, Scalar.lt column.upper column.lower = false)
    ∧ (p.validate ≠ .ok () → ∃ e found, p.validate = .error e ∧ e.kind = .invalidProblem
      ∧ e.detail number = "; ".intercalate (found.map (Violation.text number))
      ∧ (∀ v, v ∈ found ↔ p.HasDefect v) ∧ found.Pairwise Violation.Before
      ∧ ∀ other : List (Violation α), (∀ v, v ∈ other ↔ p.HasDefect v) →
        other.Pairwise Violation.Before → other = found) := by
  rw [← violations_eq_nil_iff, validate]
  by_cases hnil : p.violations = []
  · rw [if_pos (List.isEmpty_iff.mpr hnil)]
    exact ⟨iff_of_true rfl hnil, fun hfails => absurd rfl hfails⟩
  · rw [if_neg (mt List.isEmpty_iff.mp hnil)]
    refine ⟨iff_of_false (by simp) hnil, fun _ => ?_⟩
    refine ⟨_, p.violations, rfl, rfl, rfl, fun v => mem_violations_iff, p.pairwise_violations, ?_⟩
    intro other hother horder
    exact Violation.eq_of_pairwise_before
      (fun v => (hother v).trans mem_violations_iff.symm) horder p.pairwise_violations

end Problem

/-! ## A problem with defects everywhere -/

/-- One coefficient for two columns; two terms of the row `r` and one of `s` name
columns that do not exist, the bound of `r` is undefined, and the bounds of `y` are
crossed. -/
def brokenProblem : Problem Exact where
  name := "broken"
  objective := ⟨.minimize, [1], 0⟩
  columns := [⟨.given "x", .continuous, 0, 1⟩, ⟨.given "y", .integer, 1, 0⟩]
  rows := [⟨.equal, [(0, 1), (4, 1), (2, 1)], .undefined, "r"⟩, ⟨.atMost, [(1, 1), (2, 1)], 1, "s"⟩]
  config := {}

/-- What is said of `brokenProblem`. -/
def brokenReport : String :=
  "Objective has 1 coefficients but problem has 2 columns; "
    ++ "Row 0 'r' references column 4 but problem has 2 columns; "
    ++ "Row 0 'r' has a NaN bound; "
    ++ "Row 1 's' references column 2 but problem has 2 columns; "
    ++ "Column 1 'y' has lower bound (1) > upper bound (0)"

theorem Problem.validate_brokenProblem : brokenProblem.validate ≠ .ok () ∧ ∃ e,
    brokenProblem.validate = .error e ∧ e.kind = .invalidProblem
    ∧ e.detail (fun x => if x = 1 then "1" else "0") = brokenReport := by
  obtain ⟨hok, hreport⟩ := validate_reports brokenProblem fun x => if x = 1 then "1" else "0"
  have hfails : brokenProblem.validate ≠ .ok () := by
    intro h
    exact absurd (hok.mp h).1.costs (by decide)
  obtain ⟨e, found, he, hkind, hdetail, hmem, horder, -⟩ := hreport hfails
  have hfound : found = brokenProblem.violations := Violation.eq_of_pairwise_before
    (fun v => (hmem v).trans mem_violations_iff.symm) horder (pairwise_violations _)
  have htext : "; ".intercalate (brokenProblem.violations.map
      (Violation.text fun x => if x = 1 then "1" else "0")) = brokenReport := by decide +kernel
  exact ⟨hfails, e, he, hkind, by rw [hdetail, hfound, htext]⟩

end Milp
