/-
Milp.Proofs.Merging — which variables merged terms are over.

Merging keeps the order of first appearance: the variables of the merged
terms are the variables of the terms as they were written, with the
repeats left out (`map_fst_mergeTerms`). So each of them stands once, and
dropping the terms that cancelled brings no new one
(`nodup_assemble`, `mem_vars_of_mem_assemble`).

The variables of a constraint and of a model come from the same removal of
repeats, applied again to lists already free of them. What is merged out of
an objective or a constraint is therefore always over variables of the
model (`mem_vars_of_mem_objective`, `mem_vars_of_mem_normalized`), whatever
cancels on either side.
-/
import Mathlib.Data.List.Induction
import Mathlib.Data.List.Nodup
import Milp.Model.Basic

namespace Milp

variable {α : Type}

/-! ## Variables -/

/-- What `eraseDups` leaves has no repeats. -/
theorem nodup_eraseDups {β : Type} [DecidableEq β] : ∀ l : List β, l.eraseDups.Nodup
  | [] => by simp
  | a :: rest => by
      rw [List.eraseDups_cons, List.nodup_cons, List.mem_eraseDups, List.mem_filter]
      exact ⟨by simp, nodup_eraseDups _⟩
termination_by l => l.length
decreasing_by exact Nat.lt_succ_of_le (List.length_filter_le _ _)

theorem Expression.mem_vars_iff {e : Expression α} {v : VariableRef} :
    v ∈ e.vars ↔ v ∈ e.terms.map Prod.fst := by
  rw [vars, List.mem_eraseDups]

theorem Constraint.mem_vars_iff {c : Constraint α} {v : VariableRef} :
    v ∈ c.vars ↔ v ∈ c.lhs.vars ∨ v ∈ c.rhs.vars := by
  rw [vars, List.mem_eraseDups, List.mem_append]

theorem Model.mem_vars_iff {m : Model α} {v : VariableRef} :
    v ∈ m.vars ↔ v ∈ m.objective.expression.vars ∨ ∃ c ∈ m.constraints, v ∈ c.vars := by
  rw [vars, List.mem_eraseDups, List.mem_append, List.mem_flatMap]

theorem Model.nodup_vars (m : Model α) : m.vars.Nodup := nodup_eraseDups _

variable [Scalar α]

theorem Expression.mem_vars_minus {a b : Expression α} {v : VariableRef} :
    v ∈ (a.minus b).vars ↔ v ∈ a.vars ∨ v ∈ b.vars := by
  simp [mem_vars_iff, minus, negate]

/-! ## Merged terms -/

namespace Expression

theorem mergeTerms_concat (terms : List (VariableRef × α)) (new : VariableRef × α) :
    mergeTerms (terms ++ [new]) = insertTerm (mergeTerms terms) new := by
  simp [mergeTerms]

/-- The variables of the merged terms are those of the terms, each once, in
order of first appearance. -/
theorem map_fst_mergeTerms (terms : List (VariableRef × α)) :
    (mergeTerms terms).map Prod.fst = (terms.map Prod.fst).eraseDups := by
  induction terms using List.reverseRecOn with
  | nil => rfl
  | append_singleton terms new ih =>
    have hmem : new.1 ∈ (mergeTerms terms).map Prod.fst ↔ new.1 ∈ terms.map Prod.fst := by
      rw [ih, List.mem_eraseDups]
    rw [mergeTerms_concat, List.map_append, List.eraseDups_append, ← ih]
    by_cases h : new.1 ∈ terms.map Prod.fst
    · rw [map_fst_insertTerm_of_mem (hmem.mpr h)]
      simp [List.removeAll, h]
    · rw [insertTerm_of_not_mem (fun hm => h (hmem.mp hm))]
      simp [List.removeAll, h, List.eraseDups_cons]

theorem nodup_mergeTerms (terms : List (VariableRef × α)) :
    ((mergeTerms terms).map Prod.fst).Nodup := by
  rw [map_fst_mergeTerms]
  exact nodup_eraseDups _

/-- No variable has two terms in an assembled expression. -/
theorem nodup_assemble (e : Expression α) : (e.assemble.terms.map Prod.fst).Nodup :=
  (nodup_mergeTerms e.terms).sublist (List.filter_sublist.map Prod.fst)

/-- Assembling brings in no variable. -/
theorem mem_vars_of_mem_assemble {e : Expression α} {t : VariableRef × α}
    (ht : t ∈ e.assemble.terms) : t.1 ∈ e.vars := by
  have hmerged : t ∈ mergeTerms e.terms := List.mem_of_mem_filter ht
  rw [vars, ← map_fst_mergeTerms]
  exact List.mem_map_of_mem hmerged

end Expression

/-! ## Terms of a model -/

/-- No variable has two terms in the normalized form of a constraint. -/
theorem Constraint.nodup_normalized (c : Constraint α) : (c.normalized.1.map Prod.fst).Nodup :=
  Expression.nodup_assemble _

/-- The normalized terms of a constraint are over its variables. -/
theorem Constraint.mem_vars_of_mem_normalized {c : Constraint α} {t : VariableRef × α}
    (ht : t ∈ c.normalized.1) : t.1 ∈ c.vars := by
  rw [mem_vars_iff, ← Expression.mem_vars_minus]
  exact Expression.mem_vars_of_mem_assemble ht

theorem Model.mem_vars_of_mem_objective {m : Model α} {t : VariableRef × α}
    (ht : t ∈ m.objective.expression.assemble.terms) : t.1 ∈ m.vars :=
  mem_vars_iff.mpr (Or.inl (Expression.mem_vars_of_mem_assemble ht))

theorem Model.mem_vars_of_mem_normalized {m : Model α} {c : Constraint α}
    (hc : c ∈ m.constraints) {t : VariableRef × α} (ht : t ∈ c.normalized.1) : t.1 ∈ m.vars :=
  mem_vars_iff.mpr (Or.inr ⟨c, hc, Constraint.mem_vars_of_mem_normalized ht⟩)

end Milp
