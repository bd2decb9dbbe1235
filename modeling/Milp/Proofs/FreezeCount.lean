/-
Milp.Proofs.FreezeCount — which freezes and releases are counted.

`Freeze.depth` is the count of a freeze state as a number; in the states that
occur (`Freeze.Occurs`) it says whether a variable is frozen, and which release
is the last.

A freeze and a last release store the new state before anybody is told
(`freeze_cases`, `unfreeze_cases`). Where telling then fails, because a listener
is in use or refuses, the call has been counted and the bounds of the variable
are the new ones. Only the freeze of a variable without a value fails before
anything is stored. So a caller who wants as many releases as freezes counts
the calls that fail as well (`failed_calls_counted`).

The observers that are told leave the variable alone (`Conduct.Spares`).
-/
import Milp.Proofs.Delivery

namespace Milp

/-! ## Counts as numbers -/

namespace Freeze

/-- How many releases are owed. -/
def depth (f : Freeze) : Nat := f.count.toNat

/-- A state that freezing and releasing lead to: none is frozen zero times. -/
def Occurs (f : Freeze) : Prop := f ≠ .frozen 0

variable {f : Freeze}

theorem isFrozen_eq_decide (h : f.Occurs) : f.isFrozen = decide (0 < f.depth) := by
  cases f with
  | unfrozen => rfl
  | frozen n =>
    have hn : n.toNat ≠ 0 := fun hzero => h (congrArg frozen (UInt32.toNat_inj.mp hzero))
    exact (decide_eq_true (Nat.pos_of_ne_zero hn)).symm

theorem eq_frozen_one_iff : f = .frozen 1 ↔ f.depth = 1 := by
  cases f with
  | unfrozen => simp [depth, count]
  | frozen n => simp [depth, count, ← UInt32.toNat_inj]

theorem depth_deepen (h : f.depth + 1 < UInt32.size) : f.deepen.depth = f.depth + 1 := by
  unfold depth at h ⊢
  rw [count_deepen, UInt32.toNat_add]
  exact Nat.mod_eq_of_lt h

theorem occurs_deepen (h : f.depth + 1 < UInt32.size) : f.deepen.Occurs := by
  intro hzero
  have hdepth := depth_deepen h
  rw [hzero] at hdepth
  cases hdepth

theorem depth_release (h : f.Occurs) : f.release.depth = f.depth - 1 := by
  cases f with
  | unfrozen => rfl
  | frozen n =>
    by_cases hlast : n = 1
    · subst hlast
      rfl
    · have hpos : 0 < n.toNat := of_decide_eq_true (isFrozen_eq_decide h).symm
      have hle : (1 : UInt32) ≤ n := hpos
      rw [release_frozen_of_ne hlast]
      exact UInt32.toNat_sub_of_le n 1 hle

theorem occurs_release (h : f.Occurs) : f.release.Occurs := by
  cases f with
  | unfrozen => exact Freeze.noConfusion
  | frozen n =>
    by_cases hlast : n = 1
    · subst hlast
      exact Freeze.noConfusion
    · intro hzero
      have hdepth := depth_release h
      have hmore : (frozen n).depth ≠ 1 :=
        fun hone => hlast (frozen.inj (eq_frozen_one_iff.mpr hone))
      have hpos : 0 < (frozen n).depth := of_decide_eq_true (isFrozen_eq_decide h).symm
      rw [hzero] at hdepth
      change 0 = _ at hdepth
      omega

/-- A release freezes nothing. -/
theorem isFrozen_of_release (h : f.release.isFrozen = true) : f.isFrozen = true := by
  cases f with
  | unfrozen => cases h
  | frozen n => rfl

end Freeze

variable {α μ : Type} [Scalar α]

/-! ## Observers that leave a variable alone -/

/-- Observers change nothing of a variable but its handles. -/
def Conduct.Spares (c : Conduct α μ) (v : VariableRef) : Prop :=
  ∀ l change (ws : Workspace α μ), (c.receive l v change ws).1.bareAt v = ws.bareAt v

namespace Workspace

variable {ws ws' : Workspace α μ} {v : VariableRef} {c : Conduct α μ} {action : Action}
  {change : Change α}

theorem bareAt_notify (hc : c.Spares v) (k : Handle) (ws : Workspace α μ) :
    (notify c k v change ws).1.bareAt v = ws.bareAt v := by
  rcases notify_cases c k v change ws with
    ⟨-, hleft⟩ | ⟨-, hleft | ⟨s, -, hleft⟩ | ⟨-, hleft⟩⟩
  · rw [hleft]
  · rw [hleft]
  · rw [hleft, bareAt_of_vars (vars_tellSolver ..)]
  · rw [hleft, bareAt_release, hc]
    rfl

/-- Telling leaves the variable as it was stored, whether or not it fails. -/
theorem bareAt_tellListeners (hc : c.Spares v) (ws : Workspace α μ) :
    (ws.tellListeners c action v change).1.bareAt v = ws.bareAt v := by
  have hdelivered : (deliver c action v change (ws.variableAt v).handles ws).1.bareAt v
      = ws.bareAt v := by
    rcases deliver_induction (c := c)
      (I := fun _ told => told.bareAt v = ws.bareAt v)
      (E := fun told => told.bareAt v = ws.bareAt v)
      (fun _ h => h) (fun h _ => (bareAt_notify hc _ _).trans h)
      (fun h _ => (bareAt_notify hc _ _).trans h) action (ws.variableAt v).handles rfl
      with ⟨-, h⟩ | ⟨-, h⟩
    · exact h
    · exact h
  unfold tellListeners
  split
  · next hdeliver =>
    rw [hdeliver] at hdelivered
    exact hdelivered
  · next hdeliver =>
    rw [hdeliver] at hdelivered
    rw [bareAt_prune]
    exact hdelivered

/-- Telling of a change has got to a listener that is alive, and in use or
refuses; `e` says which. -/
structure FailsAt (c : Conduct α μ) (action : Action) (v : VariableRef) (change : Change α)
    (start : Workspace α μ) (e : ModelError α) (last : Visit α μ) : Prop where
  attached : last.handle ∈ (start.variableAt v).handles
  visited : last ∈ visits c action v change (start.variableAt v).handles start
  alive : last.found.isAlive last.handle = true
  answer : (last.reception c v change = .inUse ∧ e = .busy last.handle.id)
    ∨ last.reception c v change = .refused e

/-- Announcing bounds fails where telling does. -/
theorem exists_failsAt {bounds : α × α} {e : ModelError α}
    (herror : (ws.announce c action v bounds).2 = .error e) :
    ∃ last, FailsAt c action v (.bounds bounds.1 bounds.2) ws e last := by
  unfold announce tellListeners at herror
  cases hdeliver : deliver c action v (.bounds bounds.1 bounds.2) (ws.variableAt v).handles ws with
  | mk left result =>
    rw [hdeliver] at herror
    cases result with
    | ok dead => cases herror
    | error e' =>
      obtain rfl : e' = e := Except.error.inj herror
      obtain ⟨before, last, rest, hvisits, hsplit, -, hanswer, -⟩ := visits_of_error hdeliver
      have hattached : last.handle ∈ (ws.variableAt v).handles := by
        rw [hsplit]
        exact List.mem_append_right _ List.mem_cons_self
      have hvisited : last ∈ visits c action v (.bounds bounds.1 bounds.2)
          (ws.variableAt v).handles ws := by
        rw [hvisits]
        exact List.mem_append_right _ List.mem_cons_self
      obtain ⟨_, _, _, hcase, -, hreception, -⟩ :=
        Visit.exists_case c v (.bounds bounds.1 bounds.2) last
      rw [hreception] at hanswer
      refine ⟨last, hattached, hvisited, ?_, ?_⟩
      · cases hcase with
        | gone _ => cases hanswer
        | inUse ha halive _ => exact (isAlive_of_listener? ha).trans halive
        | solver _ _ _ _ => cases hanswer
        | observer _ _ _ _ _ => cases hanswer
        | refused ha halive _ _ _ => exact (isAlive_of_listener? ha).trans halive
      · rw [hreception]
        cases hcase with
        | gone _ => cases hanswer
        | inUse _ _ _ => exact Or.inl ⟨rfl, (Except.error.inj hanswer).symm⟩
        | solver _ _ _ _ => cases hanswer
        | observer _ _ _ _ _ => cases hanswer
        | refused _ _ _ _ _ => exact Or.inr (congrArg _ (Except.error.inj hanswer))

/-- What is announced is not seen in the variable. -/
theorem bareAt_announce (hc : c.Spares v) (action : Action) (bounds : α × α) (ws : Workspace α μ) :
    (ws.announce c action v bounds).1.bareAt v = ws.bareAt v :=
  bareAt_tellListeners hc ws

/-- A freeze state that is stored is there, and all else of the variable is as
it was. -/
theorem bareAt_write_freeze (hv : v.index < ws.vars.length) (f : Freeze) :
    (ws.write v (.freeze f)).bareAt v = { ws.bareAt v with freeze := f } :=
  congrArg Variable.bare (variableAt_updateVariable_self hv _)

/-- The blank variable is neither assigned nor frozen. -/
theorem index_lt_of_ne_blank
    (h : (ws.variableAt v).assigned ≠ none ∨ (ws.variableAt v).freeze ≠ .unfrozen) :
    v.index < ws.vars.length := by
  by_contra hge
  rw [variableAt_of_length_le (Nat.le_of_not_lt hge)] at h
  exact h.elim (fun h => h rfl) fun h => h rfl

end Workspace

/-! ## Series of calls -/

/-- A call that freezes or releases a variable. -/
inductive FreezeCall where
  | freeze
  | release
  deriving DecidableEq, Repr

namespace FreezeCall

/-- What the call makes of the freeze state where it is counted. -/
def counted : FreezeCall → Freeze → Freeze
  | freeze, f => f.deepen
  | release, f => f.release

/-- Makes the call. -/
def perform (c : Conduct α μ) (v : VariableRef) (ws : Workspace α μ) :
    FreezeCall → Outcome α μ Bool
  | freeze => ws.freeze c v
  | release => ws.unfreeze c v

end FreezeCall

namespace Workspace

variable {ws ws' ws₁ : Workspace α μ} {v : VariableRef} {c : Conduct α μ}

/-- Whatever happens, the variable is frozen as often and has a value if it had
one. -/
structure KeepsFreeze (v : VariableRef) (ws ws' : Workspace α μ) : Prop where
  freeze : (ws'.variableAt v).freeze = (ws.variableAt v).freeze
  assigned : (ws.variableAt v).assigned ≠ none → (ws'.variableAt v).assigned ≠ none

/-- A series of calls. Before each of them anything may happen that keeps the
freeze state, and every call finds the listeners as they then are. -/
inductive FreezeSeries (v : VariableRef) :
    List FreezeCall → Workspace α μ → Workspace α μ → Prop where
  | done {ws ws' : Workspace α μ} (hbetween : KeepsFreeze v ws ws') : FreezeSeries v [] ws ws'
  | call {call : FreezeCall} {rest : List FreezeCall} {ws ws₁ ws' : Workspace α μ}
    {c : Conduct α μ} (hc : c.Spares v) (hbetween : KeepsFreeze v ws ws₁)
    (hrest : FreezeSeries v rest (call.perform c v ws₁).1 ws') :
    FreezeSeries v (call :: rest) ws ws'

/-- A call is counted, whatever it answers, once the variable has a value. -/
theorem bareAt_perform_call (hc : c.Spares v) (hassigned : (ws.variableAt v).assigned ≠ none)
    (call : FreezeCall) : (call.perform c v ws).1.bareAt v
      = { ws.bareAt v with freeze := call.counted (ws.variableAt v).freeze } := by
  have hv : v.index < ws.vars.length := index_lt_of_ne_blank (Or.inl hassigned)
  cases call with
  | freeze =>
    rcases freeze_cases c v ws with ⟨-, hcall⟩ | ⟨hfree, ⟨hnone, -⟩ | ⟨level, -, hcall⟩⟩
    · rw [FreezeCall.perform, hcall]
      exact bareAt_write_freeze hv _
    · exact absurd hnone hassigned
    · rw [FreezeCall.perform, hcall, bareAt_announce hc, hfree]
      exact bareAt_write_freeze hv _
  | release =>
    rcases unfreeze_cases c v ws with ⟨-, hcall⟩ | ⟨hlast, hcall⟩
    · rw [FreezeCall.perform, hcall]
      exact bareAt_write_freeze hv _
    · rw [FreezeCall.perform, hcall, bareAt_announce hc, hlast]
      exact bareAt_write_freeze hv _

/-- All calls of a series are counted. -/
theorem FreezeSeries.freeze_eq {calls : List FreezeCall} (h : FreezeSeries v calls ws ws')
    (hassigned : (ws.variableAt v).assigned ≠ none) :
    (ws'.variableAt v).freeze
      = calls.foldl (fun f call => call.counted f) (ws.variableAt v).freeze := by
  induction h with
  | done hbetween => exact hbetween.freeze
  | @call call _ _ ws₁ _ c hc hbetween _ ih =>
    have hbefore := hbetween.assigned hassigned
    have hafter := bareAt_perform_call hc hbefore call
    have hcounted : ((call.perform c v ws₁).1.variableAt v).freeze
        = call.counted (ws₁.variableAt v).freeze :=
      congrArg (fun x : Variable α => x.freeze) hafter
    have hkept := congrArg (fun x : Variable α => x.assigned) hafter
    rw [List.foldl_cons, ← hbetween.freeze, ← hcounted]
    exact ih fun hnone => hbefore (hkept.symm.trans hnone)

/-- The freeze of a variable without a value fails and changes nothing. Any
other failure of a freeze or of a release is that of a listener which is alive
and in use or refuses, when the new state has been stored. Where observers leave
the variable alone, a freeze that fails so leaves it frozen once and with its
value for both effective bounds, a release that fails leaves it not frozen and
with its own bounds, and nothing else of it is changed. So in a series of calls
on a variable that has a value each one counts, whatever it answers. -/
theorem failed_calls_counted (c : Conduct α μ) (v : VariableRef) (ws : Workspace α μ) :
    (∀ e, (ws.freeze c v).2 = .error e → (ws.variableAt v).freeze = .unfrozen
      ∧ (((ws.variableAt v).assigned = none ∧ e = .unassigned (ws.nameOf v)
          ∧ (ws.freeze c v).1 = ws)
        ∨ ∃ level last, (ws.variableAt v).assigned = some level
          ∧ FailsAt c .freeze v (.bounds level.value level.value)
            (ws.write v (.freeze (.frozen 1))) e last
          ∧ (c.Spares v → (ws.freeze c v).1.bareAt v = { ws.bareAt v with freeze := .frozen 1 }
            ∧ ((ws.freeze c v).1.variableAt v).effectiveBounds = (level.value, level.value))))
    ∧ (∀ e, (ws.unfreeze c v).2 = .error e → (ws.variableAt v).freeze = .frozen 1
      ∧ ∃ last, FailsAt c .unfreeze v
          (.bounds (ws.variableAt v).lower (ws.variableAt v).upper)
          (ws.write v (.freeze .unfrozen)) e last
        ∧ (c.Spares v → (ws.unfreeze c v).1.bareAt v = { ws.bareAt v with freeze := .unfrozen }
          ∧ ((ws.unfreeze c v).1.variableAt v).effectiveBounds
            = ((ws.variableAt v).lower, (ws.variableAt v).upper)))
    ∧ ∀ calls ws', FreezeSeries v calls ws ws' → (ws.variableAt v).assigned ≠ none →
      (ws'.variableAt v).freeze
        = calls.foldl (fun f call => call.counted f) (ws.variableAt v).freeze := by
  -- the effective bounds are those of the bare variable
  have hbounds : ∀ (left : Workspace α μ) {x : Variable α}, left.bareAt v = x →
      (left.variableAt v).effectiveBounds = x.effectiveBounds := by
    rintro left _ rfl
    rfl
  refine ⟨fun e herror => ?_, fun e herror => ?_, fun calls ws' h => h.freeze_eq⟩
  · rcases freeze_cases c v ws with ⟨-, hcall⟩ | ⟨hfree, ⟨hnone, hcall⟩ | ⟨level, hlevel, hcall⟩⟩
    · rw [hcall] at herror
      cases herror
    · rw [hcall] at herror ⊢
      exact ⟨hfree, Or.inl ⟨hnone, (Except.error.inj herror).symm, rfl⟩⟩
    · have hv : v.index < ws.vars.length :=
        index_lt_of_ne_blank (Or.inl (by rw [hlevel]; exact Option.some_ne_none level))
      rw [hcall] at herror ⊢
      obtain ⟨last, hfails⟩ := exists_failsAt herror
      refine ⟨hfree, Or.inr ⟨level, last, hlevel, hfails, fun hc => ?_⟩⟩
      have hbare := (bareAt_announce hc .freeze (level.value, level.value) _).trans
        (bareAt_write_freeze hv (.frozen 1))
      refine ⟨hbare, ?_⟩
      rw [hbounds _ hbare]
      exact Variable.effectiveBounds_of_frozen rfl hlevel
  · rcases unfreeze_cases c v ws with ⟨-, hcall⟩ | ⟨hlast, hcall⟩
    · rw [hcall] at herror
      cases herror
    · have hv : v.index < ws.vars.length :=
        index_lt_of_ne_blank (Or.inr (by rw [hlast]; exact Freeze.noConfusion))
      rw [hcall] at herror ⊢
      obtain ⟨last, hfails⟩ := exists_failsAt herror
      refine ⟨hlast, last, hfails, fun hc => ?_⟩
      have hbare := (bareAt_announce hc .unfreeze
        ((ws.variableAt v).lower, (ws.variableAt v).upper) _).trans
        (bareAt_write_freeze hv .unfrozen)
      refine ⟨hbare, ?_⟩
      rw [hbounds _ hbare]
      exact Variable.effectiveBounds_of_not_frozen rfl

end Workspace

/-! ## An observer that refuses -/

namespace Workspace

/-- The variable has the value `1`, and its observer refuses. -/
def unwillingWorkspace : Workspace Exact Bool :=
  reluctantWorkspace.assign ⟨0⟩ ⟨⟨0, 0⟩, 1, 0⟩

/-- A freeze, a release and a freeze, each refused. -/
theorem unwilling_calls_counted :
    let frozen := (unwillingWorkspace.freeze reluctantConduct ⟨0⟩).1
    let released := (frozen.unfreeze reluctantConduct ⟨0⟩).1
    let again := (released.freeze reluctantConduct ⟨0⟩).1
    (frozen.variableAt ⟨0⟩).effectiveBounds = (1, 1)
      ∧ (released.variableAt ⟨0⟩).effectiveBounds = (.finite 0, .finite 10)
      ∧ (again.variableAt ⟨0⟩).freeze.depth = 1 := by
  extract_lets frozen released again
  have hspares : reluctantConduct.Spares ⟨0⟩ := fun _ _ _ => rfl
  have hassigned : (unwillingWorkspace.variableAt ⟨0⟩).assigned ≠ none := by decide +kernel
  have hfreeze : (unwillingWorkspace.freeze reluctantConduct ⟨0⟩).2
      = .error (.stated .invalidState "refused") := by decide +kernel
  have hrelease : (frozen.unfreeze reluctantConduct ⟨0⟩).2
      = .error (.stated .invalidState "refused") := by decide +kernel
  obtain ⟨hfrozen, -, hseries⟩ := failed_calls_counted reluctantConduct ⟨0⟩
    unwillingWorkspace
  obtain ⟨-, ⟨hnone, -⟩ | ⟨level, last, hlevel, -, hleft⟩⟩ := hfrozen _ hfreeze
  · exact absurd hnone hassigned
  obtain ⟨-, hreleased, -⟩ := failed_calls_counted reluctantConduct ⟨0⟩ frozen
  obtain ⟨-, last', -, hleft'⟩ := hreleased _ hrelease
  obtain ⟨-, hpinned⟩ := hleft hspares
  obtain ⟨-, hrestored⟩ := hleft' hspares
  have hsame : ∀ ws : Workspace Exact Bool, KeepsFreeze ⟨0⟩ ws ws := fun _ => ⟨rfl, id⟩
  have hcalls : FreezeSeries ⟨0⟩ [.freeze, .release, .freeze] unwillingWorkspace again :=
    .call hspares (hsame _) (.call hspares (hsame _) (.call hspares (hsame _)
      (.done (hsame _))))
  have hvalue : level.value = 1 := by
    have hone : (unwillingWorkspace.variableAt ⟨0⟩).assigned.map Level.value = some 1 := by
      decide +kernel
    rw [hlevel] at hone
    exact Option.some.inj hone
  have hown : ((frozen.variableAt ⟨0⟩).lower, (frozen.variableAt ⟨0⟩).upper)
      = ((.finite 0, .finite 10) : Exact × Exact) := by decide +kernel
  refine ⟨hpinned.trans (by rw [hvalue]), hrestored.trans hown, ?_⟩
  rw [hseries _ _ hcalls hassigned]
  decide +kernel

/-- The freeze fails, and the variable is frozen; the release fails, and it no
longer is. Counting only the calls that succeed, there has been none. -/
theorem counted_though_refused :
    let frozen := unwillingWorkspace.freeze reluctantConduct ⟨0⟩
    let released := frozen.1.unfreeze reluctantConduct ⟨0⟩
    (frozen.2 = .error (.stated .invalidState "refused")
      ∧ (unwillingWorkspace.variableAt ⟨0⟩).freeze.count = 0
      ∧ (frozen.1.variableAt ⟨0⟩).freeze.count = 1
      ∧ (unwillingWorkspace.variableAt ⟨0⟩).freeze.isFrozen = false
      ∧ (frozen.1.variableAt ⟨0⟩).freeze.isFrozen = true
      ∧ (unwillingWorkspace.variableAt ⟨0⟩).effectiveBounds = (.finite 0, .finite 10)
      ∧ (frozen.1.variableAt ⟨0⟩).effectiveBounds = (1, 1))
    ∧ released.2 = .error (.stated .invalidState "refused")
      ∧ (released.1.variableAt ⟨0⟩).freeze.count = 0
      ∧ (released.1.variableAt ⟨0⟩).effectiveBounds = (.finite 0, .finite 10) := by
  decide +kernel

end Workspace

end Milp
