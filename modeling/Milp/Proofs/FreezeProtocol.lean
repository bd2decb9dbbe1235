/-
Milp.Proofs.FreezeProtocol — counting freezes, and what observers hear of them.

A run freezes and releases a variable, sets its bounds, its kind and its name
and gives it values, in any order; freezes may be nested in freezes, and no
listener that is told is in use or refuses (`Orderly`). Observers leave this
variable alone (`Conduct.Spares`), and may do to others what they like.

`CountedStep` is what one operation answers and makes of the count. It keeps
`FreezeSound`: a variable is never frozen zero times, and has a value while it
is frozen.

Three kinds of news are about bounds (`BoundNotice`): a bound of its own, the
pin of a first freeze, and the restored bounds of a last release. In the news of
a run (`notices`) nothing stands between a pin and the restored bounds that
follow it, whatever is set in between, because the news start and end as frozen
as the variable is (`Alternates`). An observer that is attached throughout hears
of exactly these news, once by each of its handles (`tellings`).
-/
import Milp.Proofs.Acceptance
import Milp.Proofs.FreezeCount

namespace Milp

variable {α μ : Type}

/-! ## Operations one after the other -/

/-- The variable that an operation changes or gives a value. -/
def Operation.subject? : Operation α → Option VariableRef
  | .assign v _ => some v
  | op => op.target?

theorem Operation.of_subject? {op : Operation α} {v : VariableRef} (h : op.subject? = some v) :
    op.target? = some v ∨ ∃ level, op = .assign v level := by
  cases op with
  | assign w level =>
    obtain rfl := Option.some.inj h
    exact Or.inr ⟨level, rfl⟩
  | _ => exact Or.inl h

variable [Scalar α]

namespace Workspace

/-- A condition on every operation of a run and the state that it finds. -/
def Throughout (c : Conduct α μ) (P : Operation α → Workspace α μ → Prop) :
    List (Operation α) → Workspace α μ → Prop
  | [], _ => True
  | op :: rest, ws => P op ws ∧ Throughout c P rest (ws.perform c op).1

variable {ws : Workspace α μ} {c : Conduct α μ} {P : Operation α → Workspace α μ → Prop}
  {ops : List (Operation α)}

theorem throughout_append {before after : List (Operation α)} :
    Throughout c P (before ++ after) ws ↔ Throughout c P before ws
      ∧ Throughout c P after (ws.run c (before.map .operate)) := by
  induction before generalizing ws with
  | nil => exact (iff_of_eq (true_and _)).symm
  | cons op rest ih =>
    rw [List.cons_append, Throughout, ih, Throughout, and_assoc]
    rfl

instance decidableThroughout (c : Conduct α μ) (P : Operation α → Workspace α μ → Prop)
    [∀ op ws, Decidable (P op ws)] : (ops : List (Operation α)) → (ws : Workspace α μ) →
      Decidable (Throughout c P ops ws)
  | [], _ => .isTrue trivial
  | op :: rest, ws =>
    have := decidableThroughout c P rest (ws.perform c op).1
    inferInstanceAs (Decidable (_ ∧ _))

theorem Throughout.imp {Q : Operation α → Workspace α μ → Prop} (hall : Throughout c P ops ws)
    (himp : ∀ {op ws}, P op ws → Q op ws) : Throughout c Q ops ws := by
  induction ops generalizing ws with
  | nil => trivial
  | cons op rest ih => exact ⟨himp hall.1, ih hall.2⟩

/-- What every operation keeps is kept by the run. -/
theorem Throughout.invariant {I : Workspace α μ → Prop} (hall : Throughout c P ops ws)
    (hstep : ∀ {op ws}, P op ws → I ws → I (ws.perform c op).1) (h : I ws) :
    I (ws.run c (ops.map .operate)) := by
  induction ops generalizing ws with
  | nil => exact h
  | cons op rest ih => exact ih hall.2 (hstep hall.1 h)

end Workspace

/-! ## Steps of the count -/

namespace Workspace

variable {ws : Workspace α μ} {v : VariableRef} {c : Conduct α μ} {op : Operation α}

/-- A variable is never frozen zero times, and has a value while it is frozen. -/
structure FreezeSound (v : VariableRef) (ws : Workspace α μ) : Prop where
  occurs : (ws.variableAt v).freeze.Occurs
  assigned : (ws.variableAt v).freeze.isFrozen = true → (ws.variableAt v).assigned ≠ none

/-- An operation freezes, releases or changes the variable or gives it a value.
The listeners that it tells accept, and a freeze does not overflow the count. -/
structure Orderly (c : Conduct α μ) (v : VariableRef) (op : Operation α) (ws : Workspace α μ) :
    Prop where
  subject : op.subject? = some v
  heard : op.tells ws = true → (ws.perform c op).2.isOk = true
  nested : op = .freeze v → (ws.variableAt v).freeze.depth + 1 < UInt32.size

instance [DecidableEq α] (c : Conduct α μ) (v : VariableRef) (op : Operation α)
    (ws : Workspace α μ) : Decidable (Orderly c v op ws) :=
  decidable_of_iff (op.subject? = some v
      ∧ (op.tells ws = true → (ws.perform c op).2.isOk = true)
      ∧ (op = .freeze v → (ws.variableAt v).freeze.depth + 1 < UInt32.size))
    ⟨fun ⟨hsubject, hheard, hnested⟩ => ⟨hsubject, hheard, hnested⟩,
      fun h => ⟨h.subject, h.heard, h.nested⟩⟩

/-- What an operation answers and makes of the count of a variable. -/
structure CountedStep (c : Conduct α μ) (v : VariableRef) (op : Operation α)
    (ws : Workspace α μ) : Prop where
  unassigned : op = .freeze v → (ws.variableAt v).assigned = none →
    ws.perform c op = (ws, .error (.unassigned (ws.nameOf v)))
  freeze : op = .freeze v → (ws.variableAt v).assigned ≠ none →
    (ws.perform c op).2 = .ok (.flag (decide ((ws.variableAt v).freeze.depth = 0)))
      ∧ ((ws.perform c op).1.variableAt v).freeze.depth = (ws.variableAt v).freeze.depth + 1
  release : op = .unfreeze v →
    (ws.perform c op).2 = .ok (.flag (decide ((ws.variableAt v).freeze.depth = 1)))
      ∧ ((ws.perform c op).1.variableAt v).freeze.depth = (ws.variableAt v).freeze.depth - 1
  other : op ≠ .freeze v → op ≠ .unfreeze v →
    ((ws.perform c op).1.variableAt v).freeze.depth = (ws.variableAt v).freeze.depth

/-- What an operation on a variable leaves of it is what it stored, if it stored
something. -/
theorem bareAt_perform (hc : c.Spares v) (hop : op.target? = some v) (ws : Workspace α μ) :
    (ws.perform c op).1.bareAt v = ws.bareAt v
      ∨ ∃ e, EditCase (ws.variableAt v) op e
        ∧ (ws.perform c op).1.bareAt v = (ws.write v e.store).bareAt v := by
  rcases perform_cases hop ws with ⟨-, answer, hperform⟩
      | ⟨store, hedit, ws', answer, hsame, hperform⟩
      | ⟨store, action, change, hedit, answer, hperform⟩
  · rw [hperform]
    exact Or.inl rfl
  · rw [hperform]
    exact Or.inr ⟨_, Operation.editCase hedit, congrArg Variable.bare (hsame.variableAt v)⟩
  · rw [hperform]
    exact Or.inr ⟨_, Operation.editCase hedit, bareAt_tellListeners hc _⟩

/-- Only assigning gives a variable another level. -/
theorem assigned_perform (hc : c.Spares v) (hop : op.target? = some v) :
    ((ws.perform c op).1.variableAt v).assigned = (ws.variableAt v).assigned := by
  rcases bareAt_perform hc hop ws with hkept | ⟨e, -, hstored⟩
  · exact Variable.assigned_eq_of_bare hkept
  · rw [Variable.assigned_eq_of_bare hstored, write, variableAt_updateVariable]
    split
    · exact Variable.assigned_write _ e.store
    · rfl

/-- No operation takes the level from a variable. -/
theorem assigned_perform_ne_none (hc : c.Spares v) (hsubject : op.subject? = some v)
    (h : (ws.variableAt v).assigned ≠ none) :
    ((ws.perform c op).1.variableAt v).assigned ≠ none := by
  rcases Operation.of_subject? hsubject with hop | ⟨level, rfl⟩
  · rw [assigned_perform hc hop]
    exact h
  · rw [perform, variableAt_assign]
    split
    · exact Option.some_ne_none level
    · exact h

/-- Only freezing and releasing change the freeze state. -/
theorem freeze_perform_of_ne (hc : c.Spares v) (hsubject : op.subject? = some v)
    (hfreeze : op ≠ .freeze v) (hrelease : op ≠ .unfreeze v) (ws : Workspace α μ) :
    ((ws.perform c op).1.variableAt v).freeze = (ws.variableAt v).freeze := by
  rcases Operation.of_subject? hsubject with hop | ⟨level, rfl⟩
  · rcases bareAt_perform hc hop ws with hkept | ⟨e, hcase, hstored⟩
    · exact Variable.freeze_eq_of_bare hkept
    · have hstore : ((ws.variableAt v).write e.store).freeze = (ws.variableAt v).freeze := by
        cases hcase with
        | name _ => rfl
        | kind _ => rfl
        | bound _ _ => exact Variable.freeze_withBound ..
        | held _ _ => exact Variable.freeze_withBound ..
        | pin _ _ => exact absurd (congrArg Operation.freeze (Option.some.inj hop)) hfreeze
        | nested _ => exact absurd (congrArg Operation.freeze (Option.some.inj hop)) hfreeze
        | restore _ => exact absurd (congrArg Operation.unfreeze (Option.some.inj hop)) hrelease
        | release _ => exact absurd (congrArg Operation.unfreeze (Option.some.inj hop)) hrelease
      rw [Variable.freeze_eq_of_bare hstored, write, variableAt_updateVariable]
      split
      · exact hstore
      · rfl
  · rw [perform, variableAt_assign]
    split <;> rfl

/-- Telling that is not refused answers that it was done. -/
theorem announce_of_isOk {action : Action} {bounds : α × α}
    (h : (ws.announce c action v bounds).2.isOk = true) :
    (ws.announce c action v bounds).2 = .ok true := by
  unfold announce at h ⊢
  cases htell : ws.tellListeners c action v (.bounds bounds.1 bounds.2) with
  | mk left answer =>
    rw [htell] at h
    cases answer with
    | ok u => rfl
    | error e => cases h

/-- A freeze of a variable that has a value. -/
theorem perform_freeze (hc : c.Spares v) (horderly : Orderly c v (.freeze v) ws)
    (hassigned : (ws.variableAt v).assigned ≠ none) :
    (ws.perform c (.freeze v)).2 = .ok (.flag !(ws.variableAt v).freeze.isFrozen)
      ∧ ((ws.perform c (.freeze v)).1.variableAt v).freeze = (ws.variableAt v).freeze.deepen := by
  constructor
  · have hheard := horderly.heard
    simp only [perform, answered, Operation.tells] at hheard ⊢
    rcases freeze_cases c v ws with ⟨hfrozen, hcall⟩ | ⟨hfree, ⟨hnone, -⟩ | ⟨level, hlevel, hcall⟩⟩
    · rw [hcall, hfrozen]
      rfl
    · exact absurd hnone hassigned
    · rw [hcall, hfree, hlevel, isOk_map] at hheard
      rw [hcall, hfree, announce_of_isOk (hheard rfl)]
      rfl
  · exact congrArg (fun x : Variable α => x.freeze) (bareAt_perform_call hc hassigned .freeze)

/-- A release. -/
theorem perform_unfreeze (hc : c.Spares v) (horderly : Orderly c v (.unfreeze v) ws) :
    (ws.perform c (.unfreeze v)).2 = .ok (.flag (decide ((ws.variableAt v).freeze = .frozen 1)))
      ∧ ((ws.perform c (.unfreeze v)).1.variableAt v).freeze
        = (ws.variableAt v).freeze.release := by
  have hheard := horderly.heard
  simp only [perform, answered, Operation.tells] at hheard ⊢
  rcases unfreeze_cases c v ws with ⟨hmore, hcall⟩ | ⟨hlast, hcall⟩
  · rw [hcall, decide_eq_false hmore]
    refine ⟨rfl, ?_⟩
    rw [write, variableAt_updateVariable]
    split
    · rfl
    · next hrange =>
      -- the blank variable is not frozen
      rw [variableAt_of_length_le (Nat.le_of_not_lt fun hv => hrange ⟨rfl, hv⟩)]
      rfl
  · have hv : v.index < ws.vars.length :=
      index_lt_of_ne_blank (Or.inr (by rw [hlast]; exact Freeze.noConfusion))
    rw [hcall, isOk_map] at hheard
    rw [hcall, announce_of_isOk (hheard (decide_eq_true hlast)), hlast]
    exact ⟨rfl, congrArg (fun x : Variable α => x.freeze)
      ((bareAt_announce hc .unfreeze _ _).trans (bareAt_write_freeze hv .unfrozen))⟩

/-- One operation of a run. -/
theorem FreezeSound.countedStep (h : FreezeSound v ws) (hc : c.Spares v)
    (horderly : Orderly c v op ws) : CountedStep c v op ws where
  unassigned := by
    rintro rfl hnone
    rcases freeze_cases c v ws with ⟨hfrozen, -⟩ | ⟨-, ⟨-, hcall⟩ | ⟨level, hlevel, -⟩⟩
    · exact absurd hnone (h.assigned hfrozen)
    · rw [perform, answered, hcall]
      rfl
    · rw [hnone] at hlevel
      cases hlevel
  freeze := by
    rintro rfl hassigned
    obtain ⟨hanswer, hfreeze⟩ := perform_freeze hc horderly hassigned
    refine ⟨?_, ?_⟩
    · rw [hanswer, Freeze.isFrozen_eq_decide h.occurs, ← decide_not]
      simp only [Nat.pos_iff_ne_zero, not_not]
    · rw [hfreeze]
      exact Freeze.depth_deepen (horderly.nested rfl)
  release := by
    rintro rfl
    obtain ⟨hanswer, hfreeze⟩ := perform_unfreeze hc horderly
    refine ⟨?_, ?_⟩
    · rw [hanswer]
      simp only [Freeze.eq_frozen_one_iff]
    · rw [hfreeze]
      exact Freeze.depth_release h.occurs
  other := fun hfreeze hrelease =>
    congrArg Freeze.depth (freeze_perform_of_ne hc horderly.subject hfreeze hrelease ws)

/-- What one operation of a run keeps. -/
theorem FreezeSound.perform (hc : c.Spares v) (horderly : Orderly c v op ws)
    (h : FreezeSound v ws) : FreezeSound v (ws.perform c op).1 := by
  have hkeeps : (ws.variableAt v).assigned ≠ none →
      ((ws.perform c op).1.variableAt v).assigned ≠ none :=
    assigned_perform_ne_none hc horderly.subject
  by_cases hfreeze : op = .freeze v
  · subst hfreeze
    by_cases hassigned : (ws.variableAt v).assigned = none
    · rw [(h.countedStep hc horderly).unassigned rfl hassigned]
      exact h
    · have hdeeper := (perform_freeze hc horderly hassigned).2
      exact ⟨hdeeper ▸ Freeze.occurs_deepen (horderly.nested rfl), fun _ => hkeeps hassigned⟩
  · by_cases hrelease : op = .unfreeze v
    · subst hrelease
      have hreleased := (perform_unfreeze hc horderly).2
      refine ⟨hreleased ▸ Freeze.occurs_release h.occurs, fun hfrozen => ?_⟩
      rw [hreleased] at hfrozen
      exact hkeeps (h.assigned (Freeze.isFrozen_of_release hfrozen))
    · have hkept := freeze_perform_of_ne hc horderly.subject hfreeze hrelease ws
      exact ⟨hkept ▸ h.occurs, fun hfrozen => hkeeps (h.assigned (hkept ▸ hfrozen))⟩

end Workspace

/-! ## News of bounds -/

/-- News of the bounds of a variable. -/
inductive BoundNotice (α : Type) where
  /-- One bound was set. -/
  | bound (side : Side) (b : α)
  /-- The bounds are pinned to the value. -/
  | pin (value : α)
  /-- The variable's own bounds hold again. -/
  | restore (lower upper : α)
  deriving DecidableEq, Repr

/-- The change that listeners are told. -/
def BoundNotice.change : BoundNotice α → Change α
  | bound side b => .bound side b
  | pin value => .bounds value value
  | restore lower upper => .bounds lower upper

/-- The news of a bound that an operation makes for the variable as it is. -/
def Operation.notice? (x : Variable α) : Operation α → Option (BoundNotice α)
  | .freeze _ =>
    if x.freeze.depth = 0 then x.assigned.map fun level => .pin level.value else none
  | .unfreeze _ => if x.freeze.depth = 1 then some (.restore x.lower x.upper) else none
  | .setBound side _ b =>
    if x.freeze.depth = 0 ∧ Scalar.isNaN b = false ∧ Scalar.approxEq (x.bound side) b = false
    then some (.bound side b) else none
  | _ => none

/-- Pins and restored bounds alternate, and single bounds are set between a
restoring and a pin only. The flags say whether the bounds are pinned before and
after. -/
inductive Alternates : Bool → List (BoundNotice α) → Bool → Prop where
  | nil {pinned : Bool} : Alternates pinned [] pinned
  | bound {side : Side} {b : α} {rest : List (BoundNotice α)} {last : Bool}
    (h : Alternates false rest last) : Alternates false (.bound side b :: rest) last
  | pin {value : α} {rest : List (BoundNotice α)} {last : Bool}
    (h : Alternates true rest last) : Alternates false (.pin value :: rest) last
  | restore {lower upper : α} {rest : List (BoundNotice α)} {last : Bool}
    (h : Alternates false rest last) : Alternates true (.restore lower upper :: rest) last

omit [Scalar α] in
theorem Alternates.append {first middle last : Bool} {before after : List (BoundNotice α)}
    (h : Alternates first before middle) (h' : Alternates middle after last) :
    Alternates first (before ++ after) last := by
  induction h with
  | nil => exact h'
  | bound _ ih => exact .bound (ih h')
  | pin _ ih => exact .pin (ih h')
  | restore _ ih => exact .restore (ih h')

/-- Whether a change is one of bounds. -/
def Change.isOfBounds : Change α → Bool
  | .bound _ _ | .bounds _ _ => true
  | .kind _ | .name _ => false

/-- Listeners are told of bounds exactly where there is such news. -/
theorem Operation.filter_change?_eq {x : Variable α} (h : x.freeze.Occurs) (op : Operation α) :
    ((op.edit? x).bind Edit.change?).filter Change.isOfBounds
      = (op.notice? x).map BoundNotice.change := by
  have hfrozen := Freeze.isFrozen_eq_decide h
  cases op with
  | setName v name =>
    simp only [edit?, notice?]
    split <;> rfl
  | setKind v kind =>
    simp only [edit?, notice?]
    split <;> rfl
  | setBound side v b =>
    simp only [edit?, notice?, hfrozen]
    cases Scalar.isNaN b <;> cases Scalar.approxEq (x.bound side) b <;>
      rcases Nat.eq_zero_or_pos x.freeze.depth with hzero | hpos <;>
      simp [*, Nat.pos_iff_ne_zero.mp, Edit.change?, BoundNotice.change, Change.isOfBounds]
  | freeze v =>
    simp only [edit?, notice?, hfrozen, Variable.value, Variable.level?]
    rcases Nat.eq_zero_or_pos x.freeze.depth with hzero | hpos
    · cases x.assigned <;>
        simp [hzero, Edit.change?, BoundNotice.change, Change.isOfBounds, Except.map]
    · simp [hpos, Nat.pos_iff_ne_zero.mp hpos, Edit.change?]
  | unfreeze v =>
    simp only [edit?, notice?, Freeze.eq_frozen_one_iff]
    split <;> rfl
  | _ => rfl

namespace Workspace

variable {ws : Workspace α μ} {v : VariableRef} {c : Conduct α μ} {op : Operation α}

/-- The news of the bounds of a variable along a run. -/
def notices (c : Conduct α μ) (v : VariableRef) :
    List (Operation α) → Workspace α μ → List (BoundNotice α)
  | [], _ => []
  | op :: rest, ws => (op.notice? (ws.variableAt v)).toList ++ notices c v rest (ws.perform c op).1

/-- The news of one operation fit what the variable is before and after. -/
theorem FreezeSound.alternates (h : FreezeSound v ws) (hc : c.Spares v)
    (horderly : Orderly c v op ws) :
    Alternates (ws.variableAt v).freeze.isFrozen (op.notice? (ws.variableAt v)).toList
      ((ws.perform c op).1.variableAt v).freeze.isFrozen := by
  have hstep := h.countedStep hc horderly
  have hbefore := Freeze.isFrozen_eq_decide h.occurs
  have hafter := Freeze.isFrozen_eq_decide (h.perform hc horderly).occurs
  have hsame : ∀ {depth : Nat}, ((ws.perform c op).1.variableAt v).freeze.depth = depth →
      (0 < depth ↔ 0 < (ws.variableAt v).freeze.depth) →
      Alternates (α := α) (ws.variableAt v).freeze.isFrozen []
        ((ws.perform c op).1.variableAt v).freeze.isFrozen := by
    intro depth hdepth hiff
    rw [hafter, hdepth, hbefore, decide_eq_decide.mpr hiff]
    exact .nil
  rcases Operation.of_subject? horderly.subject with hop | ⟨level, rfl⟩
  · cases op with
    | setName w name => exact hsame (hstep.other nofun nofun) .rfl
    | setKind w kind => exact hsame (hstep.other nofun nofun) .rfl
    | setBound side w b =>
      have hdepth := hstep.other nofun nofun
      simp only [Operation.notice?]
      split
      · next hnew =>
        rw [hafter, hdepth, hbefore, hnew.1]
        exact .bound .nil
      · exact hsame hdepth .rfl
    | freeze w =>
      obtain rfl := Option.some.inj hop
      simp only [Operation.notice?]
      cases hassigned : (ws.variableAt w).assigned with
      | none =>
        rw [hstep.unassigned rfl hassigned, Option.map_none, ite_self]
        exact .nil
      | some level =>
        have hdepth := (hstep.freeze rfl (by rw [hassigned]; exact Option.some_ne_none level)).2
        split
        · next hzero =>
          rw [hafter, hdepth, hbefore, hzero]
          exact .pin .nil
        · next hpos => exact hsame hdepth (by omega)
    | unfreeze w =>
      obtain rfl := Option.some.inj hop
      have hdepth := (hstep.release rfl).2
      simp only [Operation.notice?]
      split
      · next hone =>
        rw [hafter, hdepth, hbefore, hone]
        exact .restore .nil
      · next hmore => exact hsame hdepth (by omega)
    | _ => cases hop
  · exact hsame (hstep.other nofun nofun) .rfl

end Workspace

/-! ## What an observer hears -/

/-- Observers keep a log of what they are told of one variable: each call adds
its change, and nothing that is done during the call adds another. -/
def Conduct.LogsOf (c : Conduct α μ) (v : VariableRef)
    (log : μ → List (ListenerRef × Change α)) : Prop :=
  ∀ l change (ws : Workspace α μ),
    log (c.receive l v change ws).1.memory = log ws.memory ++ [(l, change)]

/-- The visits of an operation on a variable: none where nobody is told. -/
def Operation.turns (c : Conduct α μ) (v : VariableRef) (op : Operation α) (ws : Workspace α μ) :
    List (Visit α μ) :=
  match op.edit? (ws.variableAt v) with
  | some ⟨store, some (action, change)⟩ =>
    Workspace.visits c action v change (ws.variableAt v).handles (ws.write v store)
  | _ => []

namespace Workspace

variable {ws : Workspace α μ} {v : VariableRef} {c : Conduct α μ} {op : Operation α}
  {k : ListenerRef} {log : μ → List (ListenerRef × Change α)} {change : Change α}

/-- How many handles of a listener are attached to a variable. -/
def handleCount (ws : Workspace α μ) (v : VariableRef) (k : ListenerRef) : Nat :=
  ((ws.variableAt v).handles.map Handle.listener).count k

/-- A listener is attached to the variable of an operation, and it is an observer
and alive whenever it is its turn. -/
structure Attends (c : Conduct α μ) (v : VariableRef) (k : ListenerRef) (op : Operation α)
    (ws : Workspace α μ) : Prop where
  attached : 0 < ws.handleCount v k
  present : ∀ t ∈ op.turns c v ws, t.handle.listener = k →
    t.found.isAlive t.handle = true ∧ t.found.isObserver t.handle = true

instance [DecidableEq α] (c : Conduct α μ) (v : VariableRef) (k : ListenerRef) (op : Operation α)
    (ws : Workspace α μ) : Decidable (Attends c v k op ws) :=
  decidable_of_iff (0 < ws.handleCount v k ∧ ∀ t ∈ op.turns c v ws, t.handle.listener = k →
      t.found.isAlive t.handle = true ∧ t.found.isObserver t.handle = true)
    ⟨fun ⟨hattached, hpresent⟩ => ⟨hattached, hpresent⟩, fun h => ⟨h.attached, h.present⟩⟩

/-- What a listener heard of bounds. -/
def boundsHeard (k : ListenerRef) (entries : List (ListenerRef × Change α)) : List (Change α) :=
  (entries.filter fun entry => entry.1 = k ∧ entry.2.isOfBounds = true).map Prod.snd

omit [Scalar α] in
theorem boundsHeard_append (k : ListenerRef) (entries entries' : List (ListenerRef × Change α)) :
    boundsHeard k (entries ++ entries') = boundsHeard k entries ++ boundsHeard k entries' := by
  rw [boundsHeard, List.filter_append, List.map_append, boundsHeard, boundsHeard]

omit [Scalar α] in
/-- A listener that is told of a change hears of its bounds as often as it is
told. -/
theorem boundsHeard_told (k : ListenerRef) (hs : List Handle) (change : Change α) :
    boundsHeard k (hs.map fun h => (h.listener, change))
      = if change.isOfBounds then .replicate ((hs.map Handle.listener).count k) change else [] := by
  rw [boundsHeard, List.filter_map, List.map_map]
  cases hbounds : change.isOfBounds with
  | false => simp [Function.comp_def, hbounds]
  | true =>
    have hlength : (hs.filter fun h => decide (h.listener = k)).length
        = (hs.map Handle.listener).count k := by
      rw [List.count, List.countP_map, List.countP_eq_length_filter]
      rfl
    simp [Function.comp_def, hbounds, hlength]

/-- Of visits that are passed, all those of a listener that is present call it. -/
theorem count_called {turns : List (Visit α μ)}
    (hpasses : ∀ t ∈ turns, (t.reception c v change).passes = true)
    (hpresent : ∀ t ∈ turns, t.handle.listener = k →
      t.found.isAlive t.handle = true ∧ t.found.isObserver t.handle = true) :
    ((Visit.called turns).map Handle.listener).count k
      = ((turns.map Visit.handle).map Handle.listener).count k := by
  simp only [Visit.called, List.count, List.countP_map, List.countP_filter]
  refine List.countP_congr fun t ht => ?_
  simp only [Function.comp_apply, beq_iff_eq, Bool.and_eq_true]
  refine ⟨And.left, fun hk => ⟨hk, ?_⟩⟩
  obtain ⟨halive, hobserver⟩ := hpresent t ht hk
  rw [(Visit.of_passes (hpasses t ht)).2, halive, hobserver]
  rfl

/-! ### What is logged -/

/-- An operation that stores something and tells nobody shows in no log. -/
theorem memory_perform_of_untold {store : Write α} (c : Conduct α μ) (hop : op.target? = some v)
    (hedit : op.edit? (ws.variableAt v) = some ⟨store, none⟩) :
    (ws.perform c op).1.memory = ws.memory := by
  cases Operation.editCase hedit with
  | @held _ w _ hnumber hfrozen =>
    obtain rfl := Option.some.inj hop
    simp only [perform, answered, setBound, hnumber, hfrozen, if_true, Bool.false_eq_true, if_false]
    split <;> rfl
  | @nested w hfrozen =>
    obtain rfl := Option.some.inj hop
    rw [perform, answered]
    rcases freeze_cases c w ws with ⟨-, hcall⟩ | ⟨hfree, -⟩
    · rw [hcall]
      rfl
    · rw [hfree] at hfrozen
      cases hfrozen
  | @release w hmore =>
    obtain rfl := Option.some.inj hop
    rw [perform, answered]
    rcases unfreeze_cases c w ws with ⟨-, hcall⟩ | ⟨hlast, -⟩
    · rw [hcall]
      rfl
    · exact absurd hlast hmore

/-- What is logged of one operation: the change, for every observer that is
called. -/
theorem log_perform (hlog : c.LogsOf v log) (hop : op.target? = some v) :
    log (ws.perform c op).1.memory = log ws.memory
      ++ ((op.edit? (ws.variableAt v)).bind Edit.change?).elim [] fun change =>
        (Visit.called (op.turns c v ws)).map fun h => (h.listener, change) := by
  rcases perform_cases hop ws with ⟨hedit, answer, hperform⟩
      | ⟨store, hedit, -⟩
      | ⟨store, action, change, hedit, answer, hperform⟩
  · rw [hperform, hedit]
    exact (List.append_nil _).symm
  · rw [memory_perform_of_untold c hop hedit, hedit]
    exact (List.append_nil _).symm
  · have hdelivered := log_deliver (fun l ws => hlog l change ws) action
      (ws.variableAt v).handles (ws.write v store)
    rw [hperform, answered, Operation.turns, hedit, tellListeners, handles_variableAt_write]
    cases hdeliver : deliver c action v change (ws.variableAt v).handles (ws.write v store) with
    | mk told result =>
      rw [hdeliver] at hdelivered
      cases result with
      | error e => exact hdelivered
      | ok dead => exact (congrArg log (memory_prune told action v dead)).trans hdelivered

/-- Where nobody fails, everybody is passed, in the order of the handles. -/
theorem turns_of_heard (hop : op.target? = some v)
    (hheard : op.tells ws = true → (ws.perform c op).2.isOk = true)
    (hchange : (op.edit? (ws.variableAt v)).bind Edit.change? = some change) :
    (∀ t ∈ op.turns c v ws, (t.reception c v change).passes = true)
      ∧ (op.turns c v ws).map Visit.handle = (ws.variableAt v).handles := by
  rw [Operation.tells_eq hop] at hheard
  rcases perform_cases hop ws with ⟨hedit, -⟩ | ⟨store, hedit, -⟩
      | ⟨store, action, change', hedit, answer, hperform⟩
  · rw [hedit] at hchange
    cases hchange
  · rw [hedit] at hchange
    cases hchange
  · have hok := hheard (by rw [hedit]; rfl)
    rw [hedit] at hchange
    obtain rfl : change' = change := Option.some.inj hchange
    rw [hperform, answered, isOk_map, tellListeners, handles_variableAt_write] at hok
    rw [Operation.turns, hedit]
    cases hdeliver : deliver c action v change' (ws.variableAt v).handles (ws.write v store) with
    | mk told result =>
      rw [hdeliver] at hok
      cases result with
      | error e => cases hok
      | ok dead =>
        obtain ⟨hpasses, hhandles, -⟩ := visits_of_ok hdeliver
        exact ⟨hpasses, hhandles⟩

/-- What an observer hears of the bounds when one operation of a run is carried
out: the news, by each of its handles. -/
theorem FreezeSound.boundsHeard_perform (h : FreezeSound v ws) (hlog : c.LogsOf v log)
    (horderly : Orderly c v op ws) (hattends : Attends c v k op ws) :
    boundsHeard k (log (ws.perform c op).1.memory) = boundsHeard k (log ws.memory)
      ++ (op.notice? (ws.variableAt v)).toList.flatMap fun notice =>
        .replicate (ws.handleCount v k) notice.change := by
  rcases Operation.of_subject? horderly.subject with hop | ⟨level, rfl⟩
  · have hnews := Operation.filter_change?_eq h.occurs op
    rw [log_perform hlog hop, boundsHeard_append]
    refine congrArg _ ?_
    cases hchange : (op.edit? (ws.variableAt v)).bind Edit.change? with
    | none =>
      rw [hchange] at hnews
      rw [Option.map_eq_none_iff.mp hnews.symm]
      rfl
    | some change =>
      obtain ⟨hpasses, hhandles⟩ := turns_of_heard hop horderly.heard hchange
      rw [hchange, Option.filter_some] at hnews
      rw [Option.elim_some, boundsHeard_told, count_called hpasses hattends.present, hhandles]
      split at hnews
      · next hbounds =>
        obtain ⟨notice, hnotice, rfl⟩ := Option.map_eq_some_iff.mp hnews.symm
        rw [if_pos hbounds, hnotice]
        exact (List.append_nil _).symm
      · next hother =>
        rw [if_neg hother, Option.map_eq_none_iff.mp hnews.symm]
        rfl
  · exact (List.append_nil _).symm

/-! ## Whole runs -/

variable {ops : List (Operation α)}

/-- The news of a run fit what the variable is at its start and at its end. -/
theorem FreezeSound.alternates_run (h : FreezeSound v ws) (hc : c.Spares v)
    (hrun : Throughout c (Orderly c v) ops ws) :
    Alternates (ws.variableAt v).freeze.isFrozen (notices c v ops ws)
      ((ws.run c (ops.map .operate)).variableAt v).freeze.isFrozen := by
  induction ops generalizing ws with
  | nil => exact .nil
  | cons op rest ih =>
    exact (h.alternates hc hrun.1).append (ih (h.perform hc hrun.1) hrun.2)

/-- The news of a run, each with the number of handles by which a listener is
then told. -/
def tellings (c : Conduct α μ) (v : VariableRef) (k : ListenerRef) :
    List (Operation α) → Workspace α μ → List (BoundNotice α × Nat)
  | [], _ => []
  | op :: rest, ws => ((op.notice? (ws.variableAt v)).toList.map (·, ws.handleCount v k))
      ++ tellings c v k rest (ws.perform c op).1

/-- What a listener hears of the news: each as often as it is told. -/
def heard (told : List (BoundNotice α × Nat)) : List (Change α) :=
  told.flatMap fun p => .replicate p.2 p.1.change

theorem map_fst_tellings (c : Conduct α μ) (v : VariableRef) (k : ListenerRef)
    (ops : List (Operation α)) (ws : Workspace α μ) :
    (tellings c v k ops ws).map Prod.fst = notices c v ops ws := by
  induction ops generalizing ws with
  | nil => rfl
  | cons op rest ih =>
    rw [tellings, List.map_append, ih, notices, List.map_map]
    exact congrArg (· ++ _) (List.map_id _)

/-- What is so of the number of handles at every time is so of every telling. -/
theorem forall_tellings {p : Nat → Prop}
    (hall : Throughout c (fun _ now => p (now.handleCount v k)) ops ws) :
    ∀ told ∈ tellings c v k ops ws, p told.2 := by
  induction ops generalizing ws with
  | nil => exact fun told htold => by cases htold
  | cons op rest ih =>
    intro told htold
    rcases List.mem_append.mp htold with hfirst | hrest
    · obtain ⟨notice, -, rfl⟩ := List.mem_map.mp hfirst
      exact hall.1
    · exact ih hall.2 told hrest

omit [Scalar α] in
/-- By a single handle, each of the news is heard once. -/
theorem heard_of_single {told : List (BoundNotice α × Nat)} (hsingle : ∀ p ∈ told, p.2 = 1) :
    heard told = (told.map Prod.fst).map BoundNotice.change := by
  induction told with
  | nil => rfl
  | cons first rest ih =>
    obtain ⟨hfirst, hrest⟩ := List.forall_mem_cons.mp hsingle
    have htail := ih hrest
    rw [heard] at htail ⊢
    rw [List.flatMap_cons, htail, hfirst]
    rfl

/-- What an observer hears of the bounds along a run. -/
theorem FreezeSound.boundsHeard_run (h : FreezeSound v ws) (hc : c.Spares v)
    (hlog : c.LogsOf v log) (hrun : Throughout c (Orderly c v) ops ws)
    (hattends : Throughout c (Attends c v k) ops ws) :
    boundsHeard k (log (ws.run c (ops.map .operate)).memory)
      = boundsHeard k (log ws.memory) ++ heard (tellings c v k ops ws) := by
  induction ops generalizing ws with
  | nil => exact (List.append_nil _).symm
  | cons op rest ih =>
    have hfirst := h.boundsHeard_perform hlog hrun.1 hattends.1
    have hrest := ih (h.perform hc hrun.1) hrun.2 hattends.2
    rw [tellings, heard, List.flatMap_append, List.flatMap_map, ← List.append_assoc, ← hfirst]
    exact hrest

/-- Along any run of freezes, releases, settings and assignments of a variable
that starts free, where no listener refuses or is in use, observers leave this
variable alone and the count does not overflow:

A freeze of a variable that was never assigned fails and changes nothing. Every
other freeze adds one to the count and every release takes one from it, if there
is one; a freeze answers `true` exactly from a count of zero, a release exactly
from a count of one, and nothing else changes the count. At every time the
variable is not frozen zero times, and assigned if it is frozen.

The news of its bounds are `notices`: a pin to the value for each freeze from
zero, the own bounds as they then are for each release from one, and single
bounds as they are set; and these alternate, with no single bounds while the
variable is pinned.

An observer that is attached throughout hears of the bounds exactly these news,
in this order: each of them once where it has one handle, and where it has
several once by each. -/
theorem freeze_protocol (hc : c.Spares v) (hfree : (ws.variableAt v).freeze = .unfrozen)
    (hrun : Throughout c (Orderly c v) ops ws) :
    (∀ before op after, ops = before ++ op :: after →
      CountedStep c v op (ws.run c (before.map .operate)))
    ∧ (∀ before after, ops = before ++ after →
      ((ws.run c (before.map .operate)).variableAt v).freeze ≠ .frozen 0
      ∧ (((ws.run c (before.map .operate)).variableAt v).freeze.isFrozen = true →
        ((ws.run c (before.map .operate)).variableAt v).assigned ≠ none))
    ∧ Alternates false (notices c v ops ws)
      ((ws.run c (ops.map .operate)).variableAt v).freeze.isFrozen
    ∧ ∀ k log, c.LogsOf v log → Throughout c (Attends c v k) ops ws →
      boundsHeard k (log (ws.run c (ops.map .operate)).memory)
          = boundsHeard k (log ws.memory) ++ heard (tellings c v k ops ws)
        ∧ (tellings c v k ops ws).map Prod.fst = notices c v ops ws
        ∧ (∀ told ∈ tellings c v k ops ws, 0 < told.2)
        ∧ (Throughout c (fun _ now => now.handleCount v k = 1) ops ws →
          heard (tellings c v k ops ws) = (notices c v ops ws).map BoundNotice.change) := by
  have hstart : FreezeSound v ws := by
    refine ⟨?_, fun hfrozen => ?_⟩
    · rw [hfree]
      exact Freeze.noConfusion
    · rw [hfree] at hfrozen
      cases hfrozen
  have hsound : ∀ before after, ops = before ++ after →
      FreezeSound v (ws.run c (before.map .operate))
        ∧ Throughout c (Orderly c v) after (ws.run c (before.map .operate)) := by
    rintro before after rfl
    obtain ⟨hbefore, hafter⟩ := throughout_append.mp hrun
    exact ⟨hbefore.invariant (fun horderly h => h.perform hc horderly) hstart, hafter⟩
  refine ⟨fun before op after hsplit => ?_, fun before after hsplit => ?_, ?_,
    fun k log hlog hattends => ?_⟩
  · obtain ⟨hbefore, hnext⟩ := hsound before (op :: after) hsplit
    exact hbefore.countedStep hc hnext.1
  · obtain ⟨hbefore, -⟩ := hsound before after hsplit
    exact ⟨hbefore.occurs, hbefore.assigned⟩
  · have halternates := hstart.alternates_run hc hrun
    rw [hfree] at halternates
    exact halternates
  · have hnews := map_fst_tellings c v k ops ws
    refine ⟨hstart.boundsHeard_run hc hlog hrun hattends, hnews,
      forall_tellings (hattends.imp fun h => h.attached), fun hsingle => ?_⟩
    have hone : ∀ told ∈ tellings c v k ops ws, told.2 = 1 :=
      forall_tellings (p := fun count => count = 1) hsingle
    rw [heard_of_single hone, hnews]

end Workspace

/-! ## Observers that note everything -/

/-- Observers keep a log and accept. In the meantime they give a second variable
a value. -/
def loggingConduct : Conduct Exact (List (ListenerRef × VariableRef × Change Exact)) where
  receive l v change ws :=
    ({ ws with memory := ws.memory ++ [(l, v, change)] }.assign ⟨1⟩ ⟨⟨0, 0⟩, 1, 0⟩, .ok ())
  answer _ _ ws := (ws, .ok (.ofStatus .infeasible ""))

theorem spares_loggingConduct : loggingConduct.Spares ⟨0⟩ := by
  intro l change ws
  have hassigned : ∀ ws : Workspace Exact (List (ListenerRef × VariableRef × Change Exact)),
      (ws.assign ⟨1⟩ ⟨⟨0, 0⟩, 1, 0⟩).bareAt ⟨0⟩ = ws.bareAt ⟨0⟩ := fun ws =>
    congrArg Variable.bare ((Workspace.variableAt_assign ..).trans (if_neg fun h => by cases h.1))
  exact hassigned { ws with memory := ws.memory ++ [(l, ⟨0⟩, change)] }

/-- What the log has of the first variable. -/
def loggedOfFirst (entries : List (ListenerRef × VariableRef × Change Exact)) :
    List (ListenerRef × Change Exact) :=
  (entries.filter fun entry => entry.2.1 = ⟨0⟩).map fun entry => (entry.1, entry.2.2)

theorem logsOf_loggingConduct : loggingConduct.LogsOf ⟨0⟩ loggedOfFirst := by
  intro l change ws
  change loggedOfFirst (ws.memory ++ [(l, ⟨0⟩, change)]) = _
  simp [loggedOfFirst]

/-- Two variables and three observers: the first observer is attached to the
first variable by two handles, the second by one. -/
def loggedStart : Workspace Exact (List (ListenerRef × VariableRef × Change Exact)) :=
  .run loggingConduct [.newVariable ⟨"x", 0, .finite 10, .continuous⟩,
    .newVariable ⟨"y", 0, 1, .continuous⟩, .newObserver, .newObserver, .newObserver,
    .operate (.attach ⟨0⟩ ⟨0, ⟨0⟩⟩), .operate (.attach ⟨0⟩ ⟨1, ⟨1⟩⟩),
    .operate (.attach ⟨0⟩ ⟨2, ⟨0⟩⟩)] { memory := [] }

/-- A freeze too early, a bound, two freezes one in the other with a bound, a
name and a value set within, one release too many, and a freeze at the end. -/
def nestedFreezes : List (Operation Exact) :=
  [.freeze ⟨0⟩, .setBound .upper ⟨0⟩ (.finite 9), .assign ⟨0⟩ ⟨⟨0, 0⟩, .finite 3, 0⟩, .freeze ⟨0⟩,
    .freeze ⟨0⟩, .setBound .upper ⟨0⟩ (.finite 8), .setName ⟨0⟩ "z",
    .assign ⟨0⟩ ⟨⟨0, 0⟩, .finite 4, 0⟩, .unfreeze ⟨0⟩, .unfreeze ⟨0⟩, .unfreeze ⟨0⟩, .freeze ⟨0⟩]

namespace Workspace

/-- What the observers hear of the bounds, and what the news are. -/
theorem heard_nestedFreezes :
    boundsHeard ⟨1⟩ (loggedOfFirst (loggedStart.run loggingConduct
          (nestedFreezes.map .operate)).memory)
        = [.bound .upper (.finite 9), .bounds (.finite 3) (.finite 3), .bounds 0 (.finite 8),
          .bounds (.finite 4) (.finite 4)]
      ∧ boundsHeard ⟨0⟩ (loggedOfFirst (loggedStart.run loggingConduct
          (nestedFreezes.map .operate)).memory)
        = [.bound .upper (.finite 9), .bound .upper (.finite 9),
          .bounds (.finite 3) (.finite 3), .bounds (.finite 3) (.finite 3),
          .bounds 0 (.finite 8), .bounds 0 (.finite 8),
          .bounds (.finite 4) (.finite 4), .bounds (.finite 4) (.finite 4)]
      ∧ Alternates false [.bound .upper (.finite 9), .pin (.finite 3), .restore 0 (.finite 8),
          .pin (Exact.finite 4)]
        ((loggedStart.run loggingConduct (nestedFreezes.map .operate)).variableAt
          ⟨0⟩).freeze.isFrozen := by
  have hfree : (loggedStart.variableAt ⟨0⟩).freeze = .unfrozen := by decide +kernel
  have hrun : Throughout loggingConduct (Orderly loggingConduct ⟨0⟩) nestedFreezes
      loggedStart := by
    decide +kernel
  have hfirst : Throughout loggingConduct (Attends loggingConduct ⟨0⟩ ⟨0⟩) nestedFreezes
      loggedStart := by
    decide +kernel
  have hsecond : Throughout loggingConduct (Attends loggingConduct ⟨0⟩ ⟨1⟩) nestedFreezes
      loggedStart := by
    decide +kernel
  have hsingle : Throughout loggingConduct (fun _ now => now.handleCount ⟨0⟩ ⟨1⟩ = 1)
      nestedFreezes loggedStart := by
    decide +kernel
  have hnotices : notices loggingConduct ⟨0⟩ nestedFreezes loggedStart
      = [.bound .upper (.finite 9), .pin (.finite 3), .restore 0 (.finite 8),
        .pin (.finite 4)] := by
    decide +kernel
  have htellings : tellings loggingConduct ⟨0⟩ ⟨0⟩ nestedFreezes loggedStart
      = [(.bound .upper (.finite 9), 2), (.pin (.finite 3), 2), (.restore 0 (.finite 8), 2),
        (.pin (.finite 4), 2)] := by
    decide +kernel
  obtain ⟨-, -, halternates, hheard⟩ := freeze_protocol spares_loggingConduct hfree hrun
  obtain ⟨hdouble, -⟩ := hheard ⟨0⟩ loggedOfFirst logsOf_loggingConduct hfirst
  obtain ⟨honce, -, -, heach⟩ := hheard ⟨1⟩ loggedOfFirst logsOf_loggingConduct hsecond
  rw [heach hsingle, hnotices] at honce
  rw [htellings] at hdouble
  rw [hnotices] at halternates
  exact ⟨honce, hdouble, halternates⟩

end Workspace

end Milp
