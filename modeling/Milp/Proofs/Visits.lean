/-
Milp.Proofs.Visits — the handles that telling gets to.

Telling the listeners of a variable goes through the handles that are attached
when it starts. `Workspace.visits` lists those it gets to, each with the
workspace as it is at that turn; what the listener makes of it is its
`Reception` (`VisitCase` has the cases). Telling gets through all handles
(`visits_of_ok`), or the last of its visits is the one that fails
(`visits_of_error`). This holds whatever observers do when they are called.

The seat of a listener is what telling reads of it, besides the variables a
solver has: whether it is an observer, alive, and in use.
-/
import Milp.Proofs.Clients

namespace Milp

variable {α μ : Type}

/-! ## Seats -/

/-- Whether a listener is an observer, and what keeps it alive and busy. -/
def Listener.seat (a : Listener α) : Bool × Bool × Nat := (a.solver?.isNone, a.owned, a.uses)

theorem Listener.seat_mapSolver (f : Solver α → Solver α) (a : Listener α) :
    (a.mapSolver f).seat = a.seat := by
  obtain ⟨role, owned, uses⟩ := a
  cases role <;> rfl

namespace Workspace

variable {ws ws' : Workspace α μ} {l k : ListenerRef}

/-- The listeners are solvers and observers as before, as alive and as busy. -/
def SameSeats (ws ws' : Workspace α μ) : Prop :=
  ∀ k, (ws'.listener? k).map Listener.seat = (ws.listener? k).map Listener.seat

theorem SameSeats.refl (ws : Workspace α μ) : SameSeats ws ws := fun _ => rfl

theorem SameSeats.trans {ws₁ ws₂ ws₃ : Workspace α μ} (h : SameSeats ws₁ ws₂)
    (h' : SameSeats ws₂ ws₃) : SameSeats ws₁ ws₃ :=
  fun k => (h' k).trans (h k)

theorem SameListeners.sameSeats (h : SameListeners ws ws') : SameSeats ws ws' :=
  fun k => by rw [h.listener?]

/-- What is read off the seat of a listener is as before. -/
theorem SameSeats.any (h : SameSeats ws ws') (k : ListenerRef) {p : Listener α → Bool}
    {q : Bool × Bool × Nat → Bool} (hp : ∀ a, p a = q a.seat) :
    (ws'.listener? k).any p = (ws.listener? k).any p := by
  have hread : ∀ ws : Workspace α μ,
      (ws.listener? k).any p = ((ws.listener? k).map Listener.seat).any q := by
    intro ws
    rw [Option.any_map]
    exact congrArg (Option.any · (ws.listener? k)) (funext hp)
  rw [hread, hread, h]

theorem SameSeats.isAlive (h : SameSeats ws ws') (k : Handle) : ws'.isAlive k = ws.isAlive k :=
  h.any k.listener (q := fun seat => seat.2.1 || 0 < seat.2.2) fun _ => rfl

theorem SameSeats.isBusy (h : SameSeats ws ws') (k : ListenerRef) :
    (ws'.listener? k).any Listener.isBusy = (ws.listener? k).any Listener.isBusy :=
  h.any k (q := fun seat => 0 < seat.2.2) fun _ => rfl

/-- The end of a use takes back its beginning. -/
theorem SameSeats.release (h : SameSeats (ws.hold l) ws') : SameSeats ws (ws'.release l) := by
  intro k
  rw [Workspace.release, (sameListeners_retireIfDead _ l).listener?]
  have hk := h k
  by_cases hkl : k = l
  · subst hkl
    rw [hold, listener?_updateListener_self] at hk
    rw [listener?_updateListener_self]
    cases ha : ws.listener? k with
    | none =>
      rw [ha] at hk
      rw [Option.map_eq_none_iff.mp hk]
      rfl
    | some a =>
      rw [ha] at hk
      obtain ⟨b, hb, hseat⟩ := Option.map_eq_some_iff.mp hk
      obtain ⟨hrole, hstanding⟩ := Prod.mk.inj hseat
      obtain ⟨howned, huses⟩ := Prod.mk.inj hstanding
      rw [hb]
      refine congrArg some (Prod.ext hrole (Prod.ext howned ?_))
      exact Nat.sub_eq_of_eq_add huses
  · rw [hold, listener?_updateListener_of_ne hkl] at hk
    rw [listener?_updateListener_of_ne hkl, hk]

end Workspace

/-! ## Visits -/

/-- What a listener makes of being told. -/
inductive Reception (α : Type) where
  /-- It is dead. -/
  | gone
  | heard
  /-- It is in use, and is not told. -/
  | inUse
  | refused (e : ModelError α)
  deriving DecidableEq

namespace Reception

/-- What telling the listener of an identity answers. -/
def answer (id : SolverId) : Reception α → Except (ModelError α) Bool
  | .gone => .ok false
  | .heard => .ok true
  | .inUse => .error (.busy id)
  | .refused e => .error e

/-- Whether the listener has accepted the change. -/
def isHeard : Reception α → Bool
  | .heard => true
  | _ => false

/-- Whether the handles behind it are told as well. -/
def passes : Reception α → Bool
  | .gone | .heard => true
  | .inUse | .refused _ => false

end Reception

/-- A handle that is told, or would be if its listener could. -/
structure Visit (α μ : Type) where
  handle : Handle
  /-- The workspace at its turn. -/
  found : Workspace α μ

namespace Visit

/-- Telling calls the listener: an observer that is alive and not in use. -/
def calls (t : Visit α μ) : Bool :=
  (t.found.listener? t.handle.listener).any fun a => a.isAlive && !a.isBusy && a.solver?.isNone

/-- What an observer that is called leaves and answers. -/
def call (c : Conduct α μ) (v : VariableRef) (change : Change α) (t : Visit α μ) :
    Outcome α μ Unit :=
  c.receive t.handle.listener v change (t.found.hold t.handle.listener)

/-- What the listener makes of a change of a variable. -/
def reception (c : Conduct α μ) (v : VariableRef) (change : Change α) (t : Visit α μ) :
    Reception α :=
  match t.found.listener? t.handle.listener with
  | none => .gone
  | some a =>
    if !a.isAlive then .gone
    else if a.isBusy then .inUse
    else match a.role with
      | .solver _ => .heard
      | .observer _ =>
        match (t.call c v change).2 with
        | .ok _ => .heard
        | .error e => .refused e

end Visit

variable [Scalar α] {c : Conduct α μ} {v : VariableRef} {change : Change α}

namespace Workspace

/-- The visits of telling the listeners behind the handles one after the other. -/
def visits (c : Conduct α μ) (action : Action) (v : VariableRef) (change : Change α) :
    List Handle → Workspace α μ → List (Visit α μ)
  | [], _ => []
  | h :: rest, ws =>
    ⟨h, ws⟩ :: match notify c h v change ws with
      | (_, .error _) => []
      | (ws, .ok true) =>
        visits c action v change rest (ws.emit (.notified action (ws.nameOf v) h.id))
      | (ws, .ok false) => visits c action v change rest ws

section

variable {ws ws₁ : Workspace α μ} {action : Action} {h : Handle} {rest : List Handle}

theorem visits_cons_of_error {e : ModelError α}
    (hnotify : notify c h v change ws = (ws₁, .error e)) :
    visits c action v change (h :: rest) ws = [⟨h, ws⟩] := by
  rw [visits, hnotify]

theorem visits_cons_of_told (hnotify : notify c h v change ws = (ws₁, .ok true)) :
    visits c action v change (h :: rest) ws = ⟨h, ws⟩ ::
      visits c action v change rest (ws₁.emit (.notified action (ws₁.nameOf v) h.id)) := by
  rw [visits, hnotify]

theorem visits_cons_of_gone (hnotify : notify c h v change ws = (ws₁, .ok false)) :
    visits c action v change (h :: rest) ws = ⟨h, ws⟩ :: visits c action v change rest ws₁ := by
  rw [visits, hnotify]

end

end Workspace

open Workspace

/-- The visits one by one: whether the listener is called, what it makes of the
change, and what it leaves. -/
inductive VisitCase (c : Conduct α μ) (v : VariableRef) (change : Change α) (t : Visit α μ) :
    Bool → Reception α → Workspace α μ → Prop where
  | gone (hdead : t.found.isAlive t.handle = false) : VisitCase c v change t false .gone t.found
  | inUse {a : Listener α} (ha : t.found.listener? t.handle.listener = some a)
    (halive : a.isAlive = true) (hbusy : a.isBusy = true) :
    VisitCase c v change t false .inUse t.found
  | solver {a : Listener α} {s : Solver α} (ha : t.found.listener? t.handle.listener = some a)
    (halive : a.isAlive = true) (hidle : a.isBusy = false) (hrole : a.role = .solver s) :
    VisitCase c v change t false .heard (t.found.tellSolver t.handle.listener v change)
  | observer {a : Listener α} {id : SolverId} (ha : t.found.listener? t.handle.listener = some a)
    (halive : a.isAlive = true) (hidle : a.isBusy = false) (hrole : a.role = .observer id)
    (hanswer : (t.call c v change).2 = .ok ()) :
    VisitCase c v change t true .heard ((t.call c v change).1.release t.handle.listener)
  | refused {a : Listener α} {id : SolverId} {e : ModelError α}
    (ha : t.found.listener? t.handle.listener = some a)
    (halive : a.isAlive = true) (hidle : a.isBusy = false) (hrole : a.role = .observer id)
    (hanswer : (t.call c v change).2 = .error e) :
    VisitCase c v change t true (.refused e) ((t.call c v change).1.release t.handle.listener)

/-- Telling the handle of a visit is one of the cases. -/
theorem Visit.exists_case (c : Conduct α μ) (v : VariableRef) (change : Change α)
    (t : Visit α μ) : ∃ calls reception left, VisitCase c v change t calls reception left
      ∧ t.calls = calls ∧ t.reception c v change = reception
      ∧ notify c t.handle v change t.found = (left, reception.answer t.handle.id) := by
  cases ha : t.found.listener? t.handle.listener with
  | none =>
    have hdead : t.found.isAlive t.handle = false := by
      rw [isAlive, ha]
      rfl
    refine ⟨_, _, _, .gone hdead, ?_, ?_, ?_⟩
    · rw [calls, ha, Option.any_none]
    · rw [reception, ha]
    · rw [notify, ha]
      rfl
  | some a =>
    have hcalls : t.calls = (a.isAlive && !a.isBusy && a.solver?.isNone) := by
      rw [calls, ha, Option.any_some]
    rw [hcalls]
    cases halive : a.isAlive with
    | false =>
      refine ⟨_, _, _, .gone ((isAlive_of_listener? ha).trans halive), rfl, ?_, ?_⟩
      · simp only [reception, ha, halive, Bool.not_false, if_true]
      · simp only [notify, ha, halive, Bool.not_false, if_true]
        rfl
    | true =>
      cases hbusy : a.isBusy with
      | true =>
        refine ⟨_, _, _, .inUse ha halive hbusy, rfl, ?_, ?_⟩
        · simp only [reception, ha, halive, hbusy]
          rfl
        · simp only [notify, ha, halive, hbusy]
          rfl
      | false =>
        cases hrole : a.role with
        | solver s =>
          refine ⟨_, _, _, .solver ha halive hbusy hrole, ?_, ?_, ?_⟩
          · simp only [Listener.solver?, hrole]
            rfl
          · simp only [reception, ha, halive, hbusy, hrole]
            rfl
          · simp only [notify, ha, halive, hbusy, hrole]
            rfl
        | observer id =>
          have hcalled : (true && !false && a.solver?.isNone) = true := by
            rw [Listener.solver?, hrole]
            rfl
          have hnotify : notify c t.handle v change t.found
              = ((t.call c v change).1.release t.handle.listener,
                (t.call c v change).2.map fun _ => true) := by
            simp only [notify, ha, halive, hbusy, hrole]
            rfl
          rw [hnotify]
          cases hanswer : (t.call c v change).2 with
          | ok u =>
            refine ⟨_, _, _, .observer ha halive hbusy hrole hanswer, hcalled, ?_, rfl⟩
            simp only [reception, ha, halive, hbusy, hrole, hanswer]
            rfl
          | error e =>
            refine ⟨_, _, _, .refused ha halive hbusy hrole hanswer, hcalled, ?_, rfl⟩
            simp only [reception, ha, halive, hbusy, hrole, hanswer]
            rfl

theorem Visit.snd_notify (c : Conduct α μ) (v : VariableRef) (change : Change α)
    (t : Visit α μ) : (notify c t.handle v change t.found).2
      = (t.reception c v change).answer t.handle.id := by
  obtain ⟨_, _, _, -, -, hreception, hnotify⟩ := Visit.exists_case c v change t
  rw [hnotify, hreception]

/-- A listener that lets telling go on is told if it is alive. -/
theorem Visit.passes_of_ok {t : Visit α μ} {told : Bool}
    (h : (notify c t.handle v change t.found).2 = .ok told) :
    (t.reception c v change).passes = true ∧ t.found.isAlive t.handle = told := by
  obtain ⟨calls, reception, left, hcase, -, hreception, hnotify⟩ :=
    Visit.exists_case c v change t
  rw [hnotify] at h
  rw [hreception]
  cases hcase with
  | gone hdead =>
    cases h
    exact ⟨rfl, hdead⟩
  | inUse ha halive hbusy => cases h
  | solver ha halive hidle hrole =>
    cases h
    exact ⟨rfl, (isAlive_of_listener? ha).trans halive⟩
  | observer ha halive hidle hrole hanswer =>
    cases h
    exact ⟨rfl, (isAlive_of_listener? ha).trans halive⟩
  | refused ha halive hidle hrole hanswer => cases h

namespace Workspace

variable {ws ws' : Workspace α μ} {action : Action} {hs : List Handle}

/-- Where telling gets through, every handle is visited, and the identities of
those found dead are answered. -/
theorem visits_of_ok {dead : List SolverId}
    (hok : deliver c action v change hs ws = (ws', .ok dead)) :
    (∀ t ∈ visits c action v change hs ws, (t.reception c v change).passes = true)
      ∧ (visits c action v change hs ws).map Visit.handle = hs
      ∧ dead = ((visits c action v change hs ws).filter
        fun t => !t.found.isAlive t.handle).map (·.handle.id) := by
  induction hs generalizing ws ws' dead with
  | nil =>
    cases hok
    exact ⟨fun t ht => (by cases ht), rfl, rfl⟩
  | cons h rest ih =>
    unfold deliver at hok
    split at hok
    · cases (Prod.mk.inj hok).2
    · next ws₁ hnotify =>
      obtain ⟨hpasses, halive⟩ :=
        Visit.passes_of_ok (t := ⟨h, ws⟩) (congrArg Prod.snd hnotify)
      obtain ⟨hrest, hhandles, hdead⟩ := ih hok
      rw [visits_cons_of_told hnotify]
      refine ⟨List.forall_mem_cons.mpr ⟨hpasses, hrest⟩, ?_, ?_⟩
      · rw [List.map_cons, hhandles]
      · rw [List.filter_cons_of_neg (by simpa using halive)]
        exact hdead
    · next ws₁ hnotify =>
      obtain ⟨hpasses, halive⟩ :=
        Visit.passes_of_ok (t := ⟨h, ws⟩) (congrArg Prod.snd hnotify)
      rw [visits_cons_of_gone hnotify]
      split at hok
      · cases (Prod.mk.inj hok).2
      · next ws₂ dead₂ hdeliver =>
        obtain ⟨hrest, hhandles, hdead⟩ := ih hdeliver
        obtain ⟨-, hids⟩ := Prod.mk.inj hok
        obtain rfl := Except.ok.inj hids
        refine ⟨List.forall_mem_cons.mpr ⟨hpasses, hrest⟩, ?_, ?_⟩
        · rw [List.map_cons, hhandles]
        · rw [List.filter_cons_of_pos (by simpa using halive), List.map_cons, hdead]

/-- Where telling fails, it fails at the last of the visits. -/
theorem visits_of_error {e : ModelError α}
    (herror : deliver c action v change hs ws = (ws', .error e)) : ∃ before last rest,
      visits c action v change hs ws = before ++ [last]
      ∧ hs = before.map Visit.handle ++ last.handle :: rest
      ∧ (∀ t ∈ before, (t.reception c v change).passes = true)
      ∧ (last.reception c v change).answer last.handle.id = .error e
      ∧ ws' = (notify c last.handle v change last.found).1 := by
  induction hs generalizing ws with
  | nil => cases (Prod.mk.inj herror).2
  | cons h rest ih =>
    unfold deliver at herror
    split at herror
    · next ws₁ e₁ hnotify =>
      obtain ⟨rfl, he⟩ := Prod.mk.inj herror
      obtain rfl := Except.error.inj he
      have hanswer := Visit.snd_notify c v change ⟨h, ws⟩
      rw [hnotify] at hanswer
      rw [visits_cons_of_error hnotify]
      exact ⟨[], ⟨h, ws⟩, rest, rfl, rfl, fun t ht => (by cases ht), hanswer.symm,
        (congrArg Prod.fst hnotify).symm⟩
    · next ws₁ hnotify =>
      obtain ⟨hpasses, -⟩ := Visit.passes_of_ok (t := ⟨h, ws⟩) (congrArg Prod.snd hnotify)
      obtain ⟨before, last, after, hvisits, rfl, hbefore, hlast⟩ := ih herror
      rw [visits_cons_of_told hnotify, hvisits]
      exact ⟨⟨h, ws⟩ :: before, last, after, rfl, rfl,
        List.forall_mem_cons.mpr ⟨hpasses, hbefore⟩, hlast⟩
    · next ws₁ hnotify =>
      obtain ⟨hpasses, -⟩ := Visit.passes_of_ok (t := ⟨h, ws⟩) (congrArg Prod.snd hnotify)
      rw [visits_cons_of_gone hnotify]
      split at herror
      · next ws₂ e₂ hdeliver =>
        obtain ⟨rfl, he⟩ := Prod.mk.inj herror
        obtain rfl := Except.error.inj he
        obtain ⟨before, last, after, hvisits, rfl, hbefore, hlast⟩ := ih hdeliver
        rw [hvisits]
        exact ⟨⟨h, ws⟩ :: before, last, after, rfl, rfl,
          List.forall_mem_cons.mpr ⟨hpasses, hbefore⟩, hlast⟩
      · cases (Prod.mk.inj herror).2

/-- What every step of telling leaves related is related at every visit. -/
theorem visits_related {R : Workspace α μ → Workspace α μ → Prop} (hrefl : ∀ ws, R ws ws)
    (htrans : ∀ {ws₁ ws₂ ws₃}, R ws₁ ws₂ → R ws₂ ws₃ → R ws₁ ws₃)
    (hemit : ∀ ws event, R ws (ws.emit event))
    (hnotify : ∀ h ws, R ws (notify c h v change ws).1) {t : Visit α μ}
    (ht : t ∈ visits c action v change hs ws) : R ws t.found := by
  induction hs generalizing ws with
  | nil => cases ht
  | cons h rest ih =>
    have hfirst := hnotify h ws
    unfold visits at ht
    rcases List.mem_cons.mp ht with rfl | ht
    · exact hrefl ws
    · split at ht
      · cases ht
      · next ws₁ hnotified =>
        rw [hnotified] at hfirst
        exact htrans (htrans hfirst (hemit ws₁ _)) (ih ht)
      · next ws₁ hnotified =>
        rw [hnotified] at hfirst
        exact htrans hfirst (ih ht)

end Workspace

/-! ## Telling changes no seats -/

namespace Workspace

theorem sameSeats_tellSolver (ws : Workspace α μ) (l : ListenerRef) (v : VariableRef)
    (change : Change α) : SameSeats ws (ws.tellSolver l v change) := by
  intro k
  unfold tellSolver
  split
  · rfl
  · split
    · rw [listener?_updateSolver]
      split
      · rw [Option.map_map]
        exact Option.map_congr fun a _ => Listener.seat_mapSolver _ a
      · rfl
    · rfl

theorem sameSeats_notify (hc : ∀ l v change (ws : Workspace α μ),
    SameSeats ws (c.receive l v change ws).1) (h : Handle) (ws : Workspace α μ) :
    SameSeats ws (notify c h v change ws).1 := by
  obtain ⟨_, _, left, hcase, -, -, hnotify⟩ := Visit.exists_case c v change ⟨h, ws⟩
  rw [hnotify]
  cases hcase with
  | gone hdead => exact .refl ws
  | inUse ha halive hbusy => exact .refl ws
  | solver ha halive hidle hrole => exact sameSeats_tellSolver ws h.listener v change
  | observer ha halive hidle hrole hanswer => exact (hc h.listener v change _).release
  | refused ha halive hidle hrole hanswer => exact (hc h.listener v change _).release

end Workspace

end Milp
