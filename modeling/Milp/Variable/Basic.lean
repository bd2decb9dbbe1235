/-
Milp.Variable.Basic — decision variables.

A variable has a name, bounds and a kind; a freeze state; the level that
the solver that assigned it last gave it; and handles to the listeners that
hear of its changes, in the order they were attached.

`Variable.effectiveBounds` are the bounds a solver should use: those of the
variable, or its value twice while it is frozen.
-/
import Milp.Error
import Milp.Variable.Freeze

namespace Milp

/-- A listener of a workspace: a solver or an observer. -/
structure ListenerRef where
  index : Nat
  deriving DecidableEq, Repr

/-- A reference to a listener that does not keep it alive, with the identity
under which the listener is attached. -/
structure Handle where
  id : SolverId
  listener : ListenerRef
  deriving DecidableEq, Repr

/-- The full description of a handle. -/
def Handle.debugText (h : Handle) (isAlive : Bool) : String :=
  "SolverHandle \x7b id: SolverId(" ++ toString h.id ++ "), alive: " ++ toString isAlive ++ " \x7d"

/-- What a solver says of a variable. -/
structure Level (α : Type) where
  placement : Placement
  value : α
  reducedCost : α
  deriving DecidableEq, Repr

/-- A decision variable. -/
structure Variable (α : Type) extends Entity (Level α) where
  lower : α
  upper : α
  kind : VariableKind
  freeze : Freeze := .unfrozen
  handles : List Handle := []
  deriving Repr

/-- What a new variable is made from. -/
structure VariableSpec (α : Type) where
  /-- Empty for the default name. -/
  name : String
  lower : α
  upper : α
  kind : VariableKind
  deriving Repr

namespace VariableSpec

variable {α : Type} [Scalar α]

/-- A variable that may take every nonnegative value. -/
def nonnegative [Unbounded α] (name : String) (kind : VariableKind) : VariableSpec α :=
  ⟨name, 0, Unbounded.infinity, kind⟩

/-- A variable that is `0` or `1`. -/
def binary (name : String) : VariableSpec α := ⟨name, 0, 1, .integer⟩

end VariableSpec

namespace Variable

variable {α : Type}

/-- A new variable: not frozen, not assigned and attached to nothing. -/
def ofSpec (id : VariableId) (spec : VariableSpec α) : Variable α where
  id := id
  name := .ofGiven spec.name id
  lower := spec.lower
  upper := spec.upper
  kind := spec.kind

/-- The nameless variable that is fixed at zero. -/
def blank [Scalar α] : Variable α where
  id := 0
  name := .given ""
  lower := 0
  upper := 0
  kind := .continuous

/-- Whether the variable takes whole values only. -/
def isInteger (x : Variable α) : Bool := x.kind == .integer

/-- One of the two bounds. -/
def bound (x : Variable α) : Side → α
  | .lower => x.lower
  | .upper => x.upper

/-- The variable with one bound replaced. -/
def withBound (x : Variable α) : Side → α → Variable α
  | .lower, b => { x with lower := b }
  | .upper, b => { x with upper := b }

@[simp] theorem freeze_withBound (x : Variable α) (side : Side) (b : α) :
    (x.withBound side b).freeze = x.freeze := by
  cases side <;> rfl

@[simp] theorem assigned_withBound (x : Variable α) (side : Side) (b : α) :
    (x.withBound side b).assigned = x.assigned := by
  cases side <;> rfl

@[simp] theorem handles_withBound (x : Variable α) (side : Side) (b : α) :
    (x.withBound side b).handles = x.handles := by
  cases side <;> rfl

/-! ## Level -/

/-- What the last solver said, if there was one. -/
def level? (x : Variable α) : Except (ModelError α) (Level α) :=
  match x.assigned with
  | some level => .ok level
  | none => .error (.unassigned x.name.text)

/-- The value of the variable. -/
def value (x : Variable α) : Except (ModelError α) α := x.level?.map Level.value

theorem exists_level_of_value {x : Variable α} {p : α} (h : x.value = .ok p) :
    ∃ level, x.assigned = some level ∧ level.value = p := by
  unfold value level? at h
  split at h
  · next level hlevel => exact ⟨level, hlevel, Except.ok.inj h⟩
  · cases h

/-- The reduced cost of the variable. -/
def reducedCost (x : Variable α) : Except (ModelError α) α := x.level?.map Level.reducedCost

/-- The bounds a solver should use. -/
def effectiveBounds (x : Variable α) : α × α :=
  match x.freeze.isFrozen, x.assigned with
  | true, some level => (level.value, level.value)
  | _, _ => (x.lower, x.upper)

/-- Whether the variable has a value, within its bounds and whole where it
must be. -/
def isFeasible [Scalar α] (x : Variable α) : Bool :=
  match x.assigned with
  | none => false
  | some level =>
    Scalar.isBetween level.value x.lower x.upper
      && (!x.isInteger || Scalar.isIntegral level.value)

/-! ## Handles -/

/-- Whether a listener is attached under the identity. -/
def isAttached (x : Variable α) (id : SolverId) : Bool := x.handles.any (·.id == id)

/-- The variable with a handle more, at the end; an identity that is
attached already keeps its place. -/
def attach (x : Variable α) (h : Handle) : Variable α :=
  if x.isAttached h.id then x else { x with handles := x.handles ++ [h] }

/-- The variable without the handles of the given identities. -/
def detach (x : Variable α) (ids : List SolverId) : Variable α :=
  { x with handles := x.handles.filter fun h => !ids.contains h.id }

@[simp] theorem isAttached_attach (x : Variable α) (h : Handle) (id : SolverId) :
    (x.attach h).isAttached id = (x.isAttached id || h.id == id) := by
  unfold attach
  split
  · next attached =>
    -- the identity of `h` is attached already, so asking for it changes nothing
    by_cases same : h.id = id
    · simp [← same, attached]
    · simp [same]
  · simp [isAttached]

@[simp] theorem isAttached_detach (x : Variable α) (ids : List SolverId) (id : SolverId) :
    (x.detach ids).isAttached id = (x.isAttached id && !ids.contains id) := by
  simp only [isAttached, detach, List.any_filter]
  induction x.handles with
  | nil => rfl
  | cons h rest ih =>
    by_cases same : h.id = id
    · simp_all
    · simp_all [beq_false_of_ne same]

theorem effectiveBounds_of_not_frozen {x : Variable α} (h : x.freeze.isFrozen = false) :
    x.effectiveBounds = (x.lower, x.upper) := by
  simp [effectiveBounds, h]

theorem effectiveBounds_of_frozen {x : Variable α} {level : Level α}
    (frozen : x.freeze.isFrozen = true) (assigned : x.assigned = some level) :
    x.effectiveBounds = (level.value, level.value) := by
  simp [effectiveBounds, frozen, assigned]

/-! ## Text -/

/-- `name : kind : [lower, upper]`. -/
def text (number : α → String) (x : Variable α) : String :=
  s!"{x.name.text} : {x.kind.text} : [{number x.lower}, {number x.upper}]"

/-- The text of the variable with its level. -/
def levelText (number : α → String) (x : Variable α) : String :=
  match x.assigned with
  | some level =>
    s!"{x.text number} = {number level.value}   ( {number level.reducedCost} )"
  | none => x.text number ++ " = unassigned   ( unassigned )"

/-- The full description of the variable; `number` writes its bounds and
`quoted` its name. -/
def debugText (number : α → String) (quoted : String → String) (x : Variable α) : String :=
  "Variable \x7b id: VariableId(" ++ toString x.id ++ "), name: " ++ quoted x.name.text
    ++ ", lower: " ++ number x.lower ++ ", upper: " ++ number x.upper
    ++ ", type: " ++ x.kind.text ++ ", freeze: " ++ x.freeze.debugText ++ " \x7d"

end Variable

end Milp
