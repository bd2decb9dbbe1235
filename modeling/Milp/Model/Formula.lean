/-
Milp.Model.Formula — expressions as they are written.

A formula is the tree of the operations that build an expression, over
variables named by `ν` and finished expressions named by `ε`.
`Formula.resolve?` looks the names up; `Formula.build` carries the
operations out, from the left, and stops at the first division by zero.

A variable that stands alone under a factor becomes a single term, so its
expression has no constant for the factor to touch.
-/
import Milp.Error

namespace Milp

/-- The operations that build an expression. -/
inductive Formula (α ν ε : Type) where
  | number (k : α)
  | var (v : ν)
  | term (k : α) (v : ν)
  | given (e : ε)
  | plus (a b : Formula α ν ε)
  | minus (a b : Formula α ν ε)
  | times (a : Formula α ν ε) (k : α)
  | dividedBy (a : Formula α ν ε) (k : α)
  | negate (a : Formula α ν ε)
  | assemble (a : Formula α ν ε)
  deriving Repr

namespace Formula

variable {α ν ε : Type}

/-- The formulas added one after the other to an empty expression. -/
def sum [Scalar α] (fs : List (Formula α ν ε)) : Formula α ν ε := fs.foldl plus (number 0)

/-- The formula over what its names stand for; the first unknown name
decides the error. -/
def resolve? {ν' ε' φ : Type} (findVariable : ν → Except φ ν') (findGiven : ε → Except φ ε') :
    Formula α ν ε → Except φ (Formula α ν' ε')
  | number k => pure (number k)
  | var v => return var (← findVariable v)
  | term k v => return term k (← findVariable v)
  | given e => return given (← findGiven e)
  | plus a b => do
    let a ← a.resolve? findVariable findGiven
    return plus a (← b.resolve? findVariable findGiven)
  | minus a b => do
    let a ← a.resolve? findVariable findGiven
    return minus a (← b.resolve? findVariable findGiven)
  | times a k => return times (← a.resolve? findVariable findGiven) k
  | dividedBy a k => return dividedBy (← a.resolve? findVariable findGiven) k
  | negate a => return negate (← a.resolve? findVariable findGiven)
  | assemble a => return assemble (← a.resolve? findVariable findGiven)

variable [Scalar α]

/-- The expression a formula builds. -/
def build : Formula α VariableRef (Expression α) → Except (ModelError α) (Expression α)
  | number k => .ok (.ofConstant k)
  | var v => .ok (.ofVariable v)
  | term k v => .ok (.term k v)
  | given e => .ok e
  | plus a b => a.build.bind fun a => b.build.map a.plus
  | minus a b => a.build.bind fun a => b.build.map a.minus
  | times (var v) k => .ok (.term k v)
  | times a k => a.build.map (·.times k)
  | dividedBy a k => a.build.bind fun a =>
    match a.dividedBy? k with
    | some quotient => .ok quotient
    | none => .error (.zeroDivisor a)
  | negate a => a.build.map Expression.negate
  | assemble a => a.build.map Expression.assemble

end Formula

end Milp
