import Mathlib.Data.List.Basic

/-!
# The Go statements the desugaring pass rewrites

The pass works on `go/ast` statements together with the `types.Info` of the
package.  Identifiers are resolved to their objects, as the later passes do
through `types.Info`: a variable is an object of the source or one made by
`newVar`, a label is a user label's object or one made by `newLabel`.  The
expressions and simple statements of the source are opaque (`E`, `L`); the pass
never looks into them.  The expressions the pass builds itself are explicit,
and `len` and index expressions carry the static type of their operand, which
the type checker records for them.
-/

namespace DurableCoroutine.Compiler

/-- A variable object: one declared in the source, or `_v{n}` made by `newVar`. -/
inductive Var
  | user (obj : Nat)
  | gen (n : Nat)
  deriving DecidableEq, Repr

/-- A label object: a user label, or `_l{n}` made by `newLabel`. -/
inductive Label
  | user (obj : Nat)
  | gen (n : Nat)
  deriving DecidableEq, Repr

/-- `info.ObjectOf` of a label: a user label's object; a label made by `newLabel`
is not recorded and has none. -/
def Label.object : Label → Option Nat
  | .user obj => some obj
  | .gen _ => none

/-- The static types the pass distinguishes. -/
inductive GoType
  | int
  | bool
  | array (elem : GoType)
  | slice (elem : GoType)
  | map (key value : GoType)
  /-- A defined type, such as `type L []int`. -/
  | named (name : String) (underlying : GoType)
  /-- Strings, channels, pointers, functions and the other types. -/
  | other (name : String)
  deriving DecidableEq, Repr

/-- The underlying type, as `types.Type.Underlying` gives it. -/
def GoType.underlying : GoType → GoType
  | .named _ t => t.underlying
  | t => t

/-- An array or a slice type, which a range lowers to a counting loop. -/
def GoType.isSeq : GoType → Bool
  | .array _ | .slice _ => true
  | _ => false

theorem GoType.underlying_isSeq {t : GoType} (h : t.isSeq) : t.underlying.isSeq := by
  cases t <;> simp_all [GoType.isSeq, GoType.underlying]

def GoType.isMap : GoType → Bool
  | .map _ _ => true
  | _ => false

/-- Expressions: the source's own, and the ones the pass builds. -/
inductive Expr (E : Type)
  | user (e : E)
  | ident (x : Var)
  /-- The blank identifier `_`. -/
  | blank
  /-- An integer literal. -/
  | intLit (n : Nat)
  /-- `len(x)`, for an operand of static type `t`. -/
  | len (x : Expr E) (t : GoType)
  /-- `x[i]`, for an operand of static type `t`. -/
  | index (x i : Expr E) (t : GoType)
  /-- `x < y`. -/
  | lss (x y : Expr E)
  /-- `make(t, len, cap)`. -/
  | makeSlice (t : GoType) (len cap : Expr E)
  /-- `append(s, x)`. -/
  | append (s x : Expr E)
  deriving Repr

inductive BranchTok
  | brk
  | cont
  | goto
  | fallthrough
  deriving DecidableEq, Repr

/-- Statements.  `simple` is any assignment, declaration, `defer`, empty, expression,
`go`, increment or send statement of the source; `assign` and `incDec` are the
ones the pass builds.  Bodies are the statement lists of their blocks. -/
inductive Stmt (E L : Type)
  | simple (s : L)
  | ret (results : List E)
  /-- An assignment `lhs = rhs`, or `lhs := rhs` when `define`. -/
  | assign (lhs : List (Expr E)) (define : Bool) (rhs : List (Expr E))
  /-- `x++`. -/
  | incDec (x : Expr E)
  | block (stmts : List (Stmt E L))
  | ifStmt (init : Option (Stmt E L)) (cond : Expr E) (body : List (Stmt E L))
      (els : Option (Stmt E L))
  | forStmt (init : Option (Stmt E L)) (cond : Option (Expr E)) (post : Option (Stmt E L))
      (body : List (Stmt E L))
  /-- `for key, value := range x`, or `=` when not `define`; `xType` is `TypeOf(x)`. -/
  | rangeStmt (key value : Option (Expr E)) (define : Bool) (x : Expr E) (xType : GoType)
      (body : List (Stmt E L))
  /-- A switch; its body holds `caseClause`s. -/
  | switchStmt (init : Option (Stmt E L)) (tag : Option (Expr E)) (body : List (Stmt E L))
  | typeSwitch (init : Option (Stmt E L)) (assign : Stmt E L) (body : List (Stmt E L))
  /-- `case list:`, or `default:` when `list` is `none`. -/
  | caseClause (list : Option (List E)) (body : List (Stmt E L))
  | branch (tok : BranchTok) (label : Option Label)
  | labeled (label : Label) (stmt : Stmt E L)
  | select
  | commClause

end DurableCoroutine.Compiler
