import DurableCoroutine.Compiler.Syntax

/-!
# The desugaring pass

`desugar` rewrites a statement so that no branch or loop keeps an
initialization statement, `range` loops over arrays, slices and maps become
counting `for` loops, and every `break` and `continue` names its target with a
generated label; a second walk deletes the generated labels that no branch uses.
The `desugarer` struct carries the counters of `newVar` and `newLabel`, the set
of unused labels and the map from user labels to generated ones.  The pass is
structurally recursive in the source except where it desugars a loop it has just
built; the model gives every call one unit of fuel, and `Stmt.depth` is enough.
-/

namespace DurableCoroutine.Compiler

/-- The panics of the pass. -/
inductive DesugarError
  /-- `panic(fmt.Sprintf("label not found: %s", s.Label))`. -/
  | labelNotFound (label : Label)
  /-- `panic("not implemented")`: `select`, communication clauses, `goto`, `fallthrough`. -/
  | notImplemented
  /-- The run-time panic of a failed assertion `s.Key.(*ast.Ident)` or `s.Value.(*ast.Ident)`. -/
  | notAnIdent
  /-- Not a panic of the source: the model's fuel ran out. -/
  | outOfFuel
  deriving DecidableEq, Repr

/-- The `desugarer` struct, less its `types.Info`. -/
structure Desugarer where
  vars : Nat
  labels : Nat
  unusedLabels : List Label
  userLabels : List (Option Nat × Label)
  deriving DecidableEq, Repr

abbrev DesugarM := StateT Desugarer (Except DesugarError)

variable {E L : Type}

def isUnderscore : Expr E → Bool
  | .blank => true
  | _ => false

/-- `if init != nil { stmt = &ast.BlockStmt{List: []ast.Stmt{init, stmt}} }`. -/
def hoistInit (init : Option (Stmt E L)) (stmt : Stmt E L) : Stmt E L :=
  match init with
  | some init => .block [init, stmt]
  | none => stmt

/-- `for i := 0; i < len(x); i++ { body }`, the loop both ordered lowerings build. -/
def countingFor (i x : Expr E) (xType : GoType) (body : List (Stmt E L)) : Stmt E L :=
  .forStmt (some (.assign [i] true [.intLit 0])) (some (.lss i (.len x xType))) (some (.incDec i))
    body

/-- `if s.Value != nil && !isUnderscore(s.Value)`, the assignment `v := x[i]` that the
lowering of an array or slice range puts in front of the body. -/
def valueAssign (value : Option (Expr E)) (x i : Expr E) (xType : GoType) : List (Stmt E L) :=
  match value with
  | some v => if isUnderscore v then [] else [.assign [v] true [.index x i xType]]
  | none => []

namespace Desugarer

def newVar : DesugarM Var :=
  modifyGet fun d => (.gen d.vars, { d with vars := d.vars + 1 })

/-- `newLabel` marks the new label unused. -/
def newLabel : DesugarM Label :=
  modifyGet fun d =>
    (.gen d.labels, { d with labels := d.labels + 1, unusedLabels := .gen d.labels :: d.unusedLabels })

def addUserLabel (userLabel replacement : Label) : DesugarM Unit :=
  modify fun d => { d with userLabels := (userLabel.object, replacement) :: d.userLabels }

def getUserLabel (userLabel : Label) : DesugarM (Option Label) :=
  return (← get).userLabels.lookup userLabel.object

/-- `delete(d.unusedLabels, label)`; a `nil` label is never in the set. -/
def useLabel (label : Option Label) : DesugarM Unit :=
  modify fun d => { d with unusedLabels := d.unusedLabels.filter fun l => some l != label }

def isUnusedLabel (d : Desugarer) (label : Label) : Bool := d.unusedLabels.contains label

/-- The assertion `e.(*ast.Ident)`. -/
def asIdent : Expr E → DesugarM (Expr E)
  | .ident x => pure (.ident x)
  | .blank => pure .blank
  | _ => throw .notAnIdent

/-- The loop variable of a key: a new one when the key is missing or `_`. -/
def keyIdent (key : Option (Expr E)) : DesugarM (Expr E) :=
  match key with
  | some k => if isUnderscore k then Expr.ident <$> newVar else asIdent k
  | none => Expr.ident <$> newVar

/-- `d.desugarList(stmts, breakTo, continueTo)`, over the statement pass `desugar`. -/
def desugarList (desugar : Stmt E L → Option Label → Option Label → Option Label → DesugarM (Stmt E L))
    (stmts : List (Stmt E L)) (breakTo continueTo : Option Label) : DesugarM (List (Stmt E L)) :=
  stmts.mapM (desugar · breakTo continueTo none)

/-- `d.desugar(stmt, breakTo, continueTo, userLabel)`; a `nil` statement is `none`
in the model, and `Option.mapM` passes it through as the `case nil` does. -/
def desugar : Nat → Stmt E L → Option Label → Option Label → Option Label → DesugarM (Stmt E L)
  | 0, _, _, _, _ => throw .outOfFuel
  | n + 1, stmt, breakTo, continueTo, userLabel =>
    match stmt with
    | .block stmts => return .block (← desugarList (desugar n) stmts breakTo continueTo)
    | .ifStmt init cond body els => do
      let init ← init.mapM (desugar n · none none none)
      let body ← desugarList (desugar n) body breakTo continueTo
      let els ← els.mapM (desugar n · breakTo continueTo none)
      return hoistInit init (.ifStmt none cond body els)
    | .forStmt init cond post body => do
      let init ← init.mapM (desugar n · none none none)
      let forLabel ← newLabel
      if let some userLabel := userLabel then addUserLabel userLabel forLabel
      let body ← desugarList (desugar n) body (some forLabel) (some forLabel)
      let post ← post.mapM (desugar n · none none none)
      return hoistInit init (.labeled forLabel (.forStmt none cond post body))
    | .rangeStmt key value _ x xType body => do
      let xv := Expr.ident (← newVar)
      let init := Stmt.assign [xv] true [x]
      match xType with
      | .array _ | .slice _ =>
        let i ← keyIdent key
        let body := valueAssign value xv i xType ++ body
        return .block [init, ← desugar n (countingFor i xv xType body) breakTo continueTo userLabel]
      | .map keyType _ =>
        match key, value with
        | none, none =>
          let i := Expr.ident (← newVar)
          return .block [init, ← desugar n (countingFor i xv xType body) breakTo continueTo userLabel]
        | _, _ =>
          let keys := Expr.ident (← newVar)
          let k := Expr.ident (← newVar)
          -- the key-collecting loop is not desugared
          let collectKeys := Stmt.block [
            .assign [keys] true [.makeSlice (.slice keyType) (.intLit 0) (.len xv xType)],
            .rangeStmt (some k) none true xv xType [.assign [keys] false [.append keys k]]]
          let mapKey ← keyIdent key
          let mapValue ← match value with
            | some v => asIdent v
            | none => pure .blank
          let ok := Expr.ident (← newVar)
          let iterKeys ← desugar n (.rangeStmt none (some mapKey) true keys (.slice keyType)
              [.ifStmt (some (.assign [mapValue, ok] true [.index xv mapKey xType])) ok body none])
            breakTo continueTo userLabel
          return .block [init, collectKeys, iterKeys]
      | _ => return stmt
    | .switchStmt init tag body => do
      let init ← init.mapM (desugar n · none none none)
      let switchLabel ← newLabel
      if let some userLabel := userLabel then addUserLabel userLabel switchLabel
      let body ← desugarList (desugar n) body (some switchLabel) continueTo
      return hoistInit init (.labeled switchLabel (.switchStmt none tag body))
    | .typeSwitch init assign body => do
      let init ← init.mapM (desugar n · none none none)
      let switchLabel ← newLabel
      if let some userLabel := userLabel then addUserLabel userLabel switchLabel
      let assign ← desugar n assign none none none
      let body ← desugarList (desugar n) body (some switchLabel) continueTo
      return hoistInit init (.labeled switchLabel (.typeSwitch none assign body))
    | .caseClause list body => return .caseClause list (← desugarList (desugar n) body breakTo continueTo)
    | .branch tok (some label) => do
      let some target ← getUserLabel label | throw (.labelNotFound label)
      useLabel target
      return .branch tok (some target)
    | .branch .brk none => do
      useLabel breakTo
      return .branch .brk breakTo
    | .branch .cont none => do
      useLabel continueTo
      return .branch .cont continueTo
    | .branch _ none => throw .notImplemented
    | .labeled label stmt => desugar n stmt breakTo continueTo (some label)
    | .select | .commClause => throw .notImplemented
    | .simple _ | .ret _ | .assign .. | .incDec _ => return stmt

/-- The walk of `astutil.Apply` with the callback of `desugar`, which replaces a
labeled statement whose label is unused by its statement.  `Apply` goes on with
the children of the node it was given, not with its replacement, so the
replacement is itself only walked below: a labeled statement right under a
deleted label keeps its label. -/
def deleteUnusedLabels (d : Desugarer) : Stmt E L → Stmt E L
  | .labeled label stmt =>
    if d.isUnusedLabel label then
      match stmt with
      | .labeled inner stmt => .labeled inner (deleteUnusedLabels d stmt)
      | stmt => deleteUnusedLabels d stmt
    else .labeled label (deleteUnusedLabels d stmt)
  | .block stmts => .block (walkList stmts)
  | .ifStmt init cond body els => .ifStmt (walkOpt init) cond (walkList body) (walkOpt els)
  | .forStmt init cond post body => .forStmt (walkOpt init) cond (walkOpt post) (walkList body)
  | .rangeStmt key value define x xType body => .rangeStmt key value define x xType (walkList body)
  | .switchStmt init tag body => .switchStmt (walkOpt init) tag (walkList body)
  | .typeSwitch init assign body =>
    .typeSwitch (walkOpt init) (deleteUnusedLabels d assign) (walkList body)
  | .caseClause list body => .caseClause list (walkList body)
  | stmt => stmt
where
  walkList : List (Stmt E L) → List (Stmt E L)
    | [] => []
    | stmt :: stmts => deleteUnusedLabels d stmt :: walkList stmts
  walkOpt : Option (Stmt E L) → Option (Stmt E L)
    | none => none
    | some stmt => some (deleteUnusedLabels d stmt)

/-- The root as `Apply` leaves it: its own replacement goes to a wrapper that
`desugar` never reads, so only its children are walked. -/
def deleteUnusedLabelsRoot (d : Desugarer) : Stmt E L → Stmt E L
  | .labeled label stmt => .labeled label (deleteUnusedLabels d stmt)
  | stmt => deleteUnusedLabels d stmt

end Desugarer

/-- An upper bound on the fuel the pass takes: a loop the pass builds and desugars
again costs a few levels more than its body. -/
def Stmt.depth : Stmt E L → Nat
  | .block stmts => depthList stmts + 1
  | .ifStmt init _ body els => max (depthOpt init) (max (depthList body) (depthOpt els)) + 1
  | .forStmt init _ post body => max (depthOpt init) (max (depthOpt post) (depthList body)) + 1
  | .rangeStmt _ _ _ _ (.map _ _) body => depthList body + 8
  | .rangeStmt _ _ _ _ _ body => depthList body + 4
  | .switchStmt init _ body => max (depthOpt init) (depthList body) + 1
  | .typeSwitch init guard body => max (depthOpt init) (max (Stmt.depth guard) (depthList body)) + 1
  | .caseClause _ body => depthList body + 1
  | .labeled _ stmt => Stmt.depth stmt + 1
  | _ => 1
where
  depthList : List (Stmt E L) → Nat
    | [] => 0
    | stmt :: stmts => max (Stmt.depth stmt) (depthList stmts)
  depthOpt : Option (Stmt E L) → Nat
    | none => 0
    | some stmt => Stmt.depth stmt

/-- `desugar(stmt, info)`: the pass from a zero `desugarer`, then the walk that
deletes the labels no branch uses. -/
def desugar (stmt : Stmt E L) : Except DesugarError (Stmt E L) := do
  let (stmt, d) ← (Desugarer.desugar stmt.depth stmt none none none).run ⟨0, 0, [], []⟩
  return Desugarer.deleteUnusedLabelsRoot d stmt

/-- `d.desugar` switches on `TypeOf(s.X)`, not on its underlying type: a range over
a value of the defined type `type L []int` is returned as it is, its unlabeled
`break` included.  And the label of a root `for` that no branch uses stays. -/
theorem named_slice_range_left_sugared :
    desugar (.rangeStmt none none true (.user 0) (.named "L" (.slice .int)) [.branch .brk none] :
        Stmt Nat Nat) =
      .ok (.rangeStmt none none true (.user 0) (.named "L" (.slice .int)) [.branch .brk none]) ∧
    desugar (.forStmt none none none [] : Stmt Nat Nat) =
      .ok (.labeled (.gen 0) (.forStmt none none none [])) :=
  ⟨rfl, rfl⟩

/-- A range clause with `=` may assign to any addressable expression, but the pass
asserts `s.Key.(*ast.Ident)` for an array or slice range and `s.Value.(*ast.Ident)`
for a map range: `for a[0] = range xs {}` and `for k, a[0] = range m {}` make the
assertion fail. -/
theorem index_range_key_fails_assertion :
    desugar (.rangeStmt (some (.user 0)) none false (.user 1) (.slice .int) [] : Stmt Nat Nat) =
      .error .notAnIdent ∧
    desugar (.rangeStmt (some (.ident (.user 2))) (some (.user 0)) false (.user 1) (.map .int .int) [] :
        Stmt Nat Nat) = .error .notAnIdent :=
  ⟨rfl, rfl⟩

end DurableCoroutine.Compiler
