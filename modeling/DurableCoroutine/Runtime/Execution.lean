import DurableCoroutine.Runtime.Context

/-!
# Running rewritten procedures

A colored procedure is compiled by `compileFuncBody`: a body of at most one
expression statement is returned as it is, and every other body gets the
prologue (`Push`, and the frame initializer when `IP` is zero), the deferred
epilogue (`Pop` unless `Unwinding()`, after the `_defers` callables) and the
dispatch that resumes at the recorded `IP`.  The dispatch is modelled from the
specification, as the body's own statement list: each call that may yield
records its position in `IP` first, and a re-entered frame resumes at that call.

The semantics below follows Go's `defer`: the epilogue runs on every exit of
the procedure, its own deferred calls run last-in first-out, a deferred call
that panics does not stop the others, and the last panic raised is the one
that leaves the procedure.  Every function takes fuel and returns `none` when
it runs out.
-/

namespace DurableCoroutine.Runtime

variable {R S : Type}

/-- The statements of a colored procedure body that the frame discipline sees. -/
inductive Stmt (R : Type)
  /-- `coroutine.Yield[R, S](value)`, an expression statement. -/
  | yield (value : R)
  /-- A call of the colored procedure `callee`, an expression statement. -/
  | call (callee : Nat)
  /-- `panic(text)`, an expression statement. -/
  | panic (text : String)
  /-- `defer callee()`, rewritten to `_defers = append(_defers, callee)`. -/
  | defer (callee : Nat)
  | ret
  /-- The back edge of a counted loop: while local `slot` is positive, decrement
  it and continue at `target`. -/
  | loop (slot target : Nat)
  deriving DecidableEq, Repr

def Stmt.isExprStmt : Stmt R → Bool
  | .yield _ | .call _ | .panic _ => true
  | _ => false

def Stmt.isDefer : Stmt R → Bool
  | .defer _ => true
  | _ => false

/-- A colored procedure: its parameters (the frame initializer) and its body. -/
structure Proc (R : Type) where
  params : List Nat
  body : List (Stmt R)

/-- `isExpr`: the body is empty or a single expression statement. -/
def isExpr : List (Stmt R) → Bool
  | [] => true
  | [s] => s.isExprStmt
  | _ => false

/-- What `compileFuncBody` makes of a body. -/
inductive Compiled (R : Type)
  /-- `isExpr`: the body is returned without prologue or epilogue. -/
  | plain (body : List (Stmt R))
  /-- Prologue, epilogue and dispatch; `hasDefers` says whether `_defers` exists. -/
  | framed (params : List Nat) (body : List (Stmt R)) (hasDefers : Bool)

def compileFuncBody (p : Proc R) : Compiled R :=
  if isExpr p.body then .plain p.body
  else .framed p.params p.body (p.body.any Stmt.isDefer)

/-- How a call ends.  `unwinding depth` is the unwind sentinel on its way up;
`depth` counts the framed calls it has left so far (instrumentation). -/
inductive Outcome
  | normal
  | unwinding (depth : Nat)
  | panicking (text : String)
  deriving DecidableEq, Repr

def Outcome.ofPanic : Panic → Outcome
  | .unwind => .unwinding 0
  | .message text => .panicking text

/-- The outcome seen by the caller of a framed procedure. -/
def Outcome.leaveFrame : Outcome → Outcome
  | .unwinding depth => .unwinding (depth + 1)
  | o => o

/-- The calls deferred by the epilogue closure: `Pop`, then each `_defers` entry. -/
inductive Deferred
  | pop
  | call (callee : Nat)
  deriving DecidableEq, Repr

namespace Context

/-- `_f.IP = pc`, for a procedure with a frame. -/
def setIP (c : Context R S) : Option Nat → Nat → Context R S
  | some d, pc => c.modifyStack fun s => s.setFrame d { s.frameAt d with ip := pc }
  | none, _ => c

/-- `_f._defers = append(_f._defers, callee)`. -/
def appendDefer (c : Context R S) : Option Nat → Nat → Context R S
  | some d, callee =>
      c.modifyStack fun s => s.setFrame d { s.frameAt d with defers := (s.frameAt d).defers ++ [callee] }
  | none, _ => c

/-- A local of the procedure's frame. -/
def getLocal (c : Context R S) : Option Nat → Nat → Nat
  | some d, slot => (c.stack.frameAt d).locals.getD slot 0
  | none, _ => 0

def setLocal (c : Context R S) : Option Nat → Nat → Nat → Context R S
  | some d, slot, v =>
      c.modifyStack fun s => s.setFrame d { s.frameAt d with locals := (s.frameAt d).locals.set slot v }
  | none, _, _ => c

end Context

section Semantics

variable [Inhabited S] (prog : Nat → Proc R)

mutual

/-- A call of procedure `p`: its prologue, body and epilogue as `compileFuncBody` emits them. -/
def callProc : Nat → Nat → Context R S → Option (Context R S × Outcome)
  | 0, _, _ => none
  | fuel + 1, p, c =>
    let c := { c with trace := c.trace ++ [p] }
    match compileFuncBody (prog p) with
    | .plain body => runBody fuel body none 0 c
    | .framed params body hasDefers =>
      let (stack, d) := c.stack.push
      let c := { c with stack }
      let (c, pc) :=
        if (c.stack.frameAt d).ip = 0 then
          (c.modifyStack (·.setFrame d (Frame.initial params)), 0)
        else (c, (c.stack.frameAt d).ip - 1)
      match runBody fuel body (some d) pc c with
      | none => none
      | some (c, o) =>
        match epilogue fuel d hasDefers c o with
        | none => none
        | some (c, o) => some (c, o.leaveFrame)

/-- The body from statement `pc` on, in the frame at position `d` if it has one. -/
def runBody : Nat → List (Stmt R) → Option Nat → Nat → Context R S →
    Option (Context R S × Outcome)
  | 0, _, _, _, _ => none
  | fuel + 1, body, d, pc, c =>
    match body[pc]? with
    | none => some (c, .normal)
    | some (.yield value) =>
      match (c.setIP d (pc + 1)).yield value with
      | (c, .ok _) => runBody fuel body d (pc + 1) c
      | (c, .error p) => some (c, .ofPanic p)
    | some (.call callee) =>
      match callProc fuel callee (c.setIP d (pc + 1)) with
      | some (c, .normal) => runBody fuel body d (pc + 1) c
      | result => result
    | some (.panic text) => some (c, .panicking text)
    | some (.defer callee) => runBody fuel body d (pc + 1) (c.appendDefer d callee)
    | some .ret => some (c, .normal)
    | some (.loop slot target) =>
      if 0 < c.getLocal d slot then
        runBody fuel body d target (c.setLocal d slot (c.getLocal d slot - 1))
      else runBody fuel body d (pc + 1) c

/-- The deferred epilogue:
`if !_c.Unwinding() { defer coroutine.Pop(&_c.Stack); for _, f := range _f._defers { defer f() } }`,
or a direct `coroutine.Pop` when the body has no `defer`. -/
def epilogue : Nat → Nat → Bool → Context R S → Outcome → Option (Context R S × Outcome)
  | 0, _, _, _, _ => none
  | fuel + 1, d, hasDefers, c, o =>
    if c.unwinding then some (c, o)
    else if hasDefers then
      match runDeferred fuel (((c.stack.frameAt d).defers.reverse.map .call) ++ [.pop]) c none with
      | none => none
      | some (c, raised) => some (c, raised.getD o)
    else
      match c.stack.pop with
      | .ok stack => some ({ c with stack }, o)
      | .error text => some (c, .panicking text)

/-- The epilogue closure's own deferred calls, last-in first-out; `raised` is
the panic the latest of them raised. -/
def runDeferred : Nat → List Deferred → Context R S → Option Outcome →
    Option (Context R S × Option Outcome)
  | 0, _, _, _ => none
  | _ + 1, [], c, raised => some (c, raised)
  | fuel + 1, .pop :: rest, c, raised =>
    match c.stack.pop with
    | .ok stack => runDeferred fuel rest { c with stack } raised
    | .error text => runDeferred fuel rest c (some (.panicking text))
  | fuel + 1, .call f :: rest, c, raised =>
    match callProc fuel f c with
    | none => none
    | some (c, .normal) => runDeferred fuel rest c raised
    | some (c, o) => runDeferred fuel rest c (some o)

end

/-- Modelled from the spec: the coroutine's driver calls the entry point to
start it or to resume it at its last yield, entering frames from the bottom
of the stack. -/
def resume (fuel entry : Nat) (c : Context R S) : Option (Context R S × Outcome) :=
  callProc prog fuel entry (c.modifyStack fun s => { s with fp := 0 })

end Semantics

/-- A context with an empty stack and nothing sent or received. -/
def emptyContext : Context Nat Nat := ⟨0, 0, false, false, ⟨0, []⟩, []⟩

end DurableCoroutine.Runtime
