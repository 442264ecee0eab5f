import Mathlib.Data.List.Basic

/-!
# Frames, the frame stack and the coroutine context

A rewritten procedure keeps its instruction pointer, its resume flag, its
deferred callables and every other local in a frame on the coroutine's stack.
`Context.yield` and `Context.unwinding` are the runtime entry points that the
rewritten code calls.  The `Stack` type and its `Push`, `Pop` and `Top` are not
part of the repository's sources; they are modelled from the specification.
-/

namespace DurableCoroutine.Runtime

/-- A frame: the dispatch position `IP`, the `Resume` flag, the `_defers` field
(procedures, in the order their `defer` statements ran) and the other locals. -/
structure Frame where
  ip : Nat
  resume : Bool
  defers : List Nat
  locals : List Nat
  deriving DecidableEq, Repr

/-- The zero value of a frame, which `Push` appends. -/
def Frame.zero : Frame := ⟨0, false, [], []⟩

/-- The frame initializer `*_f = F{params...}`: every field zero but the locals. -/
def Frame.initial (params : List Nat) : Frame := ⟨0, false, [], params⟩

/-- Modelled from the spec: the runtime `Stack` ("ordered sequence of frames
with an associated top pointer").  `fp` counts the frames entered by the
procedures active in the current resumption; a resumed call re-enters the frame
it left at that position, which is what the prologue's `if frame.ip == 0` test
presupposes. -/
structure Stack where
  fp : Nat
  frames : List Frame
  deriving DecidableEq, Repr

namespace Stack

/-- Modelled from the spec: `Top` borrows the last frame; it has none on an
empty stack. -/
def top (s : Stack) : Option Frame := s.frames.getLast?

/-- Modelled from the spec: `Push` re-enters the frame at the top pointer if
there is one and appends a zero-valued frame otherwise; it returns the stack
and the position of the procedure's frame. -/
def push (s : Stack) : Stack × Nat :=
  if s.fp < s.frames.length then ({ s with fp := s.fp + 1 }, s.fp)
  else (⟨s.frames.length + 1, s.frames ++ [Frame.zero]⟩, s.frames.length)

/-- Modelled from the spec: `Pop` removes the last frame and fails with
`StackUnderflow` on an empty stack. -/
def pop (s : Stack) : Except String Stack :=
  if s.frames = [] then .error "StackUnderflow"
  else .ok ⟨s.fp - 1, s.frames.dropLast⟩

/-- The frame at a position, as the procedure that pushed it sees it. -/
def frameAt (s : Stack) (d : Nat) : Frame := s.frames.getD d Frame.zero

/-- A write through a procedure's frame pointer; a frame that is no longer on
the stack takes the write out of view. -/
def setFrame (s : Stack) (d : Nat) (f : Frame) : Stack := { s with frames := s.frames.set d f }

end Stack

/-- `Context[R, S]`: the yield slots, the completion flags and the embedded
stack.  The entry point is the driver's to call, and the heap is not kept.
`trace` is instrumentation, not a field of the Go struct: the procedures
called so far, in call order. -/
structure Context (R S : Type) where
  recv : R
  send : S
  done : Bool
  stop : Bool
  stack : Stack
  trace : List Nat

/-- The values a Go panic carries here: the unwind sentinel, or a message. -/
inductive Panic
  | unwind
  | message (text : String)
  deriving DecidableEq, Repr

namespace Context

variable {R S : Type}

def modifyStack (c : Context R S) (f : Stack → Stack) : Context R S := { c with stack := f c.stack }

/-- Set the `Resume` flag of the top frame, as `frame.Resume = b` does through `Top()`. -/
def setTopResume (c : Context R S) (b : Bool) : Context R S :=
  c.modifyStack fun s => match s.top with
    | some f => s.setFrame (s.frames.length - 1) { f with resume := b }
    | none => s

/-- `Yield`: the value sent back on resumption, or the panic it raises. -/
def yield [Inhabited S] (c : Context R S) (value : R) : Context R S × Except Panic S :=
  if c.stop then (c, .error (.message "cannot yield from a coroutine that has been stopped"))
  else match c.stack.top with
    | none => (c, .error (.message "Top of an empty stack"))
    | some frame =>
      if frame.resume then
        let c := c.setTopResume false
        if c.stop then (c, .error .unwind) else (c, .ok c.send)
      else
        ({ c.setTopResume true with send := default, recv := value }, .error .unwind)

/-- `Unwinding`: `len(c.Frames) > 0 && c.Top().Resume`. -/
def unwinding (c : Context R S) : Bool :=
  match c.stack.top with
  | some frame => frame.resume
  | none => false

end Context

end DurableCoroutine.Runtime
