import DurableCoroutine.Runtime.StackBalance

/-!
# Suspending and resuming is invisible

The durable runtime runs a coroutine in pieces: `Yield` marks the top frame and
raises the unwind sentinel, every epilogue leaves its frame on the stack while the
sentinel passes, and the driver calls the entry point again, which re-enters the
saved frames from the bottom, each at the call its `IP` records, until the marked
`Yield` clears its flag and returns.  This file compares that with the program's
direct run, where `Yield` only hands a value out and goes on (`DCall`, a big-step
relation).  A suspended stack stands for the rest of the direct run: the innermost
frame's body after the yield, then each caller's body after its call (`DFinish`).

The comparison needs the two conditions the frame discipline leaves open: the entry
point has a frame (a yield in an `isExpr` entry finds no frame), and no deferred
callee can yield (a yield inside an epilogue unwinds through `Pop`).  Under them,
every drive of the coroutine that ends returns the values and the outcome of the
direct run (`drive_sound`).  The proof is one induction on fuel over the four
functions of the semantics, for a call started afresh on a settled stack and for a
call that replays a saved path (`Resumable`).  The last section runs programs on
which each condition fails.
-/

namespace DurableCoroutine.Runtime

variable {R S : Type}

/-! ## The direct run -/

section Direct

variable (prog : Nat → Proc R)

mutual

/-- A call of `p` as the program runs it without the durable rewrite: the values it
yields, in order, and how it ends.  Its locals start as its parameters, and its
deferred calls run last-in first-out when its body ends; the last panic they raise
is the one the call ends with. -/
inductive DCall : Nat → List R → Outcome → Prop
  | mk {p : Nat} {ys₁ ys₂ : List R} {l d : List Nat} {o : Outcome} {r : Option Outcome} :
      DBody p 0 (prog p).params [] ys₁ l d o → DDefer d.reverse none ys₂ r →
      DCall p (ys₁ ++ ys₂) (r.getD o)

/-- The body of `p` from statement `pc`, with locals `l` and deferred callees `d`, to
the end of the body, a `return` or a panic. -/
inductive DBody : Nat → Nat → List Nat → List Nat → List R → List Nat → List Nat → Outcome → Prop
  | done {p pc : Nat} {l d : List Nat} : (prog p).body[pc]? = none → DBody p pc l d [] l d .normal
  | yield {p pc : Nat} {v : R} {l d l' d' : List Nat} {ys : List R} {o : Outcome} :
      (prog p).body[pc]? = some (.yield v) → DBody p (pc + 1) l d ys l' d' o →
      DBody p pc l d (v :: ys) l' d' o
  | call {p pc q : Nat} {l d l' d' : List Nat} {ys₁ ys₂ : List R} {o : Outcome} :
      (prog p).body[pc]? = some (.call q) → DCall q ys₁ .normal → DBody p (pc + 1) l d ys₂ l' d' o →
      DBody p pc l d (ys₁ ++ ys₂) l' d' o
  | callPanic {p pc q : Nat} {l d : List Nat} {ys : List R} {o : Outcome} :
      (prog p).body[pc]? = some (.call q) → DCall q ys o → o ≠ .normal → DBody p pc l d ys l d o
  | panic {p pc : Nat} {text : String} {l d : List Nat} :
      (prog p).body[pc]? = some (.panic text) → DBody p pc l d [] l d (.panicking text)
  | defer {p pc q : Nat} {l d l' d' : List Nat} {ys : List R} {o : Outcome} :
      (prog p).body[pc]? = some (.defer q) → DBody p (pc + 1) l (d ++ [q]) ys l' d' o →
      DBody p pc l d ys l' d' o
  | ret {p pc : Nat} {l d : List Nat} : (prog p).body[pc]? = some .ret → DBody p pc l d [] l d .normal
  | loopTake {p pc slot target : Nat} {l d l' d' : List Nat} {ys : List R} {o : Outcome} :
      (prog p).body[pc]? = some (.loop slot target) → 0 < l.getD slot 0 →
      DBody p target (l.set slot (l.getD slot 0 - 1)) d ys l' d' o → DBody p pc l d ys l' d' o
  | loopSkip {p pc slot target : Nat} {l d l' d' : List Nat} {ys : List R} {o : Outcome} :
      (prog p).body[pc]? = some (.loop slot target) → l.getD slot 0 = 0 →
      DBody p (pc + 1) l d ys l' d' o → DBody p pc l d ys l' d' o

/-- Deferred callees run in order, from the panic raised so far, if any, to the last
one raised. -/
inductive DDefer : List Nat → Option Outcome → List R → Option Outcome → Prop
  | nil {r : Option Outcome} : DDefer [] r [] r
  | normal {q : Nat} {qs : List Nat} {r r' : Option Outcome} {ys₁ ys₂ : List R} :
      DCall q ys₁ .normal → DDefer qs r ys₂ r' → DDefer (q :: qs) r (ys₁ ++ ys₂) r'
  | raise {q : Nat} {qs : List Nat} {r r' : Option Outcome} {ys₁ ys₂ : List R} {o : Outcome} :
      DCall q ys₁ o → o ≠ .normal → DDefer qs (some o) ys₂ r' → DDefer (q :: qs) r (ys₁ ++ ys₂) r'

end

/-- The deferred callees `d` run after a body that ended with `o`. -/
def DEpi (d : List Nat) (o : Outcome) (ys : List R) (o' : Outcome) : Prop :=
  ∃ r, DDefer prog d.reverse none ys r ∧ o' = r.getD o

/-- The rest of a call of `p` saved in frame `F`, once the statement at `F.ip - 1`
has ended with `o₁`: the body from `F.ip` and then the deferred callees, or, after a
panic, the deferred callees alone. -/
def DRest (p : Nat) (F : Frame) (o₁ : Outcome) (ys : List R) (o : Outcome) : Prop :=
  if o₁ = .normal then
    ∃ ys₁ ys₂ l d o₂, DBody prog p F.ip F.locals F.defers ys₁ l d o₂ ∧ DEpi prog d o₂ ys₂ o ∧ ys = ys₁ ++ ys₂
  else DEpi prog F.defers o₁ ys o

/-- The rest of the direct run that a path of saved frames stands for, outermost
frame first: the innermost frame goes on after its yield, and each frame after the
call into the next. -/
inductive DFinish : List (Nat × Frame) → List R → Outcome → Prop
  | nil : DFinish [] [] .normal
  | cons {p : Nat} {F : Frame} {rest : List (Nat × Frame)} {ys₁ ys₂ : List R} {o₁ o : Outcome} :
      DFinish rest ys₁ o₁ → DRest prog p F o₁ ys₂ o → DFinish ((p, F) :: rest) (ys₁ ++ ys₂) o

end Direct

/-! ### The rest of a frame, one statement at a time -/

section DirectSteps

variable {prog : Nat → Proc R} {p pc : Nat} {F : Frame} {ys ys₁ ys₂ : List R} {o o₁ : Outcome}

theorem drest_normal (hb : DBody prog p F.ip F.locals F.defers ys₁ l d o₁) (he : DEpi prog d o₁ ys₂ o) :
    DRest prog p F .normal (ys₁ ++ ys₂) o := by
  simp only [DRest, if_true]
  exact ⟨ys₁, ys₂, l, d, o₁, hb, he, rfl⟩

theorem drest_normal_inv (h : DRest prog p F .normal ys o) :
    ∃ ys₁ ys₂ l d o₁, DBody prog p F.ip F.locals F.defers ys₁ l d o₁ ∧ DEpi prog d o₁ ys₂ o ∧ ys = ys₁ ++ ys₂ := by
  simpa only [DRest, if_true] using h

theorem drest_of_ne (h : o₁ ≠ .normal) : DRest prog p F o₁ ys o ↔ DEpi prog F.defers o₁ ys o := by
  simp only [DRest, if_neg h]

/-- A body that stops at `pc` (its end, a `return` or a panic) leaves only the
deferred callees. -/
theorem drest_stop (hb : DBody prog p pc F.locals F.defers [] F.locals F.defers o₁)
    (he : DEpi prog F.defers o₁ ys o) : DRest prog p { F with ip := pc } .normal ys o := by
  simpa using drest_normal (F := { F with ip := pc }) hb he

/-- A statement that passes control on in the same frame. -/
theorem drest_step {F' : Frame} {pc' : Nat}
    (hstep : ∀ {ys l d o}, DBody prog p pc' F'.locals F'.defers ys l d o → DBody prog p pc F.locals F.defers ys l d o)
    (h : DRest prog p { F' with ip := pc' } .normal ys o) : DRest prog p { F with ip := pc } .normal ys o := by
  obtain ⟨ys₁, ys₂, l, d, o₁, hb, he, rfl⟩ := drest_normal_inv h
  exact drest_normal (hstep hb) he

theorem drest_yield {v : R} (hpc : (prog p).body[pc]? = some (.yield v))
    (h : DRest prog p { F with ip := pc + 1 } .normal ys o) : DRest prog p { F with ip := pc } .normal (v :: ys) o := by
  obtain ⟨ys₁, ys₂, l, d, o₂, hb, he, rfl⟩ := drest_normal_inv h
  exact drest_normal (DBody.yield hpc hb) he

/-- After a call that ended with `o₁`, the frame goes on as the callee's outcome says. -/
theorem drest_call {q : Nat} (hpc : (prog p).body[pc]? = some (.call q)) (hq : DCall prog q ys₁ o₁)
    (h : DRest prog p { F with ip := pc + 1 } o₁ ys₂ o) : DRest prog p { F with ip := pc } .normal (ys₁ ++ ys₂) o := by
  by_cases h₁ : o₁ = .normal
  · subst h₁
    obtain ⟨ys₃, ys₄, l, d, o₂, hb, he, rfl⟩ := drest_normal_inv h
    rw [← List.append_assoc]
    exact drest_normal (DBody.call hpc hq hb) he
  · exact drest_normal (DBody.callPanic hpc hq h₁) ((drest_of_ne (F := { F with ip := pc + 1 }) h₁).1 h)

theorem dcall_of_drest {q : Nat} (h : DRest prog q (Frame.initial (prog q).params) .normal ys o) :
    DCall prog q ys o := by
  obtain ⟨ys₁, ys₂, l, d, o₁, hb, ⟨r, hd, rfl⟩, rfl⟩ := drest_normal_inv h
  exact DCall.mk hb hd

theorem dfinish_nil_inv (h : DFinish prog [] ys o) : ys = [] ∧ o = .normal := by
  cases h
  exact ⟨rfl, rfl⟩

/-- The rest of one frame, when the statement it stopped at ended normally. -/
theorem dfinish_cons_normal {P : List (Nat × Frame)} (hP : DFinish prog P [] .normal)
    (h : DRest prog p F .normal ys o) : DFinish prog ((p, F) :: P) ys o := by
  simpa using DFinish.cons hP h

/-! The direct run of a procedure without a frame: one expression statement or none. -/

theorem dcall_of_dbody {q : Nat} {l : List Nat} (hb : DBody prog q 0 (prog q).params [] ys l [] o) :
    DCall prog q ys o := by
  simpa using DCall.mk hb .nil

theorem dcall_nil {q : Nat} (hq : (prog q).body = []) : DCall prog q [] .normal :=
  dcall_of_dbody (DBody.done (by simp [hq]))

theorem dcall_call {q q' : Nat} (hq : (prog q).body = [.call q']) (h : DCall prog q' ys o) : DCall prog q ys o := by
  have h₀ : (prog q).body[0]? = some (.call q') := by simp [hq]
  by_cases ho : o = .normal
  · subst ho
    simpa using dcall_of_dbody (DBody.call h₀ h (DBody.done (by simp [hq])))
  · exact dcall_of_dbody (DBody.callPanic h₀ h ho)

end DirectSteps

/-! ## Saved paths -/

section Paths

variable (prog : Nat → Proc R)

/-- A procedure that never yields: none of its statements is a yield, and every
procedure it calls is calm too. -/
inductive Calm : Nat → Prop
  | intro {p : Nat} : (∀ v, Stmt.yield v ∉ (prog p).body) → (∀ q, Stmt.call q ∈ (prog p).body → Calm q) →
      Calm p

/-- Calling `q` again reaches, through procedures without a frame, the frame of the
framed procedure `t`, or a yield of a procedure without a frame (`t = none`). -/
inductive Leads : Nat → Option Nat → Prop
  | framed {q : Nat} : isExpr (prog q).body = false → Leads q (some q)
  | yield {q : Nat} {v : R} : (prog q).body = [.yield v] → Leads q none
  | call {q q' : Nat} {t : Option Nat} : (prog q).body = [.call q'] → Leads q' t → Leads q t

/-- No callee of a `defer` yields: an epilogue never suspends. -/
def CalmDefers : Prop := ∀ p q, Stmt.defer q ∈ (prog p).body → Calm prog q

/-- Every callee saved in the frame was deferred by a statement of `p`. -/
def FrameOK (p : Nat) (F : Frame) : Prop := ∀ q ∈ F.defers, Stmt.defer q ∈ (prog p).body

/-- The frames a suspension leaves, outermost first, each with its procedure: each
saved `IP` is just past the statement that was running, a call leading into the next
frame or, in the innermost frame, a yield or a call leading to one.  The frames are
kept here unmarked; on the stack the innermost one carries the `Resume` flag. -/
inductive PathOK : List (Nat × Frame) → Prop
  | nil : PathOK []
  | cons {p : Nat} {F : Frame} {rest : List (Nat × Frame)} :
      isExpr (prog p).body = false → 0 < F.ip → F.resume = false → FrameOK prog p F →
      ((∃ v, (prog p).body[F.ip - 1]? = some (.yield v) ∧ rest = []) ∨
        ∃ q, (prog p).body[F.ip - 1]? = some (.call q) ∧ Leads prog q (rest.head?.map Prod.fst)) →
      PathOK rest → PathOK ((p, F) :: rest)

end Paths

/-- The frames with the top one marked for resumption, as `Yield` leaves them. -/
def markTop : List Frame → List Frame
  | [] => []
  | [f] => [{ f with resume := true }]
  | f :: g :: fs => f :: markTop (g :: fs)

@[simp] theorem markTop_concat : ∀ (fs : List Frame) (f : Frame),
    markTop (fs ++ [f]) = fs ++ [{ f with resume := true }]
  | [], _ => rfl
  | [_], _ => rfl
  | g :: h :: fs, f => by
    show g :: markTop ((h :: fs) ++ [f]) = g :: ((h :: fs) ++ [{ f with resume := true }])
    rw [markTop_concat (h :: fs) f]

@[simp] theorem length_markTop : ∀ fs : List Frame, (markTop fs).length = fs.length
  | [] => rfl
  | [_] => rfl
  | _ :: g :: fs => congrArg (· + 1) (length_markTop (g :: fs))

theorem markTop_append (fs : List Frame) {gs : List Frame} (h : gs ≠ []) :
    markTop (fs ++ gs) = fs ++ markTop gs := by
  obtain ⟨gs, g, rfl⟩ := (List.eq_nil_or_concat gs).resolve_left h
  rw [List.concat_eq_append, ← List.append_assoc, markTop_concat, markTop_concat, List.append_assoc]

theorem markTop_cons (f : Frame) {fs : List Frame} (h : fs ≠ []) : markTop (f :: fs) = f :: markTop fs := by
  obtain ⟨g, gs, rfl⟩ := List.exists_cons_of_ne_nil h
  rfl

/-! ## The stack operations on the two shapes of stack -/

namespace Stack

@[simp] theorem frameAt_concat (fp : Nat) (B : List Frame) (F : Frame) :
    (⟨fp, B ++ [F]⟩ : Stack).frameAt B.length = F := by
  simp [frameAt]

theorem push_settled (B : List Frame) :
    (⟨B.length, B⟩ : Stack).push = (⟨B.length + 1, B ++ [Frame.zero]⟩, B.length) := by
  simp [push]

theorem push_saved {B fs : List Frame} (h : B.length < fs.length) :
    (⟨B.length, fs⟩ : Stack).push = (⟨B.length + 1, fs⟩, B.length) := by
  simp [push, h]

theorem pop_concat (n : Nat) (B : List Frame) (F : Frame) :
    (⟨n + 1, B ++ [F]⟩ : Stack).pop = .ok ⟨n, B⟩ := by
  simp [pop]

/-- On a saved path, the frame re-entered at the bottom of the path is the path's first
frame, marked when it is the only one. -/
theorem frameAt_markTop (fp : Nat) (B : List Frame) (F : Frame) (P : List Frame) :
    (⟨fp, markTop (B ++ F :: P)⟩ : Stack).frameAt B.length = if P = [] then { F with resume := true } else F := by
  split
  · subst P
    simp
  · rw [markTop_append _ (List.cons_ne_nil _ _), markTop_cons _ ‹_›]
    simp [frameAt, List.getElem_append_right (le_refl _)]

theorem frameAt_markTop_ip (fp : Nat) (B : List Frame) (F : Frame) (P : List Frame) :
    ((⟨fp, markTop (B ++ F :: P)⟩ : Stack).frameAt B.length).ip = F.ip := by
  rw [frameAt_markTop]
  split <;> rfl

end Stack

namespace Context

theorem unwinding_concat {c : Context R S} {fp : Nat} {B : List Frame} {F : Frame}
    (h : c.stack = ⟨fp, B ++ [F]⟩) : c.unwinding = F.resume := by
  simp [unwinding, Stack.top, h]

theorem unwinding_markTop {c : Context R S} {fs : List Frame} (hne : fs ≠ [])
    (h : c.stack.frames = markTop fs) : c.unwinding = true := by
  obtain ⟨B, F, rfl⟩ := (List.eq_nil_or_concat fs).resolve_left hne
  rw [List.concat_eq_append, markTop_concat] at h
  simp [unwinding, Stack.top, h]

/-- `Yield` under an unmarked top frame stores the value, marks the frame and raises
the unwind sentinel. -/
theorem yield_suspends [Inhabited S] {c : Context R S} {fp : Nat} {B : List Frame} {F : Frame} (v : R)
    (hstop : c.stop = false) (h : c.stack = ⟨fp, B ++ [F]⟩) (hF : F.resume = false) :
    c.yield v = ({ c with stack := ⟨fp, markTop (B ++ [F])⟩, send := default, recv := v }, .error .unwind) := by
  simp [yield, setTopResume, modifyStack, Stack.top, Stack.setFrame, h, hstop, hF]

/-- `Yield` under the marked top frame clears the mark and returns. -/
theorem yield_resumes [Inhabited S] {c : Context R S} {fp : Nat} {B : List Frame} {F : Frame} (v : R)
    (hstop : c.stop = false) (h : c.stack = ⟨fp, markTop (B ++ [F])⟩) (hF : F.resume = false) :
    c.yield v = ({ c with stack := ⟨fp, B ++ [F]⟩ }, .ok c.send) := by
  rw [markTop_concat] at h
  cases F
  simp_all [yield, setTopResume, modifyStack, Stack.top, Stack.setFrame]

theorem setIP_concat {c : Context R S} {fp : Nat} {B : List Frame} {F : Frame} (pc : Nat)
    (h : c.stack = ⟨fp, B ++ [F]⟩) : (c.setIP (some B.length) pc).stack = ⟨fp, B ++ [{ F with ip := pc }]⟩ := by
  simp [setIP, modifyStack, h, Stack.setFrame_push]

/-- Re-entering a saved frame at the `IP` it holds writes nothing. -/
theorem setIP_frameAt {c : Context R S} {d : Nat} (hd : d < c.stack.frames.length) :
    c.setIP (some d) (c.stack.frameAt d).ip = c := by
  cases c
  simp only [setIP, modifyStack]
  congr
  exact Stack.setFrame_frameAt hd

/-- Re-entering the first frame of a saved path at its `IP`. -/
theorem setIP_markTop {c : Context R S} {fp : Nat} {B : List Frame} {F : Frame} {P : List Frame}
    (h : c.stack = ⟨fp, markTop (B ++ F :: P)⟩) : c.setIP (some B.length) F.ip = c := by
  have hd : B.length < c.stack.frames.length := by simp [h]
  rw [← Stack.frameAt_markTop_ip fp B F P, ← h]
  exact setIP_frameAt hd

theorem appendDefer_concat {c : Context R S} {fp : Nat} {B : List Frame} {F : Frame} (q : Nat)
    (h : c.stack = ⟨fp, B ++ [F]⟩) :
    (c.appendDefer (some B.length) q).stack = ⟨fp, B ++ [{ F with defers := F.defers ++ [q] }]⟩ := by
  simp [appendDefer, modifyStack, h, Stack.setFrame_push]

theorem setLocal_concat {c : Context R S} {fp : Nat} {B : List Frame} {F : Frame} (slot v : Nat)
    (h : c.stack = ⟨fp, B ++ [F]⟩) :
    (c.setLocal (some B.length) slot v).stack = ⟨fp, B ++ [{ F with locals := F.locals.set slot v }]⟩ := by
  simp [setLocal, modifyStack, h, Stack.setFrame_push]

theorem getLocal_concat {c : Context R S} {fp : Nat} {B : List Frame} {F : Frame} (slot : Nat)
    (h : c.stack = ⟨fp, B ++ [F]⟩) : c.getLocal (some B.length) slot = F.locals.getD slot 0 := by
  simp [getLocal, h]

end Context

/-! ## How a call and a body end, against what they had left to run -/

section Results

variable (prog : Nat → Proc R)

/-- How a call that started above the frames `B` ended, against the meaning `M` of
what it had left to run.  Either it returned: `B` is the stack again and `M` yields
nothing; or it suspended: above `B` lie the frames of a path the call leads into,
the top one marked, and `M` is the yielded value followed by the rest of that path. -/
def CallRes (B : List Frame) (q : Nat) (M : List R → Outcome → Prop) (c' : Context R S) (o : Outcome) : Prop :=
  c'.stop = false ∧
    ((o.isUnwinding = false ∧ c'.stack = ⟨B.length, B⟩ ∧ M [] o) ∨
      (o.isUnwinding = true ∧ ∃ P : List (Nat × Frame), c'.stack.frames = markTop (B ++ P.map Prod.snd) ∧
        PathOK prog P ∧ Leads prog q (P.head?.map Prod.fst) ∧ ∀ ys o', DFinish prog P ys o' → M (c'.recv :: ys) o'))

/-- How the body of `p`, running in the frame just above `B`, ended, against the
meaning `M` of what the call had left to run.  Either it ended without suspending:
its frame `F` is the top of the stack and `M` is `F`'s deferred callees; or it
suspended with its frame first on the saved path. -/
def BodyRes (B : List Frame) (p : Nat) (M : List R → Outcome → Prop) (c' : Context R S) (o : Outcome) : Prop :=
  c'.stop = false ∧
    ((o.isUnwinding = false ∧ ∃ F : Frame, F.resume = false ∧ FrameOK prog p F ∧
        c'.stack = ⟨B.length + 1, B ++ [F]⟩ ∧ ∀ ys o', DEpi prog F.defers o ys o' → M ys o') ∨
      (o.isUnwinding = true ∧ ∃ (F : Frame) (P : List (Nat × Frame)),
        c'.stack.frames = markTop (B ++ F :: P.map Prod.snd) ∧ PathOK prog ((p, F) :: P) ∧
        ∀ ys o', DFinish prog ((p, F) :: P) ys o' → M (c'.recv :: ys) o'))

variable {prog}

theorem CallRes.mono {B : List Frame} {q : Nat} {M M' : List R → Outcome → Prop} {c' : Context R S} {o : Outcome}
    (hM : ∀ ys o, M ys o → M' ys o) (h : CallRes prog B q M c' o) : CallRes prog B q M' c' o := by
  obtain ⟨hstop, ⟨ho, hs, hm⟩ | ⟨ho, P, hs, hP, hl, hm⟩⟩ := h
  · exact ⟨hstop, .inl ⟨ho, hs, hM _ _ hm⟩⟩
  · exact ⟨hstop, .inr ⟨ho, P, hs, hP, hl, fun ys o' h => hM _ _ (hm ys o' h)⟩⟩

theorem BodyRes.mono {B : List Frame} {p : Nat} {M M' : List R → Outcome → Prop} {c' : Context R S} {o : Outcome}
    (hM : ∀ ys o, M ys o → M' ys o) (h : BodyRes prog B p M c' o) : BodyRes prog B p M' c' o := by
  obtain ⟨hstop, ⟨ho, F, hF, hok, hs, hm⟩ | ⟨ho, F, P, hs, hP, hm⟩⟩ := h
  · exact ⟨hstop, .inl ⟨ho, F, hF, hok, hs, fun ys o' h => hM _ _ (hm ys o' h)⟩⟩
  · exact ⟨hstop, .inr ⟨ho, F, P, hs, hP, fun ys o' h => hM _ _ (hm ys o' h)⟩⟩

end Results

theorem CallRes.returned {prog : Nat → Proc R} {B : List Frame} {q : Nat} {M : List R → Outcome → Prop}
    {c' : Context R S} {o : Outcome} (h : CallRes prog B q M c' o) (ho : o.isUnwinding = false) :
    c'.stop = false ∧ c'.stack = ⟨B.length, B⟩ ∧ M [] o := by
  obtain ⟨hstop, ⟨-, hs, hm⟩ | ⟨ho', -⟩⟩ := h
  · exact ⟨hstop, hs, hm⟩
  · simp [ho] at ho'

theorem CallRes.suspended {prog : Nat → Proc R} {B : List Frame} {q : Nat} {M : List R → Outcome → Prop}
    {c' : Context R S} {o : Outcome} (h : CallRes prog B q M c' o) (ho : o.isUnwinding = true) :
    c'.stop = false ∧ ∃ P : List (Nat × Frame), c'.stack.frames = markTop (B ++ P.map Prod.snd) ∧
      PathOK prog P ∧ Leads prog q (P.head?.map Prod.fst) ∧ ∀ ys o', DFinish prog P ys o' → M (c'.recv :: ys) o' := by
  obtain ⟨hstop, ⟨ho', -⟩ | ⟨-, hP⟩⟩ := h
  · simp [ho] at ho'
  · exact ⟨hstop, hP⟩

@[simp] theorem Outcome.isUnwinding_leaveFrame (o : Outcome) : o.leaveFrame.isUnwinding = o.isUnwinding := by
  cases o <;> rfl

/-- A procedure whose body is one call returns what the callee returns and leads where
the callee leads. -/
theorem CallRes.through {prog : Nat → Proc R} {B : List Frame} {q q' : Nat} {M M' : List R → Outcome → Prop}
    {c' : Context R S} {o : Outcome} (hq : (prog q).body = [.call q']) (hM : ∀ ys o, M' ys o → M ys o)
    (h : CallRes prog B q' M' c' o) : CallRes prog B q M c' o := by
  obtain ⟨hstop, ⟨ho, hs, hm⟩ | ⟨ho, P, hs, hP, hl, hm⟩⟩ := h
  · exact ⟨hstop, .inl ⟨ho, hs, hM _ _ hm⟩⟩
  · exact ⟨hstop, .inr ⟨ho, P, hs, hP, .call hq hl, fun ys o' h => hM _ _ (hm ys o' h)⟩⟩

theorem unmarked_concat {B : List Frame} {F : Frame} (hB : ∀ f ∈ B, f.resume = false) (hF : F.resume = false) :
    ∀ f ∈ B ++ [F], f.resume = false := fun f hf =>
  (List.mem_append.1 hf).elim (hB f) fun h => (List.mem_singleton.1 h) ▸ hF

/-! ## One induction on fuel -/

section Resume

variable [Inhabited S] (prog : Nat → Proc R)

/-- A call started on settled frames `B` ends as `CallRes` says against its direct run,
and a calm callee never suspends. -/
def CallSpec (n : Nat) : Prop :=
  ∀ (B : List Frame) (q : Nat) (c c' : Context R S) (o : Outcome), (∀ f ∈ B, f.resume = false) →
    c.stack = ⟨B.length, B⟩ → c.stop = false → (isExpr (prog q).body = false ∨ B ≠ []) →
    callProc prog n q c = some (c', o) →
    CallRes prog B q (DCall prog q) c' o ∧ (Calm prog q → o.isUnwinding = false)

/-- The body of a framed `p` from `pc`, in its frame `F` just above `B`. -/
def BodySpec (n : Nat) : Prop :=
  ∀ (B : List Frame) (p : Nat) (F : Frame) (pc : Nat) (c c' : Context R S) (o : Outcome),
    (∀ f ∈ B, f.resume = false) → isExpr (prog p).body = false → F.resume = false → FrameOK prog p F →
    c.stack = ⟨B.length + 1, B ++ [F]⟩ → c.stop = false →
    runBody prog n (prog p).body (some B.length) pc c = some (c', o) →
    BodyRes prog B p (DRest prog p { F with ip := pc } .normal) c' o ∧ (Calm prog p → o.isUnwinding = false)

/-- The epilogue of a body that ended without suspending pops its frame after its
deferred callees. -/
def EpilogueSpec (n : Nat) : Prop :=
  ∀ (B : List Frame) (p : Nat) (F : Frame) (c c' : Context R S) (o o' : Outcome),
    (∀ f ∈ B, f.resume = false) → F.resume = false → FrameOK prog p F →
    c.stack = ⟨B.length + 1, B ++ [F]⟩ → c.stop = false → o.isUnwinding = false →
    epilogue prog n B.length ((prog p).body.any Stmt.isDefer) c o = some (c', o') →
    c'.stop = false ∧ c'.stack = ⟨B.length, B⟩ ∧ o'.isUnwinding = false ∧ DEpi prog F.defers o [] o'

/-- The epilogue closure's deferred calls, all calm, and then `Pop`. -/
def DeferredSpec (n : Nat) : Prop :=
  ∀ (B : List Frame) (F : Frame) (qs : List Nat) (c c' : Context R S) (raised r : Option Outcome),
    (∀ f ∈ B, f.resume = false) → F.resume = false → c.stack = ⟨B.length + 1, B ++ [F]⟩ → c.stop = false →
    (∀ q ∈ qs, Calm prog q) → runDeferred prog n (qs.map .call ++ [.pop]) c raised = some (c', r) →
    c'.stop = false ∧ c'.stack = ⟨B.length, B⟩ ∧ DDefer prog qs raised [] r ∧
      ((∀ o ∈ raised, o.isUnwinding = false) → ∀ o ∈ r, o.isUnwinding = false)

/-- A call that re-enters the saved path `P` above `B` ends as `CallRes` says against
the rest of the direct run that `P` stands for. -/
def ReplayCallSpec (n : Nat) : Prop :=
  ∀ (B : List Frame) (q : Nat) (P : List (Nat × Frame)) (c c' : Context R S) (o : Outcome),
    (∀ f ∈ B, f.resume = false) → PathOK prog P → Leads prog q (P.head?.map Prod.fst) → (P ≠ [] ∨ B ≠ []) →
    c.stack = ⟨B.length, markTop (B ++ P.map Prod.snd)⟩ → c.stop = false →
    callProc prog n q c = some (c', o) → CallRes prog B q (DFinish prog P) c' o

/-- The body of the first frame `F` of a saved path, re-entered at the statement its
`IP` records. -/
def ReplayBodySpec (n : Nat) : Prop :=
  ∀ (B : List Frame) (p : Nat) (F : Frame) (P : List (Nat × Frame)) (c c' : Context R S) (o : Outcome),
    (∀ f ∈ B, f.resume = false) → PathOK prog ((p, F) :: P) →
    c.stack = ⟨B.length + 1, markTop (B ++ F :: P.map Prod.snd)⟩ → c.stop = false →
    runBody prog n (prog p).body (some B.length) (F.ip - 1) c = some (c', o) →
    BodyRes prog B p (DFinish prog ((p, F) :: P)) c' o

/-- The six specifications at one fuel. -/
structure Resumable (n : Nat) : Prop where
  call : CallSpec (S := S) prog n
  body : BodySpec (S := S) prog n
  epilogue : EpilogueSpec (S := S) prog n
  deferred : DeferredSpec (S := S) prog n
  replayCall : ReplayCallSpec (S := S) prog n
  replayBody : ReplayBodySpec (S := S) prog n

variable {prog}

theorem deferredSpec_succ {n : Nat} (ih : Resumable (S := S) prog n) : DeferredSpec (S := S) prog (n + 1) := by
  intro B F qs c c' raised r hB hF hs hstop hcalm h
  cases qs with
  | nil =>
    simp only [List.map_nil, List.nil_append, runDeferred, hs, Stack.pop_concat] at h
    cases n with
    | zero => simp [runDeferred] at h
    | succ m =>
      simp only [runDeferred, Option.some.injEq, Prod.mk.injEq] at h
      obtain ⟨rfl, rfl⟩ := h
      exact ⟨hstop, rfl, .nil, id⟩
  | cons q qs =>
    simp only [List.map_cons, List.cons_append, runDeferred] at h
    cases hcall : callProc prog n q c with
    | none => simp [hcall] at h
    | some r₁ =>
      obtain ⟨c₁, o₁⟩ := r₁
      obtain ⟨hres, hcalm₁⟩ := ih.call (B ++ [F]) q c c₁ o₁ (unmarked_concat hB hF) (by simpa using hs) hstop
        (.inr (by simp)) hcall
      have ho₁ := hcalm₁ (hcalm q (List.mem_cons_self _ _))
      obtain ⟨hstop₁, hs₁, hq⟩ := hres.returned ho₁
      have hcalm' : ∀ q ∈ qs, Calm prog q := fun q hq => hcalm q (List.mem_cons_of_mem _ hq)
      simp only [hcall] at h
      cases o₁ with
      | normal =>
        obtain ⟨hstop', hs', hd, hr⟩ := ih.deferred B F qs c₁ c' raised r hB hF (by simpa using hs₁) hstop₁ hcalm' h
        exact ⟨hstop', hs', DDefer.normal hq hd, hr⟩
      | unwinding k => simp [Outcome.isUnwinding] at ho₁
      | panicking text =>
        obtain ⟨hstop', hs', hd, hr⟩ := ih.deferred B F qs c₁ c' _ r hB hF (by simpa using hs₁) hstop₁ hcalm' h
        exact ⟨hstop', hs', DDefer.raise hq (by simp) hd, fun _ => hr (by simp [Outcome.isUnwinding])⟩

theorem epilogueSpec_succ (hcalm : CalmDefers prog) {n : Nat}
    (ih : Resumable (S := S) prog n) : EpilogueSpec (S := S) prog (n + 1) := by
  intro B p F c c' o o' hB hF hok hs hstop ho h
  simp only [Runtime.epilogue, Context.unwinding_concat hs, hF, Bool.false_eq_true, if_false] at h
  cases hd : (prog p).body.any Stmt.isDefer with
  | true =>
    simp only [hd, if_true, hs, Stack.frameAt_concat] at h
    split at h
    · cases h
    · rename_i c₁ raised hr
      simp only [Option.some.injEq, Prod.mk.injEq] at h
      obtain ⟨rfl, rfl⟩ := h
      obtain ⟨hstop₁, hs₁, hdd, hun⟩ := ih.deferred B F _ c c₁ none raised hB hF hs hstop
        (fun q hq => hcalm p q (hok q (List.mem_reverse.1 hq))) hr
      refine ⟨hstop₁, hs₁, ?_, raised, hdd, rfl⟩
      cases raised with
      | none => exact ho
      | some o₁ => exact hun (by simp) o₁ rfl
  | false =>
    have hnil : F.defers = [] := List.eq_nil_iff_forall_not_mem.2 fun q hq => by
      have : (prog p).body.any Stmt.isDefer = true := List.any_eq_true.2 ⟨_, hok q hq, rfl⟩
      simp [hd] at this
    simp only [hd, Bool.false_eq_true, if_false, hs, Stack.pop_concat, Option.some.injEq, Prod.mk.injEq] at h
    obtain ⟨rfl, rfl⟩ := h
    exact ⟨hstop, rfl, ho, none, by rw [hnil]; exact .nil, rfl⟩

theorem Calm.no_yield {p : Nat} {v : R} (h : Calm prog p) : Stmt.yield v ∉ (prog p).body := by
  cases h with
  | intro hy _ => exact hy v

theorem Calm.callee {p q : Nat} (h : Calm prog p) (hq : Stmt.call q ∈ (prog p).body) : Calm prog q := by
  cases h with
  | intro _ hc => exact hc q hq

theorem bodySpec_succ {n : Nat} (ih : Resumable (S := S) prog n) : BodySpec (S := S) prog (n + 1) := by
  intro B p F pc c c' o hB hframed hF hok hs hstop h
  -- a statement that stops the body here, in frame `F`
  have stop : ∀ {o₁ : Outcome}, (∀ {l d}, DBody prog p pc l d [] l d o₁) → o₁.isUnwinding = false →
      some (c, o₁) = some (c', o) →
      BodyRes prog B p (DRest prog p { F with ip := pc } .normal) c' o ∧ (Calm prog p → o.isUnwinding = false) := by
    intro o₁ hb ho₁ he
    cases he
    exact ⟨⟨hstop, .inl ⟨ho₁, F, hF, hok, hs, fun _ _ he => drest_stop hb he⟩⟩, fun _ => ho₁⟩
  -- a statement that passes control on in the frame, rewritten to `F'`
  have next : ∀ {G : Frame} {pc' : Nat} {c₁ : Context R S}, G.resume = false → FrameOK prog p G →
      c₁.stack = ⟨B.length + 1, B ++ [G]⟩ → c₁.stop = false →
      (∀ {ys l d o}, DBody prog p pc' G.locals G.defers ys l d o → DBody prog p pc F.locals F.defers ys l d o) →
      runBody prog n (prog p).body (some B.length) pc' c₁ = some (c', o) →
      BodyRes prog B p (DRest prog p { F with ip := pc } .normal) c' o ∧ (Calm prog p → o.isUnwinding = false) := by
    intro G pc' c₁ hG hokG hs₁ hstop₁ hstep h
    obtain ⟨hres, hcalm⟩ := ih.body B p G pc' c₁ c' o hB hframed hG hokG hs₁ hstop₁ h
    exact ⟨hres.mono fun _ _ => drest_step hstep, hcalm⟩
  rw [runBody] at h
  cases hpc : (prog p).body[pc]? with
  | none =>
    simp only [hpc] at h
    exact stop (DBody.done hpc) rfl h
  | some st =>
    have hmem := List.getElem?_mem hpc
    cases st <;> simp only [hpc] at h
    case yield v =>
      rw [Context.yield_suspends (c := c.setIP (some B.length) (pc + 1)) v hstop (Context.setIP_concat (pc + 1) hs) hF] at h
      cases h
      refine ⟨⟨hstop, .inr ⟨rfl, { F with ip := pc + 1 }, [], rfl,
        .cons hframed (Nat.succ_pos pc) hF hok (.inl ⟨v, hpc, rfl⟩) .nil, fun ys o' hf => ?_⟩⟩,
        fun hc => absurd hmem hc.no_yield⟩
      cases hf with
      | cons hrest hr =>
        obtain ⟨rfl, rfl⟩ := dfinish_nil_inv hrest
        exact drest_yield hpc hr
    case call q =>
      have hs₁ := Context.setIP_concat (pc + 1) hs
      cases hcall : callProc prog n q (c.setIP (some B.length) (pc + 1)) with
      | none => simp [hcall] at h
      | some r₁ =>
        obtain ⟨c₂, o₂⟩ := r₁
        obtain ⟨hres, hcalm₂⟩ := ih.call (B ++ [{ F with ip := pc + 1 }]) q (c.setIP (some B.length) (pc + 1)) c₂ o₂
          (unmarked_concat hB hF)
          (by simpa using hs₁) hstop (.inr (by simp)) hcall
        simp only [hcall] at h
        cases o₂ with
        | normal =>
          obtain ⟨hstop₂, hs₂, hq⟩ := hres.returned rfl
          obtain ⟨hres', hcalm'⟩ := ih.body B p { F with ip := pc + 1 } (pc + 1) c₂ c' o hB hframed hF hok
            (by simpa using hs₂) hstop₂ h
          exact ⟨hres'.mono fun _ _ => drest_call hpc hq, hcalm'⟩
        | unwinding k =>
          cases h
          obtain ⟨hstop₂, P, hs₂, hP, hl, hm⟩ := hres.suspended rfl
          refine ⟨⟨hstop₂, .inr ⟨rfl, { F with ip := pc + 1 }, P, by simpa using hs₂,
            .cons hframed (Nat.succ_pos pc) hF hok (.inr ⟨q, hpc, hl⟩) hP, fun ys o' hf => ?_⟩⟩,
            fun hc => by simpa using hcalm₂ (hc.callee hmem)⟩
          cases hf with
          | cons hrest hr => exact drest_call hpc (hm _ _ hrest) hr
        | panicking text =>
          cases h
          obtain ⟨hstop₂, hs₂, hq⟩ := hres.returned rfl
          exact ⟨⟨hstop₂, .inl ⟨rfl, { F with ip := pc + 1 }, hF, hok, by simpa using hs₂,
            fun _ _ he => by simpa using drest_call hpc hq ((drest_of_ne (by simp)).2 he)⟩⟩, fun _ => rfl⟩
    case panic text => exact stop (DBody.panic hpc) rfl h
    case defer q =>
      refine next (G := { F with defers := F.defers ++ [q] }) hF (fun q' hq' => ?_) (Context.appendDefer_concat q hs)
        hstop (DBody.defer hpc) h
      rcases List.mem_append.1 hq' with hq' | hq'
      · exact hok q' hq'
      · exact (List.mem_singleton.1 hq') ▸ hmem
    case ret => exact stop (DBody.ret hpc) rfl h
    case loop slot target =>
      rw [Context.getLocal_concat slot hs] at h
      split at h
      · exact next (G := { F with locals := F.locals.set slot (F.locals.getD slot 0 - 1) }) hF hok
          (Context.setLocal_concat slot _ hs) hstop (DBody.loopTake hpc ‹_›) h
      · exact next hF hok hs hstop (DBody.loopSkip hpc (by omega)) h

theorem isExpr_cases {body : List (Stmt R)} (h : isExpr body = true) :
    body = [] ∨ (∃ v, body = [.yield v]) ∨ (∃ q, body = [.call q]) ∨ ∃ text, body = [.panic text] := by
  match body, h with
  | [], _ => exact .inl rfl
  | [.yield v], _ => exact .inr (.inl ⟨v, rfl⟩)
  | [.call q], _ => exact .inr (.inr (.inl ⟨q, rfl⟩))
  | [.panic text], _ => exact .inr (.inr (.inr ⟨text, rfl⟩))
  | [.defer _], h | [.ret], h | [.loop _ _], h => nomatch h

/-- A body that is one call, without a frame, is a tail call. -/
theorem runBody_call_single {m q : Nat} {c c' : Context R S} {o : Outcome}
    (h : runBody prog (m + 1) [.call q] none 0 c = some (c', o)) : callProc prog m q c = some (c', o) := by
  simp only [runBody, List.getElem?_cons_zero, Context.setIP] at h
  cases hc : callProc prog m q c with
  | none => simp [hc] at h
  | some r =>
    obtain ⟨c₂, o₂⟩ := r
    rw [hc] at h
    cases o₂ <;> try exact h
    cases m <;> simp_all [runBody]

/-- A procedure without a frame, called afresh: its one statement. -/
theorem callSpec_plain {n : Nat} (ih : ∀ m < n, Resumable (S := S) prog m) {B : List Frame} {q : Nat}
    {c c' : Context R S} {o : Outcome} (hx : isExpr (prog q).body = true) (hB : ∀ f ∈ B, f.resume = false)
    (hne : B ≠ []) (hs : c.stack = ⟨B.length, B⟩) (hstop : c.stop = false)
    (h : runBody prog n (prog q).body none 0 c = some (c', o)) :
    CallRes prog B q (DCall prog q) c' o ∧ (Calm prog q → o.isUnwinding = false) := by
  obtain ⟨m, rfl⟩ : ∃ m, n = m + 1 := ⟨n - 1, by cases n <;> simp_all [runBody]⟩
  rcases isExpr_cases hx with hq | ⟨v, hq⟩ | ⟨q', hq⟩ | ⟨text, hq⟩ <;> rw [hq] at h
  · simp only [runBody, List.getElem?_nil, Option.some.injEq, Prod.mk.injEq] at h
    obtain ⟨rfl, rfl⟩ := h
    exact ⟨⟨hstop, .inl ⟨rfl, hs, dcall_nil hq⟩⟩, fun _ => rfl⟩
  · obtain ⟨B', f, rfl⟩ := (List.eq_nil_or_concat B).resolve_left hne
    rw [List.concat_eq_append] at hs hB
    simp only [runBody, List.getElem?_cons_zero, Context.setIP,
      Context.yield_suspends v hstop hs (hB f (by simp))] at h
    cases h
    refine ⟨⟨hstop, .inr ⟨rfl, [], by simp, .nil, .yield hq, fun ys o' hf => ?_⟩⟩,
      fun hc => (hc.no_yield (v := v) (by simp [hq])).elim⟩
    obtain ⟨rfl, rfl⟩ := dfinish_nil_inv hf
    exact dcall_of_dbody (DBody.yield (by simp [hq]) (DBody.done (by simp [hq])))
  · obtain ⟨hres, hcalm⟩ := (ih m (by omega)).call B q' c c' o hB hs hstop (.inr hne) (runBody_call_single h)
    exact ⟨hres.through hq fun _ _ => dcall_call hq, fun hc => hcalm (hc.callee (by simp [hq]))⟩
  · simp only [runBody, List.getElem?_cons_zero, Option.some.injEq, Prod.mk.injEq] at h
    obtain ⟨rfl, rfl⟩ := h
    exact ⟨⟨hstop, .inl ⟨rfl, hs, dcall_of_dbody (DBody.panic (by simp [hq]))⟩⟩, fun _ => rfl⟩

/-- The epilogue of a framed call: after a body that ended, it runs the deferred callees
and pops the frame; after a body that suspended, it leaves the marked frames alone. -/
theorem callRes_epilogue {n q : Nat} {B : List Frame} {M M' : List R → Outcome → Prop} {c₂ c₃ : Context R S}
    {o₁ o₂ : Outcome} (ih : Resumable (S := S) prog n) (hx : isExpr (prog q).body = false)
    (hB : ∀ f ∈ B, f.resume = false) (hM : ∀ ys o, M ys o → M' ys o) (hres : BodyRes prog B q M c₂ o₁)
    (he : epilogue prog n B.length ((prog q).body.any Stmt.isDefer) c₂ o₁ = some (c₃, o₂)) :
    CallRes prog B q M' c₃ o₂.leaveFrame ∧ (o₁.isUnwinding = false → o₂.leaveFrame.isUnwinding = false) := by
  obtain ⟨hstop₂, ⟨ho₁, F, hF, hok, hs₂, hm⟩ | ⟨ho₁, F, P, hs₂, hP, hm⟩⟩ := hres
  · obtain ⟨hstop₃, hs₃, ho₂, hd⟩ := ih.epilogue B q F c₂ c₃ o₁ o₂ hB hF hok hs₂ hstop₂ ho₁ he
    rw [Outcome.leaveFrame_of_not_unwinding ho₂]
    exact ⟨⟨hstop₃, .inl ⟨ho₂, hs₃, hM _ _ (hm [] o₂ hd)⟩⟩, fun _ => ho₂⟩
  · cases n with
    | zero => simp [epilogue] at he
    | succ k =>
      simp only [epilogue, Context.unwinding_markTop (by simp) hs₂, if_true, Option.some.injEq,
        Prod.mk.injEq] at he
      obtain ⟨rfl, rfl⟩ := he
      refine ⟨⟨hstop₂, .inr ⟨by simpa using ho₁, (q, F) :: P, hs₂, hP, .framed hx,
        fun ys o' hf => hM _ _ (hm ys o' hf)⟩⟩, fun h => by simp [h] at ho₁⟩

theorem callSpec_succ {n : Nat} (ih : ∀ m ≤ n, Resumable (S := S) prog m) : CallSpec (S := S) prog (n + 1) := by
  intro B q c c' o hB hs hstop hne h
  rw [callProc] at h
  cases hx : isExpr (prog q).body with
  | true =>
    simp only [compileFuncBody, hx, if_true] at h
    exact callSpec_plain (c := { c with trace := c.trace ++ [q] }) (fun m hm => ih m (by omega)) hx hB
      (hne.resolve_left (by simp [hx])) hs hstop h
  | false =>
    simp only [compileFuncBody, hx, Bool.false_eq_true, if_false, hs, Stack.push_settled, Stack.frameAt_push_ip,
      if_true, Context.modifyStack, Stack.setFrame_push] at h
    split at h
    · cases h
    · rename_i c₂ o₁ hb
      obtain ⟨hres, hcalm₁⟩ := (ih n le_rfl).body B q (Frame.initial (prog q).params) 0
        { c with stack := ⟨B.length + 1, B ++ [Frame.initial (prog q).params]⟩, trace := c.trace ++ [q] } c₂ o₁
        hB hx rfl (fun _ h => (List.not_mem_nil _ h).elim) rfl hstop hb
      split at h
      · cases h
      · rename_i c₃ o₂ he
        simp only [Option.some.injEq, Prod.mk.injEq] at h
        obtain ⟨rfl, rfl⟩ := h
        obtain ⟨hres', hu⟩ := callRes_epilogue (ih n le_rfl) hx hB (fun _ _ => dcall_of_drest) hres he
        exact ⟨hres', fun hc => hu (hcalm₁ hc)⟩

/-- Re-entering a saved frame runs its body again from the statement that suspended:
the yield, which now returns, or the call, which replays the rest of the path. -/
theorem replayBodySpec_succ {n : Nat} (ih : Resumable (S := S) prog n) : ReplayBodySpec (S := S) prog (n + 1) := by
  intro B p F P c c' o hB hP hs hstop h
  obtain _ | ⟨hx, hip, hF, hok, hcase, hrest⟩ := hP
  simp only [runBody] at h
  rcases hcase with ⟨v, hpc, rfl⟩ | ⟨q, hpc, hl⟩ <;> simp only [hpc, Nat.sub_add_cancel hip] at h
  · rw [Context.setIP_markTop hs, Context.yield_resumes (B := B) v hstop (by simpa using hs) hF] at h
    obtain ⟨hres, -⟩ := ih.body B p F F.ip { c with stack := ⟨B.length + 1, B ++ [F]⟩ } c' o hB hx hF hok rfl hstop h
    exact hres.mono fun _ _ hr => dfinish_cons_normal .nil hr
  · rw [Context.setIP_markTop hs] at h
    cases hcall : callProc prog n q c with
    | none => simp [hcall] at h
    | some r₁ =>
      obtain ⟨c₂, o₂⟩ := r₁
      have hres := ih.replayCall (B ++ [F]) q P c c₂ o₂ (unmarked_concat hB hF) hrest hl (.inr (by simp))
        (by simpa using hs) hstop hcall
      simp only [hcall] at h
      cases o₂ with
      | normal =>
        obtain ⟨hstop₂, hs₂, hfin⟩ := hres.returned rfl
        obtain ⟨hres', -⟩ := ih.body B p F F.ip c₂ c' o hB hx hF hok (by simpa using hs₂) hstop₂ h
        exact hres'.mono fun _ _ hr => dfinish_cons_normal hfin hr
      | unwinding k =>
        cases h
        obtain ⟨hstop₂, P', hs₂, hP', hl', hm⟩ := hres.suspended rfl
        refine ⟨hstop₂, .inr ⟨rfl, F, P', by simpa using hs₂, .cons hx hip hF hok (.inr ⟨q, hpc, hl'⟩) hP',
          fun ys o' hf => ?_⟩⟩
        cases hf with
        | cons hrest' hr => exact DFinish.cons (hm _ _ hrest') hr
      | panicking text =>
        cases h
        obtain ⟨hstop₂, hs₂, hfin⟩ := hres.returned rfl
        exact ⟨hstop₂, .inl ⟨rfl, F, hF, hok, by simpa using hs₂,
          fun _ _ he => by simpa using DFinish.cons hfin ((drest_of_ne (by simp)).2 he)⟩⟩

/-- Calling into a saved path again: through procedures without a frame, to the
marked yield or into the path's first frame. -/
theorem replayCallSpec_succ {n : Nat} (ih : ∀ m ≤ n, Resumable (S := S) prog m) :
    ReplayCallSpec (S := S) prog (n + 1) := by
  intro B q P c c' o hB hP hl hne hs hstop h
  rw [callProc] at h
  generalize ht : P.head?.map Prod.fst = t at hl
  cases hl with
  | @framed q hx =>
    obtain _ | ⟨⟨q₀, F⟩, rest⟩ := P
    · simp at ht
    obtain rfl : q = q₀ := by simpa using ht.symm
    have hip : 0 < F.ip := by cases hP; assumption
    have hlen : B.length < (markTop (B ++ F :: rest.map Prod.snd)).length := by simp
    simp only [compileFuncBody, hx, Bool.false_eq_true, if_false, hs, List.map_cons, Stack.push_saved hlen,
      Stack.frameAt_markTop_ip, Nat.pos_iff_ne_zero.1 hip] at h
    split at h
    · cases h
    · rename_i c₂ o₁ hb
      have hres := (ih n le_rfl).replayBody B q F rest
        { c with stack := ⟨B.length + 1, markTop (B ++ F :: rest.map Prod.snd)⟩, trace := c.trace ++ [q] } c₂ o₁
        hB hP rfl hstop hb
      split at h
      · cases h
      · rename_i c₃ o₂ he
        simp only [Option.some.injEq, Prod.mk.injEq] at h
        obtain ⟨rfl, rfl⟩ := h
        exact (callRes_epilogue (ih n le_rfl) hx hB (fun _ _ => id) hres he).1
  | @yield q v hq =>
    obtain rfl : P = [] := by simpa using ht
    obtain ⟨B', f, rfl⟩ := (List.eq_nil_or_concat B).resolve_left (hne.resolve_left (by simp))
    rw [List.concat_eq_append] at hs hB ⊢
    have hs' : c.stack = ⟨(B' ++ [f]).length, markTop (B' ++ [f])⟩ := by rw [hs, List.map_nil, List.append_nil]
    simp only [compileFuncBody, hq, isExpr, Stmt.isExprStmt, if_true] at h
    cases n with
    | zero => simp [runBody] at h
    | succ m =>
      simp only [runBody, List.getElem?_cons_zero, Context.setIP,
        Context.yield_resumes (c := { c with trace := c.trace ++ [q] }) v hstop hs' (hB f (by simp))] at h
      cases m <;> simp only [runBody, List.getElem?_cons_succ, List.getElem?_nil, Option.some.injEq,
        Prod.mk.injEq, reduceCtorEq] at h
      obtain ⟨rfl, rfl⟩ := h
      exact ⟨hstop, .inl ⟨rfl, rfl, .nil⟩⟩
  | @call q q' t hq hl =>
    subst ht
    simp only [compileFuncBody, hq, isExpr, Stmt.isExprStmt, if_true] at h
    cases n with
    | zero => simp [runBody] at h
    | succ m =>
      exact ((ih m (by omega)).replayCall B _ P { c with trace := c.trace ++ [q] } c' o hB hP hl hne hs hstop
        (runBody_call_single h)).through hq fun _ _ => id

theorem resumable_zero : Resumable (S := S) prog 0 where
  call _ _ _ _ _ _ _ _ _ h := by simp [callProc] at h
  body _ _ _ _ _ _ _ _ _ _ _ _ _ h := by simp [runBody] at h
  epilogue _ _ _ _ _ _ _ _ _ _ _ _ _ h := by simp [epilogue] at h
  deferred _ _ _ _ _ _ _ _ _ _ _ _ h := by simp [runDeferred] at h
  replayCall _ _ _ _ _ _ _ _ _ _ _ _ h := by simp [callProc] at h
  replayBody _ _ _ _ _ _ _ _ _ _ _ h := by simp [runBody] at h

/-- Every fuel: each function at `n + 1` relies on the bundle at `n`, and a procedure
without a frame on the bundle at `n - 1`. -/
theorem resumable (hcalm : CalmDefers prog) (n : Nat) :
    Resumable (S := S) prog n := by
  induction n using Nat.strong_induction_on with
  | _ n ih =>
    cases n with
    | zero => exact resumable_zero
    | succ n =>
      have ih' : ∀ m ≤ n, Resumable (S := S) prog m := fun m hm => ih m (by omega)
      exact ⟨callSpec_succ ih', bodySpec_succ (ih' n le_rfl), epilogueSpec_succ hcalm (ih' n le_rfl),
        deferredSpec_succ (ih' n le_rfl), replayCallSpec_succ ih', replayBodySpec_succ (ih' n le_rfl)⟩

end Resume

/-! ## The driver -/

section Saved

variable (prog : Nat → Proc R)

/-- What the driver holds between two calls of the entry point, against the meaning `M`
of what is left of the direct run: an empty stack before the first call, or the saved
path of the last suspension. -/
inductive Saved (entry : Nat) (c : Context R S) (M : List R → Outcome → Prop) : Prop
  | fresh : c.stop = false → c.stack.frames = [] → (∀ ys o, DCall prog entry ys o → M ys o) → Saved entry c M
  | suspended {P : List (Nat × Frame)} : c.stop = false → c.stack.frames = markTop (P.map Prod.snd) →
      PathOK prog P → Leads prog entry (P.head?.map Prod.fst) → (∀ ys o, DFinish prog P ys o → M ys o) →
      Saved entry c M

variable {prog}

/-- A framed entry point leads only into its own frame. -/
theorem Leads.eq_framed {q : Nat} {t : Option Nat} (hx : isExpr (prog q).body = false) (h : Leads prog q t) :
    t = some q := by
  cases h with
  | framed => rfl
  | yield hq => simp [hq, isExpr, Stmt.isExprStmt] at hx
  | call hq => simp [hq, isExpr, Stmt.isExprStmt] at hx

theorem CallRes.saved {entry : Nat} {M : List R → Outcome → Prop} {c' : Context R S} {o : Outcome}
    (h : CallRes prog [] entry M c' o) :
    (o.isUnwinding = false ∧ M [] o) ∨ (o.isUnwinding = true ∧ Saved prog entry c' fun ys o' => M (c'.recv :: ys) o') := by
  obtain ⟨hstop, ⟨ho, -, hm⟩ | ⟨ho, P, hs, hP, hl, hm⟩⟩ := h
  · exact .inl ⟨ho, hm⟩
  · exact .inr ⟨ho, .suspended hstop (by simpa using hs) hP hl hm⟩

end Saved

section Driver

variable [Inhabited S] (prog : Nat → Proc R)

/-- Modelled from the spec: the coroutine's driver resumes the entry point until a call
of it ends without the unwind sentinel, collecting the value of each yield. -/
def drive (fuel entry : Nat) : Nat → Context R S → Option (List R × Outcome)
  | 0, _ => none
  | k + 1, c =>
    match resume prog fuel entry c with
    | some (c', .unwinding _) => (drive fuel entry k c').map fun r => (c'.recv :: r.1, r.2)
    | some (_, o) => some ([], o)
    | none => none

variable {prog}

theorem drive_returned {fuel entry k : Nat} {c c' : Context R S} {o : Outcome}
    (hr : resume prog fuel entry c = some (c', o)) (ho : o.isUnwinding = false) :
    drive prog fuel entry (k + 1) c = some ([], o) := by
  cases o <;> simp_all [drive, Outcome.isUnwinding]

theorem drive_suspended {fuel entry k d : Nat} {c c' : Context R S}
    (hr : resume prog fuel entry c = some (c', .unwinding d)) :
    drive prog fuel entry (k + 1) c = (drive prog fuel entry k c').map fun r => (c'.recv :: r.1, r.2) := by
  simp [drive, hr]

/-- One call of the entry point by the driver: it ends, with the outcome the rest of the
direct run ends with, or it suspends at the next yield, whose value comes next in the
direct run, and leaves the driver a saved path for the rest. -/
theorem resume_saved (hcalm : CalmDefers prog) {fuel entry : Nat}
    (hentry : isExpr (prog entry).body = false) {c c' : Context R S} {M : List R → Outcome → Prop} {o : Outcome}
    (hc : Saved prog entry c M) (h : resume prog fuel entry c = some (c', o)) :
    (o.isUnwinding = false ∧ M [] o) ∨ (o.isUnwinding = true ∧ Saved prog entry c' fun ys o' => M (c'.recv :: ys) o') := by
  have hR := resumable (S := S) hcalm fuel
  cases hc with
  | fresh hstop hs hM =>
    obtain ⟨hres, -⟩ := hR.call [] entry (c.modifyStack fun s => { s with fp := 0 }) c' o (by simp)
      (by simp [Context.modifyStack, hs]) hstop (.inl hentry) h
    exact (hres.mono hM).saved
  | @suspended P hstop hs hP hl hM =>
    have hne : P ≠ [] := by
      rintro rfl
      simpa using hl.eq_framed hentry
    exact ((hR.replayCall [] entry P (c.modifyStack fun s => { s with fp := 0 }) c' o (by simp) hP hl (.inl hne)
      (by simp [Context.modifyStack, hs]) hstop h).mono hM).saved

theorem drive_saved (hcalm : CalmDefers prog) {fuel entry : Nat}
    (hentry : isExpr (prog entry).body = false) :
    ∀ {k : Nat} {c : Context R S} {M : List R → Outcome → Prop} {ys : List R} {o : Outcome},
      Saved prog entry c M → drive prog fuel entry k c = some (ys, o) → M ys o
  | 0, _, _, _, _, _, h => by simp [drive] at h
  | k + 1, c, M, ys, o, hc, h => by
    cases hr : resume prog fuel entry c with
    | none => simp [drive, hr] at h
    | some r =>
      obtain ⟨c', o'⟩ := r
      rcases resume_saved hcalm hentry hc hr with ⟨ho, hm⟩ | ⟨ho, hc'⟩
      · rw [drive_returned hr ho] at h
        cases h
        exact hm
      · obtain ⟨d, rfl⟩ : ∃ d, o' = .unwinding d := by cases o' <;> simp_all [Outcome.isUnwinding]
        rw [drive_suspended hr, Option.map_eq_some'] at h
        obtain ⟨⟨ys', o''⟩, hd, he⟩ := h
        cases he
        exact drive_saved (M := fun ys o' => M (c'.recv :: ys) o') hcalm hentry hc' hd

/-- Suspending and resuming is invisible: when the driver, started on an empty stack,
gets to the end of the coroutine, the values yielded on the way and the outcome are those
of the direct run of the entry point.  The entry point must have a frame, and no deferred
callee may yield. -/
theorem drive_sound (hcalm : CalmDefers prog) {fuel entry k : Nat}
    (hentry : isExpr (prog entry).body = false) {c : Context R S} {ys : List R} {o : Outcome}
    (hstop : c.stop = false) (hempty : c.stack.frames = []) (h : drive prog fuel entry k c = some (ys, o)) :
    DCall prog entry ys o :=
  drive_saved hcalm hentry (.fresh hstop hempty fun _ _ => id) h

end Driver

/-- Scenario S3: `A` calls `B`, which defers `D`, yields and returns. -/
def nestedDefer : Nat → Proc Nat
  | 0 => ⟨[], [.call 1, .ret]⟩
  | 1 => ⟨[], [.defer 2, .yield 7, .ret]⟩
  | _ => ⟨[], []⟩

/-- The context after the first call of `A`: both frames saved, `B`'s marked at its yield
with `D` deferred. -/
def nestedDeferSuspended : Context Nat Nat :=
  ⟨7, 0, false, false, ⟨2, [⟨1, false, [], []⟩, ⟨2, true, [2], []⟩]⟩, [0, 1]⟩

/-- The driver's second call of `A` re-enters both frames, finishes `B`, runs `D` once and
pops both frames: the coroutine yielded one value and ended normally, as the direct run
of `A` does. -/
theorem nestedDefer_drive :
    resume nestedDefer 10 0 emptyContext = some (nestedDeferSuspended, .unwinding 2) ∧
      resume nestedDefer 10 0 nestedDeferSuspended =
        some (⟨7, 0, false, false, ⟨0, []⟩, [0, 1, 0, 1, 2]⟩, .normal) ∧
      drive nestedDefer 10 0 3 emptyContext = some ([7], .normal) ∧ DCall nestedDefer 0 [7] .normal :=
  have hcalm : CalmDefers nestedDefer := fun p q h => by
    rcases p with _ | _ | p <;> simp [nestedDefer] at h
    subst h
    exact .intro (by simp [nestedDefer]) (by simp [nestedDefer])
  have h₁ : resume nestedDefer 10 0 emptyContext = some (nestedDeferSuspended, .unwinding 2) := rfl
  -- evaluated step by step: `rfl` would replay the whole first run at every read of the context
  have h₂ : resume nestedDefer 10 0 nestedDeferSuspended =
      some (⟨7, 0, false, false, ⟨0, []⟩, [0, 1, 0, 1, 2]⟩, .normal) := by
    simp [resume, callProc, runBody, epilogue, runDeferred, nestedDefer, nestedDeferSuspended, compileFuncBody,
      isExpr, Stmt.isExprStmt, Stmt.isDefer, Context.modifyStack, Context.setIP, Context.appendDefer, Context.yield,
      Context.setTopResume, Context.unwinding, Stack.push, Stack.pop, Stack.top, Stack.frameAt, Stack.setFrame,
      Outcome.leaveFrame]
  have hrun : drive nestedDefer 10 0 3 emptyContext = some ([7], .normal) := by
    rw [drive_suspended h₁, drive_returned h₂ rfl]
    rfl
  ⟨h₁, h₂, hrun, drive_sound hcalm (by decide) rfl rfl hrun⟩

/-! ## Where the conditions fail

Each condition of `drive_sound` is needed.  An entry point without a frame yields
on an empty stack; a deferred callee that yields suspends the coroutine from inside
an epilogue, whose `Pop` and other deferred calls still run, so nothing is saved and
the next call starts afresh (the same program shows that `callProc_restores_stack`
needs `NoYield`); and a stopped coroutine cannot be resumed at all.
-/

/-- `func() { coroutine.Yield[int, any](1) }` as the coroutine's entry point. -/
def yieldLiteral : Nat → Proc Nat := fun _ => ⟨[], [.yield 1]⟩

/-- The entry literal is `isExpr`, so it has no prologue: its `Yield` reads the
top of an empty stack. -/
theorem yieldLiteral_yields_on_empty_stack :
    resume yieldLiteral 2 0 emptyContext =
      some ({ emptyContext with trace := [0] }, .panicking "Top of an empty stack") := rfl

/-- An entry point `0` that defers `2` and then `1` and returns; `1` is the
literal `func() { coroutine.Yield[int, any](5) }` and `2` just returns. -/
def yieldingDefer : Nat → Proc Nat
  | 0 => ⟨[], [.defer 2, .defer 1, .ret]⟩
  | 1 => ⟨[], [.yield 5]⟩
  | _ => ⟨[], [.ret]⟩

/-- The deferred `1` yields inside the epilogue of `0`; the epilogue's own
deferred `Pop` and the deferred `2` still run while the sentinel unwinds, so the
coroutine suspends with one framed call active and no frame on the stack. -/
theorem yieldingDefer_suspends_without_frames :
    resume yieldingDefer 20 0 emptyContext =
      some ({ emptyContext with recv := 5, trace := [0, 1, 2] }, .unwinding 1) := rfl

/-- Resumed from that suspension, the entry point finds no frame of its own,
starts afresh and runs both deferred callables a second time, again while
unwinding. -/
theorem yieldingDefer_reruns_defers :
    resume yieldingDefer 20 0 { emptyContext with recv := 5, trace := [0, 1, 2] } =
      some ({ emptyContext with recv := 5, trace := [0, 1, 2, 0, 1, 2] }, .unwinding 1) := rfl

/-- An entry point that defers `1` and yields `7`. -/
def deferThenYield : Nat → Proc Nat
  | 0 => ⟨[], [.defer 1, .yield 7, .ret]⟩
  | _ => ⟨[], [.ret]⟩

/-- The coroutine `deferThenYield` after its first yield: one frame, suspended at
the `Yield`, with the deferred `1` pending. -/
def deferThenYieldSuspended : Context Nat Nat :=
  { emptyContext with recv := 7, stack := ⟨1, [⟨2, true, [1], []⟩]⟩, trace := [0] }

theorem deferThenYield_suspends :
    resume deferThenYield 20 0 emptyContext = some (deferThenYieldSuspended, .unwinding 1) := rfl

/-- Resuming the suspended coroutine after `stop` is set: the pending `Yield`
panics with its first check, the frame keeps `Resume = true`, no epilogue pops,
and the deferred `1` never runs. -/
theorem deferThenYield_stopped_resume_keeps_frame :
    resume deferThenYield 20 0 { deferThenYieldSuspended with stop := true } =
      some ({ deferThenYieldSuspended with stop := true, trace := [0, 0] },
        .panicking "cannot yield from a coroutine that has been stopped") := rfl

end DurableCoroutine.Runtime
