import DurableCoroutine.Runtime.Execution

/-!
# A run that never yields leaves the stack as it found it

`compileFuncBody` gives a procedure a prologue that pushes its frame and a
deferred epilogue that pops it unless the coroutine is unwinding.  When no
procedure of the program yields, nothing marks a frame for resumption, so
`Unwinding()` is false at every epilogue: each call pops exactly the frame it
pushed, after its deferred calls, whether its body returns or panics, and no call
ends with the unwind sentinel.  The four mutually recursive functions of the
semantics are handled together, by induction on the fuel (`Balanced`).
-/

namespace DurableCoroutine.Runtime

variable {R S : Type}

namespace Stack

/-- A stack between the calls of a run that never yields: every frame has been
entered, and none is marked for resumption. -/
structure Settled (s : Stack) : Prop where
  fp_eq : s.fp = s.frames.length
  not_resume : ∀ f ∈ s.frames, f.resume = false

theorem Settled.frameAt_resume {s : Stack} (hs : s.Settled) (d : Nat) :
    (s.frameAt d).resume = false := by
  rw [frameAt, List.getD_eq_getElem?_getD]
  cases h : s.frames[d]? with
  | none => rfl
  | some f => exact hs.not_resume f (List.getElem?_mem h)

theorem Settled.setFrame {s : Stack} (hs : s.Settled) (d : Nat) {f : Frame} (hf : f.resume = false) :
    (s.setFrame d f).Settled :=
  ⟨by simp [Stack.setFrame, hs.fp_eq], fun g hg =>
    (List.mem_or_eq_of_mem_set hg).elim (hs.not_resume g) fun h => h ▸ hf⟩

/-- `Push` on a settled stack appends a zero frame and enters it. -/
theorem Settled.push_eq {s : Stack} (hs : s.Settled) :
    s.push = (⟨s.frames.length + 1, s.frames ++ [Frame.zero]⟩, s.frames.length) := by
  simp [Stack.push, hs.fp_eq]

theorem pop_eq {s : Stack} (h : s.frames ≠ []) : s.pop = .ok ⟨s.fp - 1, s.frames.dropLast⟩ := by
  simp [Stack.pop, h]

theorem setFrame_frameAt {s : Stack} {d : Nat} (hd : d < s.frames.length) :
    s.setFrame d (s.frameAt d) = s := by
  cases s with
  | mk fp frames =>
    simp only [Stack.setFrame, frameAt, Stack.mk.injEq, true_and]
    refine List.ext_getElem? fun i => ?_
    by_cases hi : d = i
    · subst hi
      rw [List.getElem?_set_self hd]
      simp [List.getElem?_eq_getElem hd]
    · rw [List.getElem?_set_ne hi]

theorem frameAt_push_ip (frames : List Frame) :
    ((⟨frames.length + 1, frames ++ [Frame.zero]⟩ : Stack).frameAt frames.length).ip = 0 := by
  simp [frameAt, Frame.zero]

theorem setFrame_push (fp : Nat) (frames : List Frame) (f g : Frame) :
    (⟨fp, frames ++ [f]⟩ : Stack).setFrame frames.length g = ⟨fp, frames ++ [g]⟩ := by
  simp [Stack.setFrame]

/-- What the statements of a procedure do to the stack: rewrite the procedure's own
frame at `d` without marking it for resumption, and nothing when it has no frame. -/
def Rewrites : Option Nat → Stack → Stack → Prop
  | none, s, s' => s' = s
  | some d, s, s' => ∃ f : Frame, f.resume = false ∧ s' = s.setFrame d f

theorem Rewrites.refl {s : Stack} (hs : s.Settled) {d : Option Nat}
    (hd : ∀ i ∈ d, i < s.frames.length) : Rewrites d s s := by
  cases d with
  | none => rfl
  | some d => exact ⟨_, hs.frameAt_resume d, (setFrame_frameAt (hd d rfl)).symm⟩

theorem Rewrites.trans {d : Option Nat} {s₁ s₂ s₃ : Stack} (h₁ : Rewrites d s₁ s₂)
    (h₂ : Rewrites d s₂ s₃) : Rewrites d s₁ s₃ := by
  cases d with
  | none => exact Eq.trans h₂ h₁
  | some d =>
    obtain ⟨f, -, rfl⟩ := h₁
    obtain ⟨g, hg, rfl⟩ := h₂
    exact ⟨g, hg, by simp [Stack.setFrame, List.set_set]⟩

theorem Rewrites.settled {d : Option Nat} {s s' : Stack} (h : Rewrites d s s') (hs : s.Settled) :
    s'.Settled := by
  cases d with
  | none => exact h ▸ hs
  | some d =>
    obtain ⟨f, hf, rfl⟩ := h
    exact hs.setFrame d hf

theorem Rewrites.length {d : Option Nat} {s s' : Stack} (h : Rewrites d s s') :
    s'.frames.length = s.frames.length := by
  cases d with
  | none => rw [h]
  | some d =>
    obtain ⟨f, -, rfl⟩ := h
    simp [Stack.setFrame]

end Stack

namespace Context

theorem unwinding_of_settled {c : Context R S} (hs : c.stack.Settled) : c.unwinding = false := by
  unfold unwinding Stack.top
  cases h : c.stack.frames.getLast? with
  | none => rfl
  | some f => exact hs.not_resume f (List.mem_of_getLast?_eq_some h)

/-! A procedure writes through its frame pointer only into its own frame. -/

theorem setIP_rewrites {c : Context R S} (hs : c.stack.Settled) :
    ∀ d pc, Stack.Rewrites d c.stack (c.setIP d pc).stack
  | none, _ => rfl
  | some d, pc => ⟨{ c.stack.frameAt d with ip := pc }, hs.frameAt_resume d, rfl⟩

theorem appendDefer_rewrites {c : Context R S} (hs : c.stack.Settled) :
    ∀ d callee, Stack.Rewrites d c.stack (c.appendDefer d callee).stack
  | none, _ => rfl
  | some d, callee => ⟨{ c.stack.frameAt d with defers := (c.stack.frameAt d).defers ++ [callee] },
      hs.frameAt_resume d, rfl⟩

theorem setLocal_rewrites {c : Context R S} (hs : c.stack.Settled) :
    ∀ d slot v, Stack.Rewrites d c.stack (c.setLocal d slot v).stack
  | none, _, _ => rfl
  | some d, slot, v => ⟨{ c.stack.frameAt d with locals := (c.stack.frameAt d).locals.set slot v },
      hs.frameAt_resume d, rfl⟩

end Context

/-- A call ending with the unwind sentinel. -/
def Outcome.isUnwinding : Outcome → Bool
  | .unwinding _ => true
  | _ => false

theorem Outcome.leaveFrame_of_not_unwinding {o : Outcome} (h : o.isUnwinding = false) :
    o.leaveFrame = o := by
  cases o <;> simp_all [Outcome.isUnwinding, Outcome.leaveFrame]

/-- No procedure of the program yields. -/
def NoYield (prog : Nat → Proc R) : Prop := ∀ p v, Stmt.yield v ∉ (prog p).body

theorem compileFuncBody_cases (p : Proc R) :
    compileFuncBody p = .plain p.body ∨
      compileFuncBody p = .framed p.params p.body (p.body.any Stmt.isDefer) := by
  unfold compileFuncBody
  split
  · exact .inl rfl
  · exact .inr rfl

section Balance

variable [Inhabited S] (prog : Nat → Proc R)

/-- What a run at fuel `n` keeps, for each function of the semantics: a call leaves a
settled stack as it found it; a body rewrites only its own frame; the epilogue and its
deferred calls pop exactly one frame; and none of them ends with the unwind sentinel. -/
structure Balanced (n : Nat) : Prop where
  call : ∀ p (c c' : Context R S) o, c.stack.Settled → callProc prog n p c = some (c', o) →
    c'.stack = c.stack ∧ o.isUnwinding = false
  body : ∀ body d pc (c c' : Context R S) o, (∀ v, Stmt.yield v ∉ body) → c.stack.Settled →
    (∀ i ∈ d, i < c.stack.frames.length) → runBody prog n body d pc c = some (c', o) →
    Stack.Rewrites d c.stack c'.stack ∧ o.isUnwinding = false
  epilogue : ∀ d hasDefers (c c' : Context R S) o o', c.stack.Settled → c.stack.frames ≠ [] →
    epilogue prog n d hasDefers c o = some (c', o') →
    c'.stack = ⟨c.stack.fp - 1, c.stack.frames.dropLast⟩ ∧ (o.isUnwinding = false → o'.isUnwinding = false)
  deferred : ∀ (fs : List Nat) (c c' : Context R S) raised r, c.stack.Settled → c.stack.frames ≠ [] →
    runDeferred prog n (fs.map .call ++ [.pop]) c raised = some (c', r) →
    c'.stack = ⟨c.stack.fp - 1, c.stack.frames.dropLast⟩ ∧
      ((∀ o ∈ raised, o.isUnwinding = false) → ∀ o ∈ r, o.isUnwinding = false)

variable {prog}

theorem balanced_zero : Balanced (R := R) (S := S) prog 0 where
  call _ _ _ _ _ h := by simp [callProc] at h
  body _ _ _ _ _ _ _ _ _ h := by simp [runBody] at h
  epilogue _ _ _ _ _ _ _ _ h := by simp [epilogue] at h
  deferred _ _ _ _ _ _ _ h := by simp [runDeferred] at h

theorem Balanced.runBody_succ {n : Nat} (ih : Balanced (S := S) prog n) (body : List (Stmt R))
    (d : Option Nat) (pc : Nat) (c c' : Context R S) (o : Outcome) (hy : ∀ v, Stmt.yield v ∉ body)
    (hs : c.stack.Settled) (hd : ∀ i ∈ d, i < c.stack.frames.length)
    (h : runBody prog (n + 1) body d pc c = some (c', o)) :
    Stack.Rewrites d c.stack c'.stack ∧ o.isUnwinding = false := by
  have hrefl := Stack.Rewrites.refl hs hd
  -- the body goes on, in a state its own statements reached
  have next : ∀ {c₁ : Context R S} {pc'}, Stack.Rewrites d c.stack c₁.stack →
      runBody prog n body d pc' c₁ = some (c', o) →
      Stack.Rewrites d c.stack c'.stack ∧ o.isUnwinding = false := fun hr h' =>
    let ⟨hr', ho⟩ := ih.body body d _ _ c' o hy (hr.settled hs) (fun i hi => hr.length ▸ hd i hi) h'
    ⟨hr.trans hr', ho⟩
  rw [runBody] at h
  cases hpc : body[pc]? with
  | none =>
    simp only [hpc, Option.some.injEq] at h
    cases h
    exact ⟨hrefl, rfl⟩
  | some s =>
    cases s <;> simp only [hpc] at h
    case yield v => exact absurd (List.getElem?_mem hpc) (hy v)
    case call callee =>
      have hr := c.setIP_rewrites hs d (pc + 1)
      cases hcall : callProc prog n callee (c.setIP d (pc + 1)) with
      | none =>
        simp only [hcall] at h
        cases h
      | some r =>
        obtain ⟨c₁, o₁⟩ := r
        obtain ⟨hc₁, ho₁⟩ := ih.call callee _ c₁ o₁ (hr.settled hs) hcall
        simp only [hcall] at h
        cases o₁ with
        | normal => exact next (hc₁ ▸ hr) h
        | unwinding k => simp [Outcome.isUnwinding] at ho₁
        | panicking text =>
          cases h
          exact ⟨hc₁ ▸ hr, ho₁⟩
    case panic text =>
      cases h
      exact ⟨hrefl, rfl⟩
    case defer callee => exact next (c.appendDefer_rewrites hs d callee) h
    case ret =>
      cases h
      exact ⟨hrefl, rfl⟩
    case loop slot target =>
      split at h
      · exact next (c.setLocal_rewrites hs d slot _) h
      · exact next hrefl h

theorem Balanced.runDeferred_succ {n : Nat} (ih : Balanced (S := S) prog n) (fs : List Nat)
    (c c' : Context R S) (raised r : Option Outcome) (hs : c.stack.Settled) (hne : c.stack.frames ≠ [])
    (h : runDeferred prog (n + 1) (fs.map .call ++ [.pop]) c raised = some (c', r)) :
    c'.stack = ⟨c.stack.fp - 1, c.stack.frames.dropLast⟩ ∧
      ((∀ o ∈ raised, o.isUnwinding = false) → ∀ o ∈ r, o.isUnwinding = false) := by
  cases fs with
  | nil =>
    simp only [List.map_nil, List.nil_append, runDeferred, Stack.pop_eq hne] at h
    cases n with
    | zero => simp [runDeferred] at h
    | succ m =>
      simp only [runDeferred, Option.some.injEq, Prod.mk.injEq] at h
      obtain ⟨rfl, rfl⟩ := h
      exact ⟨rfl, id⟩
  | cons f fs =>
    simp only [List.map_cons, List.cons_append, runDeferred] at h
    cases hcall : callProc prog n f c with
    | none =>
      simp only [hcall] at h
      cases h
    | some r₁ =>
      obtain ⟨c₁, o₁⟩ := r₁
      obtain ⟨hc₁, ho₁⟩ := ih.call f c c₁ o₁ hs hcall
      simp only [hcall] at h
      have hs₁ : c₁.stack.Settled := hc₁ ▸ hs
      have hne₁ : c₁.stack.frames ≠ [] := hc₁ ▸ hne
      cases o₁ with
      | normal =>
        obtain ⟨h₁, h₂⟩ := ih.deferred fs c₁ c' raised r hs₁ hne₁ h
        exact ⟨h₁.trans (by rw [hc₁]), h₂⟩
      | unwinding k => simp [Outcome.isUnwinding] at ho₁
      | panicking text =>
        obtain ⟨h₁, h₂⟩ := ih.deferred fs c₁ c' _ r hs₁ hne₁ h
        exact ⟨h₁.trans (by rw [hc₁]), fun _ => h₂ (by simp [Outcome.isUnwinding])⟩

theorem Balanced.epilogue_succ {n : Nat} (ih : Balanced (S := S) prog n) (d : Nat) (hasDefers : Bool)
    (c c' : Context R S) (o o' : Outcome) (hs : c.stack.Settled) (hne : c.stack.frames ≠ [])
    (h : Runtime.epilogue prog (n + 1) d hasDefers c o = some (c', o')) :
    c'.stack = ⟨c.stack.fp - 1, c.stack.frames.dropLast⟩ ∧ (o.isUnwinding = false → o'.isUnwinding = false) := by
  simp only [Runtime.epilogue, Context.unwinding_of_settled hs, Bool.false_eq_true, if_false] at h
  cases hasDefers with
  | true =>
    simp only [if_true] at h
    cases hr : runDeferred prog n (((c.stack.frameAt d).defers.reverse.map .call) ++ [.pop]) c none with
    | none =>
      simp only [hr] at h
      cases h
    | some r =>
      obtain ⟨c₁, raised⟩ := r
      simp only [hr, Option.some.injEq, Prod.mk.injEq] at h
      obtain ⟨rfl, rfl⟩ := h
      obtain ⟨hst, hraised⟩ := ih.deferred _ c c₁ none raised hs hne hr
      refine ⟨hst, fun ho => ?_⟩
      cases raised with
      | none => exact ho
      | some o₁ => exact hraised (by simp) o₁ rfl
  | false =>
    simp only [Stack.pop_eq hne, Bool.false_eq_true, if_false, Option.some.injEq, Prod.mk.injEq] at h
    obtain ⟨rfl, rfl⟩ := h
    exact ⟨rfl, id⟩

/-- The prologue on a settled stack: the frame pushed at the top, zero but for the
parameters, and the dispatch from the start. -/
theorem Balanced.callProc_succ (hy : NoYield prog) {n : Nat} (ih : Balanced (S := S) prog n) (p : Nat)
    (c c' : Context R S) (o : Outcome) (hs : c.stack.Settled)
    (h : callProc prog (n + 1) p c = some (c', o)) : c'.stack = c.stack ∧ o.isUnwinding = false := by
  rw [callProc] at h
  rcases compileFuncBody_cases (prog p) with hc | hc <;> simp only [hc] at h
  · exact ih.body _ none 0 { c with trace := c.trace ++ [p] } c' o (hy p) hs (by simp) h
  · rw [hs.push_eq] at h
    simp only [Stack.frameAt_push_ip, eq_self_iff_true, if_true, Context.modifyStack, Stack.setFrame_push] at h
    split at h
    · cases h
    · rename_i c₂ o₁ hb
      split at h
      · cases h
      · rename_i c₃ o₂ he
        simp only [Option.some.injEq, Prod.mk.injEq] at h
        obtain ⟨rfl, rfl⟩ := h
        have hs₁ : Stack.Settled ⟨c.stack.frames.length + 1, c.stack.frames ++ [Frame.initial (prog p).params]⟩ :=
          ⟨by simp, fun g hg => (List.mem_append.1 hg).elim (hs.not_resume g) fun h => by
            rw [List.mem_singleton.1 h]; rfl⟩
        obtain ⟨⟨f, hf, hc₂⟩, ho₁⟩ := ih.body _ (some _) 0 _ c₂ o₁ (hy p) hs₁ (by simp) hb
        have hs₂ : c₂.stack.Settled := hc₂ ▸ hs₁.setFrame _ hf
        rw [Stack.setFrame_push] at hc₂
        obtain ⟨hc₃, ho₂⟩ := ih.epilogue _ _ c₂ c₃ o₁ o₂ hs₂ (by simp [hc₂]) he
        refine ⟨?_, by rw [Outcome.leaveFrame_of_not_unwinding (ho₂ ho₁)]; exact ho₂ ho₁⟩
        rw [hc₃, hc₂]
        simp only [Nat.add_sub_cancel, List.dropLast_concat, ← hs.fp_eq]

/-- Every fuel keeps the balance: each function at `n + 1` calls the others at `n`. -/
theorem balanced (hy : NoYield prog) : ∀ n, Balanced (S := S) prog n
  | 0 => balanced_zero
  | n + 1 =>
    let ih := balanced hy n
    ⟨ih.callProc_succ hy, ih.runBody_succ, ih.epilogue_succ, ih.runDeferred_succ⟩

/-- In a program none of whose procedures yields, a call on a settled stack that returns
leaves the stack exactly as it found it, whether the procedure returned or panicked, and
does not end with the unwind sentinel: every epilogue pops the frame its prologue pushed,
after the procedure's deferred calls. -/
theorem callProc_restores_stack (hy : NoYield prog) {fuel p : Nat} {c c' : Context R S} {o : Outcome}
    (hs : c.stack.Settled) (h : callProc prog fuel p c = some (c', o)) :
    c'.stack = c.stack ∧ o.isUnwinding = false :=
  (balanced hy fuel).call p c c' o hs h

end Balance

/-- An entry point `0` that defers `1`, then calls `2`, which panics. -/
def deferCallPanic : Nat → Proc Nat
  | 0 => ⟨[3], [.defer 1, .call 2, .ret]⟩
  | 1 => ⟨[], [.ret]⟩
  | _ => ⟨[], [.panic "boom"]⟩

/-- The panic of `2` leaves `0` after its epilogue has run the deferred `1` and popped
the frame of `0`: the stack is empty again. -/
theorem deferCallPanic_restores_stack :
    NoYield deferCallPanic ∧ emptyContext.stack.Settled ∧
      callProc deferCallPanic 20 0 emptyContext =
        some ({ emptyContext with trace := [0, 2, 1] }, .panicking "boom") ∧
      ({ emptyContext with trace := [0, 2, 1] } : Context Nat Nat).stack = emptyContext.stack ∧
      (Outcome.panicking "boom").isUnwinding = false :=
  have hy : NoYield deferCallPanic := fun p v => by
    rcases p with _ | _ | p <;> simp [deferCallPanic]
  have hs : emptyContext.stack.Settled := ⟨rfl, by simp [emptyContext]⟩
  have hrun : callProc deferCallPanic 20 0 emptyContext =
      some ({ emptyContext with trace := [0, 2, 1] }, .panicking "boom") := rfl
  ⟨hy, hs, hrun, callProc_restores_stack hy hs hrun⟩

end DurableCoroutine.Runtime
