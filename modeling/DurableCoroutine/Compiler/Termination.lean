import DurableCoroutine.Compiler.Desugar

/-!
# The desugaring pass terminates

`d.desugar` recurses on sub-statements, and also on statements it has just
built: a map range with a key or a value on a range over the collected key
slice, and an array, slice or keyless map range on a counting `for` loop.
`Stmt.depth` weighs a map range above an ordered range, and that above a `for`
loop, so that it drops at every recursive call, built statements included.  In
the model this reads: with at least `depth` fuel the pass never runs out of fuel,
whatever the state of the desugarer and the labels it is passed.
-/

namespace DurableCoroutine.Compiler

variable {E L : Type} {α β : Type}

/-- A computation of the pass that does not end with `outOfFuel`, from any state. -/
def Fueled (x : DesugarM α) : Prop := ∀ d, x.run d ≠ .error .outOfFuel

namespace Fueled

theorem pure (a : α) : Fueled (pure a : DesugarM α) := fun _ h => by cases h

theorem throw {e : DesugarError} (he : e ≠ .outOfFuel) : Fueled (throw e : DesugarM α) :=
  fun _ h => he (Except.error.inj h)

theorem bind {x : DesugarM α} {f : α → DesugarM β} (hx : Fueled x) (hf : ∀ a, Fueled (f a)) :
    Fueled (x >>= f) := by
  intro d h
  rw [StateT.run_bind] at h
  cases hr : x.run d with
  | error e =>
    rw [hr] at h
    cases h
    exact hx d hr
  | ok p => exact hf p.1 p.2 (by rw [hr] at h; exact h)

theorem map {x : DesugarM α} (f : α → β) (hx : Fueled x) : Fueled (f <$> x) := by
  rw [map_eq_pure_bind]
  exact hx.bind fun a => pure (f a)

/-- A computation that only reads or writes the state. -/
theorem ofState {x : DesugarM α} (hx : ∀ d, ∃ p, x.run d = .ok p) : Fueled x := fun d h => by
  obtain ⟨p, hp⟩ := hx d
  rw [hp] at h
  cases h

theorem mapM {f : α → DesugarM β} : ∀ {l : List α}, (∀ a ∈ l, Fueled (f a)) → Fueled (l.mapM f)
  | [], _ => pure []
  | a :: l, h => by
    rw [List.mapM_cons]
    exact (h a (List.mem_cons_self _ _)).bind fun b =>
      (mapM fun a ha => h a (List.mem_cons_of_mem _ ha)).bind fun bs => pure (b :: bs)

theorem optionMapM {f : α → DesugarM β} : ∀ {o : Option α}, (∀ a ∈ o, Fueled (f a)) → Fueled (o.mapM f)
  | none, _ => pure none
  | some a, h => (h a rfl).bind fun b => pure (some b)

end Fueled

namespace Desugarer

theorem newVar_fueled : Fueled newVar := Fueled.ofState fun _ => ⟨_, rfl⟩

theorem newLabel_fueled : Fueled newLabel := Fueled.ofState fun _ => ⟨_, rfl⟩

theorem addUserLabel_fueled (u l : Label) : Fueled (addUserLabel u l) := Fueled.ofState fun _ => ⟨_, rfl⟩

theorem getUserLabel_fueled (l : Label) : Fueled (getUserLabel l) := Fueled.ofState fun _ => ⟨_, rfl⟩

theorem useLabel_fueled (l : Option Label) : Fueled (useLabel l) := Fueled.ofState fun _ => ⟨_, rfl⟩

theorem asIdent_fueled (e : Expr E) : Fueled (asIdent e) := by
  cases e with
  | ident x => exact Fueled.pure _
  | blank => exact Fueled.pure _
  | _ => exact Fueled.throw fun h => by cases h

theorem keyIdent_fueled (key : Option (Expr E)) : Fueled (keyIdent key) := by
  unfold keyIdent
  cases key with
  | none => exact newVar_fueled.map _
  | some k =>
    dsimp only
    split
    · exact newVar_fueled.map _
    · exact asIdent_fueled k

end Desugarer

/-! ## The measure -/

theorem Stmt.depth_pos (s : Stmt E L) : 0 < s.depth := by
  cases s with
  | rangeStmt _ _ _ _ t _ => cases t <;> simp [Stmt.depth]
  | _ => simp [Stmt.depth]

theorem Stmt.depth_le_depthList {s : Stmt E L} : ∀ {ss : List (Stmt E L)}, s ∈ ss →
    s.depth ≤ Stmt.depth.depthList ss
  | _ :: _, .head _ => le_max_left _ _
  | _ :: _, .tail _ h => (Stmt.depth_le_depthList h).trans (le_max_right _ _)

theorem Stmt.depthList_append (a b : List (Stmt E L)) :
    Stmt.depth.depthList (a ++ b) = max (Stmt.depth.depthList a) (Stmt.depth.depthList b) := by
  induction a with
  | nil => simp [Stmt.depth.depthList]
  | cons s a ih => simp [Stmt.depth.depthList, ih, max_assoc]

theorem depth_countingFor (i x : Expr E) (xType : GoType) (body : List (Stmt E L)) :
    (countingFor i x xType body).depth = max 1 (Stmt.depth.depthList body) + 1 := by
  simp [countingFor, Stmt.depth, Stmt.depth.depthOpt, ← max_assoc]

theorem depthList_valueAssign (value : Option (Expr E)) (x i : Expr E) (xType : GoType) :
    Stmt.depth.depthList (valueAssign value x i xType : List (Stmt E L)) ≤ 1 := by
  unfold valueAssign
  split
  · split <;> simp [Stmt.depth.depthList, Stmt.depth]
  · simp [Stmt.depth.depthList]

/-- The counting loop an array or slice range becomes is shallower than the range. -/
theorem depth_countingFor_lt_range (key value : Option (Expr E)) (define : Bool) (x : Expr E)
    (xType : GoType) (body : List (Stmt E L)) (i xv : Expr E) (ht : ∀ k v, xType ≠ .map k v) :
    (countingFor i xv xType (valueAssign value xv i xType ++ body)).depth <
      (Stmt.rangeStmt key value define x xType body).depth := by
  have hv := depthList_valueAssign (L := L) value xv i xType
  have hr : (Stmt.rangeStmt key value define x xType body).depth = Stmt.depth.depthList body + 4 := by
    cases xType <;> simp_all [Stmt.depth]
  rw [depth_countingFor, Stmt.depthList_append, hr]
  omega

/-- The counting loop a keyless map range becomes is shallower than the range. -/
theorem depth_countingFor_lt_mapRange (define : Bool) (x : Expr E) (kt vt : GoType)
    (body : List (Stmt E L)) (i xv : Expr E) :
    (countingFor i xv (.map kt vt) body).depth < (Stmt.rangeStmt none none define x (.map kt vt) body).depth := by
  rw [depth_countingFor]
  simp only [Stmt.depth]
  omega

/-- The range over the collected keys a map range becomes is shallower than the
map range. -/
theorem depth_keysRange_lt_mapRange (key value : Option (Expr E)) (define : Bool) (x : Expr E)
    (kt vt : GoType) (body : List (Stmt E L)) (mapKey mapValue ok keys xv : Expr E) :
    (Stmt.rangeStmt none (some mapKey) true keys (.slice kt)
        [.ifStmt (some (.assign [mapValue, ok] true [.index xv mapKey (.map kt vt)])) ok body none]).depth <
      (Stmt.rangeStmt key value define x (.map kt vt) body).depth := by
  simp only [Stmt.depth, Stmt.depth.depthList, Stmt.depth.depthOpt]
  omega

/-! ## Enough fuel -/

namespace Desugarer

theorem desugarList_fueled {n : Nat}
    (ih : ∀ (s : Stmt E L) bt ct u, s.depth ≤ n → Fueled (desugar n s bt ct u))
    {ss : List (Stmt E L)} (h : Stmt.depth.depthList ss ≤ n) (bt ct : Option Label) :
    Fueled (desugarList (desugar n) ss bt ct) :=
  Fueled.mapM fun s hs => ih s _ _ _ ((Stmt.depth_le_depthList hs).trans h)

theorem optionMapM_fueled {n : Nat}
    (ih : ∀ (s : Stmt E L) bt ct u, s.depth ≤ n → Fueled (desugar n s bt ct u))
    {o : Option (Stmt E L)} (h : Stmt.depth.depthOpt o ≤ n) (bt ct : Option Label) :
    Fueled (o.mapM (desugar n · bt ct none)) :=
  Fueled.optionMapM fun s hs => ih s _ _ _ (by cases hs; exact h)

/-- With at least `s.depth` fuel, `d.desugar` does not run out of fuel, from any
state of the desugarer and for any branch targets and user label. -/
theorem desugar_fueled : ∀ (n : Nat) (s : Stmt E L) (bt ct u : Option Label), s.depth ≤ n →
    Fueled (desugar n s bt ct u)
  | 0, s, _, _, _, h => absurd h (by have := s.depth_pos; omega)
  | n + 1, s, bt, ct, u, h => by
    have ih := desugar_fueled n
    cases s
    case branch tok label =>
      rcases label with _ | label
      · cases tok <;> rw [desugar]
        case brk | cont => exact (useLabel_fueled _).bind fun _ => Fueled.pure _
        all_goals first | exact Fueled.throw fun h => by cases h | exact fun h => by cases h
      · rw [desugar]
        refine (getUserLabel_fueled label).bind fun target => ?_
        cases target
        · exact Fueled.throw fun h => by cases h
        · exact (useLabel_fueled _).bind fun _ => Fueled.pure _
    all_goals rw [desugar]
    case simple | ret | assign | incDec => exact Fueled.pure _
    case select | commClause => exact Fueled.throw fun h => by cases h
    case block ss =>
      simp only [Stmt.depth] at h
      exact (desugarList_fueled ih (by omega) _ _).bind fun _ => Fueled.pure _
    case ifStmt init cond body els =>
      simp only [Stmt.depth] at h
      exact (optionMapM_fueled ih (by omega) _ _).bind fun _ =>
        (desugarList_fueled ih (by omega) _ _).bind fun _ =>
          (optionMapM_fueled ih (by omega) _ _).bind fun _ => Fueled.pure _
    case forStmt init cond post body =>
      simp only [Stmt.depth] at h
      refine (optionMapM_fueled ih (by omega) _ _).bind fun _ => newLabel_fueled.bind fun _ => ?_
      cases u <;> dsimp only <;>
        refine Fueled.bind ?_ fun _ => (desugarList_fueled ih (by omega) _ _).bind fun _ =>
          (optionMapM_fueled ih (by omega) _ _).bind fun _ => Fueled.pure _
      exacts [Fueled.pure _, addUserLabel_fueled _ _]
    case rangeStmt key value define x xType body =>
      refine newVar_fueled.bind fun v => ?_
      dsimp only
      cases xType with
      | array t | slice t =>
        exact (keyIdent_fueled key).bind fun i =>
          (ih _ _ _ _ (Nat.le_of_lt_succ ((depth_countingFor_lt_range key value define x _ body i _
            (by simp)).trans_le h))).bind fun _ => Fueled.pure _
      | map kt vt =>
        have hkeys := fun mapKey mapValue ok keys =>
          ih _ bt ct u (Nat.le_of_lt_succ ((depth_keysRange_lt_mapRange key value define x kt vt body
            mapKey mapValue ok keys (.ident v)).trans_le h))
        cases key <;> cases value <;> dsimp only
        case none.none =>
          exact newVar_fueled.bind fun i => (ih _ _ _ _ (Nat.le_of_lt_succ
            ((depth_countingFor_lt_mapRange define x kt vt body (.ident i) (.ident v)).trans_le h))).bind
            fun _ => Fueled.pure _
        all_goals
          refine newVar_fueled.bind fun _ => newVar_fueled.bind fun _ =>
            (keyIdent_fueled _).bind fun _ => ?_
          first
            | exact (asIdent_fueled _).bind fun _ => newVar_fueled.bind fun _ =>
                (hkeys _ _ _ _).bind fun _ => Fueled.pure _
            | exact (Fueled.pure _).bind fun _ => newVar_fueled.bind fun _ =>
                (hkeys _ _ _ _).bind fun _ => Fueled.pure _
      | int | bool | named _ _ | other _ => exact Fueled.pure _
    case switchStmt init tag body =>
      simp only [Stmt.depth] at h
      refine (optionMapM_fueled ih (by omega) _ _).bind fun _ => newLabel_fueled.bind fun _ => ?_
      cases u <;> dsimp only <;>
        refine Fueled.bind ?_ fun _ => (desugarList_fueled ih (by omega) _ _).bind fun _ => Fueled.pure _
      exacts [Fueled.pure _, addUserLabel_fueled _ _]
    case typeSwitch init assign body =>
      simp only [Stmt.depth] at h
      refine (optionMapM_fueled ih (by omega) _ _).bind fun _ => newLabel_fueled.bind fun _ => ?_
      cases u <;> dsimp only <;>
        refine Fueled.bind ?_ fun _ => (ih _ _ _ _ (by omega)).bind fun _ =>
          (desugarList_fueled ih (by omega) _ _).bind fun _ => Fueled.pure _
      exacts [Fueled.pure _, addUserLabel_fueled _ _]
    case caseClause list body =>
      simp only [Stmt.depth] at h
      exact (desugarList_fueled ih (by omega) _ _).bind fun _ => Fueled.pure _
    case labeled label stmt =>
      simp only [Stmt.depth] at h
      exact ih _ _ _ _ (by omega)

end Desugarer

/-- `d.desugar` ends on every statement tree, from every state of the desugarer and
for all branch targets and user labels: with the fuel `Stmt.depth`, which every
recursive call lowers, it never runs out. -/
theorem desugar_depth_fueled (s : Stmt E L) (bt ct u : Option Label) (d : Desugarer) :
    (Desugarer.desugar s.depth s bt ct u).run d ≠ .error .outOfFuel :=
  Desugarer.desugar_fueled _ s bt ct u le_rfl d

/-- `desugar` never runs out of the fuel `Stmt.depth` it passes: on every statement
tree it ends, with a statement or with one of the source's panics. -/
theorem desugar_terminates (s : Stmt E L) : desugar s ≠ .error .outOfFuel := by
  intro h
  unfold desugar at h
  cases hr : (Desugarer.desugar s.depth s none none none).run ⟨0, 0, [], []⟩ with
  | error e =>
    rw [hr] at h
    cases h
    exact Desugarer.desugar_fueled _ s _ _ _ le_rfl _ hr
  | ok p =>
    rw [hr] at h
    cases h

end DurableCoroutine.Compiler
