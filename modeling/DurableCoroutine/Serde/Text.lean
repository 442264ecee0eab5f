import DurableCoroutine.Serde.Coverage

/-!
# The text the generator writes

`W` appends one line to the output `g.s` per call.  This module models the
generator a second time at that level: `typeText` is `Type` with each line written
where the source writes it, the header of each of `Struct`'s two functions before
the loop that calls `Type` on every field again to learn the field's locations.
Those calls find every field in `known`, recorded by `Struct`'s first loop, and
write nothing, so the text is, function by function, the lines of the `Func` list
the model's `Type` returns: each function is complete before the next one starts,
and none is written inside another.
-/

namespace DurableCoroutine.Serde

/-- One call of `W`, by its format string.  `Location`s have no `method` flag, which
the generator never sets, so `serializeCallForLoc` and `deserializeCallForLoc`
write one of their two other forms. -/
inductive Line
  /-- `func %s(x %s, b []byte) []byte {` -/
  | serializerHeader (fn typeName : String)
  /-- `func %s(b []byte) (%s, []byte) {` -/
  | deserializerHeader (fn typeName : String)
  /-- `b = serde.SerializeSliceSize(x, b)` -/
  | serializeSliceSize
  /-- `for _, x := range x {` -/
  | rangeElems
  /-- `n, b := serde.DeserializeSliceSize(b)` -/
  | deserializeSliceSize
  /-- `var z %s` -/
  | varZ (typeName : String)
  /-- `for i := 0; i < n; i++ {` -/
  | countElems
  /-- `var x %s` -/
  | varX (typeName : String)
  /-- `z = append(z, x)` -/
  | appendZ
  /-- The opening brace of a field's block. -/
  | openBlock
  /-- `x := x.%s` -/
  | selectField (field : String)
  /-- `z.%s = x` -/
  | setField (field : String)
  /-- The closing brace of a block or a function. -/
  | closeBlock
  /-- `return b` -/
  | returnB
  /-- `return z, b` -/
  | returnZB
  /-- The empty line after each function. -/
  | blank
  /-- `b = %s.%s(x, b)`, or `b = %s(x, b)` for a function of the output file. -/
  | serializeCall (loc : Location)
  /-- `x, b = %s.%s(b)`, or `x, b = %s(b)` for a function of the output file. -/
  | deserializeCall (loc : Location)
  deriving DecidableEq, Repr

namespace Line

/-- The lines whose format ends in an opening brace. -/
def opens : Line → Bool
  | .serializerHeader .. | .deserializerHeader .. | .rangeElems | .countElems | .openBlock => true
  | _ => false

def isHeader : Line → Bool
  | .serializerHeader .. | .deserializerHeader .. => true
  | _ => false

/-- The lines that may stand outside every function: a header, or the empty line. -/
def topLevel (l : Line) : Bool := l.isHeader || l == .blank

/-- Read from brace depth `d`, the lines form whole functions side by side: outside
every function stand only headers and empty lines, no header stands inside a
function, no brace closes a block that is not open, and every block is closed at
the end. -/
def wellNested : Nat → List Line → Bool
  | d, [] => d == 0
  | d, l :: ls =>
    (if d = 0 then l.topLevel else !l.isHeader) &&
      if l.opens then wellNested (d + 1) ls
      else if l == .closeBlock then wellNested (d - 1) ls
      else wellNested d ls

/-- Lines that leave the depth where they found it may stand before any others. -/
theorem wellNested_flatMap {γ : Type} {d : Nat} (c : γ → List Line)
    (hc : ∀ x rest, wellNested d (c x ++ rest) = wellNested d rest) :
    ∀ (xs : List γ) (rest : List Line), wellNested d (xs.flatMap c ++ rest) = wellNested d rest
  | [], _ => rfl
  | x :: xs, rest => by rw [List.flatMap_cons, List.append_assoc, hc, wellNested_flatMap c hc xs]

end Line

/-- The lines `Slice` and `Struct` write for one function, in order. -/
def Func.lines : Func → List Line
  | .serializeSlice fn t elem =>
    [.serializerHeader fn t.typeString, .serializeSliceSize, .rangeElems, .serializeCall elem, .closeBlock,
      .returnB, .closeBlock, .blank]
  | .deserializeSlice fn t et elem =>
    [.deserializerHeader fn t.typeString, .deserializeSliceSize, .varZ t.typeString, .countElems,
      .varX et.typeString, .deserializeCall elem, .appendZ, .closeBlock, .returnZB, .closeBlock, .blank]
  | .serializeStruct fn t fields =>
    .serializerHeader fn t.typeString ::
      fields.flatMap (fun f => [.openBlock, .selectField f.1, .serializeCall f.2, .closeBlock]) ++
      [.returnB, .closeBlock, .blank]
  | .deserializeStruct fn t fields =>
    .deserializerHeader fn t.typeString :: .varZ t.typeString ::
      fields.flatMap (fun f => [.openBlock, .varX f.2.1.typeString, .deserializeCall f.2.2, .setField f.1,
        .closeBlock]) ++
      [.returnZB, .closeBlock, .blank]

/-- A function's lines are a whole function, at the top level. -/
theorem Func.wellNested_lines (f : Func) (rest : List Line) :
    Line.wellNested 0 (f.lines ++ rest) = Line.wellNested 0 rest := by
  cases f with
  | serializeSlice | deserializeSlice => rfl
  | serializeStruct fn t fields | deserializeStruct fn t fields =>
    simp only [Func.lines, List.cons_append, List.append_assoc]
    show Line.wellNested 1 (fields.flatMap _ ++ _) = _
    refine (Line.wellNested_flatMap _ (fun _ _ => ?_) fields _).trans rfl
    rfl

theorem Func.wellNested_flatMap_lines (fs : List Func) : Line.wellNested 0 (fs.flatMap Func.lines) := by
  simpa using Line.wellNested_flatMap Func.lines Func.wellNested_lines fs []

namespace Generator

variable (decls : Decls)

/-- The generator writing text: the lines `W` has written so far, over the
generator's `known` and `imports`.  The model's `Func` list plays no part. -/
abbrev TextM := StateT (List Line) GenM

/-- `W`: one line, and the newline after it. -/
def W (l : Line) : TextM Unit := modify (· ++ [l])

def serializeCallForLoc (loc : Locations) : TextM Unit := W (.serializeCall loc.serializer)

def deserializeCallForLoc (loc : Locations) : TextM Unit := W (.deserializeCall loc.deserializer)

/-- `Slice` as the source writes it, over the recursive call `type t name`. -/
def sliceText (type : GoType → GoType → TextM Locations) (t et name : GoType) : TextM Locations := do
  if let some loc ← get t then return loc
  let loc ← newGenLocation t name.typeString
  let eloc ← type et et
  W (.serializerHeader loc.serializer.name name.typeString)
  W .serializeSliceSize
  W .rangeElems
  serializeCallForLoc eloc
  W .closeBlock
  W .returnB
  W .closeBlock
  W .blank
  W (.deserializerHeader loc.deserializer.name name.typeString)
  W .deserializeSliceSize
  W (.varZ name.typeString)
  W .countElems
  W (.varX et.typeString)
  deserializeCallForLoc eloc
  W .appendZ
  W .closeBlock
  W .returnZB
  W .closeBlock
  W .blank
  return loc

/-- `Struct` as the source writes it: each function's header, then a loop that
calls `Type` on every field again and writes the field's lines. -/
def structText (type : GoType → GoType → TextM Locations) (t : GoType) (fields : FieldList)
    (name : GoType) : TextM Locations := do
  if let some loc ← get t then return loc
  let loc ← newGenLocation t name.typeString
  fields.toList.forM fun field => discard (type field.2 field.2)
  W (.serializerHeader loc.serializer.name name.typeString)
  fields.toList.forM fun field => do
    let floc ← type field.2 field.2
    W .openBlock
    W (.selectField field.1)
    serializeCallForLoc floc
    W .closeBlock
  W .returnB
  W .closeBlock
  W .blank
  W (.deserializerHeader loc.deserializer.name name.typeString)
  W (.varZ name.typeString)
  fields.toList.forM fun field => do
    let floc ← type field.2 field.2
    W .openBlock
    W (.varX field.2.typeString)
    deserializeCallForLoc floc
    W (.setField field.1)
    W .closeBlock
  W .returnZB
  W .closeBlock
  W .blank
  return loc

/-- `Type` writing text; `Named` is its `.named` branch. -/
def typeText : Nat → GoType → GoType → TextM Locations
  | 0, _, _ => throw .outOfFuel
  | n + 1, t, name =>
    match t with
    | .basic kind => basic kind
    | .struct fields => structText (typeText n) t fields name
    | .named m => typeText n (decls.underlying m) (.named m)
    | .slice et => sliceText (typeText n) t et name
    | .other _ => throw (.typeNotImplemented t)

/-! ## Running the text generator -/

section Runs

variable {α γ : Type} {g : Generator} {n : Nat}

@[simp] theorem run_W_bind (l : Line) (f : Unit → TextM α) (text : List Line) :
    (W l >>= f).run text = (f ()).run (text ++ [l]) := by
  simp only [W, StateT.run_bind, StateT.run_modify, pure_bind]

@[simp] theorem run_W (l : Line) (text : List Line) : (W l).run text = pure ((), text ++ [l]) := rfl

@[simp] theorem run_liftM (x : GenM α) (text : List Line) (h : Generator) :
    ((liftM x : TextM α).run text).run h = (x.run h).map fun p => ((p.1, text), p.2) := by
  simp only [liftM, StateT.run_monadLift, monadLift_self, StateT.run_bind, StateT.run_pure]
  rcases x.run h with e | ⟨a, g'⟩ <;> rfl

theorem text_run_bind (x : TextM α) (f : α → TextM γ) (text : List Line) (h : Generator) :
    ((x >>= f).run text).run h = ((x.run text).run h) >>= fun p => ((f p.1.1).run p.1.2).run p.2 := by
  simp only [StateT.run_bind]

theorem gen_run_discard (x : GenM α) (h : Generator) :
    (discard x).run h = (x.run h).map fun p => ((), p.2) := by
  show (Function.const α () <$> x).run h = _
  rw [StateT.run_map]
  rcases x.run h with e | ⟨a, h'⟩ <;> rfl

theorem text_run_discard (x : TextM α) (text : List Line) (h : Generator) :
    ((discard x).run text).run h = ((x.run text).run h).map fun p => (((), p.1.2), p.2) := by
  show ((Function.const α () <$> x).run text).run h = _
  rw [StateT.run_map, StateT.run_map]
  rcases (x.run text).run h with e | ⟨⟨a, t⟩, h'⟩ <;> rfl

/-- A loop each of whose steps reads the state and writes the lines `c p`. -/
theorem run_forM_writes (F : γ → TextM Unit) (c : γ → List Line) (h : Generator) :
    ∀ l : List γ, (∀ p ∈ l, ∀ text, ((F p).run text).run h = .ok (((), text ++ c p), h)) →
      ∀ text, ((l.forM F).run text).run h = .ok (((), text ++ l.flatMap c), h)
  | [], _, text => by simp [StateT.run_pure]
  | p :: l, hF, text => by
    rw [List.forM_cons', text_run_bind, hF p (List.mem_cons_self p l), except_ok_bind,
      run_forM_writes F c h l (fun q hq => hF q (List.mem_cons_of_mem p hq))]
    simp

/-- `Basic` reads only `imports`. -/
theorem basic_run_eq {k : BasicKind} (hi : g.imports = [] ∨ g.imports = [serdeImport]) :
    (basic k).run g = if k = .invalid then .error .invalidBasic else
      match k.serdeName with
      | some m => .ok (primLocations m, { g with imports := [serdeImport] })
      | none => .error (.basicKindNotHandled k) := by
  simp only [basic, StateT.run_bind, ensureImport_serde hi, except_ok_bind]
  split
  · rfl
  · cases k.serdeName <;> rfl

end Runs

/-! ## The text is the lines of the model's functions -/

section Refinement

variable {g : Generator} {n : Nat}

/-- From a generator that knows and imports what `g` does, `typeText` fails where
`Type` fails, and otherwise writes the lines of the functions `Type` adds to
`g.s` and ends knowing and importing what `Type` ends with. -/
def Refines (n : Nat) : Prop :=
  ∀ (t name : GoType) (g : Generator) (s₀ : List Func) (text : List Line), Inv g →
    ((typeText decls n t name).run text).run { g with s := s₀ } =
      ((type decls n t name).run g).map fun p =>
        ((p.1, text ++ (p.2.s.drop g.s.length).flatMap Func.lines), { p.2 with s := s₀ })

theorem drop_append_drop {a b c : List Func} (h₁ : a <+: b) (h₂ : b <+: c) :
    b.drop a.length ++ c.drop b.length = c.drop a.length := by
  obtain ⟨u, rfl⟩ := h₁
  obtain ⟨v, rfl⟩ := h₂
  simp [List.drop_left']

theorem type_s_grows {t name : GoType} {loc : Locations} {g' : Generator} (hg : Inv g)
    (h : (type decls n t name).run g = .ok (loc, g')) : g.s <+: g'.s :=
  let ⟨_, out, _, hs, _⟩ := type_covers decls n _ _ _ _ _ hg h
  ⟨out, hs.symm⟩

theorem forM_s_grows {l : List (String × GoType)} {g' : Generator} (hg : Inv g)
    (h : (l.forM fun field => discard (type decls n field.2 field.2)).run g = .ok ((), g')) : g.s <+: g'.s :=
  let ⟨_, out, _, hs, _⟩ := forM_covers decls (type_spec decls n) (type_covers decls n) l g g' hg h
  ⟨out, hs.symm⟩

/-- `Struct`'s first loop, at the two levels. -/
theorem forM_refines (ih : Refines decls n) :
    ∀ (l : List (String × GoType)) (g : Generator) (s₀ : List Func) (text : List Line), Inv g →
      ((l.forM fun field => discard (typeText decls n field.2 field.2)).run text).run { g with s := s₀ } =
        ((l.forM fun field => discard (type decls n field.2 field.2)).run g).map fun p =>
          ((p.1, text ++ (p.2.s.drop g.s.length).flatMap Func.lines), { p.2 with s := s₀ })
  | [], g, s₀, text, _ => by simp [StateT.run_pure, Except.map]
  | p :: l, g, s₀, text, hg => by
    rw [List.forM_cons', List.forM_cons', text_run_bind, text_run_discard, ih _ _ g s₀ text hg, StateT.run_bind,
      gen_run_discard]
    cases h₁ : (type decls n p.2 p.2).run g with
    | error e => rfl
    | ok r =>
      obtain ⟨loc, g₁⟩ := r
      have hg₁ := (type_spec decls n _ _ _ _ _ hg h₁).1
      simp only [Except.map, except_ok_bind]
      rw [forM_refines ih l g₁ s₀ _ hg₁]
      cases h₂ : (l.forM fun field => discard (type decls n field.2 field.2)).run g₁ with
      | error e => rfl
      | ok r =>
        obtain ⟨⟨⟩, g'⟩ := r
        simp only [Except.map, List.append_assoc, ← List.flatMap_append,
          drop_append_drop (type_s_grows decls hg h₁) (forM_s_grows decls hg₁ h₂)]

theorem sliceText_refines (ih : Refines decls n) {e name : GoType} (s₀ : List Func) (text : List Line)
    (hg : Inv g) :
    ((sliceText (typeText decls n) (.slice e) e name).run text).run { g with s := s₀ } =
      ((slice (type decls n) (.slice e) e name).run g).map fun p =>
        ((p.1, text ++ (p.2.s.drop g.s.length).flatMap Func.lines), { p.2 with s := s₀ }) := by
  cases hk : g.known.lookup (.slice e) with
  | some loc =>
    rw [slice_run_known decls hk]
    simp [sliceText, text_run_bind, hk, Except.map]
  | none =>
    rw [slice_run_fresh decls hk]
    have hr := ih e e { g with known := g.known ++ [(.slice e, genLocations (genName name.typeString g.known.length))] }
      s₀ text (hg.addKnown _ _)
    simp only at hr
    simp only [sliceText, ↓run_W_bind, StateT.run_bind, run_liftM, run_get, hk, newGenLocation_run, Except.map,
      except_ok_bind, StateT.run_pure, except_pure, Option.isSome_none, Bool.false_eq_true, if_false,
      serializeCallForLoc, deserializeCallForLoc]
    rw [hr]
    cases he : (type decls n e e).run
        { g with known := g.known ++ [(.slice e, genLocations (genName name.typeString g.known.length))] } with
    | error err => rfl
    | ok p =>
      obtain ⟨eloc, g₂⟩ := p
      obtain ⟨out, hout⟩ := type_s_grows decls (hg.addKnown _ _) he
      simp only at hout
      simp [← hout, Func.lines, List.drop_left, Except.map]

theorem structText_refines (ih : Refines decls n) {fs : FieldList} {name : GoType} (s₀ : List Func)
    (text : List Line) (hg : Inv g) :
    ((structText (typeText decls n) (.struct fs) fs name).run text).run { g with s := s₀ } =
      ((struct (type decls n) (.struct fs) fs name).run g).map fun p =>
        ((p.1, text ++ (p.2.s.drop g.s.length).flatMap Func.lines), { p.2 with s := s₀ }) := by
  cases hk : g.known.lookup (.struct fs) with
  | some loc =>
    rw [struct_run_known decls hk]
    simp [structText, text_run_bind, hk, Except.map]
  | none =>
    rw [struct_run_fresh decls (type_spec decls n) hg hk]
    have hr := forM_refines decls ih fs.toList
      { g with known := g.known ++ [(.struct fs, genLocations (genName name.typeString g.known.length))] }
      s₀ text (hg.addKnown _ _)
    simp only at hr
    simp only [structText, ↓run_W_bind, StateT.run_bind, run_liftM, run_get, hk, newGenLocation_run, Except.map,
      except_ok_bind, StateT.run_pure, except_pure, Option.isSome_none, Bool.false_eq_true, if_false,
      serializeCallForLoc, deserializeCallForLoc]
    rw [hr]
    cases hl : (fs.toList.forM fun field => discard (type decls n field.2 field.2)).run
        { g with known := g.known ++ [(.struct fs, genLocations (genName name.typeString g.known.length))] } with
    | error err => rfl
    | ok p =>
      obtain ⟨⟨⟩, g₂⟩ := p
      have hg₂ := (forM_type_spec decls (type_spec decls n) _ _ _ (hg.addKnown _ _) hl).1
      have hmemo := fields_memo decls (type_spec decls n) (hg.addKnown _ _) hl g₂ rfl rfl
      have htext : ∀ q ∈ fs.toList, ∀ text', ((typeText decls n q.2 q.2).run text').run { g₂ with s := s₀ } =
          .ok (((locOf decls g₂ q.2).getD default, text'), { g₂ with s := s₀ }) := fun q hq text' => by
        rw [ih _ _ g₂ s₀ text' hg₂, hmemo q hq]
        simp [Except.map]
      obtain ⟨out, hout⟩ := forM_s_grows decls (hg.addKnown _ _) hl
      simp only at hout
      simp only [Except.map, except_ok_bind]
      rw [run_forM_writes _ (fun q => [.openBlock, .selectField q.1,
          .serializeCall ((locOf decls g₂ q.2).getD default).serializer, .closeBlock]) _ _
          fun q hq t => by simp [htext q hq], except_ok_bind,
        run_forM_writes _ (fun q => [.openBlock, .varX q.2.typeString,
          .deserializeCall ((locOf decls g₂ q.2).getD default).deserializer, .setField q.1, .closeBlock]) _ _
          fun q hq t => by simp [htext q hq], except_ok_bind]
      simp [← hout, structFuncs, Func.lines, List.flatMap_map]

/-- The text generator refines the model's: the two fail alike, and the text is the
lines of the functions the model writes. -/
theorem typeText_refines : ∀ n, Refines decls n
  | 0 => fun t _ _ _ _ _ => by cases t <;> rfl
  | n + 1 => fun t name g s₀ text hg => by
    cases t with
    | basic k =>
      show ((liftM (basic k) : TextM Locations).run text).run _ = ((basic k).run g).map _
      rw [run_liftM, basic_run_eq (g := { g with s := s₀ }) hg.imports, basic_run_eq hg.imports]
      split
      · rfl
      · cases k.serdeName <;> simp [Except.map]
    | struct fs => exact structText_refines decls (typeText_refines n) s₀ text hg
    | slice e => exact sliceText_refines decls (typeText_refines n) s₀ text hg
    | named m => exact typeText_refines n _ _ g s₀ text hg
    | other d => rfl

end Refinement

/-! ## Whole functions, and no text from `Struct`'s later loops -/

/-- The text `Type` writes is whole functions side by side, from every generator
whose `known` and `imports` are as the generator keeps them.  And once `Struct`'s
first loop has run, `Type` on any field, as the loops writing the two functions'
bodies call it, returns the field's known or basic locations and changes nothing,
writing no text. -/
theorem typeText_writes_whole_functions :
    (∀ (n : Nat) (T name : GoType) (g g' : Generator) (text text' : List Line) (loc : Locations),
      Inv { g with s := [] } → ((typeText decls n T name).run text).run g = .ok ((loc, text'), g') →
      ∃ fs : List Func, text' = text ++ fs.flatMap Func.lines ∧ Line.wellNested 0 (fs.flatMap Func.lines)) ∧
    (∀ (n : Nat) (fields : FieldList) (name : GoType) (g h₂ : Generator) (text text₂ : List Line),
      Inv { g with s := [] } →
      ((fields.toList.forM fun field => discard (typeText decls n field.2 field.2)).run text).run
          { g with known := g.known ++ [(.struct fields, genLocations (genName name.typeString g.known.length))] } =
        .ok (((), text₂), h₂) →
      ∀ p ∈ fields.toList, ∀ text' : List Line, ∃ loc, locOf decls h₂ p.2 = some loc ∧
        ((typeText decls n p.2 p.2).run text').run h₂ = .ok ((loc, text'), h₂)) := by
  refine ⟨fun n T name g g' text text' loc hg h => ?_, fun n fields name g h₂ text text₂ hg h => ?_⟩
  · have hr := (typeText_refines decls n T name _ g.s text hg).symm.trans h
    cases hf : (type decls n T name).run { g with s := [] } with
    | error e => rw [hf] at hr; cases hr
    | ok r =>
      rw [hf] at hr
      cases hr
      exact ⟨_, rfl, Func.wellNested_flatMap_lines _⟩
  · have hr := (forM_refines decls (typeText_refines decls n) fields.toList _ g.s text (hg.addKnown _ _)).symm.trans h
    cases hf : (fields.toList.forM fun field => discard (type decls n field.2 field.2)).run
        { g with s := [], known := g.known ++ [(.struct fields, genLocations (genName name.typeString g.known.length))] } with
    | error e => rw [hf] at hr; cases hr
    | ok r =>
      obtain ⟨⟨⟩, g₂⟩ := r
      rw [hf] at hr
      cases hr
      obtain ⟨hg₂, -, hl₂⟩ := forM_type_spec decls (type_spec decls n) _ _ _ (hg.addKnown _ _) hf
      intro p hp text'
      obtain ⟨l, hl⟩ := Option.isSome_iff_exists.mp (hl₂ p hp).1
      refine ⟨l, (locOf_congr decls rfl rfl _).trans hl, ?_⟩
      rw [typeText_refines decls n _ _ g₂ _ text' hg₂, fields_memo decls (type_spec decls n) (hg.addKnown _ _) hf g₂
        rfl rfl p hp, hl]
      simp [Except.map]

theorem recursiveDecls_writes_whole_functions :
    (∃ loc g' text', ((typeText recursiveDecls 10 (.named "T") (.named "T")).run []).run Generator.empty =
        .ok ((loc, text'), g') ∧
      ∃ fs : List Func, text' = [] ++ fs.flatMap Func.lines ∧ Line.wellNested 0 (fs.flatMap Func.lines)) ∧
    (∃ h₂ text₂, (((FieldList.cons "C" (.slice (.named "T")) .nil).toList.forM fun field =>
        discard (typeText recursiveDecls 9 field.2 field.2)).run []).run
          { Generator.empty with known := [(.struct (.cons "C" (.slice (.named "T")) .nil),
            genLocations (genName (GoType.named "T").typeString 0))] } = .ok (((), text₂), h₂) ∧
      ∃ loc, locOf recursiveDecls h₂ (.slice (.named "T")) = some loc ∧
        ((typeText recursiveDecls 9 (.slice (.named "T")) (.slice (.named "T"))).run []).run h₂ = .ok ((loc, []), h₂)) :=
  have hinv : Inv { Generator.empty with s := [] } := ⟨by simp [Generator.empty], .inl rfl, .nil⟩
  ⟨⟨_, _, _, rfl, (typeText_writes_whole_functions recursiveDecls).1 10 (.named "T") (.named "T") _ _ [] _ _
      hinv rfl⟩,
    ⟨_, _, rfl, (typeText_writes_whole_functions recursiveDecls).2 9 (.cons "C" (.slice (.named "T")) .nil)
      (.named "T") Generator.empty _ [] _ hinv rfl _ (List.mem_singleton_self _) []⟩⟩

end Generator

end DurableCoroutine.Serde
