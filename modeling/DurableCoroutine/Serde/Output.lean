import DurableCoroutine.Serde.Generator
import Mathlib.Data.List.Forall2

/-!
# What the generator writes

A run of `Typedef` writes its functions in pairs: a serializer, then the
deserializer of the same type, named after the same type and calling, element
by element or field by field, the two halves of the same locations.  Every
location it hands out is such a pair, or the two `serde` primitives of one
handled kind.  Both facts are kept by every call of `Type` (`type_spec`); the
second and third loops of `Struct` only look up what its first loop generated
(`type_memo`), which is why its serializer and deserializer agree.
-/

namespace DurableCoroutine.Serde

/-- Two locations that belong together: the primitives of one handled kind, or
the two functions named after one type. -/
def Locations.Paired (loc : Locations) : Prop :=
  (∃ (k : BasicKind) (n : String), k.serdeName = some n ∧ loc = primLocations n) ∨ ∃ name, loc = genLocations name

/-- A serializer and the deserializer of the same type. -/
def Func.Matched : Func → Func → Prop
  | .serializeSlice n _ e, .deserializeSlice n' _ _ e' =>
    ∃ name, n = "Serialize_" ++ name ∧ n' = "Deserialize_" ++ name ∧ Locations.Paired ⟨e, e'⟩
  | .serializeStruct n _ fs, .deserializeStruct n' _ fs' =>
    ∃ name, n = "Serialize_" ++ name ∧ n' = "Deserialize_" ++ name ∧
      List.Forall₂ (fun f f' => Locations.Paired ⟨f.2, f'.2.2⟩) fs fs'
  | _, _ => False

/-- An output written in matched pairs, each serializer right before its deserializer. -/
inductive PairedOutput : List Func → Prop
  | nil : PairedOutput []
  | snoc {s f f'} : PairedOutput s → Func.Matched f f' → PairedOutput (s ++ [f, f'])

def serdeImport : String × String := ("serde", serdePath)

namespace Generator

/-- The invariant of a run: generated locations in `known`, at most the `serde`
import, and an output of matched pairs. -/
structure Inv (g : Generator) : Prop where
  known_gen : ∀ p ∈ g.known, ∃ name, p.2 = genLocations name
  imports : g.imports = [] ∨ g.imports = [serdeImport]
  output : PairedOutput g.s

/-- `g'` knows and imports what `g` does. -/
structure Extends (g g' : Generator) : Prop where
  known : g.known <+: g'.known
  imports : g.imports <+: g'.imports

theorem Extends.refl (g : Generator) : Extends g g := ⟨List.prefix_refl _, List.prefix_refl _⟩

theorem Extends.trans {g₁ g₂ g₃ : Generator} (h₁ : Extends g₁ g₂) (h₂ : Extends g₂ g₃) :
    Extends g₁ g₃ :=
  ⟨h₁.known.trans h₂.known, h₁.imports.trans h₂.imports⟩

variable {α β : Type} {g g' : Generator} (decls : Decls)

/-! ## Running the operations -/

theorem run_bind_ok {x : GenM α} {f : α → GenM β} {r : β} :
    (x >>= f).run g = .ok (r, g') ↔ ∃ a g₁, x.run g = .ok (a, g₁) ∧ (f a).run g₁ = .ok (r, g') := by
  simp only [StateT.run_bind]
  rcases x.run g with e | ⟨a, g₁⟩
  · simp [bind, Except.bind]
  · simp only [bind, Except.bind]
    exact ⟨fun h => ⟨a, g₁, rfl, h⟩, fun ⟨_, _, he, h⟩ => by cases he; exact h⟩

@[simp] theorem except_pure (a : α) : (pure a : Except GenError α) = .ok a := rfl

@[simp] theorem except_ok_bind (a : α) (f : α → Except GenError β) : (Except.ok a >>= f) = f a := rfl

@[simp] theorem except_error_bind (e : GenError) (f : α → Except GenError β) :
    (Except.error e >>= f) = .error e := rfl

@[simp] theorem run_getThe : (getThe Generator : GenM Generator).run g = .ok (g, g) := rfl

@[simp] theorem run_throw (e : GenError) : (throw e : GenM α).run g = .error e := rfl

@[simp] theorem run_get (t : GoType) : (get t).run g = .ok (g.known.lookup t, g) := rfl

@[simp] theorem run_emit (f : Func) : (emit f).run g = .ok ((), { g with s := g.s ++ [f] }) := rfl

theorem newGenLocation_run (t : GoType) (name : String) : (newGenLocation t name).run g =
    if (g.known.lookup t).isSome then .error .overrideKnown
    else .ok (genLocations (genName name g.known.length),
      { g with known := g.known ++ [(t, genLocations (genName name g.known.length))] }) := by
  by_cases hk : (g.known.lookup t).isSome <;> simp [newGenLocation, hk]

theorem ensureImport_serde (h : g.imports = [] ∨ g.imports = [serdeImport]) :
    (ensureImport "serde" serdePath).run g = .ok ((), { g with imports := [serdeImport] }) := by
  rcases h with h | h
  · simp [ensureImport, h, serdeImport]
  · cases g
    simp only at h
    subst h
    simp [ensureImport, serdeImport]

theorem basic_ok {k : BasicKind} {loc : Locations} (hi : g.imports = [] ∨ g.imports = [serdeImport])
    (h : (basic k).run g = .ok (loc, g')) :
    ∃ n, k.serdeName = some n ∧ loc = primLocations n ∧ g' = { g with imports := [serdeImport] } := by
  simp only [basic, run_bind_ok, ensureImport_serde hi, Except.ok.injEq, Prod.mk.injEq] at h
  obtain ⟨_, _, ⟨-, rfl⟩, h⟩ := h
  by_cases hk : k = .invalid
  · simp [hk, run_bind_ok] at h
  · cases hn : k.serdeName <;> simp [hk, hn, run_bind_ok] at h
    exact ⟨_, rfl, h.1.symm, h.2.symm⟩

@[simp] theorem run_discard_ok {x : GenM α} :
    (discard x).run g = .ok ((), g') ↔ ∃ a, x.run g = .ok (a, g') := by
  show (Function.const α () <$> x).run g = _ ↔ _
  rw [StateT.run_map]
  rcases x.run g with e | ⟨a, g₁⟩ <;> simp [Functor.map, Except.map]

/-- A traversal each of whose steps only reads the state. -/
theorem run_mapM_reads {γ δ : Type} (F : γ → GenM δ) (G : γ → δ) :
    ∀ l : List γ, (∀ p ∈ l, (F p).run g = .ok (G p, g)) → (l.mapM F).run g = .ok (l.map G, g)
  | [], _ => rfl
  | p :: l, h => by
    rw [List.mapM_cons]
    simp only [StateT.run_bind, h p (List.mem_cons_self p l), except_ok_bind, StateT.run_pure,
      run_mapM_reads F G l fun q hq => h q (List.mem_cons_of_mem p hq)]
    rfl

/-! ## Lookups in `known` -/

section Lookup

variable {l l' : List (GoType × Locations)} {t : GoType} {loc : Locations}

theorem lookup_append_of_some (h : l.lookup t = some loc) : (l ++ l').lookup t = some loc := by
  induction l with
  | nil => cases h
  | cons p l ih =>
    obtain ⟨t', loc'⟩ := p
    by_cases ht : t = t'
    · simp_all
    · simp_all [List.lookup_cons, beq_false_of_ne ht]

theorem lookup_append_self (h : l.lookup t = none) : (l ++ [(t, loc)]).lookup t = some loc := by
  induction l with
  | nil => simp
  | cons p l ih =>
    obtain ⟨t', loc'⟩ := p
    by_cases ht : t = t'
    · simp_all
    · simp only [List.lookup_cons, beq_false_of_ne ht] at h
      simp [List.lookup_cons, beq_false_of_ne ht, ih h]

theorem mem_of_lookup (h : l.lookup t = some loc) : (t, loc) ∈ l := by
  induction l with
  | nil => cases h
  | cons p l ih =>
    obtain ⟨t', loc'⟩ := p
    by_cases ht : t = t'
    · simp_all
    · simp_all [List.lookup_cons, beq_false_of_ne ht]

end Lookup

/-! ## The locations `Type` hands out -/

/-- The locations a call of `Type` for `t` returns without writing anything. -/
def locOf (g : Generator) (t : GoType) : Option Locations :=
  match decls.resolve t with
  | .basic k => if g.imports = [serdeImport] then k.serdeName.map primLocations else none
  | .struct fs => g.known.lookup (.struct fs)
  | .slice e => g.known.lookup (.slice e)
  | _ => none

/-- The fuel a call of `Type` for `t` takes when it writes nothing. -/
def fuelFor : GoType → Nat
  | .named _ => 2
  | _ => 1

theorem resolve_underlying (m : String) : decls.resolve (decls.underlying m) = decls.underlying m := by
  cases h : decls.underlying m with
  | named m' => exact absurd h (decls.underlying_ne_named m m')
  | _ => rfl

theorem locOf_named (g : Generator) (m : String) :
    locOf decls g (.named m) = locOf decls g (decls.underlying m) := by
  simp only [locOf, resolve_underlying]
  rfl

theorem fuelFor_underlying (m : String) : fuelFor (decls.underlying m) = 1 := by
  cases h : decls.underlying m with
  | named m' => exact absurd h (decls.underlying_ne_named m m')
  | _ => rfl

theorem locOf_extends {t : GoType} {loc : Locations} (hi : g'.imports = [] ∨ g'.imports = [serdeImport])
    (he : Extends g g') (h : locOf decls g t = some loc) : locOf decls g' t = some loc := by
  obtain ⟨known, hk⟩ := he.known
  unfold locOf at *
  split at h
  · split at h
    · next hs =>
      have : g'.imports = [serdeImport] := by
        rcases hi with hi | hi
        · have := he.imports.length_le
          simp [hs, hi] at this
        · exact hi
      simpa [this] using h
    · cases h
  · simp [← hk, lookup_append_of_some h]
  · simp [← hk, lookup_append_of_some h]
  · cases h

theorem locOf_paired {t : GoType} {loc : Locations} (hg : Inv g) (h : locOf decls g t = some loc) :
    loc.Paired := by
  unfold locOf at h
  split at h
  · split at h
    · obtain ⟨n, hn, rfl⟩ := Option.map_eq_some'.mp h
      exact .inl ⟨_, n, hn, rfl⟩
    · cases h
  · exact .inr (hg.known_gen _ (mem_of_lookup h))
  · exact .inr (hg.known_gen _ (mem_of_lookup h))
  · cases h

/-- Once `t` has its locations, `Type` returns them and writes nothing. -/
theorem type_memo : ∀ (n : Nat) (t name : GoType) (g : Generator) (loc : Locations),
    (g.imports = [] ∨ g.imports = [serdeImport]) → locOf decls g t = some loc → fuelFor t ≤ n →
    (type decls n t name).run g = .ok (loc, g)
  | 0, t, _, _, _, _, _, hn => by cases t <;> simp [fuelFor] at hn
  | n + 1, t, name, g, loc, hi, h, hn => by
    cases t with
    | basic k =>
      simp only [locOf, Decls.resolve] at h
      split at h
      · next hs =>
        obtain ⟨m, hm, rfl⟩ := Option.map_eq_some'.mp h
        have hk : k ≠ .invalid := by rintro rfl; cases hm
        have hg : { g with imports := [serdeImport] } = g := by cases g; simp_all
        simp [type, basic, ensureImport_serde hi, hg, hk, hm]
      · cases h
    | struct fs => simp_all [type, struct, locOf, Decls.resolve]
    | slice e => simp_all [type, slice, locOf, Decls.resolve]
    | named m =>
      rw [locOf_named] at h
      exact type_memo n _ _ g loc hi h (by simp [fuelFor_underlying]; simp [fuelFor] at hn; omega)
    | other d => simp [locOf, Decls.resolve] at h

/-! ## Every call of `Type` keeps the invariant -/

/-- What a call of `Type` with fuel `n` guarantees. -/
def TypeSpec (n : Nat) : Prop :=
  ∀ (t name : GoType) (g g' : Generator) (loc : Locations), Inv g →
    (type decls n t name).run g = .ok (loc, g') →
    Inv g' ∧ Extends g g' ∧ locOf decls g' t = some loc ∧ fuelFor t ≤ n

theorem forM_type_spec {n : Nat} (ih : TypeSpec decls n) :
    ∀ (l : List (String × GoType)) (g g' : Generator), Inv g →
      (l.forM fun field => discard (type decls n field.2 field.2)).run g = .ok ((), g') →
      Inv g' ∧ Extends g g' ∧ ∀ p ∈ l, (locOf decls g' p.2).isSome ∧ fuelFor p.2 ≤ n
  | [], g, g', hg, h => by
    cases h
    exact ⟨hg, .refl g, by simp⟩
  | p :: l, g, g', hg, h => by
    rw [List.forM_cons', run_bind_ok] at h
    obtain ⟨_, g₁, h₁, h⟩ := h
    obtain ⟨_, h₁⟩ := run_discard_ok.mp h₁
    obtain ⟨hg₁, he₁, hl₁, hn₁⟩ := ih _ _ _ _ _ hg h₁
    obtain ⟨hg', he', hl⟩ := forM_type_spec ih l g₁ g' hg₁ h
    refine ⟨hg', he₁.trans he', fun q hq => ?_⟩
    rcases List.mem_cons.mp hq with rfl | hq
    · exact ⟨by simp [locOf_extends decls hg'.imports he' hl₁], hn₁⟩
    · exact hl q hq

theorem Inv.addKnown (hg : Inv g) (t : GoType) (name : String) :
    Inv { g with known := g.known ++ [(t, genLocations name)] } where
  known_gen p hp := by
    rcases List.mem_append.mp hp with hp | hp
    · exact hg.known_gen p hp
    · simp only [List.mem_singleton] at hp
      exact ⟨name, by rw [hp]⟩
  imports := hg.imports
  output := hg.output

theorem Inv.addPair (hg : Inv g) {f f' : Func} (hf : f.Matched f') :
    Inv { g with s := g.s ++ [f] ++ [f'] } where
  known_gen := hg.known_gen
  imports := hg.imports
  output := by
    rw [List.append_assoc]
    exact .snoc hg.output hf

theorem slice_spec {n : Nat} (ih : TypeSpec decls n) {e name : GoType} {loc : Locations}
    (hg : Inv g) (h : (slice (type decls n) (.slice e) e name).run g = .ok (loc, g')) :
    Inv g' ∧ Extends g g' ∧ locOf decls g' (.slice e) = some loc := by
  unfold slice at h
  rw [run_bind_ok] at h
  obtain ⟨_, _, h₁, h⟩ := h
  simp only [run_get, Except.ok.injEq, Prod.mk.injEq] at h₁
  obtain ⟨rfl, rfl⟩ := h₁
  cases hk : g.known.lookup (.slice e) with
  | some loc₀ =>
    simp only [hk, StateT.run_pure, except_pure, Except.ok.injEq, Prod.mk.injEq] at h
    obtain ⟨rfl, rfl⟩ := h
    exact ⟨hg, .refl g, by simp [locOf, Decls.resolve, hk]⟩
  | none =>
    simp only [hk, run_bind_ok, StateT.run_pure, except_pure, newGenLocation_run, run_emit,
      Except.ok.injEq, Prod.mk.injEq] at h
    obtain ⟨_, _, ⟨-, rfl⟩, _, _, h₁, eloc, g₂, h₂, _, _, ⟨-, rfl⟩, _, _, ⟨-, rfl⟩, rfl, rfl⟩ := h
    simp only [hk, Option.isSome_none, Bool.false_eq_true, if_false, Except.ok.injEq,
      Prod.mk.injEq] at h₁
    obtain ⟨rfl, rfl⟩ := h₁
    obtain ⟨hg₂, he₂, hl₂, -⟩ := ih _ _ _ _ _ (hg.addKnown _ _) h₂
    refine ⟨hg₂.addPair ⟨_, rfl, rfl, locOf_paired decls hg₂ hl₂⟩,
      ⟨(List.prefix_append g.known _).trans he₂.known, he₂.imports⟩, ?_⟩
    obtain ⟨_, hkn⟩ := he₂.known
    simp only [locOf, Decls.resolve, ← hkn]
    exact lookup_append_of_some (lookup_append_self hk)

theorem locOf_congr {g₁ g₂ : Generator} (hk : g₁.known = g₂.known) (hi : g₁.imports = g₂.imports)
    (t : GoType) : locOf decls g₁ t = locOf decls g₂ t := by
  simp only [locOf, hk, hi]

theorem struct_spec {n : Nat} (ih : TypeSpec decls n) {fields : FieldList} {name : GoType}
    {loc : Locations} (hg : Inv g)
    (h : (struct (type decls n) (.struct fields) fields name).run g = .ok (loc, g')) :
    Inv g' ∧ Extends g g' ∧ locOf decls g' (.struct fields) = some loc := by
  unfold struct at h
  rw [run_bind_ok] at h
  obtain ⟨_, _, h₁, h⟩ := h
  simp only [run_get, Except.ok.injEq, Prod.mk.injEq] at h₁
  obtain ⟨rfl, rfl⟩ := h₁
  cases hk : g.known.lookup (.struct fields) with
  | some loc₀ =>
    simp only [hk, StateT.run_pure, except_pure, Except.ok.injEq, Prod.mk.injEq] at h
    obtain ⟨rfl, rfl⟩ := h
    exact ⟨hg, .refl g, by simp [locOf, Decls.resolve, hk]⟩
  | none =>
    simp only [hk, run_bind_ok, StateT.run_pure, except_pure, newGenLocation_run, run_emit,
      Except.ok.injEq, Prod.mk.injEq] at h
    obtain ⟨_, _, ⟨-, rfl⟩, _, _, h₁, _, g₂, h₂, _, _, h₃, _, g₃, ⟨-, hg₃⟩, _, _, h₄, _, _, ⟨-, rfl⟩,
      rfl, rfl⟩ := h
    simp only [hk, Option.isSome_none, Bool.false_eq_true, if_false, Except.ok.injEq,
      Prod.mk.injEq] at h₁
    obtain ⟨rfl, rfl⟩ := h₁
    obtain ⟨hg₂, he₂, hl₂⟩ := forM_type_spec decls ih _ _ _ (hg.addKnown _ _) h₂
    -- the later loops find every field's locations in `g₂` and write nothing
    have hmemo : ∀ g₀ : Generator, g₀.known = g₂.known → g₀.imports = g₂.imports →
        ∀ p ∈ fields.toList, (type decls n p.2 p.2).run g₀ = .ok ((locOf decls g₂ p.2).getD default, g₀) := by
      intro g₀ hk₀ hi₀ p hp
      obtain ⟨hs, hn⟩ := hl₂ p hp
      obtain ⟨l, hl⟩ := Option.isSome_iff_exists.mp hs
      rw [hl, Option.getD_some]
      exact type_memo decls n _ _ g₀ l (hi₀ ▸ hg₂.imports) (by rw [locOf_congr decls hk₀ hi₀, hl]) hn
    rw [run_mapM_reads _ (fun p => (p.1, ((locOf decls g₂ p.2).getD default).serializer)) _
      fun p hp => by simp [hmemo g₂ rfl rfl p hp]] at h₃
    obtain ⟨rfl, rfl⟩ := Prod.mk.inj (Except.ok.inj h₃)
    have hdes : ∀ g₀ : Generator, g₀.known = g₂.known → g₀.imports = g₂.imports →
        (fields.toList.mapM fun (field : String × GoType) => do
            let l ← type decls n field.2 field.2
            pure (field.1, field.2, l.deserializer)).run g₀ =
          .ok (fields.toList.map fun (p : String × GoType) =>
            (p.1, p.2, ((locOf decls g₂ p.2).getD default).deserializer), g₀) :=
      fun g₀ hk₀ hi₀ => run_mapM_reads _ _ _ fun p hp => by simp [hmemo g₀ hk₀ hi₀ p hp]
    rw [hdes g₃ (by rw [← hg₃]) (by rw [← hg₃])] at h₄
    obtain ⟨rfl, rfl⟩ := Prod.mk.inj (Except.ok.inj h₄)
    subst hg₃
    have hpaired : List.Forall₂ (fun f f' => Locations.Paired ⟨f.2, f'.2.2⟩)
        (fields.toList.map fun p => (p.1, ((locOf decls g₂ p.2).getD default).serializer))
        (fields.toList.map fun p => (p.1, p.2, ((locOf decls g₂ p.2).getD default).deserializer)) := by
      simp only [List.forall₂_map_left_iff, List.forall₂_map_right_iff, List.forall₂_same]
      intro p hp
      obtain ⟨l, hl⟩ := Option.isSome_iff_exists.mp (hl₂ p hp).1
      rw [hl, Option.getD_some]
      exact locOf_paired decls hg₂ hl
    refine ⟨hg₂.addPair ⟨_, rfl, rfl, hpaired⟩,
      ⟨(List.prefix_append g.known _).trans he₂.known, he₂.imports⟩, ?_⟩
    obtain ⟨_, hkn⟩ := he₂.known
    simp only [locOf, Decls.resolve, ← hkn]
    exact lookup_append_of_some (lookup_append_self hk)

theorem type_spec : ∀ n, TypeSpec decls n
  | 0 => fun t _ _ _ _ _ h => by cases t <;> cases h
  | n + 1 => fun t name g g' loc hg h => by
    cases t with
    | basic k =>
      obtain ⟨m, hm, rfl, rfl⟩ := basic_ok hg.imports h
      refine ⟨⟨hg.known_gen, .inr rfl, hg.output⟩, ⟨List.prefix_refl _, ?_⟩, ?_, by simp [fuelFor]⟩
      · rcases hg.imports with hi | hi <;> simp [hi]
      · simp [locOf, Decls.resolve, hm]
    | struct fs =>
      obtain ⟨h₁, h₂, h₃⟩ := struct_spec decls (type_spec n) hg h
      exact ⟨h₁, h₂, h₃, by simp [fuelFor]⟩
    | slice e =>
      obtain ⟨h₁, h₂, h₃⟩ := slice_spec decls (type_spec n) hg h
      exact ⟨h₁, h₂, h₃, by simp [fuelFor]⟩
    | named m =>
      obtain ⟨h₁, h₂, h₃, h₄⟩ := type_spec n _ _ _ _ _ hg h
      rw [fuelFor_underlying] at h₄
      exact ⟨h₁, h₂, by rw [locOf_named]; exact h₃, by simp [fuelFor]; omega⟩
    | other d => cases h

/-- A successful run of `Typedef` writes matched pairs and hands out paired locations. -/
theorem typedef_spec {fuel : Nat} {T : String} {loc : Locations} {g : Generator}
    (h : (typedef decls fuel T).run Generator.empty = .ok (loc, g)) : Inv g ∧ loc.Paired := by
  obtain ⟨hg, -, hl, -⟩ := type_spec decls fuel _ _ _ _ _ ⟨by simp [Generator.empty], .inl rfl, .nil⟩ h
  exact ⟨hg, locOf_paired decls hg hl⟩

end Generator

end DurableCoroutine.Serde
