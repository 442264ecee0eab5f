import DurableCoroutine.Serde.Output
import Mathlib.Logic.Relation
import Mathlib.Data.List.Nodup

/-!
# `Type` ends, with one pair of functions per reachable struct or slice type

A call of `Type` walks the type graph: a named type steps to its underlying type,
a struct to its fields' types, a slice to its element type.  The graph may have
cycles through named types; `Struct` and `Slice` record a type in `known` before
they visit its components, so a type is entered once.  The number of struct and
slice types reachable from the requested one that `known` does not hold yet
bounds the depth of the recursion: with twice that many units of fuel, and three
more, the model's `Type` returns.  It then knows exactly the reachable struct and
slice types, each once, and has written one serializer and one deserializer for
each of them.
-/

namespace DurableCoroutine.Serde

/-- The two function names of a pair of locations. -/
def Locations.names (loc : Locations) : List String := [loc.serializer.name, loc.deserializer.name]

/-- Struct and slice types, the kinds `Type` writes functions for. -/
def GoType.isComposite : GoType → Bool
  | .struct _ | .slice _ => true
  | _ => false

/-- The types `Type` handles without a panic of its own: no type it does not
implement, and no basic kind `Basic` rejects. -/
def GoType.accepted : GoType → Bool
  | .basic kind => kind.serdeName.isSome
  | .other _ => false
  | _ => true

/-- One step down the type graph of `decls`. -/
inductive Step (decls : Decls) : GoType → GoType → Prop
  | named (m : String) : Step decls (.named m) (decls.underlying m)
  | field {fields : FieldList} {p : String × GoType} (h : p ∈ fields.toList) :
      Step decls (.struct fields) p.2
  | elem (e : GoType) : Step decls (.slice e) e

/-- `t'` is reachable from `t` in the type graph. -/
def Reaches (decls : Decls) (t t' : GoType) : Prop := Relation.ReflTransGen (Step decls) t t'

/-- A list of types closed under `Step` holds everything reachable from its members. -/
theorem Reaches.mem_of_closed {decls : Decls} {R : List GoType} {t t' : GoType}
    (hR : ∀ u ∈ R, ∀ u', Step decls u u' → u' ∈ R) (ht : t ∈ R) (h : Reaches decls t t') : t' ∈ R := by
  induction h with
  | refl => exact ht
  | tail _ hs ih => exact hR _ ih _ hs

namespace Generator

variable (decls : Decls) {g g' : Generator} {n : Nat}

/-! ## `Struct` and `Slice` on a type not known yet -/

/-- The two functions `Struct` writes under `loc`, calling the locations `g` has for
the fields. -/
def structFuncs (g : Generator) (fields : FieldList) (name : GoType) (loc : Locations) : List Func :=
  [.serializeStruct loc.serializer.name name
      (fields.toList.map fun p => (p.1, ((locOf decls g p.2).getD default).serializer)),
    .deserializeStruct loc.deserializer.name name
      (fields.toList.map fun p => (p.1, p.2, ((locOf decls g p.2).getD default).deserializer))]

/-- After `Struct`'s first loop every field's locations are known: `Type` on a field,
from any state that knows and imports what that loop left, only reads them back. -/
theorem fields_memo (ih : TypeSpec decls n) {fields : FieldList} {g₁ g₂ : Generator} (hg₁ : Inv g₁)
    (hl : (fields.toList.forM fun field => discard (type decls n field.2 field.2)).run g₁ = .ok ((), g₂))
    (g₀ : Generator) (hk₀ : g₀.known = g₂.known) (hi₀ : g₀.imports = g₂.imports) :
    ∀ p ∈ fields.toList, (type decls n p.2 p.2).run g₀ = .ok ((locOf decls g₂ p.2).getD default, g₀) := by
  obtain ⟨hg₂, -, hl₂⟩ := forM_type_spec decls ih _ _ _ hg₁ hl
  intro p hp
  obtain ⟨hs, hn⟩ := hl₂ p hp
  obtain ⟨l, hl⟩ := Option.isSome_iff_exists.mp hs
  rw [hl, Option.getD_some]
  exact type_memo decls n _ _ g₀ l (hi₀ ▸ hg₂.imports) (by rw [locOf_congr decls hk₀ hi₀, hl]) hn

/-- A struct type not known yet: its locations are recorded, its fields visited,
and its two functions written, the later loops finding every field's locations. -/
theorem struct_run_fresh (ih : TypeSpec decls n) {fields : FieldList} {name : GoType} (hg : Inv g)
    (hk : g.known.lookup (.struct fields) = none) :
    (struct (type decls n) (.struct fields) fields name).run g =
      ((fields.toList.forM fun field => discard (type decls n field.2 field.2)).run
        { g with known := g.known ++ [(.struct fields, genLocations (genName name.typeString g.known.length))] }).map
        fun p => (genLocations (genName name.typeString g.known.length),
          { p.2 with s := p.2.s ++
            structFuncs decls p.2 fields name (genLocations (genName name.typeString g.known.length)) }) := by
  unfold struct
  simp only [StateT.run_bind, run_get, except_ok_bind, hk, newGenLocation_run, Option.isSome_none,
    Bool.false_eq_true, if_false, StateT.run_pure, except_pure]
  cases hl : (fields.toList.forM fun field => discard (type decls n field.2 field.2)).run
      { g with known := g.known ++ [(.struct fields, genLocations (genName name.typeString g.known.length))] } with
  | error e => rfl
  | ok p =>
    obtain ⟨⟨⟩, g₂⟩ := p
    have hmemo := fields_memo decls ih (hg.addKnown _ _) hl
    have hwith : ∀ (s : List Func), ∀ p ∈ fields.toList, (type decls n p.2 p.2).run { g₂ with s } =
        .ok ((locOf decls g₂ p.2).getD default, { g₂ with s }) := fun s => hmemo { g₂ with s } rfl rfl
    simp only [except_ok_bind]
    rw [run_mapM_reads _ (fun p => (p.1, ((locOf decls g₂ p.2).getD default).serializer)) _
      fun p hp => by rw [StateT.run_bind, hmemo g₂ rfl rfl p hp]; rfl]
    simp only [except_ok_bind, run_emit]
    rw [run_mapM_reads _ (fun p => (p.1, p.2, ((locOf decls g₂ p.2).getD default).deserializer)) _
      fun p hp => by rw [StateT.run_bind, hwith _ p hp]; rfl]
    simp [structFuncs, Except.map]

/-- A slice type not known yet: its locations are recorded, its element visited,
and its two functions written. -/
theorem slice_run_fresh {e name : GoType} (hk : g.known.lookup (.slice e) = none) :
    (slice (type decls n) (.slice e) e name).run g =
      ((type decls n e e).run
        { g with known := g.known ++ [(.slice e, genLocations (genName name.typeString g.known.length))] }).map
        fun p => (genLocations (genName name.typeString g.known.length),
          { p.2 with s := p.2.s ++
            [.serializeSlice (genLocations (genName name.typeString g.known.length)).serializer.name name
                p.1.serializer,
              .deserializeSlice (genLocations (genName name.typeString g.known.length)).deserializer.name name e
                p.1.deserializer] }) := by
  unfold slice
  simp only [StateT.run_bind, run_get, except_ok_bind, hk, newGenLocation_run, Option.isSome_none,
    Bool.false_eq_true, if_false, StateT.run_pure, except_pure]
  cases (type decls n e e).run
      { g with known := g.known ++ [(.slice e, genLocations (genName name.typeString g.known.length))] } with
  | error e => rfl
  | ok p => simp [run_emit, Except.map, List.append_assoc]

/-- A struct or slice type already known: its locations, and nothing written. -/
theorem struct_run_known {fields : FieldList} {name : GoType} {loc : Locations}
    (hk : g.known.lookup (.struct fields) = some loc) :
    (struct (type decls n) (.struct fields) fields name).run g = .ok (loc, g) := by
  simp [struct, hk]

theorem slice_run_known {e name : GoType} {loc : Locations} (hk : g.known.lookup (.slice e) = some loc) :
    (slice (type decls n) (.slice e) e name).run g = .ok (loc, g) := by
  simp [slice, hk]

/-! ## What a run registers and writes -/

/-- The components of `t` all have their locations in `g`. -/
def Closed (g : Generator) (t : GoType) : Prop := ∀ t', Step decls t t' → (locOf decls g t').isSome

theorem Closed.of_congr {t : GoType} (h : Closed decls g t) (hk : g'.known = g.known)
    (hi : g'.imports = g.imports) : Closed decls g' t := fun t' ht => by
  rw [locOf_congr decls hk hi]
  exact h t' ht

theorem Closed.mono {t : GoType} (h : Closed decls g t) (hi : g'.imports = [] ∨ g'.imports = [serdeImport])
    (he : Extends g g') : Closed decls g' t := fun t' ht => by
  obtain ⟨l, hl⟩ := Option.isSome_iff_exists.mp (h t' ht)
  simp [locOf_extends decls hi he hl]

/-- A run from `g` to `g'` adds to `known` struct and slice types satisfying `src`,
each once and with its components located in `g'`, and writes exactly one
serializer and one deserializer for each of them. -/
def Covers (src : GoType → Prop) (g g' : Generator) : Prop :=
  ∃ new out, g'.known = g.known ++ new ∧ g'.s = g.s ++ out ∧
    (out.map Func.name).Perm (new.flatMap fun p => p.2.names) ∧
    ((g.known.map Prod.fst).Nodup → (g'.known.map Prod.fst).Nodup) ∧
    ∀ p ∈ new, src p.1 ∧ p.1.isComposite ∧ Closed decls g' p.1

theorem Covers.of_eq {src : GoType → Prop} (hk : g'.known = g.known) (hs : g'.s = g.s) :
    Covers decls src g g' :=
  ⟨[], [], by simp [hk], by simp [hs], by simp, fun h => hk ▸ h, by simp⟩

theorem Covers.mono_src {src src' : GoType → Prop} (h : Covers decls src g g') (hs : ∀ t, src t → src' t) :
    Covers decls src' g g' :=
  let ⟨new, out, hk, hout, hperm, hnd, hnew⟩ := h
  ⟨new, out, hk, hout, hperm, hnd, fun p hp => let ⟨h₁, h₂, h₃⟩ := hnew p hp; ⟨hs _ h₁, h₂, h₃⟩⟩

theorem Covers.trans {src : GoType → Prop} {g₁ : Generator} (h₁ : Covers decls src g g₁)
    (h₂ : Covers decls src g₁ g') (hi : g'.imports = [] ∨ g'.imports = [serdeImport]) (he : Extends g₁ g') :
    Covers decls src g g' := by
  obtain ⟨new₁, out₁, hk₁, hs₁, hp₁, hn₁, hnew₁⟩ := h₁
  obtain ⟨new₂, out₂, hk₂, hs₂, hp₂, hn₂, hnew₂⟩ := h₂
  refine ⟨new₁ ++ new₂, out₁ ++ out₂, by rw [hk₂, hk₁, List.append_assoc], by rw [hs₂, hs₁, List.append_assoc],
    by simpa using hp₁.append hp₂, fun h => hn₂ (hn₁ h), fun p hp => ?_⟩
  rcases List.mem_append.mp hp with hp | hp
  · obtain ⟨h₁, h₂, h₃⟩ := hnew₁ p hp
    exact ⟨h₁, h₂, h₃.mono decls hi he⟩
  · exact hnew₂ p hp

theorem keys_nodup_append {l : List (GoType × Locations)} {t : GoType} {loc : Locations}
    (hl : (l.map Prod.fst).Nodup) (hk : l.lookup t = none) : ((l ++ [(t, loc)]).map Prod.fst).Nodup := by
  rw [List.map_append]
  refine hl.append (List.nodup_singleton _) fun a ha hb => ?_
  simp only [List.map_cons, List.map_nil, List.mem_singleton] at hb
  subst hb
  obtain ⟨p, hp, rfl⟩ := List.mem_map.mp ha
  simpa using List.lookup_eq_none_iff.mp hk p hp

/-- What every run of `Type` with fuel `n` registers and writes. -/
def CoverSpec (n : Nat) : Prop :=
  ∀ (t name : GoType) (g g' : Generator) (loc : Locations), Inv g →
    (type decls n t name).run g = .ok (loc, g') → Covers decls (Reaches decls t) g g'

theorem forM_covers (hts : TypeSpec decls n) (ih : CoverSpec decls n) :
    ∀ (l : List (String × GoType)) (g g' : Generator), Inv g →
      (l.forM fun field => discard (type decls n field.2 field.2)).run g = .ok ((), g') →
      Covers decls (fun u => ∃ q ∈ l, Reaches decls q.2 u) g g'
  | [], g, g', _, h => by
    cases h
    exact Covers.of_eq decls rfl rfl
  | p :: l, g, g', hg, h => by
    rw [List.forM_cons', run_bind_ok] at h
    obtain ⟨_, g₁, h₁, h⟩ := h
    obtain ⟨_, h₁⟩ := run_discard_ok.mp h₁
    obtain ⟨hg₁, -, -⟩ := hts _ _ _ _ _ hg h₁
    obtain ⟨hg', he', -⟩ := forM_type_spec decls hts l g₁ g' hg₁ h
    exact ((ih _ _ _ _ _ hg h₁).mono_src decls fun u hu => ⟨p, List.mem_cons_self _ _, hu⟩).trans decls
      ((forM_covers hts ih l g₁ g' hg₁ h).mono_src decls fun u ⟨q, hq, hu⟩ =>
        ⟨q, List.mem_cons_of_mem _ hq, hu⟩) hg'.imports he'

theorem struct_covers (hts : TypeSpec decls n) (ih : CoverSpec decls n) {fields : FieldList}
    {name : GoType} {loc : Locations} (hg : Inv g)
    (h : (struct (type decls n) (.struct fields) fields name).run g = .ok (loc, g')) :
    Covers decls (Reaches decls (.struct fields)) g g' := by
  cases hk : g.known.lookup (.struct fields) with
  | some loc₀ =>
    rw [struct_run_known decls hk] at h
    cases h
    exact Covers.of_eq decls rfl rfl
  | none =>
    rw [struct_run_fresh decls hts hg hk] at h
    cases hl : (fields.toList.forM fun field => discard (type decls n field.2 field.2)).run
        { g with known := g.known ++ [(.struct fields, genLocations (genName name.typeString g.known.length))] } with
    | error e => rw [hl] at h; cases h
    | ok p =>
      obtain ⟨⟨⟩, g₂⟩ := p
      rw [hl] at h
      cases h
      obtain ⟨-, -, hl₂⟩ := forM_type_spec decls hts _ _ _ (hg.addKnown _ _) hl
      obtain ⟨new, out, hk₂, hs₂, hp₂, hn₂, hnew₂⟩ := forM_covers decls hts ih _ _ _ (hg.addKnown _ _) hl
      refine ⟨(.struct fields, genLocations (genName name.typeString g.known.length)) :: new,
        out ++ structFuncs decls g₂ fields name (genLocations (genName name.typeString g.known.length)),
        by simpa using hk₂, by simp [hs₂], ?_, fun hn => by simpa [hk₂] using hn₂ (keys_nodup_append hn hk),
        fun p hp => ?_⟩
      · simpa [structFuncs, Func.name, Locations.names] using hp₂.append_right _ |>.trans List.perm_append_comm
      · rcases List.mem_cons.mp hp with rfl | hp
        · exact ⟨.refl, rfl, fun t' ht => by
            cases ht with
            | field hq => exact (hl₂ _ hq).1⟩
        · obtain ⟨⟨q, hq, hu⟩, hc, hcl⟩ := hnew₂ p hp
          exact ⟨.head (.field hq) hu, hc, hcl.of_congr decls rfl rfl⟩

theorem slice_covers (hts : TypeSpec decls n) (ih : CoverSpec decls n) {e name : GoType} {loc : Locations}
    (hg : Inv g) (h : (slice (type decls n) (.slice e) e name).run g = .ok (loc, g')) :
    Covers decls (Reaches decls (.slice e)) g g' := by
  cases hk : g.known.lookup (.slice e) with
  | some loc₀ =>
    rw [slice_run_known decls hk] at h
    cases h
    exact Covers.of_eq decls rfl rfl
  | none =>
    rw [slice_run_fresh decls hk] at h
    cases he : (type decls n e e).run
        { g with known := g.known ++ [(.slice e, genLocations (genName name.typeString g.known.length))] } with
    | error err => rw [he] at h; cases h
    | ok p =>
      obtain ⟨eloc, g₂⟩ := p
      rw [he] at h
      cases h
      obtain ⟨-, -, hl₂, -⟩ := hts _ _ _ _ _ (hg.addKnown _ _) he
      obtain ⟨new, out, hk₂, hs₂, hp₂, hn₂, hnew₂⟩ := ih _ _ _ _ _ (hg.addKnown _ _) he
      refine ⟨(.slice e, genLocations (genName name.typeString g.known.length)) :: new,
        out ++ [.serializeSlice (genLocations (genName name.typeString g.known.length)).serializer.name name
            eloc.serializer,
          .deserializeSlice (genLocations (genName name.typeString g.known.length)).deserializer.name name e
            eloc.deserializer],
        by simpa using hk₂, by simp [hs₂], ?_, fun hn => by simpa [hk₂] using hn₂ (keys_nodup_append hn hk),
        fun p hp => ?_⟩
      · simpa [Func.name, Locations.names] using hp₂.append_right _ |>.trans List.perm_append_comm
      · rcases List.mem_cons.mp hp with rfl | hp
        · exact ⟨.refl, rfl, fun t' ht => by
            cases ht
            exact Option.isSome_iff_exists.mpr ⟨eloc, (locOf_congr decls rfl rfl e).trans hl₂⟩⟩
        · obtain ⟨hu, hc, hcl⟩ := hnew₂ p hp
          exact ⟨.head (.elem e) hu, hc, hcl.of_congr decls rfl rfl⟩

theorem type_covers : ∀ n, CoverSpec decls n
  | 0 => fun t _ _ _ _ _ h => by cases t <;> cases h
  | n + 1 => fun t name g g' loc hg h => by
    cases t with
    | basic k =>
      obtain ⟨_, -, -, rfl⟩ := basic_ok hg.imports h
      exact Covers.of_eq decls rfl rfl
    | struct fs => exact struct_covers decls (type_spec decls n) (type_covers n) hg h
    | slice e => exact slice_covers decls (type_spec decls n) (type_covers n) hg h
    | named m =>
      exact (type_covers n _ _ _ _ _ hg h).mono_src decls fun u hu => .head (.named m) hu
    | other d => cases h

/-! ## The fuel `Type` needs -/

/-- The struct and slice types of `R` that `g` does not know yet. -/
def unknown (R : List GoType) (g : Generator) : Nat :=
  (R.filter fun t => t.isComposite && (g.known.lookup t).isNone).length

theorem unknown_filter_sublist {R : List GoType} (he : g.known <+: g'.known) :
    List.Sublist (R.filter fun t => t.isComposite && (g'.known.lookup t).isNone)
      (R.filter fun t => t.isComposite && (g.known.lookup t).isNone) := by
  obtain ⟨known, hk⟩ := he
  refine List.monotone_filter_right R fun t ht => ?_
  cases hl : g.known.lookup t with
  | none =>
    simp only [Bool.and_eq_true] at ht ⊢
    exact ⟨ht.1, by simp [hl]⟩
  | some loc => simp [← hk, lookup_append_of_some hl] at ht

theorem unknown_le {R : List GoType} (he : Extends g g') : unknown R g' ≤ unknown R g :=
  (unknown_filter_sublist he.known).length_le

theorem unknown_addKnown_lt {R : List GoType} {t : GoType} {loc : Locations} (ht : t ∈ R)
    (hc : t.isComposite) (hk : g.known.lookup t = none) :
    unknown R { g with known := g.known ++ [(t, loc)] } < unknown R g := by
  have hsub := unknown_filter_sublist (R := R)
    (show g.known <+: ({ g with known := g.known ++ [(t, loc)] } : Generator).known from List.prefix_append _ _)
  refine Nat.lt_of_le_of_ne hsub.length_le fun heq => ?_
  have hmem : t ∈ R.filter fun t => t.isComposite && (g.known.lookup t).isNone := by simp [ht, hc, hk]
  rw [← hsub.eq_of_length heq] at hmem
  simp [lookup_append_self hk] at hmem

theorem basic_run {k : BasicKind} {m : String} (hi : g.imports = [] ∨ g.imports = [serdeImport])
    (hm : k.serdeName = some m) :
    (basic k).run g = .ok (primLocations m, { g with imports := [serdeImport] }) := by
  have hk : k ≠ .invalid := by rintro rfl; cases hm
  simp [basic, StateT.run_bind, ensureImport_serde hi, hk, hm, except_ok_bind]

section Ends

variable {R : List GoType} {T : GoType}

/-- `Type` returns on every type reachable from `T` while the fuel covers two units
per struct or slice type of `R` not known yet, `R` holding every type reachable
from `T`, all of them accepted. -/
def EndsSpec (R : List GoType) (T : GoType) (n : Nat) : Prop :=
  ∀ (t name : GoType) (g : Generator), Reaches decls T t → Inv g →
    2 * unknown R g + fuelFor t + 1 ≤ n → ∃ loc g', (type decls n t name).run g = .ok (loc, g')

theorem forM_type_ends (ih : EndsSpec decls R T n) :
    ∀ (l : List (String × GoType)) (g : Generator), (∀ p ∈ l, Reaches decls T p.2) → Inv g →
      2 * unknown R g + 3 ≤ n →
      ∃ g', (l.forM fun field => discard (type decls n field.2 field.2)).run g = .ok ((), g')
  | [], g, _, _, _ => ⟨g, rfl⟩
  | p :: l, g, hl, hg, hn => by
    have hp : fuelFor p.2 ≤ 2 := by cases p.2 <;> simp [fuelFor]
    obtain ⟨loc, g₁, h₁⟩ := ih p.2 p.2 g (hl p (List.mem_cons_self _ _)) hg (by omega)
    obtain ⟨hg₁, he₁, -⟩ := type_spec decls n _ _ _ _ _ hg h₁
    obtain ⟨g', h⟩ := forM_type_ends ih l g₁ (fun q hq => hl q (List.mem_cons_of_mem _ hq)) hg₁
      (by have := unknown_le (R := R) he₁; omega)
    exact ⟨g', by rw [List.forM_cons', run_bind_ok]; exact ⟨(), g₁, run_discard_ok.mpr ⟨loc, h₁⟩, h⟩⟩

theorem type_ends (hR : ∀ t, Reaches decls T t → t ∈ R) (hacc : ∀ t, Reaches decls T t → t.accepted) :
    ∀ n, EndsSpec decls R T n
  | 0 => fun t _ _ _ _ hn => by omega
  | n + 1 => fun t name g hT hg hn => by
    cases t with
    | basic k =>
      obtain ⟨m, hm⟩ := Option.isSome_iff_exists.mp (hacc _ hT)
      exact ⟨_, _, basic_run hg.imports hm⟩
    | struct fs =>
      show ∃ loc g', (struct (type decls n) (.struct fs) fs name).run g = .ok (loc, g')
      cases hk : g.known.lookup (.struct fs) with
      | some loc => exact ⟨loc, g, struct_run_known decls hk⟩
      | none =>
        have hlt : unknown R { g with known := g.known ++
            [(.struct fs, genLocations (genName name.typeString g.known.length))] } < unknown R g :=
          unknown_addKnown_lt (hR _ hT) rfl hk
        obtain ⟨g₂, h₂⟩ := forM_type_ends decls (type_ends hR hacc n) fs.toList _
          (fun p hp => hT.tail (.field hp))
          (hg.addKnown (.struct fs) (genName name.typeString g.known.length)) (by simp only [fuelFor] at hn; omega)
        exact ⟨_, _, by rw [struct_run_fresh decls (type_spec decls n) hg hk, h₂]; rfl⟩
    | slice e =>
      show ∃ loc g', (slice (type decls n) (.slice e) e name).run g = .ok (loc, g')
      cases hk : g.known.lookup (.slice e) with
      | some loc => exact ⟨loc, g, slice_run_known decls hk⟩
      | none =>
        have hlt : unknown R { g with known := g.known ++
            [(.slice e, genLocations (genName name.typeString g.known.length))] } < unknown R g :=
          unknown_addKnown_lt (hR _ hT) rfl hk
        have he : fuelFor e ≤ 2 := by cases e <;> simp [fuelFor]
        obtain ⟨eloc, g₂, h₂⟩ := type_ends hR hacc n e e _ (hT.tail (.elem e))
          (hg.addKnown (.slice e) (genName name.typeString g.known.length))
          (by simp only [fuelFor] at hn; omega)
        exact ⟨_, _, by rw [slice_run_fresh decls hk, h₂]; rfl⟩
    | named m =>
      exact type_ends hR hacc n _ _ g (hT.tail (.named m)) hg
        (by rw [fuelFor_underlying]; simp only [fuelFor] at hn; omega)
    | other d => cases hacc _ hT

end Ends

/-! ## The whole run -/

/-- Everything reachable from a located type is located, when every known type has
its components located. -/
theorem locOf_of_reaches (hcl : ∀ p ∈ g.known, Closed decls g p.1) {T t : GoType}
    (hT : (locOf decls g T).isSome) (h : Reaches decls T t) : (locOf decls g t).isSome := by
  induction h with
  | refl => exact hT
  | tail _ hs ih =>
    obtain ⟨l, hl⟩ := Option.isSome_iff_exists.mp ih
    cases hs with
    | named m => rw [← locOf_named, hl]; rfl
    | field hp => exact hcl _ (mem_of_lookup (l := g.known) hl) _ (.field hp)
    | elem => exact hcl _ (mem_of_lookup (l := g.known) hl) _ (.elem _)

theorem mem_keys_of_locOf {t : GoType} (hc : t.isComposite) (h : (locOf decls g t).isSome) :
    t ∈ g.known.map Prod.fst := by
  obtain ⟨l, hl⟩ := Option.isSome_iff_exists.mp h
  cases t with
  | struct fs => exact List.mem_map.mpr ⟨_, mem_of_lookup (l := g.known) hl, rfl⟩
  | slice e => exact List.mem_map.mpr ⟨_, mem_of_lookup (l := g.known) hl, rfl⟩
  | _ => cases hc

/-- `Type(T, name)` from an empty generator ends, for every type graph whose types
reachable from `T` are all accepted and listed in `R`, with two units of fuel per
listed type and three more.  It then knows exactly the struct and slice types
reachable from `T`, each once, and has written one serializer and one
deserializer for each of them. -/
theorem type_one_pair_per_reachable_type (T name : GoType) (R : List GoType)
    (hR : ∀ t, Reaches decls T t → t ∈ R) (hacc : ∀ t, Reaches decls T t → t.accepted)
    (fuel : Nat) (hfuel : 2 * R.length + 3 ≤ fuel) :
    ∃ loc g, (type decls fuel T name).run Generator.empty = .ok (loc, g) ∧
      (g.known.map Prod.fst).Nodup ∧
      (∀ t, t ∈ g.known.map Prod.fst ↔ Reaches decls T t ∧ t.isComposite) ∧
      (g.s.map Func.name).Perm (g.known.flatMap fun p => p.2.names) := by
  have hinv : Inv Generator.empty := ⟨by simp [Generator.empty], .inl rfl, .nil⟩
  have hT : fuelFor T ≤ 2 := by cases T <;> simp [fuelFor]
  have hu : unknown R Generator.empty ≤ R.length := List.length_filter_le _ _
  obtain ⟨loc, g, h⟩ := type_ends decls hR hacc fuel T name _ .refl hinv (by omega)
  obtain ⟨-, -, hl, -⟩ := type_spec decls fuel _ _ _ _ _ hinv h
  obtain ⟨new, out, hk, hs, hperm, hnd, hnew⟩ := type_covers decls fuel _ _ _ _ _ hinv h
  simp only [Generator.empty, List.nil_append] at hk hs
  refine ⟨loc, g, h, by simpa [hk] using hnd (by simp [Generator.empty]), fun t => ⟨fun ht => ?_, fun ⟨hr, hc⟩ => ?_⟩,
    by rwa [hk, hs]⟩
  · obtain ⟨p, hp, rfl⟩ := List.mem_map.mp ht
    exact ⟨(hnew p (hk ▸ hp)).1, (hnew p (hk ▸ hp)).2.1⟩
  · refine mem_keys_of_locOf decls hc (locOf_of_reaches decls (fun p hp => ?_) (by simp [hl]) hr)
    exact (hnew p (hk ▸ hp)).2.2

/-- The types reachable from `T` in `type T struct{ C []T }`. -/
def recursiveTypes : List GoType :=
  [.named "T", .struct (.cons "C" (.slice (.named "T")) .nil), .slice (.named "T")]

theorem recursiveTypes_closed :
    ∀ u ∈ recursiveTypes, ∀ u', Step recursiveDecls u u' → u' ∈ recursiveTypes := by
  intro u hu u' hs
  simp only [recursiveTypes, List.mem_cons, List.mem_singleton, List.not_mem_nil, or_false] at hu
  rcases hu with rfl | rfl | rfl
  · cases hs
    simp [recursiveDecls, recursiveTypes]
  · cases hs with
    | field hp =>
      simp only [FieldList.toList, List.mem_singleton] at hp
      simp [hp, recursiveTypes]
  · cases hs
    simp [recursiveTypes]

theorem recursiveDecls_one_pair_per_reachable_type :
    ∃ loc g, (type recursiveDecls 9 (.named "T") (.named "T")).run Generator.empty = .ok (loc, g) ∧
      (g.known.map Prod.fst).Nodup ∧
      (∀ t, t ∈ g.known.map Prod.fst ↔ Reaches recursiveDecls (.named "T") t ∧ t.isComposite) ∧
      (g.s.map Func.name).Perm (g.known.flatMap fun p => p.2.names) :=
  type_one_pair_per_reachable_type recursiveDecls (.named "T") (.named "T") recursiveTypes
    (fun _ => Reaches.mem_of_closed recursiveTypes_closed (by simp [recursiveTypes]))
    (fun _ ht => by
      have := Reaches.mem_of_closed recursiveTypes_closed (by simp [recursiveTypes]) ht
      simp only [recursiveTypes, List.mem_cons, List.mem_singleton, List.not_mem_nil, or_false] at this
      rcases this with rfl | rfl | rfl <;> rfl)
    9 (by decide)

end Generator

end DurableCoroutine.Serde
