import DurableCoroutine.Serde.Output

/-!
# Running the generated functions

What the generated functions do with a value and a byte buffer, given the
`serde` package's primitives, which are not part of the sources.  A call goes
to a primitive when its location has a package, and otherwise to the generated
function of that name, which the file declares once or it does not compile.
A struct value is its fields in declaration order, which is the order both
generated loops visit them in.

The round trip: when each primitive pair is a left inverse on the values of its
kind, and the slice-size pair on every length, the deserializer of every location
`Typedef` hands out reads back what its serializer appended, with every empty slice
read as a nil one, for each value whose basic parts reach primitives of their own
kind.
-/

namespace DurableCoroutine.Serde

/-- The primitives of package `serde`, by function name. -/
structure Primitives (V B : Type) where
  serialize : String → V → List B → List B
  deserialize : String → List B → Option (V × List B)
  serializeSliceSize : Nat → List B → List B
  deserializeSliceSize : List B → Option (Nat × List B)

variable {V B : Type}

/-- Every basic kind. -/
def BasicKind.all : List BasicKind :=
  [.invalid, .bool, .int, .int8, .int16, .int32, .int64, .uint, .uint8, .uint16, .uint32, .uint64,
    .uintptr, .float32, .float64, .complex64, .complex128, .string, .unsafePointer]

theorem BasicKind.mem_all (k : BasicKind) : k ∈ BasicKind.all := by
  cases k <;> simp [BasicKind.all]

/-- Each pair of primitives is a left inverse on the values of its kind, which
`ofKind` names: the serializer appends, and the deserializer reads back exactly what
was appended.  The slice-size pair is one on every length. -/
structure Primitives.Lawful (prims : Primitives V B) (ofKind : BasicKind → V → Bool) : Prop where
  basic : ∀ (k : BasicKind) (n : String), k.serdeName = some n → ∀ x, ofKind k x → ∀ b, ∃ e,
    prims.serialize ("Serialize" ++ n) x b = b ++ e ∧
      ∀ r, prims.deserialize ("Deserialize" ++ n) (e ++ r) = some (x, r)
  sliceSize : ∀ k b, ∃ e, prims.serializeSliceSize k b = b ++ e ∧
    ∀ r, prims.deserializeSliceSize (e ++ r) = some (k, r)

/-- A value as the generated functions see it: a basic value, a struct's fields
in order, a slice, or a nil slice. -/
inductive Value (V : Type)
  | basic (x : V)
  | struct (fields : List (Value V))
  | slice (elems : List (Value V))
  | nil

namespace Value

/-- The value with each empty slice replaced by a nil one. -/
def nilEmpty : Value V → Value V
  | .basic x => .basic x
  | .struct fields => .struct (nilEmptyList fields)
  | .slice [] => .nil
  | .slice (x :: xs) => .slice (nilEmptyList (x :: xs))
  | .nil => .nil
where
  nilEmptyList : List (Value V) → List (Value V)
    | [] => []
    | v :: vs => nilEmpty v :: nilEmptyList vs

@[simp] theorem nilEmptyList_eq (vs : List (Value V)) : nilEmpty.nilEmptyList vs = vs.map nilEmpty := by
  induction vs with
  | nil => rfl
  | cons v vs ih => simp [nilEmpty.nilEmptyList, ih]

/-- `append(z, x)`. -/
def append : Value V → Value V → Value V
  | .slice xs, x => .slice (xs ++ [x])
  | _, x => .slice [x]

@[simp] theorem slice_append (xs : List (Value V)) (x : Value V) :
    (Value.slice xs).append x = .slice (xs ++ [x]) := rfl

@[simp] theorem nil_append (x : Value V) : (Value.nil).append x = .slice [x] := rfl

theorem foldl_append_slice (f : Value V → Value V) :
    ∀ (xs acc : List (Value V)),
      xs.foldl (fun (z x : Value V) => z.append (f x)) (.slice acc) = .slice (acc ++ xs.map f)
  | [], acc => by simp
  | x :: xs, acc => by simp [foldl_append_slice f xs]

/-- Appending the elements one by one to a nil slice, as the slice deserializer does. -/
theorem foldl_append_nil (xs : List (Value V)) :
    xs.foldl (fun (z x : Value V) => z.append x.nilEmpty) .nil = (Value.slice xs).nilEmpty := by
  cases xs with
  | nil => rfl
  | cons x xs => simp [foldl_append_slice, nilEmpty]

end Value

/-- The function a name denotes in the generated file, when declared once. -/
def findFunc (s : List Func) (name : String) : Option Func :=
  match s.filter (·.name = name) with
  | [f] => some f
  | _ => none

/-- The slice deserializer's loop
`for i := 0; i < n; i++ { var x T; x, b = elem(b); z = append(z, x) }`. -/
def deserializeElems (elem : List B → Option (Value V × List B)) :
    Nat → Value V → List B → Option (Value V × List B)
  | 0, z, b => some (z, b)
  | k + 1, z, b => do
    let r ← elem b
    deserializeElems elem k (z.append r.1) r.2

variable (prims : Primitives V B) (s : List Func)

/-- `b = loc(x, b)`, as `serializeCallForLoc` writes it; fuel bounds the depth of calls. -/
def callSerializer : Nat → Location → Value V → List B → Option (List B)
  | 0, _, _, _ => none
  | n + 1, loc, x, b =>
    if loc.pkg ≠ "" then
      match x with
      | .basic x => some (prims.serialize loc.name x b)
      | _ => none
    else
      match findFunc s loc.name, x with
      | some (.serializeSlice _ _ elem), .slice xs =>
        xs.foldlM (fun b x => callSerializer n elem x b) (prims.serializeSliceSize xs.length b)
      | some (.serializeSlice _ _ _), .nil => some (prims.serializeSliceSize 0 b)
      | some (.serializeStruct _ _ fields), .struct xs =>
        if fields.length = xs.length then
          (fields.zip xs).foldlM (fun b field => callSerializer n field.1.2 field.2 b) b
        else none
      | _, _ => none

variable (ofKind : BasicKind → V → Bool)

/-- Whether each basic value that `callSerializer` hands to a primitive is of that
primitive's kind, as the Go types of the generated calls make it. -/
def accepted : Nat → Location → Value V → Bool
  | 0, _, _ => true
  | n + 1, loc, x =>
    if loc.pkg ≠ "" then
      match x with
      | .basic x => BasicKind.all.all fun k =>
        !decide (k.serdeName.map (fun m => (primLocations m).serializer) = some loc) || ofKind k x
      | _ => true
    else
      match findFunc s loc.name, x with
      | some (.serializeSlice _ _ elem), .slice xs => xs.all fun x => accepted n elem x
      | some (.serializeStruct _ _ fields), .struct xs =>
        (fields.zip xs).all fun field => accepted n field.1.2 field.2
      | _, _ => true

/-- `x, b = loc(b)`, as `deserializeCallForLoc` writes it.  A struct deserializer
assigns every field of `var z T` in order, so `z` is the struct of the values read. -/
def callDeserializer : Nat → Location → List B → Option (Value V × List B)
  | 0, _, _ => none
  | n + 1, loc, b =>
    if loc.pkg ≠ "" then (prims.deserialize loc.name b).map fun r => (.basic r.1, r.2)
    else
      match findFunc s loc.name with
      | some (.deserializeSlice _ _ _ elem) => do
        let r ← prims.deserializeSliceSize b
        deserializeElems (callDeserializer n elem) r.1 .nil r.2
      | some (.deserializeStruct _ _ fields) => do
        let r ← fields.foldlM (fun acc field => do
          let r ← callDeserializer n field.2.2 acc.2
          return (acc.1 ++ [r.1], r.2)) ([], b)
        return (.struct r.1, r.2)
      | _ => none

/-! ## Name lookups in a paired output -/

theorem deserialize_ne_serialize (a c : String) : "Deserialize_" ++ c ≠ "Serialize_" ++ a := by
  intro h
  have := congrArg (fun s => s.data.head?) h
  simp at this

theorem append_prefix_inj (p a c : String) : p ++ a = p ++ c ↔ a = c := by
  simp only [String.ext_iff, String.data_append, List.append_cancel_left_eq]

theorem Func.Matched.names {f f' : Func} (h : f.Matched f') :
    ∃ c, f.name = "Serialize_" ++ c ∧ f'.name = "Deserialize_" ++ c := by
  cases f <;> cases f' <;> simp only [Func.Matched] at h
  · obtain ⟨c, h₁, h₂, -⟩ := h
    exact ⟨c, h₁, h₂⟩
  · obtain ⟨c, h₁, h₂, -⟩ := h
    exact ⟨c, h₁, h₂⟩

/-- The serializers and the deserializers named after one type pair up. -/
theorem PairedOutput.filter_matched {s : List Func} (hs : PairedOutput s) (a : String) :
    List.Forall₂ Func.Matched (s.filter (·.name = "Serialize_" ++ a))
      (s.filter (·.name = "Deserialize_" ++ a)) := by
  induction hs with
  | nil => exact .nil
  | snoc _ hm ih =>
    obtain ⟨c, hf, hf'⟩ := hm.names
    have h₁ := deserialize_ne_serialize a c
    have h₂ := (deserialize_ne_serialize c a).symm
    simp only [List.filter_append, List.filter_cons, List.filter_nil, hf, hf', decide_eq_true_eq,
      append_prefix_inj, h₁, h₂, if_false]
    by_cases hca : c = a
    · simp only [hca, if_true]
      exact List.rel_append ih (.cons hm .nil)
    · simpa [hca] using ih

theorem findFunc_paired {s : List Func} (hs : PairedOutput s) {a : String} {f : Func}
    (h : findFunc s ("Serialize_" ++ a) = some f) :
    ∃ f', findFunc s ("Deserialize_" ++ a) = some f' ∧ f.Matched f' := by
  have hm := hs.filter_matched a
  unfold findFunc at h ⊢
  split at h
  · next hfs =>
    cases h
    rw [hfs] at hm
    obtain ⟨f', _, hr, hrest, hd⟩ := List.forall₂_cons_left_iff.mp hm
    rw [List.forall₂_nil_left_iff.mp hrest] at hd
    exact ⟨f', by rw [hd], hr⟩
  · cases h

/-! ## The round trip -/

/-- The round trip of one location: what its serializer appends for a value it
accepts, its deserializer reads back. -/
def RoundTrips (n : Nat) (loc : Locations) : Prop :=
  ∀ (v : Value V) (b b' : List B), accepted s ofKind n loc.serializer v →
    callSerializer prims s n loc.serializer v b = some b' →
    ∃ e, b' = b ++ e ∧ ∀ r, callDeserializer prims s n loc.deserializer (e ++ r) = some (v.nilEmpty, r)

variable {prims s ofKind}

theorem elems_roundTrip {n : Nat} {loc : Locations} (h : RoundTrips prims s ofKind n loc) :
    ∀ (xs : List (Value V)) (b b' : List B), (∀ x ∈ xs, accepted s ofKind n loc.serializer x) →
      xs.foldlM (fun b x => callSerializer prims s n loc.serializer x b) b = some b' →
      ∃ e, b' = b ++ e ∧ ∀ r z, deserializeElems (callDeserializer prims s n loc.deserializer) xs.length z
        (e ++ r) = some (xs.foldl (fun (z x : Value V) => z.append x.nilEmpty) z, r)
  | [], b, b', _, hb => by
    cases hb
    exact ⟨[], by simp, fun r z => rfl⟩
  | x :: xs, b, b', hv, hb => by
    simp only [List.foldlM_cons, Option.bind_eq_bind, Option.bind_eq_some] at hb
    obtain ⟨b₁, h₁, h₂⟩ := hb
    obtain ⟨e₁, rfl, hd₁⟩ := h x b b₁ (hv x (.head _)) h₁
    obtain ⟨e₂, rfl, hd₂⟩ := elems_roundTrip h xs _ _ (fun y hy => hv y (.tail _ hy)) h₂
    refine ⟨e₁ ++ e₂, by simp, fun r z => ?_⟩
    simp [deserializeElems, hd₁, hd₂]

theorem fields_roundTrip {n : Nat}
    (ih : ∀ loc : Locations, loc.Paired → RoundTrips prims s ofKind n loc) :
    ∀ (fs : List (String × Location)) (fs' : List (String × GoType × Location))
      (xs : List (Value V)) (b b' : List B),
      List.Forall₂ (fun f f' => Locations.Paired ⟨f.2, f'.2.2⟩) fs fs' → fs.length = xs.length →
      (∀ field ∈ fs.zip xs, accepted s ofKind n field.1.2 field.2) →
      (fs.zip xs).foldlM (fun b field => callSerializer prims s n field.1.2 field.2 b) b = some b' →
      ∃ e, b' = b ++ e ∧ ∀ r (acc : List (Value V)),
        fs'.foldlM (fun acc field => do
          let r ← callDeserializer prims s n field.2.2 acc.2
          return (acc.1 ++ [r.1], r.2)) (acc, e ++ r) = some (acc ++ xs.map Value.nilEmpty, r)
  | [], [], [], b, b', .nil, _, _, hb => by
    cases hb
    exact ⟨[], by simp, fun r acc => by simp⟩
  | [], [], _ :: _, _, _, .nil, hl, _, _ => by simp at hl
  | _ :: _, _ :: _, [], _, _, .cons _ _, hl, _, _ => by simp at hl
  | _ :: fs, _ :: fs', x :: xs, b, b', .cons hp hrest, hl, hv, hb => by
    simp only [List.zip_cons_cons, List.foldlM_cons, Option.bind_eq_bind, Option.bind_eq_some] at hb
    obtain ⟨b₁, h₁, h₂⟩ := hb
    obtain ⟨e₁, rfl, hd₁⟩ := ih _ hp x b b₁ (hv _ (.head _)) h₁
    obtain ⟨e₂, rfl, hd₂⟩ :=
      fields_roundTrip ih fs fs' xs _ _ hrest (by simpa using hl) (fun f hf => hv f (.tail _ hf)) h₂
    refine ⟨e₁ ++ e₂, by simp, fun r acc => ?_⟩
    simpa [hd₁] using hd₂ r (acc ++ [x.nilEmpty])

/-- A basic value a primitive of kind `k` accepts is of kind `k`. -/
theorem accepted_basic {n : Nat} {k : BasicKind} {m : String} (hm : k.serdeName = some m) {x : V}
    (hv : accepted s ofKind (n + 1) (primLocations m).serializer (.basic x)) : ofKind k x := by
  simp only [accepted, primLocations, ne_eq, String.reduceEq, not_false_eq_true, if_true,
    List.all_eq_true, Bool.or_eq_true, Bool.not_eq_true', decide_eq_false_iff_not] at hv
  simpa [hm] using hv k (BasicKind.mem_all k)

theorem call_roundTrip (hp : prims.Lawful ofKind) (hs : PairedOutput s) :
    ∀ (n : Nat) (loc : Locations), loc.Paired → RoundTrips prims s ofKind n loc
  | 0, _, _ => fun _ _ _ _ h => by cases h
  | n + 1, loc, hl => by
    intro v b b' hv h
    rcases hl with ⟨k, m, hm, rfl⟩ | ⟨a, rfl⟩
    · cases v with
      | basic x =>
        simp [callSerializer, primLocations] at h
        obtain ⟨e, he, hd⟩ := hp.basic k m hm x (accepted_basic hm hv) b
        refine ⟨e, h ▸ he, fun r => ?_⟩
        simp [callDeserializer, primLocations, hd, Value.nilEmpty]
      | _ => simp [callSerializer, primLocations] at h
    · simp only [callSerializer, genLocations, ne_eq, not_true_eq_false, if_false] at h
      simp only [accepted, genLocations, ne_eq, not_true_eq_false, if_false] at hv
      cases hf : findFunc s ("Serialize_" ++ a) with
      | none => simp [hf] at h
      | some f =>
        obtain ⟨f', hf', hm⟩ := findFunc_paired hs hf
        simp only [hf] at h hv
        cases f <;> cases f' <;> simp only [Func.Matched] at hm
        · obtain ⟨_, -, -, hel⟩ := hm
          cases v with
          | slice xs =>
            obtain ⟨e₀, he₀, hd₀⟩ := hp.sliceSize xs.length b
            simp only [he₀] at h
            obtain ⟨e, rfl, hd⟩ :=
              elems_roundTrip (call_roundTrip hp hs n _ hel) xs _ _ (by simpa using hv) h
            refine ⟨e₀ ++ e, by simp, fun r => ?_⟩
            simp [callDeserializer, genLocations, hf', hd₀, hd, Value.foldl_append_nil]
          | nil =>
            obtain ⟨e₀, he₀, hd₀⟩ := hp.sliceSize 0 b
            simp only [he₀, Option.some.injEq] at h
            refine ⟨e₀, h.symm, fun r => ?_⟩
            simp [callDeserializer, genLocations, hf', hd₀, deserializeElems, Value.nilEmpty]
          | _ => simp at h
        · obtain ⟨_, -, -, hfl⟩ := hm
          cases v with
          | struct xs =>
            simp only at h
            split at h
            · next hlen =>
              obtain ⟨e, rfl, hd⟩ :=
                fields_roundTrip (fun loc hl => call_roundTrip hp hs n loc hl) _ _ xs b b' hfl hlen
                  (by simpa using hv) h
              refine ⟨e, rfl, fun r => ?_⟩
              have := hd r []
              simp at this
              simp [callDeserializer, genLocations, hf', this, Value.nilEmpty]
            · cases h
          | _ => simp at h

/-- The functions `Typedef` writes for a type read back what they write: when the
serializer of the type maps `(v, b)` to `b ++ e`, its deserializer maps `e ++ r`
to `(v', r)`, `v'` being `v` with every empty slice nil.  Nothing is assumed of
the type beyond the generator accepting it, of the primitives beyond reading back
the values of their kinds, and of `v` beyond its serialization handing each
primitive a value of that primitive's kind, as a value of the type does. -/
theorem typedef_serde_roundTrip (decls : Decls) (prims : Primitives V B) (ofKind : BasicKind → V → Bool)
    (hp : prims.Lawful ofKind) (fuel : Nat) (T : String) {loc : Locations} {g : Generator}
    (hgen : (Generator.typedef decls fuel T).run Generator.empty = .ok (loc, g))
    (n : Nat) (v : Value V) (b e r : List B) (hv : accepted g.s ofKind n loc.serializer v)
    (hser : callSerializer prims g.s n loc.serializer v b = some (b ++ e)) :
    callDeserializer prims g.s n loc.deserializer (e ++ r) = some (v.nilEmpty, r) := by
  obtain ⟨hg, hl⟩ := Generator.typedef_spec decls hgen
  obtain ⟨e', he, hd⟩ := call_roundTrip hp hg.output n loc hl v b _ hv hser
  rw [List.append_cancel_left he]
  exact hd r

/-- Primitives that write each value, and each slice length, as one symbol. -/
def symbolPrims : Primitives Nat Nat where
  serialize _ x b := b ++ [x]
  deserialize _ b := match b with
    | x :: r => some (x, r)
    | [] => none
  serializeSliceSize k b := b ++ [k]
  deserializeSliceSize b := match b with
    | k :: r => some (k, r)
    | [] => none

/-- `symbolPrims` reads back every value, so each of its pairs is a left inverse on
the values of any kinds. -/
theorem symbolPrims_lawful (ofKind : BasicKind → Nat → Bool) : symbolPrims.Lawful ofKind :=
  ⟨fun _ _ _ x _ _ => ⟨[x], rfl, fun _ => rfl⟩, fun k _ => ⟨[k], rfl, fun _ => rfl⟩⟩

/-- The values of `int64`, and none of another kind. -/
def int64Values : BasicKind → Nat → Bool
  | .int64, x => x < Nat.pow 2 63
  | _, _ => false

/-- A package declaring `type T struct { N int64; C []T }`. -/
def treeDecls : Decls :=
  ⟨fun _ => .struct (.cons "N" (.basic .int64) (.cons "C" (.slice (.named "T")) .nil)),
    fun _ _ h => GoType.noConfusion h⟩

/-- `T{N: 7, C: []T{{N: 8}}}`, whose inner `C` is nil and whose outer one is not. -/
def treeValue : Value Nat := .struct [.basic 7, .slice [.struct [.basic 8, .nil]]]

/-- `treeValue` hands only its two `int64` fields to a primitive, `serde.SerializeInt64`. -/
theorem treeValue_roundTrip :
    ∃ loc g, (Generator.typedef treeDecls 10 "T").run Generator.empty = .ok (loc, g) ∧
      accepted g.s int64Values 10 loc.serializer treeValue ∧
      callSerializer symbolPrims g.s 10 loc.serializer treeValue [] = some ([] ++ [7, 1, 8, 0]) ∧
      callDeserializer symbolPrims g.s 10 loc.deserializer ([7, 1, 8, 0] ++ []) =
        some (treeValue.nilEmpty, []) :=
  ⟨_, _, rfl, rfl, rfl, typedef_serde_roundTrip treeDecls symbolPrims int64Values
    (symbolPrims_lawful int64Values) 10 "T" rfl 10 treeValue [] _ [] rfl rfl⟩

end DurableCoroutine.Serde
