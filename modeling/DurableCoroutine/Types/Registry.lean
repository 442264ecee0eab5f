import Mathlib.Data.List.Dedup

/-!
# The custom serializer registry

`typemap` records the types that received custom callbacks: `custom` lists
them in the order they were first attached and `serdes` maps each to its id
and its two callbacks.  `attach` is the only operation that writes the
registry; a nil callback makes it panic before it writes anything.  Go maps
are modelled as functions into `Option`, nil callbacks as `none`, and a panic
as an `EStateM` error carrying the state at the point of the panic.

`Register` reaches `attach` through `registerSerde`, which wraps each callback
in a closure first.  The registry's type cache is a `doublemap`, a map kept in
both directions.
-/

namespace DurableCoroutine.Types

variable {T Ser Des : Type}

/-- `serde`: the id of a type and its callbacks. -/
structure Serde (Ser Des : Type) where
  id : Nat
  ser : Option Ser
  des : Option Des
  deriving DecidableEq

/-- The zero `serde`, which a Go map lookup returns for an absent key. -/
def Serde.zero : Serde Ser Des := ⟨0, none, none⟩

structure Typemap (T Ser Des : Type) where
  custom : List T
  serdes : T → Option (Serde Ser Des)

def newTypemap : Typemap T Ser Des := ⟨[], fun _ => none⟩

/-- The state an `EStateM` computation leaves, whether it returned or panicked. -/
def resultState {ε σ α : Type} : EStateM.Result ε σ α → σ
  | .ok _ s => s
  | .error _ s => s

/-- One call `attach(type, ser, des)`. -/
structure AttachCall (T Ser Des : Type) where
  type : T
  ser : Option Ser
  des : Option Des

/-- A call whose callbacks are both non-nil, the only kind that `attach` accepts. -/
def AttachCall.Complete (c : AttachCall T Ser Des) : Prop :=
  c.ser.isSome ∧ c.des.isSome

instance (c : AttachCall T Ser Des) : Decidable c.Complete :=
  inferInstanceAs (Decidable (_ ∧ _))

/-- The types of the accepted calls, in call order. -/
def attachedTypes (calls : List (AttachCall T Ser Des)) : List T :=
  (calls.filter fun c => decide c.Complete).map AttachCall.type

theorem attachedTypes_append (calls : List (AttachCall T Ser Des)) (c : AttachCall T Ser Des) :
    attachedTypes (calls ++ [c]) =
      attachedTypes calls ++ if c.Complete then [c.type] else [] := by
  by_cases hc : c.Complete <;> simp [attachedTypes, hc]

theorem attachedTypes_append_calls (calls more : List (AttachCall T Ser Des)) :
    attachedTypes (calls ++ more) = attachedTypes calls ++ attachedTypes more := by
  simp [attachedTypes]

variable [DecidableEq T]

/-- Go map assignment `m[k] = v`. -/
def mapSet {V : Type} (m : T → Option V) (k : T) (v : V) : T → Option V :=
  fun x => if x = k then some v else m x

@[simp]
theorem mapSet_same {V : Type} (m : T → Option V) (k : T) (v : V) :
    mapSet m k v k = some v := by
  simp [mapSet]

@[simp]
theorem mapSet_other {V : Type} (m : T → Option V) {k x : T} (v : V) (hne : x ≠ k) :
    mapSet m k v x = m x := by
  simp [mapSet, hne]

namespace Typemap

def attach (t : T) (ser : Option Ser) (des : Option Des) :
    EStateM String (Typemap T Ser Des) Unit := fun m =>
  if ser.isNone || des.isNone then
    .error "both serializer and deserializer need to be provided" m
  else
    match m.serdes t with
    | some s => .ok () { m with serdes := mapSet m.serdes t { s with ser, des } }
    | none =>
        .ok () { custom := m.custom ++ [t],
                 serdes := mapSet m.serdes t ⟨m.custom.length, ser, des⟩ }

def serdeOf (m : Typemap T Ser Des) (x : T) : Serde Ser Des × Bool :=
  match m.serdes x with
  | some s => (s, true)
  | none => (Serde.zero, false)

theorem attach_incomplete (m : Typemap T Ser Des) (t : T) {ser : Option Ser} {des : Option Des}
    (hnil : ser = none ∨ des = none) :
    attach t ser des m = .error "both serializer and deserializer need to be provided" m := by
  rcases hnil with rfl | rfl <;> simp [attach]

/-- An accepted call keeps the id of a known type and appends a new type to `custom`. -/
theorem attach_complete (m : Typemap T Ser Des) (t : T) (ser : Ser) (des : Des) :
    attach t (some ser) (some des) m =
      .ok () { custom := if (m.serdes t).isSome then m.custom else m.custom ++ [t],
               serdes := mapSet m.serdes t
                 ⟨((m.serdes t).map Serde.id).getD m.custom.length, some ser, some des⟩ } := by
  unfold attach
  cases m.serdes t <;> rfl

end Typemap

/-! ## `Register` -/

section Register

variable {S D : Type}

/-- `registerSerde[T](tm, serializer, deserializer)`: each callback is wrapped in
a closure that captures it, nil or not, and `attach` is given the two closures,
which are never nil. -/
def registerSerde (t : T) (serializer : Option S) (deserializer : Option D) :
    EStateM String (Typemap T (Option S) (Option D)) Unit :=
  Typemap.attach t (some serializer) (some deserializer)

/-- `Register[T](serializer, deserializer)`, on the global registry. -/
def register (t : T) (serializer : Option S) (deserializer : Option D) :
    EStateM String (Typemap T (Option S) (Option D)) Unit :=
  registerSerde t serializer deserializer

/-- `Register` never panics: `attach` sees the closures, not the callbacks, and
records `t` as it records any accepted type. -/
theorem register_run (m : Typemap T (Option S) (Option D)) (t : T) (serializer : Option S)
    (deserializer : Option D) :
    register t serializer deserializer m =
      .ok () { custom := if (m.serdes t).isSome then m.custom else m.custom ++ [t],
               serdes := mapSet m.serdes t
                 ⟨((m.serdes t).map Serde.id).getD m.custom.length, some serializer,
                   some deserializer⟩ } :=
  Typemap.attach_complete m t serializer deserializer

/-- `Register[T](nil, d)` on the empty registry does not panic: it records `T`
with id 0, and the nil serializer is only met when its closure runs. -/
theorem register_nil_serializer_records_type :
    ∃ m, register 0 (none : Option Unit) (some ()) newTypemap = .ok () m ∧
      m.custom = [0] ∧ (m.serdeOf 0).1.id = 0 ∧ (m.serdeOf 0).2 = true :=
  ⟨_, register_run _ _ _ _, rfl, rfl, rfl⟩

end Register

/-- The registry after each call of a sequence in turn; a call that panics
leaves the registry its panic carries. -/
def attachAll (m : Typemap T Ser Des) : List (AttachCall T Ser Des) → Typemap T Ser Des
  | [] => m
  | c :: rest => attachAll (resultState (Typemap.attach c.type c.ser c.des m)) rest

theorem attachAll_append (m : Typemap T Ser Des) (calls : List (AttachCall T Ser Des))
    (c : AttachCall T Ser Des) :
    attachAll m (calls ++ [c]) =
      resultState (Typemap.attach c.type c.ser c.des (attachAll m calls)) := by
  induction calls generalizing m with
  | nil => rfl
  | cons first rest ih => exact ih _

/-! ## What the registry is for -/

/-- Each element once, where it first occurs. -/
def firstOccurrences (l : List T) : List T := l.reverse.dedup.reverse

/-- The callbacks of the most recent accepted call for `t`. -/
def latestCallbacks (calls : List (AttachCall T Ser Des)) (t : T) :
    Option (Option Ser × Option Des) :=
  ((calls.filter fun c => decide c.Complete ∧ c.type = t).getLast?).map fun c => (c.ser, c.des)

theorem mem_firstOccurrences {l : List T} {x : T} : x ∈ firstOccurrences l ↔ x ∈ l := by
  simp [firstOccurrences]

theorem firstOccurrences_append (l : List T) (t : T) :
    firstOccurrences (l ++ [t]) =
      if t ∈ l then firstOccurrences l else firstOccurrences l ++ [t] := by
  unfold firstOccurrences
  split_ifs with h
  · simp [List.dedup_cons_of_mem (List.mem_reverse.2 h)]
  · simp [List.dedup_cons_of_not_mem (mt List.mem_reverse.1 h)]

theorem latestCallbacks_append (calls : List (AttachCall T Ser Des))
    (c : AttachCall T Ser Des) (x : T) :
    latestCallbacks (calls ++ [c]) x =
      if c.Complete ∧ c.type = x then some (c.ser, c.des) else latestCallbacks calls x := by
  by_cases hc : c.Complete ∧ c.type = x
  · simp [latestCallbacks, List.filter_append, hc]
  · have hfalse : decide (c.Complete ∧ c.type = x) = false := decide_eq_false hc
    simp [latestCallbacks, List.filter_append, List.filter_singleton, hc, hfalse]

theorem latestCallbacks_isSome (calls : List (AttachCall T Ser Des)) (x : T) :
    (latestCallbacks calls x).isSome ↔ x ∈ attachedTypes calls := by
  simp [latestCallbacks, attachedTypes, List.getLast?_eq_none_iff, List.filter_eq_nil_iff,
    and_assoc]

/-- After any sequence of calls, the registry is the one its accepted calls describe:
`custom` holds their types by first occurrence, and each type's entry holds its
position there and the callbacks of its latest accepted call. -/
theorem attachAll_describes (calls : List (AttachCall T Ser Des)) :
    (attachAll newTypemap calls).custom = firstOccurrences (attachedTypes calls) ∧
    ∀ x, (attachAll newTypemap calls).serdes x =
      (latestCallbacks calls x).map fun cb =>
        ⟨(firstOccurrences (attachedTypes calls)).indexOf x, cb.1, cb.2⟩ := by
  induction calls using List.reverseRecOn with
  | nil => simp [attachAll, newTypemap, attachedTypes, firstOccurrences, latestCallbacks]
  | append_singleton calls c ih =>
    obtain ⟨hcustom, hserdes⟩ := ih
    rw [attachAll_append, attachedTypes_append]
    by_cases hc : c.Complete
    case neg =>
      have hnil : c.ser = none ∨ c.des = none := by
        simpa only [AttachCall.Complete, not_and_or, Option.not_isSome_iff_eq_none] using hc
      rw [Typemap.attach_incomplete _ _ hnil]
      simp [resultState, hc, hcustom, latestCallbacks_append, hserdes]
    case pos =>
      obtain ⟨ser, hser⟩ := Option.isSome_iff_exists.1 hc.1
      obtain ⟨des, hdes⟩ := Option.isSome_iff_exists.1 hc.2
      set l := attachedTypes calls
      have hknown : ((attachAll newTypemap calls).serdes c.type).isSome ↔ c.type ∈ l := by
        simp [hserdes, latestCallbacks_isSome]
      rw [hser, hdes, Typemap.attach_complete, if_pos hc, firstOccurrences_append]
      refine ⟨?_, fun x => ?_⟩
      · by_cases ht : c.type ∈ l <;> simp [resultState, hknown, ht, hcustom]
      · simp only [resultState, hc, if_true, List.singleton_append]
        by_cases hx : x = c.type
        · subst hx
          by_cases ht : c.type ∈ l
          · obtain ⟨cb, hcb⟩ := Option.isSome_iff_exists.1 ((latestCallbacks_isSome calls _).2 ht)
            simp [latestCallbacks_append, hc, hser, hdes, ht, hserdes, hcb]
          · have hnone : latestCallbacks calls c.type = none := by
              simpa [← Option.not_isSome_iff_eq_none, latestCallbacks_isSome] using ht
            simp [latestCallbacks_append, hc, hser, hdes, ht, hserdes, hnone, hcustom,
              List.indexOf_append_of_not_mem (mt mem_firstOccurrences.1 ht)]
        · have hne : ¬(c.Complete ∧ c.type = x) := fun h => hx h.2.symm
          rw [mapSet_other _ _ hx, hserdes, latestCallbacks_append, if_neg hne]
          cases hlatest : latestCallbacks calls x with
          | none => rfl
          | some cb =>
            have hxl : x ∈ firstOccurrences l :=
              mem_firstOccurrences.2 ((latestCallbacks_isSome calls x).1 (by simp [hlatest]))
            split_ifs <;> simp [List.indexOf_append_of_mem hxl]

theorem firstOccurrences_append_prefix (l₁ l₂ : List T) :
    ∃ r, firstOccurrences (l₁ ++ l₂) = firstOccurrences l₁ ++ r := by
  induction l₂ using List.reverseRecOn with
  | nil => exact ⟨[], by simp⟩
  | append_singleton l₂ t ih =>
    obtain ⟨r, hr⟩ := ih
    rw [← List.append_assoc, firstOccurrences_append, hr]
    split_ifs
    · exact ⟨r, rfl⟩
    · exact ⟨r ++ [t], by simp⟩

theorem serdeOf_attachAll (calls : List (AttachCall T Ser Des)) (t : T) :
    (attachAll newTypemap calls).serdeOf t =
      match latestCallbacks calls t with
      | some cb => (⟨(attachAll newTypemap calls).custom.indexOf t, cb.1, cb.2⟩, true)
      | none => (Serde.zero, false) := by
  obtain ⟨hcustom, hserdes⟩ := attachAll_describes calls
  unfold Typemap.serdeOf
  rw [hserdes, hcustom]
  cases latestCallbacks calls t <;> rfl

theorem serdeOf_id_attachAll (calls : List (AttachCall T Ser Des)) {t : T}
    (ht : t ∈ (attachAll newTypemap calls).custom) :
    ((attachAll newTypemap calls).serdeOf t).1.id =
      (attachAll newTypemap calls).custom.indexOf t := by
  have hsome : (latestCallbacks calls t).isSome := by
    rw [latestCallbacks_isSome, ← mem_firstOccurrences, ← (attachAll_describes calls).1]
    exact ht
  obtain ⟨cb, hcb⟩ := Option.isSome_iff_exists.1 hsome
  simp [serdeOf_attachAll, hcb]

/-- The registry after every sequence of `attach` calls: `custom` lists each
attached type once, by first attachment; every attached type's id is its index
in `custom` and stays so under any later calls; `serdeOf` gives the callbacks of
the latest attach and reports absence for types never attached; and a call with
a nil callback panics leaving the registry as it was. -/
theorem attach_registry_invariant (calls : List (AttachCall T Ser Des)) :
    (attachAll newTypemap calls).custom = firstOccurrences (attachedTypes calls) ∧
    (∀ t ∈ (attachAll newTypemap calls).custom,
      ((attachAll newTypemap calls).serdeOf t).1.id =
        (attachAll newTypemap calls).custom.indexOf t) ∧
    (∀ more t, t ∈ (attachAll newTypemap calls).custom →
      ((attachAll newTypemap (calls ++ more)).serdeOf t).1.id =
        ((attachAll newTypemap calls).serdeOf t).1.id) ∧
    (∀ t, (attachAll newTypemap calls).serdeOf t =
      match latestCallbacks calls t with
      | some cb => (⟨(attachAll newTypemap calls).custom.indexOf t, cb.1, cb.2⟩, true)
      | none => (Serde.zero, false)) ∧
    (∀ (m : Typemap T Ser Des) (c : AttachCall T Ser Des), ¬c.Complete →
      ∃ msg, Typemap.attach c.type c.ser c.des m = .error msg m) := by
  refine ⟨(attachAll_describes calls).1, fun t ht => serdeOf_id_attachAll calls ht,
    fun more t ht => ?_, serdeOf_attachAll calls, fun m c hc => ?_⟩
  · obtain ⟨r, hr⟩ := firstOccurrences_append_prefix (attachedTypes calls) (attachedTypes more)
    have hext : (attachAll newTypemap (calls ++ more)).custom =
        (attachAll newTypemap calls).custom ++ r := by
      rw [(attachAll_describes _).1, (attachAll_describes _).1, attachedTypes_append_calls, hr]
    have ht' : t ∈ (attachAll newTypemap (calls ++ more)).custom := by simp [hext, ht]
    rw [serdeOf_id_attachAll _ ht', serdeOf_id_attachAll _ ht, hext,
      List.indexOf_append_of_mem ht]
  · have hnil : c.ser = none ∨ c.des = none := by
      simpa only [AttachCall.Complete, not_and_or, Option.not_isSome_iff_eq_none] using hc
    exact ⟨_, Typemap.attach_incomplete m c.type hnil⟩

/-! ## `doublemap` -/

section Doublemap

variable {K W : Type} [DecidableEq K] [DecidableEq W]

/-- `doublemap[K, V]`: a Go map in each direction. -/
structure Doublemap (K W : Type) where
  fromK : K → Option W
  fromV : W → Option K

namespace Doublemap

/-- The zero `doublemap`; `add` makes its nil maps before it writes them, and a nil
map reads as empty. -/
def empty : Doublemap K W := ⟨fun _ => none, fun _ => none⟩

def getK (m : Doublemap K W) (k : K) : Option W := m.fromK k

def getV (m : Doublemap K W) (v : W) : Option K := m.fromV v

/-- `add(k, v)`: `fromK[k] = v` and `fromV[v] = k`, with nothing deleted; it returns `v`. -/
def add (k : K) (v : W) : StateM (Doublemap K W) W := fun m =>
  (v, ⟨mapSet m.fromK k v, mapSet m.fromV v k⟩)

/-- The map after a sequence of `add` calls. -/
def addAll (m : Doublemap K W) : List (K × W) → Doublemap K W
  | [] => m
  | (k, v) :: rest => addAll (add k v m).2 rest

@[simp] theorem getK_add (m : Doublemap K W) (k k' : K) (v : W) :
    (add k v m).2.getK k' = if k' = k then some v else m.getK k' := rfl

@[simp] theorem getV_add (m : Doublemap K W) (k : K) (v v' : W) :
    (add k v m).2.getV v' = if v' = v then some k else m.getV v' := rfl

/-- `getK` and `getV` are mutually inverse. -/
def Inverse (m : Doublemap K W) : Prop := ∀ k v, m.getK k = some v ↔ m.getV v = some k

omit [DecidableEq K] [DecidableEq W] in
theorem inverse_empty : Inverse (empty : Doublemap K W) := by
  simp [Inverse, empty, getK, getV]

/-- An `add` whose key is absent or already paired with `v`, and whose value is
absent or already paired with `k`, keeps the two directions inverse. -/
theorem Inverse.add {m : Doublemap K W} (hm : Inverse m) {k : K} {v : W}
    (hk : m.getK k = none ∨ m.getK k = some v) (hv : m.getV v = none ∨ m.getV v = some k) :
    Inverse (Doublemap.add k v m).2 := by
  intro k' v'
  rw [getK_add, getV_add]
  by_cases hkk : k' = k <;> by_cases hvv : v' = v
  · simp [hkk, hvv]
  · subst hkk
    rw [if_pos rfl, if_neg hvv, ← hm]
    rcases hk with hk | hk <;> simp [hk, Ne.symm hvv]
  · subst hvv
    rw [if_neg hkk, if_pos rfl, hm]
    rcases hv with hv | hv <;> simp [hv, Ne.symm hkk]
  · rw [if_neg hkk, if_neg hvv]
    exact hm k' v'

/-- From the empty map, adds that never reuse a key or a value keep `getK` and
`getV` inverse. -/
theorem inverse_addAll : ∀ (pairs : List (K × W)) (m : Doublemap K W), Inverse m →
    (∀ p ∈ pairs, m.getK p.1 = none ∧ m.getV p.2 = none) → (pairs.map Prod.fst).Nodup →
    (pairs.map Prod.snd).Nodup → Inverse (addAll m pairs)
  | [], _, hm, _, _, _ => hm
  | (k, v) :: rest, m, hm, hfresh, hk, hv => by
    simp only [List.map_cons, List.nodup_cons, List.mem_map] at hk hv
    obtain ⟨hk₀, hv₀⟩ := hfresh (k, v) (List.mem_cons_self _ _)
    refine inverse_addAll rest _ (hm.add (.inl hk₀) (.inl hv₀)) (fun p hp => ?_) hk.2 hv.2
    have hpk : p.1 ≠ k := fun h => hk.1 ⟨p, hp, h⟩
    have hpv : p.2 ≠ v := fun h => hv.1 ⟨p, hp, h⟩
    obtain ⟨h₁, h₂⟩ := hfresh p (List.mem_cons_of_mem _ hp)
    exact ⟨by rw [getK_add, if_neg hpk, h₁], by rw [getV_add, if_neg hpv, h₂]⟩

/-- Two adds `(0, 1)` and `(1, 0)` from the empty map. -/
theorem inverse_addAll_swap :
    Inverse (empty : Doublemap Nat Nat) ∧
      (∀ p ∈ [(0, 1), (1, 0)], (empty : Doublemap Nat Nat).getK p.1 = none ∧
        (empty : Doublemap Nat Nat).getV p.2 = none) ∧
      ([(0, 1), (1, 0)].map Prod.fst).Nodup ∧ ([(0, 1), (1, 0)].map Prod.snd).Nodup ∧
      Inverse (addAll (empty : Doublemap Nat Nat) [(0, 1), (1, 0)]) :=
  have hfresh : ∀ p ∈ [(0, 1), (1, 0)], (empty : Doublemap Nat Nat).getK p.1 = none ∧
      (empty : Doublemap Nat Nat).getV p.2 = none := fun _ _ => ⟨rfl, rfl⟩
  ⟨inverse_empty, hfresh, by decide, by decide,
    inverse_addAll _ _ inverse_empty hfresh (by decide) (by decide)⟩

/-- Re-adding key 0 with a new value overwrites `fromK[0]` but leaves the stale
`fromV[0] = 0`: `getV(0)` returns `(0, true)` while `getK(0)` returns `(1, true)`. -/
theorem readd_key_leaves_stale_value :
    (addAll (empty : Doublemap Nat Nat) [(0, 0), (0, 1)]).getV 0 = some 0 ∧
      (addAll (empty : Doublemap Nat Nat) [(0, 0), (0, 1)]).getK 0 = some 1 :=
  ⟨rfl, rfl⟩

end Doublemap

end Doublemap

end DurableCoroutine.Types
