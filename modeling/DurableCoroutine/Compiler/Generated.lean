import DurableCoroutine.Compiler.Package
import Mathlib.Data.List.Nodup

/-!
# The generated file, stated without its loops

`compilePackage` builds each `_durable.go` with two loops, the declaration loop
`genDecls` and the import loop of `addImports`.  This file says what each loop
computes.  The declaration loop returns nil exactly when `unsupported` accepts every
colored function declaration, and then keeps the original's declarations in order,
less its imports, with each colored function replaced by its compiled form.  The loop
over the selectors panics exactly when they ask for one qualifier from two different
paths; otherwise it imports every qualifier once, from the path its selectors name
less `vendor/`, and nothing else.  A compiled function with a prologue adds one
selector the original lacks, the `coroutine` qualifier of `coroutine.LoadContext`, so
the generated file imports the coroutine package exactly when some colored function
gets a prologue or the original or `generateFunctypes` names it.
-/

namespace DurableCoroutine.Compiler

variable {Sig : Type}

/-! ## The declaration loop -/

/-- A loop whose step appends what `g` keeps of an element when `P` holds of it, and
fails otherwise, returns nil exactly when `P` holds of every element, and then has
appended what `g` keeps of each, in order. -/
theorem foldlM_append_eq_ok_iff {α β ε : Type} {f : List β → α → Except ε (List β)}
    {P : α → Prop} {g : α → Option β}
    (hf : ∀ acc a gen, f acc a = .ok gen ↔ P a ∧ acc ++ (g a).toList = gen) :
    ∀ {as : List α} {acc gen : List β},
      as.foldlM f acc = .ok gen ↔ (∀ a ∈ as, P a) ∧ gen = acc ++ as.filterMap g
  | [], acc, gen => by simp [pure, Except.pure, eq_comm]
  | a :: as, acc, gen => by
    rw [List.foldlM_cons]
    cases h : f acc a with
    | error e =>
      have hp : ¬ P a := fun hp => by simp [(hf acc a _).2 ⟨hp, rfl⟩] at h
      simp [bind, Except.bind, hp]
    | ok acc' =>
      obtain ⟨hp, rfl⟩ := (hf acc a acc').1 h
      cases hg : g a <;> simp [bind, Except.bind, foldlM_append_eq_ok_iff hf, hp, hg]

section Decls

variable (unsupported : Nat → Bool) (byFunc : SyntaxNode → Option Sig)

/-- What the declaration loop makes of one declaration of the original. -/
def genDecl : Decl Sig → Option (Decl Sig)
  | .importDecl _ => none
  | .funcDecl node prologue sels =>
    some ((byFunc (.funcDecl node)).elim (.funcDecl node prologue sels) fun color =>
      .compiled node color prologue sels)
  | decl => some decl

/-- `unsupported` accepts the declaration if it is a colored function. -/
def Supported : Decl Sig → Prop
  | .funcDecl node _ _ => (byFunc (.funcDecl node)).isSome → unsupported node = false
  | _ => True

/-- The declaration loop returns nil exactly when `unsupported` accepts every colored
function, and then keeps every declaration but the imports, in order, each colored
function compiled under its color. -/
theorem genDecls_eq_ok_iff {decls gen : List (Decl Sig)} :
    genDecls unsupported byFunc decls = .ok gen ↔
      (∀ d ∈ decls, Supported unsupported byFunc d) ∧ gen = decls.filterMap (genDecl byFunc) := by
  unfold genDecls
  rw [← List.nil_append (decls.filterMap _)]
  refine foldlM_append_eq_ok_iff fun acc d gen => ?_
  cases d with
  | funcDecl node prologue sels =>
    cases hb : byFunc (.funcDecl node) with
    | none => simp [Supported, genDecl, hb, pure, Except.pure]
    | some color =>
      cases hu : unsupported node <;>
        simp [Supported, genDecl, hb, hu, pure, Except.pure, throw, throwThe, MonadExceptOf.throw]
  | _ => simp [Supported, genDecl, pure, Except.pure]

end Decls

/-! ## The import loop -/

/-- The import a selector asks `addImports` for: its qualifier, and its package's path
less `vendor/`, when the qualifier names a package and neither is empty. -/
def importOf (sel : Selector) : Option (String × String) :=
  match sel.pkgPath with
  | none => none
  | some path => if sel.qual = "" ∨ path = "" then none else some (sel.qual, trimPrefix path "vendor/")

/-- The imports the selectors of `decls` ask for, in order and with repeats. -/
def wantedImports (decls : List (Decl Sig)) : List (String × String) :=
  (decls.flatMap Decl.selectors).filterMap importOf

@[simp] theorem wantedImports_append (decls decls' : List (Decl Sig)) :
    wantedImports (decls ++ decls') = wantedImports decls ++ wantedImports decls' := by
  simp [wantedImports]

/-- What the import loop may return when `wanted` is asked for: each qualifier once,
with exactly the wanted imports, or the panic for a qualifier wanted from two paths. -/
def ImportsOf (wanted : List (String × String)) :
    Except CompileError (List (String × String)) → Prop
  | .ok imports => (imports.map Prod.fst).Nodup ∧ ∀ e, e ∈ imports ↔ e ∈ wanted
  | .error e => ∃ q p p', (q, p) ∈ wanted ∧ (q, p') ∈ wanted ∧ p ≠ p' ∧ e = .conflictingImports q

theorem ImportsOf.congr {wanted wanted' : List (String × String)}
    {r : Except CompileError (List (String × String))} (hw : ∀ e, e ∈ wanted ↔ e ∈ wanted')
    (h : ImportsOf wanted r) : ImportsOf wanted' r := by
  cases r with
  | error e =>
    obtain ⟨q, p, p', h₁, h₂, hne, rfl⟩ := h
    exact ⟨q, p, p', (hw _).1 h₁, (hw _).1 h₂, hne, rfl⟩
  | ok imports => exact ⟨h.1, fun e => (h.2 e).trans (hw e)⟩

/-- A wanted list with two paths for one qualifier admits no import list. -/
theorem ImportsOf.not_ok {wanted imports : List (String × String)} {q p p' : String}
    (h₁ : (q, p) ∈ wanted) (h₂ : (q, p') ∈ wanted) (hne : p ≠ p') :
    ¬ ImportsOf wanted (.ok imports) := fun ⟨hkeys, hmem⟩ =>
  hne (Prod.ext_iff.1 (List.inj_on_of_nodup_map hkeys ((hmem _).2 h₁) ((hmem _).2 h₂) rfl)).2

/-- The import loop, from any step that keeps `ImportsOf` for one selector. -/
theorem foldlM_importsOf
    {f : List (String × String) → Selector → Except CompileError (List (String × String))}
    (hf : ∀ acc sel, (acc.map Prod.fst).Nodup → ImportsOf (acc ++ (importOf sel).toList) (f acc sel)) :
    ∀ {sels : List Selector} {acc : List (String × String)} {r},
      (acc.map Prod.fst).Nodup → sels.foldlM f acc = r → ImportsOf (acc ++ sels.filterMap importOf) r
  | [], acc, _, hacc, rfl => ⟨hacc, by simp⟩
  | sel :: sels, acc, r, hacc, hr => by
    rw [List.foldlM_cons] at hr
    have hs := hf acc sel hacc
    cases h : f acc sel with
    | error e =>
      rw [h] at hs hr
      subst hr
      obtain ⟨q, p, p', h₁, h₂, hne, rfl⟩ := hs
      have hsub : acc ++ (importOf sel).toList ⊆ acc ++ (sel :: sels).filterMap importOf := by
        cases hi : importOf sel <;> simp [hi, List.filterMap_cons]
      exact show ImportsOf _ (.error _) from ⟨q, p, p', hsub h₁, hsub h₂, hne, rfl⟩
    | ok acc' =>
      rw [h] at hs hr
      refine (foldlM_importsOf hf hs.1 hr).congr fun e => ?_
      cases hi : importOf sel <;> simp [hs.2, hi, or_assoc]

/-- `gen` under one import declaration for `imports`, unless there are none. -/
def withImports (imports : List (String × String)) (gen : List (Decl Sig)) : List (Decl Sig) :=
  if imports = [] then gen else .importDecl (imports.map fun e => ⟨some e.1, e.2⟩) :: gen

/-- What `addImports` may return for `gen`: `gen` with each wanted qualifier imported
once, or the panic for a qualifier wanted from two paths. -/
def Imported (gen : List (Decl Sig)) : Except CompileError (List (Decl Sig)) → Prop
  | .ok out => ∃ imports, ImportsOf (wantedImports gen) (.ok imports) ∧ out = withImports imports gen
  | .error e => ImportsOf (wantedImports gen) (.error e)

/-- The tail of `addImports`, after its loop. -/
theorem imported_bind {gen : List (Decl Sig)} {r : Except CompileError (List (String × String))}
    (hr : ImportsOf (wantedImports gen) r) :
    Imported gen (r >>= fun imports =>
      if imports.isEmpty then pure gen
      else pure (.importDecl (imports.map fun e => ⟨some e.1, e.2⟩) :: gen)) := by
  cases r with
  | error e => exact hr
  | ok imports => cases imports <;> exact ⟨_, hr, rfl⟩

theorem addImports_imported (gen : List (Decl Sig)) : Imported gen (addImports gen) := by
  unfold addImports
  refine imported_bind (foldlM_importsOf (fun acc sel hacc => ?_) (by simp) rfl)
  unfold importOf
  cases hp : sel.pkgPath with
  | none => exact ⟨hacc, by simp⟩
  | some path =>
    by_cases hq : sel.qual = "" ∨ path = ""
    · simp only [hq, if_true]
      exact ⟨hacc, by simp⟩
    · simp only [hq, if_false]
      cases hl : acc.lookup sel.qual with
      | none =>
        have hnew : ∀ p, (sel.qual, p) ∉ acc := fun p hp => by
          simpa using List.lookup_eq_none_iff.1 hl _ hp
        exact ⟨by simpa [List.nodup_append] using ⟨hacc, hnew⟩, fun e => by simp⟩
      | some existing =>
        have hmem : (sel.qual, existing) ∈ acc := by
          obtain ⟨l₁, l₂, rfl, -⟩ := List.lookup_eq_some_iff.1 hl
          simp
        dsimp only
        by_cases he : existing = trimPrefix path "vendor/"
        · rw [if_neg (not_not.2 he)]
          exact ⟨hacc, fun e => by simpa [← he] using fun h => h ▸ hmem⟩
        · rw [if_pos he]
          exact show ImportsOf _ (.error _) from
            ⟨_, _, _, List.mem_append_left _ hmem, by simp, he, rfl⟩

/-- `addImports` panics exactly when the selectors of `gen` ask for one qualifier from
two different paths. -/
theorem addImports_panics_iff {gen : List (Decl Sig)} :
    (∃ e, addImports gen = .error e) ↔
      ∃ q p p', (q, p) ∈ wantedImports gen ∧ (q, p') ∈ wantedImports gen ∧ p ≠ p' := by
  have hi := addImports_imported gen
  constructor
  · rintro ⟨e, he⟩
    rw [he] at hi
    obtain ⟨q, p, p', h₁, h₂, hne, -⟩ := hi
    exact ⟨q, p, p', h₁, h₂, hne⟩
  · rintro ⟨q, p, p', h₁, h₂, hne⟩
    cases ha : addImports gen with
    | error e => exact ⟨e, rfl⟩
    | ok out =>
      rw [ha] at hi
      obtain ⟨imports, himp, -⟩ := hi
      exact absurd himp (ImportsOf.not_ok h₁ h₂ hne)

example : addImports ([.genDecl [⟨"rand", some "math/rand"⟩, ⟨"rand", some "crypto/rand"⟩]] : List (Decl Nat)) =
    .error (.conflictingImports "rand") := rfl

/-! ## The generated file -/

/-- The selector a prologue adds asks for the coroutine package under `coroutine`. -/
@[simp] theorem importOf_coroutineSelector : importOf coroutineSelector = some ("coroutine", coroutinePackage) := by
  decide

section Generated

variable (byFunc : SyntaxNode → Option Sig)

/-- Whether the declaration loop compiles `d` with a prologue: `d` is a colored
function whose compiled body is not `isExpr`. -/
def HasPrologue : Decl Sig → Bool
  | .funcDecl node prologue _ => (byFunc (.funcDecl node)).isSome && prologue
  | _ => false

/-- What a declaration of the original asks the generated file to import: the
coroutine package for its prologue, then what its own selectors ask for. -/
def wantedOf (d : Decl Sig) : List (String × String) :=
  (if HasPrologue byFunc d then [("coroutine", coroutinePackage)] else []) ++ d.selectors.filterMap importOf

/-- The declaration loop keeps the selectors of the original and puts the `coroutine`
qualifier in front of those of each function it compiles with a prologue. -/
theorem wantedImports_genDecl (decls : List (Decl Sig)) :
    wantedImports (decls.filterMap (genDecl byFunc)) = decls.flatMap (wantedOf byFunc) := by
  unfold wantedImports
  induction decls with
  | nil => rfl
  | cons d ds ih =>
    cases d with
    | funcDecl node prologue sels =>
      cases hb : byFunc (.funcDecl node) <;> cases prologue <;>
        simp [genDecl, wantedOf, HasPrologue, Decl.selectors, hb, ih]
    | _ => simp [genDecl, wantedOf, HasPrologue, Decl.selectors, ih]

end Generated

/-- `a.go` imports `fmt` and the coroutine package, declares the colored `f` (node 0),
which calls `fmt.Println` and gets a prologue, and a variable of type
`coroutine.Context` whose package is vendored. -/
def vendoredFile : GoSource Nat :=
  ⟨"a.go", ⟨none⟩, [.importDecl [⟨none, "fmt"⟩, ⟨none, "github.com/stealthrocket/coroutine"⟩],
    .funcDecl 0 true [⟨"fmt", some "fmt"⟩],
    .genDecl [⟨"coroutine", some "vendor/github.com/stealthrocket/coroutine"⟩]]⟩

/-- The colors of `vendoredFile`: `f` under the yield signature 1. -/
def vendoredColors (n : SyntaxNode) : Option Nat :=
  if n = .funcDecl 0 then some 1 else none

example : ∃ log, compileFile (fun _ => false) noFunctypes vendoredColors vendoredFile [] = .ok () log ∧
    log.map Written.decls = [vendoredFile.decls,
      [.importDecl [⟨some "coroutine", coroutinePackage⟩, ⟨some "fmt", "fmt"⟩],
        .compiled 0 1 true [⟨"fmt", some "fmt"⟩],
        .genDecl [⟨"coroutine", some "vendor/github.com/stealthrocket/coroutine"⟩]]] := ⟨_, rfl, rfl⟩

end DurableCoroutine.Compiler
