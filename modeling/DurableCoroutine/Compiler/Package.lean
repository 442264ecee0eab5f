import DurableCoroutine.Compiler.BuildTags
import Mathlib.Logic.Function.Basic

/-!
# Compiling a package: colors, declarations, imports and written files

`compile` colors the functions that reach `coroutine.Yield` and calls
`compilePackage` on each package holding one, in the order of a Go map.
`compilePackage` keys the colors by the functions' syntax nodes
(`colorsByFunc`), then for each source file writes the original again and
builds the generated file: the original's declarations less its imports, each
colored function declaration replaced by its compiled form, the declarations
`generateFunctypes` appends (that function is not part of the sources and is a
parameter here), and one import declaration that `addImports` collects from the
selector expressions of the result.  The Go maps iterated here are lists in one iteration order, the files
written are a log in the order they are written, and an error return or a panic
keeps the log written so far.
-/

namespace DurableCoroutine.Compiler

/-- What `fn.Syntax()` is for an SSA function, by node identity. -/
inductive SyntaxNode
  | funcDecl (node : Nat)
  | funcLit (node : Nat)
  /-- Any other node, such as the body of a synthetic wrapper. -/
  | other (node : Nat)
  deriving DecidableEq, Repr

/-- An SSA function: an instance of a declaration or literal, generic ones once per
type arguments, all sharing the syntax of their origin. -/
structure FuncInstance where
  name : String
  /-- `fn.Syntax()`. -/
  node : SyntaxNode
  deriving DecidableEq, Repr

/-- An import spec: its local name (`none` for the package's own name, `_` or `.`)
and its path. -/
structure ImportSpec where
  name : Option String
  path : String
  deriving DecidableEq, Repr

/-- A selector expression `X.Sel` whose `X` is an identifier: that identifier's
name, and the import path of the package `TypesInfo.ObjectOf(X)` names when the
object is a `*types.PkgName`. -/
structure Selector where
  qual : String
  pkgPath : Option String
  deriving DecidableEq, Repr

/-- `coroutinePackage`. -/
def coroutinePackage : String := "github.com/stealthrocket/coroutine"

/-- The qualifier of `coroutine.LoadContext`, `coroutine.Push` and `coroutine.Pop` in a
prologue, which `compileFuncBody` registers in `TypesInfo.Uses` as the coroutine
package. -/
def coroutineSelector : Selector := ⟨"coroutine", some coroutinePackage⟩

/-- A top-level declaration, with the selector expressions `ast.Inspect` meets in it. -/
inductive Decl (Sig : Type)
  | importDecl (specs : List ImportSpec)
  /-- A `const`, `type` or `var` declaration. -/
  | genDecl (sels : List Selector)
  /-- A function declaration; `prologue` says whether compiling it writes a prologue,
  that is, whether its body or the body of a colored literal in it is not `isExpr`
  once desugared. -/
  | funcDecl (node : Nat) (prologue : Bool) (sels : List Selector)
  /-- What `compileFuncDecl` returns for the declaration `node` under the yield
  signature `color`: the source's selectors, behind the `coroutine` qualifier of
  its prologue when it has one. -/
  | compiled (node : Nat) (color : Sig) (prologue : Bool) (sels : List Selector)
  deriving DecidableEq, Repr

def Decl.selectors {Sig : Type} : Decl Sig → List Selector
  | .importDecl _ => []
  | .genDecl sels | .funcDecl _ _ sels => sels
  | .compiled _ _ prologue sels => (if prologue then [coroutineSelector] else []) ++ sels

/-- A source file of a package: its path in `p.GoFiles`, what the build reads of its
AST, and its declarations. -/
structure GoSource (Sig : Type) where
  path : String
  file : GoFile
  decls : List (Decl Sig)

structure Package (Sig : Type) where
  name : String
  files : List (GoSource Sig)

/-- A file `writeFile` wrote, with the declarations of the AST it formatted. -/
structure Written (Sig : Type) where
  file : SourceFile
  decls : List (Decl Sig)

/-- The errors `compile` returns and the panics of `addImports`. -/
inductive CompileError
  /-- `unsupported yield function %s (Syntax is %T, not *ast.FuncDecl or *ast.FuncLit)`. -/
  | unsupportedYieldFunction (fn : FuncInstance)
  /-- The error `unsupported(decl, p.TypesInfo)` returns for a declaration it rejects. -/
  | unsupported (node : Nat)
  /-- `panic("conflicting imports")`. -/
  | conflictingImports (name : String)
  deriving DecidableEq, Repr

abbrev CompileM (Sig : Type) := EStateM CompileError (List (Written Sig))

/-- `strings.TrimPrefix`. -/
def trimPrefix (s pre : String) : String :=
  if pre.toList.isPrefixOf s.toList then String.mk (s.toList.drop pre.length) else s

section Compile

variable {Sig : Type}

/-- One iteration of the `colorsByFunc` loop: `colorsByFunc[decl] = color`. -/
def colorStep (byFunc : SyntaxNode → Option Sig) (entry : FuncInstance × Sig) :
    Except CompileError (SyntaxNode → Option Sig) :=
  match entry.1.node with
  | .funcDecl _ | .funcLit _ => pure (Function.update byFunc entry.1.node (some entry.2))
  | .other _ => throw (.unsupportedYieldFunction entry.1)

/-- `colorsByFunc`: the colors keyed by syntax node; a later instance of a node
overwrites an earlier one. -/
def colorsByFunc (colors : List (FuncInstance × Sig)) :
    Except CompileError (SyntaxNode → Option Sig) :=
  colors.foldlM colorStep fun _ => none

/-- The loop keeps, for each node, the color of its last instance in iteration
order, and the initial entry for a node no instance has. -/
theorem foldlM_colorStep_apply : ∀ (colors : List (FuncInstance × Sig))
    (init byFunc : SyntaxNode → Option Sig), colors.foldlM colorStep init = .ok byFunc →
    ∀ n, byFunc n = (((colors.filter fun c => c.1.node = n).getLast?).map Prod.snd).or (init n)
  | [], init, byFunc, h, n => by
    cases h
    rfl
  | c :: cs, init, byFunc, h, n => by
    rw [List.foldlM_cons] at h
    unfold colorStep at h
    split at h
    case' h_3 => cases h
    all_goals
      rw [foldlM_colorStep_apply cs _ byFunc h n, List.filter_cons]
      by_cases hn : c.1.node = n
      · subst hn
        cases hlast : (cs.filter fun c' => c'.1.node = c.1.node).getLast? <;>
          simp [hlast, List.getLast?_cons]
      · simp [hn, Function.update_noteq (Ne.symm hn)]

/-- The color `colorsByFunc` keeps for a node is that of the node's last instance
in the map's iteration order. -/
theorem colorsByFunc_apply {colors : List (FuncInstance × Sig)} {byFunc : SyntaxNode → Option Sig}
    (h : colorsByFunc colors = .ok byFunc) (n : SyntaxNode) :
    byFunc n = ((colors.filter fun c => c.1.node = n).getLast?).map Prod.snd := by
  rw [foldlM_colorStep_apply colors _ byFunc h n, Option.or_none]

/-- `f[int]` and `f[string]` share the declaration of `f`; the later one's color is kept. -/
theorem colorsByFunc_generic_instances :
    ∃ byFunc, colorsByFunc [(⟨"f[int]", .funcDecl 0⟩, 1), (⟨"f[string]", .funcDecl 0⟩, 2)] = .ok byFunc ∧
      byFunc (.funcDecl 0) = (([(⟨"f[int]", .funcDecl 0⟩, 1), (⟨"f[string]", .funcDecl 0⟩, 2)].filter
        fun c : FuncInstance × Nat => c.1.node = .funcDecl 0).getLast?).map Prod.snd :=
  ⟨_, rfl, @colorsByFunc_apply Nat [(⟨"f[int]", .funcDecl 0⟩, 1), (⟨"f[string]", .funcDecl 0⟩, 2)] _ rfl _⟩

variable (unsupported : Nat → Bool)

/-- The declaration loop of `compilePackage`: imports are dropped, other general
declarations and uncolored functions kept, and a colored function checked by
`unsupported` and compiled under its color. -/
def genDecls (byFunc : SyntaxNode → Option Sig) (decls : List (Decl Sig)) :
    Except CompileError (List (Decl Sig)) :=
  decls.foldlM (fun gen decl =>
    match decl with
    | .importDecl _ => pure gen
    | .funcDecl node prologue sels =>
      match byFunc (.funcDecl node) with
      | none => pure (gen ++ [decl])
      | some color =>
        if unsupported node then throw (.unsupported node)
        else pure (gen ++ [.compiled node color prologue sels])
    | _ => pure (gen ++ [decl])) []

/-- `addImports`: every qualifier of a selector that names a package is imported
under its name, from its path less a `vendor/` prefix. -/
def addImports (gen : List (Decl Sig)) : Except CompileError (List (Decl Sig)) := do
  let imports ← (gen.flatMap Decl.selectors).foldlM (fun (imports : List (String × String)) sel =>
    match sel.pkgPath with
    | none => pure imports
    | some path =>
      if sel.qual = "" ∨ path = "" then pure imports
      else
        let pkg := trimPrefix path "vendor/"
        match imports.lookup sel.qual with
        | some existing => if existing ≠ pkg then throw (.conflictingImports sel.qual) else pure imports
        | none => pure (imports ++ [(sel.qual, pkg)])) []
  if imports.isEmpty then return gen
  return .importDecl (imports.map fun entry => ⟨some entry.1, entry.2⟩) :: gen

/-- An error returned from a step of `compilePackage`, which keeps what it wrote. -/
def fromExcept {α : Type} : Except CompileError α → CompileM Sig α
  | .ok a => pure a
  | .error e => throw e

def write (file : SourceFile) (decls : List (Decl Sig)) : CompileM Sig Unit :=
  modify (· ++ [⟨file, decls⟩])

@[simp] theorem fromExcept_ok {α : Type} (a : α) (log : List (Written Sig)) :
    (fromExcept (.ok a) : CompileM Sig α) log = .ok a log := rfl

@[simp] theorem fromExcept_error {α : Type} (e : CompileError) (log : List (Written Sig)) :
    (fromExcept (.error e) : CompileM Sig α) log = .error e log := rfl

@[simp] theorem write_run (file : SourceFile) (decls : List (Decl Sig)) (log : List (Written Sig)) :
    write file decls log = .ok () (log ++ [⟨file, decls⟩]) := rfl

variable (functypes : (SyntaxNode → Option Sig) → List (Decl Sig) → List (Decl Sig))

/-- The body of `compilePackage`'s file loop: the original rewritten with
`!durable`, then the generated file with `durable`.  `functypes` stands for
`generateFunctypes(p, gen, colorsByFunc)`: the declarations it appends to `gen`. -/
def compileFile (byFunc : SyntaxNode → Option Sig) (f : GoSource Sig) : CompileM Sig Unit := do
  write (writeFile f.path f.file fun expr => withoutBuildTag expr "durable") f.decls
  let gen ← fromExcept (genDecls unsupported byFunc f.decls)
  let gen ← fromExcept (addImports (gen ++ functypes byFunc gen))
  write (writeFile (trimSuffix f.path ".go" ++ "_durable.go") ⟨none⟩ fun expr =>
    withBuildTag expr "durable") gen

def compilePackage (p : Package Sig) (colors : List (FuncInstance × Sig)) : CompileM Sig Unit := do
  let byFunc ← fromExcept (colorsByFunc colors)
  p.files.forM (compileFile unsupported functypes byFunc)

/-- The package loop of `compile`, over `colorsByPkg` in one iteration order. -/
def compilePackages (pkgs : List (Package Sig × List (FuncInstance × Sig))) : CompileM Sig Unit :=
  pkgs.forM fun entry => compilePackage unsupported functypes entry.1 entry.2

/-- What a file's step that returns nil has done: its declaration loop returned `gen`,
`addImports` returned `out` for `gen` and what `generateFunctypes` appends to it, and
the step wrote the rewritten original, then `out` as the generated file. -/
theorem compileFile_ok_inv {byFunc : SyntaxNode → Option Sig} {f : GoSource Sig}
    {log log' : List (Written Sig)} (h : compileFile unsupported functypes byFunc f log = .ok () log') :
    ∃ gen out, genDecls unsupported byFunc f.decls = .ok gen ∧ addImports (gen ++ functypes byFunc gen) = .ok out ∧
      log' = log ++ [⟨(compilePackageFile f.path f.file).1, f.decls⟩, ⟨(compilePackageFile f.path f.file).2, out⟩] := by
  unfold compileFile at h
  simp only [bind, EStateM.bind, write_run] at h
  cases hg : genDecls unsupported byFunc f.decls with
  | error e => simp [hg] at h
  | ok gen =>
    cases ha : addImports (gen ++ functypes byFunc gen) with
    | error e => simp [hg, ha] at h
    | ok out =>
      simp only [hg, ha, fromExcept_ok, EStateM.Result.ok.injEq] at h
      exact ⟨gen, out, rfl, ha, by rw [← h.2]; simp [compilePackageFile]⟩

/-- One file's step writes the two files `compilePackageFile` describes. -/
theorem compileFile_writes {byFunc : SyntaxNode → Option Sig} {f : GoSource Sig}
    {log log' : List (Written Sig)} (h : compileFile unsupported functypes byFunc f log = .ok () log') :
    ∃ gen, log' = log ++ [⟨(compilePackageFile f.path f.file).1, f.decls⟩,
      ⟨(compilePackageFile f.path f.file).2, gen⟩] :=
  let ⟨_, out, _, _, hlog⟩ := compileFile_ok_inv unsupported functypes h
  ⟨out, hlog⟩

theorem forM_compileFile_writes (byFunc : SyntaxNode → Option Sig) :
    ∀ (files : List (GoSource Sig)) (log log' : List (Written Sig)),
      files.forM (compileFile unsupported functypes byFunc) log = .ok () log' →
      ∃ rest, log' = log ++ rest ∧ rest.map Written.file =
        files.flatMap fun f => [(compilePackageFile f.path f.file).1, (compilePackageFile f.path f.file).2]
  | [], log, log', h => by
    cases h
    exact ⟨[], by simp, rfl⟩
  | f :: fs, log, log', h => by
    rw [List.forM_cons'] at h
    simp only [bind, EStateM.bind] at h
    cases h₁ : compileFile unsupported functypes byFunc f log with
    | error e s => simp [h₁] at h
    | ok u log₁ =>
      simp only [h₁] at h
      obtain ⟨gen, rfl⟩ := compileFile_writes unsupported functypes h₁
      obtain ⟨rest, rfl, hrest⟩ := forM_compileFile_writes byFunc fs _ _ h
      exact ⟨[⟨(compilePackageFile f.path f.file).1, f.decls⟩, ⟨(compilePackageFile f.path f.file).2, gen⟩] ++
        rest, by simp, by simp [hrest]⟩

/-- A run of `compilePackage` that returns nil writes, file by file, the two files
`compilePackageFile` describes: the rewritten original, then the generated file. -/
theorem compilePackage_writes {p : Package Sig} {colors : List (FuncInstance × Sig)}
    {log log' : List (Written Sig)} (h : compilePackage unsupported functypes p colors log = .ok () log') :
    ∃ rest, log' = log ++ rest ∧ rest.map Written.file =
      p.files.flatMap fun f => [(compilePackageFile f.path f.file).1, (compilePackageFile f.path f.file).2] := by
  unfold compilePackage at h
  simp only [bind, EStateM.bind] at h
  cases hc : colorsByFunc colors with
  | error e => simp [hc] at h
  | ok byFunc =>
    simp only [hc, fromExcept_ok] at h
    exact forM_compileFile_writes unsupported functypes byFunc _ _ _ h

end Compile

/-- A `generateFunctypes` that appends nothing. -/
def noFunctypes {Sig : Type} : (SyntaxNode → Option Sig) → List (Decl Sig) → List (Decl Sig) :=
  fun _ _ => []

/-- A package of two files, `a.go` declaring the colored `f` and `b.go` with one
general declaration. -/
theorem compilePackage_two_files :
    ∃ log', compilePackage (fun _ => false) noFunctypes
        ⟨"p", [⟨"a.go", ⟨none⟩, [.funcDecl 0 true []]⟩, ⟨"b.go", ⟨none⟩, [.genDecl []]⟩]⟩
        [(⟨"f", .funcDecl 0⟩, 1)] [] = .ok () log' ∧
      ∃ rest, log' = [] ++ rest ∧ rest.map Written.file =
        [⟨"a.go", ⟨none⟩, [.funcDecl 0 true []]⟩, ⟨"b.go", ⟨none⟩, [.genDecl []]⟩].flatMap fun f : GoSource Nat =>
          [(compilePackageFile f.path f.file).1, (compilePackageFile f.path f.file).2] :=
  ⟨_, rfl, @compilePackage_writes Nat (fun _ => false) noFunctypes
    ⟨"p", [⟨"a.go", ⟨none⟩, [.funcDecl 0 true []]⟩, ⟨"b.go", ⟨none⟩, [.genDecl []]⟩]⟩ [(⟨"f", .funcDecl 0⟩, 1)] [] _ rfl⟩

/-! ## Runs on one package -/

/-- One file `a.go` declaring the function `f` (node 0), whose body is compiled with a
prologue, with its imports. -/
def onePackage (imports : List ImportSpec) : Package Nat :=
  ⟨"p", [⟨"a.go", ⟨none⟩, [.importDecl imports, .funcDecl 0 true []]⟩]⟩

/-- Two instances of the generic `f`, `f[int]` and `f[string]`, whose `Syntax()` is
the declaration of `f`. -/
def fInt : FuncInstance := ⟨"f[int]", .funcDecl 0⟩

def fString : FuncInstance := ⟨"f[string]", .funcDecl 0⟩

/-- The import `addImports` adds for a prologue. -/
def coroutineImport : ImportSpec := ⟨some "coroutine", coroutinePackage⟩

/-- Two instances of one declaration colored with yield signatures 1 and 2:
`compilePackage` returns nil in either iteration order of the color table and
compiles the declaration with the color of the instance visited last, so the
generated file depends on the order and never matches both instances.  The runs
take a `generateFunctypes` that appends nothing. -/
theorem shared_node_color_follows_map_order :
    (∃ log, compilePackage (fun _ => false) noFunctypes (onePackage []) [(fInt, 1), (fString, 2)] [] =
        .ok () log ∧ log.map Written.decls =
          [[.importDecl [], .funcDecl 0 true []], [.importDecl [coroutineImport], .compiled 0 2 true []]]) ∧
    (∃ log, compilePackage (fun _ => false) noFunctypes (onePackage []) [(fString, 2), (fInt, 1)] [] =
        .ok () log ∧ log.map Written.decls =
          [[.importDecl [], .funcDecl 0 true []], [.importDecl [coroutineImport], .compiled 0 1 true []]]) :=
  ⟨⟨_, rfl, rfl⟩, ⟨_, rfl, rfl⟩⟩

/-- `import _ "embed"` and `import . "strings"` are dropped with the original's
declarations of imports, and `addImports` only sees selector expressions: the
generated `a_durable.go` imports the coroutine package, for the prologue of `f`, and
nothing else.  The run takes a `generateFunctypes` that appends nothing. -/
theorem blank_and_dot_imports_dropped :
    ∃ log, compilePackage (fun _ => false) noFunctypes (onePackage [⟨some "_", "embed"⟩, ⟨some ".", "strings"⟩])
        [(fInt, 1)] [] = .ok () log ∧
      log.map (·.file.name) = ["a.go", "a_durable.go"] ∧
      log.map Written.decls =
        [[.importDecl [⟨some "_", "embed"⟩, ⟨some ".", "strings"⟩], .funcDecl 0 true []],
          [.importDecl [coroutineImport], .compiled 0 1 true []]] :=
  ⟨_, rfl, rfl, rfl⟩

/-- When `unsupported` rejects the colored `f`, `compilePackage` fails after it has
rewritten `a.go` with `!durable` and before it writes `a_durable.go`, whatever
`generateFunctypes` would append: a durable build then compiles neither. -/
theorem rejected_function_leaves_original_rewritten
    (functypes : (SyntaxNode → Option Nat) → List (Decl Nat) → List (Decl Nat)) :
    ∃ log, compilePackage (fun _ => true) functypes (onePackage []) [(fInt, 1)] [] = .error (.unsupported 0) log ∧
      log.map Written.file = [⟨"a.go", some (.not (.tag "durable"))⟩] :=
  ⟨_, rfl, rfl⟩

end DurableCoroutine.Compiler
