import Mathlib.Data.List.Basic

/-!
# Build constraints of the rewritten and the generated files

`compilePackage` writes every source file twice: the original path again, with
its `//go:build` expression conjoined with `!durable`, and the path with `.go`
replaced by `_durable.go` for the generated AST.  That AST is a new `ast.File`
holding the declarations and no comments, so it has no `//go:build` line of its
own and is guarded by `durable` alone.  Whether `go build` compiles a file
also depends on its name in its directory (`x_linux.go`, `x_amd64.go`); that rule
is Go's `go/build.goodOSArchFile`, modelled here with the tables it uses.
-/

namespace DurableCoroutine.Compiler

/-- `constraint.Expr`: a `//go:build` expression. -/
inductive BuildExpr
  | tag (name : String)
  | not (x : BuildExpr)
  | and (x y : BuildExpr)
  | or (x y : BuildExpr)
  deriving DecidableEq, Repr

/-- A build configuration: `GOOS`, `GOARCH` and the other satisfied tags
(`-tags`, `cgo`, the compiler and the release tags). -/
structure BuildContext where
  goos : String
  goarch : String
  buildTags : List String
  deriving DecidableEq, Repr

/-- Go's `unixOS` table. -/
def unixOS : List String :=
  ["aix", "android", "darwin", "dragonfly", "freebsd", "hurd", "illumos", "ios", "linux",
    "netbsd", "openbsd", "solaris"]

/-- Go's `knownOS` table. -/
def knownOS : List String :=
  ["aix", "android", "darwin", "dragonfly", "freebsd", "hurd", "illumos", "ios", "js", "linux",
    "nacl", "netbsd", "openbsd", "plan9", "solaris", "wasip1", "windows", "zos"]

/-- Go's `knownArch` table. -/
def knownArch : List String :=
  ["386", "amd64", "amd64p32", "arm", "armbe", "arm64", "arm64be", "loong64", "mips", "mipsle",
    "mips64", "mips64le", "mips64p32", "mips64p32le", "ppc", "ppc64", "ppc64le", "riscv",
    "riscv64", "s390", "s390x", "sparc", "sparc64", "wasm"]

namespace BuildContext

/-- `go/build`'s `matchTag`. -/
def matchTag (ctx : BuildContext) (name : String) : Bool :=
  name == ctx.goos || name == ctx.goarch ||
    (ctx.goos == "android" && name == "linux") ||
    (ctx.goos == "illumos" && name == "solaris") ||
    (ctx.goos == "ios" && name == "darwin") ||
    (name == "unix" && unixOS.contains ctx.goos) ||
    ctx.buildTags.contains name

/-- The constraint a file's base name implies, `go/build`'s `goodOSArchFile`: the name up
to its first dot, split at underscores after the first one, less a final
`test`, is constrained by a trailing known `GOOS_GOARCH`, `GOOS` or `GOARCH`. -/
def goodOSArchFile (ctx : BuildContext) (name : String) : Bool :=
  match ((name.toList.splitOn '.').headD []).splitOn '_' with
  | [] | [_] => true
  | _ :: rest =>
    let l := ("" :: rest.map String.mk)
    let l := if l.getLast? = some "test" then l.dropLast else l
    match l.reverse with
    | last :: previous :: _ =>
      if knownOS.contains previous && knownArch.contains last then
        ctx.matchTag last && ctx.matchTag previous
      else if knownOS.contains last || knownArch.contains last then ctx.matchTag last
      else true
    | [last] => if knownOS.contains last || knownArch.contains last then ctx.matchTag last else true
    | [] => true

end BuildContext

namespace BuildExpr

def eval (ctx : BuildContext) : BuildExpr → Bool
  | tag name => ctx.matchTag name
  | not x => !x.eval ctx
  | and x y => x.eval ctx && y.eval ctx
  | or x y => x.eval ctx || y.eval ctx

end BuildExpr

/-- What the build reads of an `ast.File`: its `//go:build` comment, if any. -/
structure GoFile where
  buildTags : Option BuildExpr
  deriving DecidableEq, Repr

/-- A file written to disk: its name and its `//go:build` line. -/
structure SourceFile where
  name : String
  buildTags : Option BuildExpr
  deriving DecidableEq, Repr

/-- `filepath.Base` of a file path of `p.GoFiles`: the part after its last `/`. -/
def baseName (path : String) : String :=
  String.mk ((path.toList.splitOn '/').getLastD [])

/-- Whether `go build` compiles a file: the name it lists in its directory and its
`//go:build` line agree. -/
def SourceFile.selected (ctx : BuildContext) (f : SourceFile) : Bool :=
  ctx.goodOSArchFile (baseName f.name) && (f.buildTags.map (BuildExpr.eval ctx)).getD true

/-- Modelled from the spec: the generated file is "guarded by a build tag
`durable`", conjoined with the expression it is given. -/
def withBuildTag (expr : Option BuildExpr) (buildTag : String) : Option BuildExpr :=
  some (match expr with
    | none => .tag buildTag
    | some expr => .and expr (.tag buildTag))

/-- Modelled from the spec: the original file "is re-emitted without that tag",
that is, excluded when it is set. -/
def withoutBuildTag (expr : Option BuildExpr) (buildTag : String) : Option BuildExpr :=
  some (match expr with
    | none => .not (.tag buildTag)
    | some expr => .and expr (.not (.tag buildTag)))

/-- `strings.TrimSuffix`. -/
def trimSuffix (s suffix : String) : String :=
  if suffix.toList.isSuffixOf s.toList then String.mk (s.toList.take (s.length - suffix.length))
  else s

/-- `writeFile`: the file written at `path` has the `//go:build` expression of the
AST passed through `changeBuildTags`. -/
def writeFile (path : String) (file : GoFile)
    (changeBuildTags : Option BuildExpr → Option BuildExpr) : SourceFile :=
  ⟨path, changeBuildTags file.buildTags⟩

/-- The two files `compilePackage` writes for the source file at `path` with AST
`f`: the rewritten original, and the generated file, whose AST `gen` is a new
`ast.File` without comments. -/
def compilePackageFile (path : String) (f : GoFile) : SourceFile × SourceFile :=
  let gen : GoFile := ⟨none⟩
  (writeFile path f fun expr => withoutBuildTag expr "durable",
   writeFile (trimSuffix path ".go" ++ "_durable.go") gen fun expr => withBuildTag expr "durable")

/-- The rewritten original is compiled exactly when the original was and
`durable` is not set. -/
theorem compilePackageFile_original_selected (ctx : BuildContext) (path : String) (f : GoFile) :
    (compilePackageFile path f).1.selected ctx =
      (SourceFile.selected ctx ⟨path, f.buildTags⟩ && !ctx.matchTag "durable") := by
  cases f with
  | mk buildTags =>
    cases buildTags <;>
      simp [compilePackageFile, writeFile, withoutBuildTag, SourceFile.selected, BuildExpr.eval,
        Bool.and_assoc]

/-- The generated file is compiled exactly when `durable` is set and its own
name carries no unmet constraint; neither the original's name nor its
`//go:build` line has a say. -/
theorem compilePackageFile_generated_selected (ctx : BuildContext) (path : String) (f : GoFile) :
    (compilePackageFile path f).2.selected ctx =
      (ctx.goodOSArchFile (baseName (trimSuffix path ".go" ++ "_durable.go")) && ctx.matchTag "durable") := by
  simp [compilePackageFile, writeFile, withBuildTag, SourceFile.selected, BuildExpr.eval]

/-- `x_linux.go` without a `//go:build` line is not compiled for darwin, but its
generated `x_linux_durable.go` is compiled there once `durable` is set. -/
theorem linux_file_durable_copy_selected_on_darwin :
    SourceFile.selected ⟨"darwin", "amd64", ["durable"]⟩ ⟨"x_linux.go", none⟩ = false ∧
    (compilePackageFile "x_linux.go" ⟨none⟩).2.selected ⟨"darwin", "amd64", ["durable"]⟩ = true := by
  decide

end DurableCoroutine.Compiler
