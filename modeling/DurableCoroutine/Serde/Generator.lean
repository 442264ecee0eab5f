import Mathlib.Data.List.Basic

/-!
# The serde generator

`serde -type T` writes a serializer and a deserializer for `T`.  `generator.Type`
dispatches on the type: a basic type is served by the `serde` package's own
primitives, a named type by the functions of its underlying type under the named
type's name, and a struct or a slice type gets a pair of generated functions,
registered in `known` (a `typeutil.Map`, keyed by type identity) before its
components are visited, so that a recursive type ends.  The generator writes each
function as text lines; the model keeps what those lines hold: the function's
name, the type its name denotes, and the locations it calls.
-/

namespace DurableCoroutine.Serde

/-- `types.BasicKind`, less the untyped kinds, which no declared type has. -/
inductive BasicKind
  | invalid
  | bool
  | int
  | int8
  | int16
  | int32
  | int64
  | uint
  | uint8
  | uint16
  | uint32
  | uint64
  | uintptr
  | float32
  | float64
  | complex64
  | complex128
  | string
  | unsafePointer
  deriving DecidableEq, Repr

/-- The suffix of the `serde` primitives `Basic` picks for a kind, as `nameof`
reads it off `serde.SerializeString` and the others. -/
def BasicKind.serdeName : BasicKind → Option String
  | .string => some "String"
  | .bool => some "Bool"
  | .int64 => some "Int64"
  | .int32 => some "Int32"
  | .int16 => some "Int16"
  | .int8 => some "Int8"
  | .uint64 => some "Uint64"
  | .uint32 => some "Uint32"
  | .uint16 => some "Uint16"
  | .uint8 => some "Uint8"
  | .float32 => some "Float32"
  | .float64 => some "Float64"
  | .complex64 => some "Complex64"
  | .complex128 => some "Complex128"
  | _ => none

/-- The name `types.TypeString` prints for a basic type. -/
def BasicKind.typeName : BasicKind → String
  | .invalid => "invalid type"
  | .bool => "bool"
  | .int => "int"
  | .int8 => "int8"
  | .int16 => "int16"
  | .int32 => "int32"
  | .int64 => "int64"
  | .uint => "uint"
  | .uint8 => "uint8"
  | .uint16 => "uint16"
  | .uint32 => "uint32"
  | .uint64 => "uint64"
  | .uintptr => "uintptr"
  | .float32 => "float32"
  | .float64 => "float64"
  | .complex64 => "complex64"
  | .complex128 => "complex128"
  | .string => "string"
  | .unsafePointer => "unsafe.Pointer"

mutual
/-- The types of a package.  A defined type is referred to by its name, printed
relative to the output package, and its underlying type is looked up; two types
are identical exactly when they are equal here. -/
inductive GoType
  | basic (kind : BasicKind)
  | struct (fields : FieldList)
  | slice (elem : GoType)
  | named (name : String)
  /-- Arrays, maps, pointers and the other types the generator does not handle. -/
  | other (desc : String)
  deriving DecidableEq, Repr

/-- The fields of a struct type, in order. -/
inductive FieldList
  | nil
  | cons (name : String) (type : GoType) (rest : FieldList)
  deriving DecidableEq, Repr
end

def FieldList.toList : FieldList → List (String × GoType)
  | .nil => []
  | .cons name type rest => (name, type) :: rest.toList

mutual
/-- `types.TypeString(t, types.RelativeTo(main))`. -/
def GoType.typeString : GoType → String
  | .basic kind => kind.typeName
  | .struct fields => "struct\x7b" ++ fields.typeString ++ "\x7d"
  | .slice elem => "[]" ++ elem.typeString
  | .named name => name
  | .other desc => desc

def FieldList.typeString : FieldList → String
  | .nil => ""
  | .cons name type .nil => name ++ " " ++ type.typeString
  | .cons name type rest => name ++ " " ++ type.typeString ++ "; " ++ rest.typeString
end

/-- A `location`: a function of package `pkg`, or of the output file when `pkg`
is empty.  Its `method` flag is never set by the generator. -/
structure Location where
  pkg : String
  name : String
  deriving DecidableEq, Repr, Inhabited

structure Locations where
  serializer : Location
  deserializer : Location
  deriving DecidableEq, Repr, Inhabited

/-- The `serde` primitives of one basic kind, `serde.Serialize<n>` and `serde.Deserialize<n>`. -/
def primLocations (n : String) : Locations := ⟨⟨"serde", "Serialize" ++ n⟩, ⟨"serde", "Deserialize" ++ n⟩⟩

/-- The two functions `newGenLocation` names after `name`. -/
def genLocations (name : String) : Locations := ⟨⟨"", "Serialize_" ++ name⟩, ⟨"", "Deserialize_" ++ name⟩⟩

/-- A function the generator writes.  `typeName` is the type its `name` argument
denotes, `elemTypeName` and the field types those of `var x` declarations. -/
inductive Func
  /-- `func name(x typeName, b []byte) []byte`: `b = serde.SerializeSliceSize(x, b)`,
  then the element serializer on each element. -/
  | serializeSlice (name : String) (typeName : GoType) (elem : Location)
  /-- `func name(b []byte) (typeName, []byte)`: `n, b := serde.DeserializeSliceSize(b)`,
  then `n` elements appended to `var z typeName`. -/
  | deserializeSlice (name : String) (typeName elemTypeName : GoType) (elem : Location)
  /-- `func name(x typeName, b []byte) []byte`: `x := x.f` and its serializer, field by field. -/
  | serializeStruct (name : String) (typeName : GoType) (fields : List (String × Location))
  /-- `func name(b []byte) (typeName, []byte)`: `var x ft`, its deserializer, and `z.f = x`,
  field by field. -/
  | deserializeStruct (name : String) (typeName : GoType) (fields : List (String × GoType × Location))
  deriving Repr

def Func.name : Func → String
  | .serializeSlice name .. | .deserializeSlice name .. | .serializeStruct name ..
  | .deserializeStruct name .. => name

/-- The package qualifiers a function's text uses. -/
def Func.packages : Func → List String
  | .serializeSlice _ _ elem | .deserializeSlice _ _ _ elem => "serde" :: [elem.pkg].filter (· ≠ "")
  | .serializeStruct _ _ fields => (fields.map (·.2.pkg)).filter (· ≠ "")
  | .deserializeStruct _ _ fields => (fields.map (·.2.2.pkg)).filter (· ≠ "")

/-- The panics of the generator. -/
inductive GenError
  /-- `panic(fmt.Errorf("type generator not implemented: %s (%T)", t, t))`. -/
  | typeNotImplemented (t : GoType)
  /-- `panic("trying to generate serializer for invalid basic type")`. -/
  | invalidBasic
  /-- `panic(fmt.Errorf("basic kind %s not handled", basicKindString(t)))`. -/
  | basicKindNotHandled (kind : BasicKind)
  /-- `panic(fmt.Errorf("trying to override known location"))`. -/
  | overrideKnown
  /-- `panic(fmt.Errorf("two imports named '%s': '%s' and '%s'", name, path, p))`. -/
  | twoImports (name : String)
  /-- Not a panic of the source: the model's fuel ran out. -/
  | outOfFuel
  deriving DecidableEq, Repr

/-- The `generator` struct: `known`, `imports` and the output `s`. -/
structure Generator where
  known : List (GoType × Locations)
  imports : List (String × String)
  s : List Func

abbrev GenM := StateT Generator (Except GenError)

/-- The defined types of the program, by name: each one's underlying type, which
`types` never makes a defined type itself. -/
structure Decls where
  underlying : String → GoType
  underlying_ne_named : ∀ n m, underlying n ≠ .named m

/-- `t.Underlying()`, one step, which is all Go needs. -/
def Decls.resolve (decls : Decls) : GoType → GoType
  | .named n => decls.underlying n
  | t => t

def serdePath : String := "github.com/stealthrocket/coroutine/serde"

def isInvalidChar (r : Char) : Bool :=
  !((r ≥ '0' && r ≤ '9') || (r ≥ 'a' && r ≤ 'z') || (r ≥ 'A' && r ≤ 'Z'))

namespace Generator

/-- Writing a function to the output. -/
def emit (f : Func) : GenM Unit :=
  modify fun g => { g with s := g.s ++ [f] }

def get (t : GoType) : GenM (Option Locations) :=
  return (← getThe Generator).known.lookup t

def ensureImport (name path : String) : GenM Unit := do
  let g ← getThe Generator
  match g.imports.lookup name with
  | some p => if p ≠ path then throw (.twoImports name)
  | none => set { g with imports := g.imports ++ [(name, path)] }

/-- The name `newGenLocation` gives the functions of a type: the type's own name
if it is a plain identifier, else `gen` and the number of known types. -/
def genName (name : String) (known : Nat) : String :=
  let name := if name.toList.any isInvalidChar then "" else name
  if name = "" then "gen" ++ toString known else name

def newGenLocation (t : GoType) (name : String) : GenM Locations := do
  let g ← getThe Generator
  let loc := genLocations (genName name g.known.length)
  if (g.known.lookup t).isSome then throw .overrideKnown
  set { g with known := g.known ++ [(t, loc)] }
  return loc

def basic (kind : BasicKind) : GenM Locations := do
  ensureImport "serde" serdePath
  if kind = .invalid then throw .invalidBasic
  match kind.serdeName with
  | some n => return primLocations n
  | none => throw (.basicKindNotHandled kind)

variable (decls : Decls)

/-- `Slice`, over the recursive call `type t name` of `Type`. -/
def slice (type : GoType → GoType → GenM Locations) (t et name : GoType) : GenM Locations := do
  if let some loc ← get t then return loc
  let loc ← newGenLocation t name.typeString
  let eloc ← type et et
  emit (.serializeSlice loc.serializer.name name eloc.serializer)
  emit (.deserializeSlice loc.deserializer.name name et eloc.deserializer)
  return loc

/-- `Struct`: the fields' functions first, then the struct's two functions, each
of whose loops calls `Type` on the field again. -/
def struct (type : GoType → GoType → GenM Locations) (t : GoType) (fields : FieldList)
    (name : GoType) : GenM Locations := do
  if let some loc ← get t then return loc
  let loc ← newGenLocation t name.typeString
  fields.toList.forM fun field => discard (type field.2 field.2)
  let serializers ← fields.toList.mapM fun field => return (field.1, (← type field.2 field.2).serializer)
  emit (.serializeStruct loc.serializer.name name serializers)
  let deserializers ← fields.toList.mapM fun field =>
    return (field.1, field.2, (← type field.2 field.2).deserializer)
  emit (.deserializeStruct loc.deserializer.name name deserializers)
  return loc

/-- `Named`: the underlying type, under the named type's name. -/
def named (type : GoType → GoType → GenM Locations) (n : String) : GenM Locations :=
  type (decls.underlying n) (.named n)

/-- `Type`; each call takes one unit of fuel. -/
def type : Nat → GoType → GoType → GenM Locations
  | 0, _, _ => throw .outOfFuel
  | n + 1, t, name =>
    match t with
    | .basic kind => basic kind
    | .struct fields => struct (type n) t fields name
    | .named m => named decls (type n) m
    | .slice et => slice (type n) t et name
    | .other _ => throw (.typeNotImplemented t)

/-- `Typedef`, for the defined type named `n`. -/
def typedef (fuel : Nat) (n : String) : GenM Locations :=
  type decls fuel (.named n) (.named n)

end Generator

/-! ## Finding the requested type -/

/-- The kind of object `TypesInfo.Defs` maps a defining identifier to. -/
inductive ObjectKind
  | typeName
  /-- A variable, a struct field, a parameter or a result. -/
  | var
  | const
  | func
  | label
  | pkgName
  /-- The package clause's identifier, which `Defs` maps to nil. -/
  | nil
  deriving DecidableEq, Repr

/-- An entry of `TypesInfo.Defs`: the identifier's name and the kind of its object. -/
structure Def where
  name : String
  kind : ObjectKind
  deriving DecidableEq, Repr

/-- A loaded package: the entries of its `TypesInfo.Defs`, in the order one
iteration of that map visits them. -/
structure LoadedPackage where
  path : String
  defs : List Def
  deriving DecidableEq, Repr

/-- `findTypeDef(name, pkgs)`: the first definition named `name` in iteration
order, with its package; `none` is `notype`. -/
def findTypeDef (name : String) (pkgs : List LoadedPackage) : Option (Def × LoadedPackage) :=
  pkgs.findSome? fun pkg => (pkg.defs.find? fun d => d.name = name).map (·, pkg)

/-- The package declaring `type T struct{ T int }`: `Defs` holds the type name `T`
and the field `T`, and when the iteration visits the field first, `findTypeDef`
returns the field's `*types.Var`. -/
theorem findTypeDef_returns_field :
    (findTypeDef "T" [⟨"p", [⟨"T", .var⟩, ⟨"T", .typeName⟩]⟩]).map (·.1.kind) = some .var ∧
      (findTypeDef "T" [⟨"p", [⟨"T", .typeName⟩, ⟨"T", .var⟩]⟩]).map (·.1.kind) = some .typeName := by
  decide

/-- The generator at the start: nothing known, imported or written. -/
def Generator.empty : Generator := ⟨[], [], []⟩

/-- A package declaring `type T struct{ C []T }`. -/
def recursiveDecls : Decls :=
  ⟨fun _ => .struct (.cons "C" (.slice (.named "T")) .nil), fun _ _ h => GoType.noConfusion h⟩

/-- For `type T struct{ C []T }` the generated `Serialize_gen1` and
`Deserialize_gen1` call `serde.SerializeSliceSize` and
`serde.DeserializeSliceSize`, but no basic type is reached, so `ensureImport`
never runs and the file imports nothing. -/
theorem recursive_struct_uses_unimported_serde :
    ∃ loc g, (Generator.typedef recursiveDecls 10 "T").run Generator.empty = .ok (loc, g) ∧
      "serde" ∈ g.s.flatMap Func.packages ∧ g.imports = [] :=
  ⟨_, _, rfl, by decide, rfl⟩

end DurableCoroutine.Serde
