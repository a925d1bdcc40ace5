import Conformance.Metadata
import Conformance.Resolution.Flattening

/-!
Compilations: one assembly bound from source, against the assemblies that it
references.

A compilation has a symbol table of its own. The assemblies that it references,
and those that they reference, are exported from their compilations and bound
again as metadata.
-/

namespace Conformance

/-- How an assembly is compiled. -/
structure CompilationOptions where
  version : LanguageVersion := .latest
  /-- Replaces what the core library says about the runtime. -/
  runtimeSupport : Option Bool := none
deriving DecidableEq, Repr

/-- An assembly bound from source. -/
structure Compilation where
  table : SymbolTable
  assembly : AssemblyId
  options : CompilationOptions
  /-- What was wrong with the declarations. -/
  bindingDiagnostics : List Diagnostic

namespace Compilation

/-- The name of the assembly. -/
def name (compilation : Compilation) : String :=
  ((compilation.table.assembly? compilation.assembly).map AssemblySymbol.name).getD ""

/-- The types of the assembly, in the order of their declarations. -/
def types (compilation : Compilation) : List TypeId :=
  compilation.table.typesOf compilation.assembly

/-- The first member of a name in the type that a name means in the assembly. -/
def memberNamed? (compilation : Compilation) (type member : String) : Option MemberId := do
  let id ← compilation.table.typeSeenFrom? compilation.assembly type
  let symbol ← compilation.table.type? id
  compilation.table.memberNamed? symbol member

/-- Copies an assembly into a table, unless an assembly of its name is there.
The assemblies that it references have been copied before it. -/
def copyAssembly (source target : SymbolTable) (assembly : AssemblySymbol) : SymbolTable :=
  if (target.assemblyNamed? assembly.name).isSome then target
  else
    match source.exportAssembly assembly with
    | .error _ => target
    | .ok decl =>
      (target.importAssembly decl (decl.references.filterMap target.assemblyNamed?)).table

/-- Copies the assembly of a compilation, and all that it references, into a table. -/
def copyInto (compilation : Compilation) (target : SymbolTable) : SymbolTable :=
  compilation.table.assemblies.foldl (copyAssembly compilation.table) target

/-- Copies a referenced compilation, and adds its assembly to the references. -/
def addReference (state : SymbolTable × List AssemblyId) (reference : Compilation) :
    SymbolTable × List AssemblyId :=
  let table := reference.copyInto state.1
  (table, state.2 ++ (table.assemblyNamed? reference.name).toList)

/-- Binds a declaration against the compilations that it references. -/
def ofDecl (decl : AssemblyDecl) (references : List Compilation) (options : CompilationOptions) :
    Compilation :=
  let (table, direct) := references.foldl addReference (∅, [])
  let binding := table.bind decl direct (.source options.version)
  { table := binding.table
    assembly := binding.assembly
    options
    bindingDiagnostics := binding.diagnostics }

/-- The memory before any query: it holds the runtime flag that the options give. -/
def memory (compilation : Compilation) : Memory where
  runtime := match compilation.options.runtimeSupport with
    | some value => Memo.insert ∅ compilation.assembly.index value
    | none => ∅

end Compilation

end Conformance
