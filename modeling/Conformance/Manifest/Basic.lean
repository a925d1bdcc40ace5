import Conformance.Compilation.Basic
import Conformance.Json.Decoding

/-!
Manifests: the assemblies of a build, each listed after those that it
references, with the options that it is compiled with.
-/

namespace Conformance

/-- An assembly of a manifest. -/
structure ManifestEntry where
  decl : AssemblyDecl
  options : CompilationOptions := {}
deriving DecidableEq, Repr

namespace ManifestEntry

/-- The name of the assembly. -/
def name (entry : ManifestEntry) : String := entry.decl.name

end ManifestEntry

/-- The assemblies of a build. -/
structure Manifest where
  assemblies : List ManifestEntry
deriving DecidableEq, Repr

/-- Why there is no manifest, or nothing to be said about one of its assemblies. -/
inductive ManifestError where
  /-- The text is no manifest. -/
  | invalid (cause : DecodeError)
  /-- There is no assembly. -/
  | empty
  /-- A reference names no assembly that is listed before. -/
  | referenceNotListed (assembly reference : String)
  /-- Two assemblies have one name. -/
  | listedTwice (assembly : String)
  /-- A reference names no assembly that is compiled. -/
  | referenceUnknown (assembly reference : String)
  /-- The assembly that is asked for is not there. -/
  | assemblyUnknown (assembly : String)
  /-- A symbol table is broken. Binding makes none that is. -/
  | broken (fault : Fault)
deriving DecidableEq, Repr

/-- The message of an error. -/
def ManifestError.message : ManifestError → String
  | invalid _ => "invalid manifest JSON"
  | empty => "manifest lists no assemblies"
  | referenceNotListed assembly reference =>
    "assembly '" ++ assembly ++ "' references '" ++ reference ++
      "', which is not listed before it"
  | listedTwice assembly => "assembly '" ++ assembly ++ "' is listed twice"
  | referenceUnknown assembly reference =>
    "assembly '" ++ assembly ++ "' references unknown '" ++ reference ++ "'"
  | assemblyUnknown assembly => "assembly '" ++ assembly ++ "' is not in the manifest"
  | broken fault => fault.message?.getD "a symbol table lacks a type"

namespace Manifest

/-! ## Validation -/

/-- Checks an entry that stands after the assemblies `earlier`. -/
def validateEntry (earlier : List String) (entry : ManifestEntry) : Except ManifestError Unit :=
  match entry.decl.references.find? fun reference => reference ∉ earlier with
  | some reference => .error (.referenceNotListed entry.name reference)
  | none => if entry.name ∈ earlier then .error (.listedTwice entry.name) else .ok ()

/-- Checks entries that stand after the assemblies `earlier`. -/
def validateEntries (earlier : List String) : List ManifestEntry → Except ManifestError Unit
  | [] => .ok ()
  | entry :: rest => do
    validateEntry earlier entry
    validateEntries (entry.name :: earlier) rest

/-- Checks that a manifest lists something, each name once, and each assembly
after those that it references. -/
def validate (manifest : Manifest) : Except ManifestError Unit :=
  if manifest.assemblies.isEmpty then .error .empty else validateEntries [] manifest.assemblies

/-! ## Compilation -/

/-- The last compilation of an assembly of the given name. -/
def compiled? (done : List Compilation) (name : String) : Option Compilation :=
  done.reverse.find? fun compilation => compilation.name = name

/-- The compilations that an entry references, out of those that are done. -/
def referencesOf (done : List Compilation) (entry : ManifestEntry) :
    Except ManifestError (List Compilation) :=
  entry.decl.references.mapM fun reference =>
    match compiled? done reference with
    | some compilation => .ok compilation
    | none => .error (.referenceUnknown entry.name reference)

/-- Compiles entries after those that are done, and returns both. -/
def compileEntries (done : List Compilation) :
    List ManifestEntry → Except ManifestError (List Compilation)
  | [] => .ok done
  | entry :: rest => do
    let references ← referencesOf done entry
    compileEntries (done ++ [.ofDecl entry.decl references entry.options]) rest

/-- Compiles the assemblies of a manifest in their order. -/
def compileAll (manifest : Manifest) : Except ManifestError (List Compilation) :=
  compileEntries [] manifest.assemblies

end Manifest

end Conformance
