import Conformance.Proofs.Compilation.Runtimes
import Conformance.Proofs.Manifest.Compiled

/-!
Manifests that say different things about runtimes.

What core libraries and options say about the runtime decides which diagnostics about it are
reported, and nothing else (`Manifest.Ports.compileAll_alike`).
-/

namespace Conformance

/-- Whether the runtime of an assembly can call bodies of interfaces: what the options say,
and otherwise what the core library says. -/
def ManifestEntry.supportsDefaults (entry : ManifestEntry) : Bool :=
  entry.options.runtimeSupport.getD (entry.decl.coreLibrary.any CoreLibrary.supportsDefaults)

/-- A compilation is that of an entry, and reports nothing about a runtime that can call
bodies of interfaces. -/
structure ManifestEntry.Trusts (entry : ManifestEntry) (compilation : Compilation) : Prop where
  name : compilation.name = entry.name
  trusts : entry.supportsDefaults = true → compilation.TrustsRuntime

/-- The flag of a compilation is what its entry says. -/
theorem Compilation.Compiles.runtimeFlag {catalogue : Catalogue} {entry : ManifestEntry}
    {references : List Compilation} {compilation : Compilation}
    (compiles : Compiles catalogue entry.decl references entry.options compilation) :
    compilation.runtimeFlag compilation.assembly = entry.supportsDefaults := by
  rcases compiles.bound with ⟨table, direct, binding, _, _, bound, same, assembly, _⟩
  have symbol := bound.symbol
  rw [← same, ← assembly] at symbol
  rw [runtimeFlag_own, compiles.kept, SymbolTable.declaredRuntime, symbol]
  rfl

namespace Manifest

/-- Compilations whose flags are set report nothing about the runtime. -/
theorem compileAll_trusts {manifest : Manifest} (valid : manifest.validate = .ok ())
    {done : List Compilation} (compiled : manifest.compileAll = .ok done)
    (built : ∀ compilation ∈ done, compilation.Built) :
    List.Forall₂ ManifestEntry.Trusts manifest.assemblies done := by
  rcases compileAll_progress valid with ⟨all, catalogue, compiledAll, progress⟩
  cases compiled.symm.trans compiledAll
  refine forall₂_imp_mem progress.compiled fun entry _ compilation inside compiledEntry => ?_
  rcases compiledEntry with ⟨references, compiles, _⟩
  refine ⟨compiles.name, fun supported => (built compilation inside).trustsRuntime ?_⟩
  rw [compiles.runtimeFlag, supported]

theorem validateEntries_ports {entries others : List ManifestEntry}
    (ports : List.Forall₂ ManifestEntry.Ports entries others) (earlier : List String) :
    validateEntries earlier others = validateEntries earlier entries := by
  induction ports generalizing earlier with
  | nil => rfl
  | @cons first second entries others head _ ih =>
    have name : second.name = first.name := by
      rw [ManifestEntry.name, ManifestEntry.name, head.decl]
    have references : second.decl.references = first.decl.references := by rw [head.decl]
    unfold validateEntries validateEntry
    rw [name, references, ih]

namespace Ports

variable {first second : Manifest} (ports : first.Ports second)

include ports

theorem validate : second.validate = first.validate := by
  have empty : second.assemblies.isEmpty = first.assemblies.isEmpty := by
    have lengths : first.assemblies.length = second.assemblies.length :=
      List.Forall₂.length_eq ports
    rw [Bool.eq_iff_iff, List.isEmpty_iff_length_eq_zero, List.isEmpty_iff_length_eq_zero, lengths]
  unfold Manifest.validate
  rw [empty, validateEntries_ports ports]

end Ports

/-- An interface whose method has a body, for the runtime of a core library. -/
def whistle (library : CoreLibrary) : AssemblyDecl where
  name := "Whistle"
  coreLibrary := some library
  types :=
    [{ name := "IWhistle", kind := .interfaceType,
       members := [.method { name := "Blow", hasBody := true }] }]

/-- A class that leaves the method to the interface. -/
def referee (library : CoreLibrary) : AssemblyDecl where
  name := "Referee"
  coreLibrary := some library
  references := ["Whistle"]
  types := [{ name := "Referee", kind := .classType, interfaces := ["IWhistle"] }]

/-- The interface and the class. -/
def game (library : CoreLibrary) : Manifest :=
  ⟨[{ decl := whistle library }, { decl := referee library }]⟩

/-- The compilation of the interface. -/
def whistled (library : CoreLibrary) : Compilation := .ofDecl (whistle library) [] {}

/-- The compilation of the class. -/
def refereed (library : CoreLibrary) : Compilation :=
  .ofDecl (referee library) [whistled library] {}

end Manifest

end Conformance
