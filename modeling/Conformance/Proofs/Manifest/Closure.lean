import Conformance.Proofs.Manifest.Validation

/-!
What a compilation of a manifest imports.

In the table of a compilation stand the assemblies that its own assembly references,
directly or not, each after those that it references itself, and last its own assembly,
which alone is no metadata (`Manifest.ImportsClosure`). The compilations of every ordered
manifest are of this kind (`Manifest.validate_compileAll_importsClosure`).
-/

namespace Conformance

namespace SymbolTable

/-- All assemblies of a table are metadata. -/
def AllMetadata (table : SymbolTable) : Prop :=
  ∀ id symbol, table.assembly? id = some symbol → symbol.isMetadata = true

theorem AllMetadata.importAssembly {table : SymbolTable} (metadata : table.AllMetadata)
    (wellFormed : table.WellFormed) (decl : AssemblyDecl) (references : List AssemblyId) :
    (table.importAssembly decl references).table.AllMetadata := by
  have bound := bind_bound wellFormed decl references .metadata
  intro id symbol found
  by_cases own : id = (table.importAssembly decl references).assembly
  · subst own
    cases found.symm.trans bound.symbol
    rfl
  · exact metadata id symbol (bound.others found own)

end SymbolTable

namespace Compilation

open SymbolTable (AllMetadata Made Bound)

/-- Copies are metadata. -/
theorem addReferences_allMetadata {references : List Compilation}
    {state : SymbolTable × List AssemblyId} (metadata : state.1.AllMetadata)
    (made : Made state.1) : (references.foldl addReference state).1.AllMetadata :=
  addReferences_keeps (fun {_ _ _ decl} direct made _ metadata =>
    metadata.importAssembly made.wellFormed decl direct) made metadata references

/-- Of the assemblies of a compilation, its own is the last, and alone no metadata. -/
theorem Built.own_last {compilation : Compilation} (built : compilation.Built)
    {id : AssemblyId} {symbol : AssemblySymbol}
    (found : compilation.table.assembly? id = some symbol) :
    id.index ≤ compilation.assembly.index ∧
      (symbol.isMetadata = false ↔ id = compilation.assembly) := by
  cases built with
  | @ofDecl decl references _ options =>
    have start : AllMetadata ((∅, []) : SymbolTable × List AssemblyId).1 := fun _ _ found =>
      nomatch found
    have metadata : (references.foldl addReference (∅, [])).1.AllMetadata :=
      addReferences_allMetadata start .empty
    have made := (addReferences_binds references).1.made .empty
    unfold Compilation.ofDecl at found ⊢
    generalize references.foldl addReference (∅, []) = state at metadata made found ⊢
    have bound := SymbolTable.bind_bound made.wellFormed decl state.2 (.source options.version)
    by_cases own : id = (state.1.bind decl state.2 (.source options.version)).assembly
    · subst own
      cases found.symm.trans bound.symbol
      exact ⟨Nat.le_refl _, fun _ => rfl, fun _ => rfl⟩
    · have earlier := bound.others found own
      have below : id.index < state.1.assemblies.size := SymbolTable.lt_of_assembly? earlier
      refine ⟨?_, fun source => ?_, fun same => absurd same own⟩
      · show id.index ≤ (state.1.bind decl state.2 (.source options.version)).assembly.index
        rw [bound.assembly]
        exact Nat.le_of_lt below
      · rw [metadata id symbol earlier] at source
        cases source

end Compilation

namespace Manifest

open Compilation (ofDecl addReference addReferences_gathers)
open ManifestEntry (References)
open SymbolTable (Genuine)

/-- A compilation knows what its entry references, directly or not, and nothing else. -/
structure ImportsClosure (entries : List ManifestEntry) (entry : ManifestEntry)
    (compilation : Compilation) : Prop where
  name : compilation.name = entry.name
  /-- Its assemblies are those that the entry leads to. -/
  known : ∀ name, compilation.table.HasAssembly name ↔
    Relation.ReflTransGen (References entries) entry.name name
  /-- It has each of them once. -/
  distinct : compilation.table.DistinctNames
  /-- It has its own assembly. -/
  own : ∃ symbol, compilation.table.assembly? compilation.assembly = some symbol ∧
    symbol.name = entry.name
  /-- Its own assembly is the last. -/
  last : ∀ {id symbol}, compilation.table.assembly? id = some symbol →
    id.index ≤ compilation.assembly.index
  /-- Its own assembly alone is no metadata. -/
  source : ∀ {id symbol}, compilation.table.assembly? id = some symbol →
    (symbol.isMetadata = false ↔ id = compilation.assembly)
  /-- An assembly references what its entry says, and stands after all of it. -/
  references : ∀ {id symbol}, compilation.table.assembly? id = some symbol →
    ∃ listed ∈ entries, listed.name = symbol.name ∧
      List.Forall₂ (fun reference name => reference.index < id.index ∧
        ∃ referenced, compilation.table.assembly? reference = some referenced ∧
          referenced.name = name) symbol.references listed.decl.references

variable {catalogue : Catalogue} {entries : List ManifestEntry} {done : List Compilation}

namespace Progress

variable (progress : Progress catalogue entries done)

include progress

/-- A compilation knows what its assembly leads to. -/
theorem hasAssembly_iff {compilation : Compilation} (inside : compilation ∈ done) (name : String) :
    compilation.table.HasAssembly name ↔
      Relation.ReflTransGen (References entries) compilation.name name := by
  constructor
  · intro has
    rcases progress.known inside has with same | ⟨_, _, _, path⟩
    · exact same ▸ .refl
    · exact path.to_reflTransGen
  · intro path
    generalize called : compilation.name = start at path
    induction path using Relation.ReflTransGen.head_induction_on generalizing compilation with
    | refl => exact called ▸ progress.hasOwn inside
    | head referenced _ ih =>
      obtain ⟨other, kept, same, more⟩ := progress.references inside (called ▸ referenced)
      exact more name (ih kept same)

/-- The outline that is listed for the assembly of an entry has the references of the entry. -/
theorem listed_references {entry : ManifestEntry} {compilation : Compilation}
    (compiled : IsCompiled done entry compilation) (inside : compilation ∈ done) :
    ∃ outline, catalogue entry.name = some outline ∧ outline.references = entry.decl.references := by
  obtain ⟨references, same, related⟩ := compiled
  have gathers := addReferences_gathers
    (fun reference listed => progress.genuine (mem_of_referenced related listed).1)
    (fun reference listed => progress.hasOwn (mem_of_referenced related listed).1)
  have genuine := progress.genuine inside
  rw [same] at genuine
  unfold ofDecl at genuine
  generalize references.foldl addReference (∅, []) = state at gathers genuine
  have bound := SymbolTable.bind_bound gathers.genuine.orderly.wellFormed entry.decl state.2
    (.source entry.options.version)
  refine ⟨_, genuine.outlines bound.symbol, ?_⟩
  -- The copies that the assembly references have the names of the compilations copied.
  have names := forall₂_map_filterMap (f := (state.1.bind entry.decl state.2
    (.source entry.options.version)).table.assembly?) (p := AssemblySymbol.name)
    (q := fun name (reference : Compilation) => reference.name = name)
    ((List.Forall₂.flip gathers.copied).imp fun id reference ⟨assembly, found, name⟩ =>
      ⟨assembly, bound.grown.assembly found, name.symm⟩)
  exact (map_eq_of_forall₂ (List.Forall₂.flip names)).trans (names_of_referenced related)

/-- What a compilation knows is listed for the manifest, with the references of an entry. -/
theorem exists_listed (compiled : List.Forall₂ (IsCompiled done) entries done)
    {compilation : Compilation} (inside : compilation ∈ done) {name : String}
    (has : compilation.table.HasAssembly name) : ∃ listed ∈ entries, listed.name = name ∧
      ∃ outline, catalogue name = some outline ∧ outline.references = listed.decl.references := by
  obtain ⟨lib, isDone, rfl⟩ : ∃ lib ∈ done, lib.name = name := by
    rcases progress.known inside has with same | ⟨lib, isDone, same, _⟩
    · exact ⟨compilation, inside, same.symm⟩
    · exact ⟨lib, isDone, same⟩
  obtain ⟨entry, listed, isCompiled⟩ := exists_of_mem_forall₂ (List.Forall₂.flip compiled) isDone
  obtain ⟨outline, known, references⟩ := progress.listed_references isCompiled isDone
  have name : lib.name = entry.name := IsCompiled.name isCompiled
  exact ⟨entry, listed, name.symm, outline, name ▸ known, references⟩

/-- The compilations import what their entries lead to. -/
theorem importsClosure (compiled : List.Forall₂ (IsCompiled done) entries done)
    (built : ∀ compilation ∈ done, compilation.Built) :
    List.Forall₂ (ImportsClosure entries) entries done := by
  refine forall₂_imp_mem compiled fun entry listed compilation inside isCompiled => ?_
  have genuine := progress.genuine inside
  have isBuilt := built compilation inside
  refine
    { name := isCompiled.name
      known := fun name => isCompiled.name ▸ progress.hasAssembly_iff inside name
      distinct := genuine.orderly.distinct
      own := ?_
      last := fun found => (isBuilt.own_last found).1
      source := fun found => (isBuilt.own_last found).2
      references := fun {id symbol} found => ?_ }
  · obtain ⟨_, _, ⟨_, compiles, _⟩, same⟩ := progress.entry inside
    obtain ⟨symbol, found, name⟩ := compiles.own
    exact ⟨symbol, found, (name.trans compiles.name.symm).trans isCompiled.name⟩
  · obtain ⟨other, isEntry, name, outline, known, references⟩ :=
      progress.exists_listed compiled inside ⟨id, symbol, found, rfl⟩
    refine ⟨other, isEntry, name, ?_⟩
    have same := genuine.outlines found
    rw [known] at same
    cases same
    rw [← references]
    refine List.forall₂_map_right_iff.mpr (forall₂_filterMap fun reference referenced => ?_)
    obtain ⟨⟨assembly, foundReference⟩, before⟩ :=
      (isBuilt.traced found).references referenced
    exact ⟨assembly, foundReference, before, assembly, foundReference, rfl⟩

end Progress

/-- Validation accepts the ordered manifests. They are compiled, each entry to a compilation
that imports what the entry leads to. -/
theorem validate_compileAll_importsClosure (manifest : Manifest) :
    (manifest.validate = .ok () ↔ manifest.Ordered) ∧
      (manifest.validate = .ok () → ∃ done, manifest.compileAll = .ok done ∧
        List.Forall₂ (ImportsClosure manifest.assemblies) manifest.assemblies done) := by
  refine ⟨validate_iff_ordered, fun valid => ?_⟩
  obtain ⟨done, catalogue, compiled, progress⟩ := compileAll_progress valid
  obtain ⟨isCompiled, built⟩ := compileAll_isCompiled compiled
  exact ⟨done, compiled, progress.importsClosure isCompiled built⟩

/-- An assembly that references another in two ways. -/
def diamond : Manifest where
  assemblies :=
    [ { decl := { name := "Base" } },
      { decl := { name := "Left", references := ["Base"] } },
      { decl := { name := "Right", references := ["Base"] } },
      { decl := { name := "Top", references := ["Right", "Left"] } } ]

/-- The last assembly of `diamond` is compiled with what both ways lead to. -/
theorem diamond_importsClosure : ∃ base left right top,
    diamond.compileAll = .ok [base, left, right, top] ∧
      top.name = "Top" ∧ top.table.HasAssembly "Base" ∧ top.table.DistinctNames := by
  obtain ⟨done, compiled, related⟩ :=
    (validate_compileAll_importsClosure diamond).2 (by decide)
  match done, related with
  | [base, left, right, top], .cons _ (.cons _ (.cons _ (.cons closure .nil))) =>
    refine ⟨base, left, right, top, compiled, closure.name, ?_, closure.distinct⟩
    have toLeft : References diamond.assemblies "Top" "Left" := by
      unfold References
      decide
    have toBase : References diamond.assemblies "Left" "Base" := by
      unfold References
      decide
    exact (closure.known "Base").mpr (.tail (.single toLeft) toBase)

end Manifest

end Conformance
