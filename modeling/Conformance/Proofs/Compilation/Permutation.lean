import Conformance.Proofs.Binding.Exchange
import Conformance.Proofs.Compilation.Copying
import Conformance.Proofs.Compilation.Schedules

/-!
Compilations against references in another order.

References in another order are copied into a table that has the same assemblies, in other
places and after another number of copies on the way. If no two of the references declare types
of one name, names mean the same in both tables (`Compilation.addReferences_interchangeable`), so
the compilations of a declaration have one report by every schedule
(`Compilation.ofDecl_report_of_mem_iff`).
-/

namespace Conformance

/-- Of the assemblies of some names, no two declare types of one name. -/
def Catalogue.Apart (catalogue : Catalogue) (names : List String) : Prop :=
  ∀ {name other : String} {outline another : AssemblyOutline} {first second : TypeOutline},
    name ∈ names → other ∈ names → catalogue name = some outline →
      catalogue other = some another → first ∈ outline.types → second ∈ another.types →
        first.name = second.name → name = other

/-- A type that a name means in an assembly stands in the outline of the assembly. -/
theorem SymbolTable.Genuine.exists_outline {catalogue : Catalogue} {table : SymbolTable}
    (genuine : Genuine catalogue table) {id : AssemblyId} {assembly : AssemblySymbol}
    (found : table.assembly? id = some assembly) {name : String} {type : TypeId}
    (named : table.typeIn? id name = some type) : ∃ outline declared,
      catalogue assembly.name = some outline ∧ declared ∈ outline.types ∧ declared.name = name := by
  unfold typeIn? typesOf at named
  rw [found, Option.map_some, Option.getD_some] at named
  have listed : type ∈ assembly.types := List.mem_of_find?_eq_some named
  obtain ⟨symbol, foundType, _⟩ := genuine.orderly.wellFormed.laid.type found listed
  have called := List.find?_some (p := fun id =>
    (table.type? id).any fun type => type.name = name) named
  rw [foundType, Option.any_some] at called
  exact ⟨_, table.typeOutline symbol, genuine.outlines found,
    List.mem_map_of_mem (List.mem_filterMap.mpr ⟨type, listed, foundType⟩),
    of_decide_eq_true called⟩

namespace SymbolTable

/-- What compiling a declaration in a table leads to. -/
def compiling (table : SymbolTable) (decl : AssemblyDecl) (references : List AssemblyId)
    (options : CompilationOptions) : Compilation where
  table := table.targeting decl references (.source options.version)
  assembly := table.nextAssembly
  options
  bindingDiagnostics := (table.bind decl references (.source options.version)).diagnostics

theorem Orderly.targeting {table : SymbolTable} (orderly : table.Orderly) (decl : AssemblyDecl)
    {references : List AssemblyId} (mode : BindMode)
    (known : ∀ reference ∈ references, ∃ symbol, table.assembly? reference = some symbol)
    (fresh : ¬ table.HasAssembly decl.name) :
    (table.targeting decl references mode).Orderly := by
  have after := orderly.bind decl mode known fresh
  rwa [bind_eq orderly.wellFormed.untangling_keeps.fault] at after

/-- A declaration that is compiled in interchangeable tables has one report by every schedule. -/
theorem Interchangeable.report {s t : SymbolTable} {references images : List AssemblyId}
    (alike : Interchangeable s t references images) (decl : AssemblyDecl)
    (options : CompilationOptions) (fresh : ¬ s.HasAssembly decl.name)
    (freshSecond : ¬ t.HasAssembly decl.name) (implementations : Bool) (schedule : List Nat) :
    ∃ report, (s.compiling decl references options).report implementations schedule = .ok report ∧
      (t.compiling decl images options).report implementations schedule = .ok report := by
  have orderly : (s.targeting decl references (.source options.version)).Orderly :=
    alike.first.targeting decl _ alike.known fresh
  have orderlySecond : (t.targeting decl images (.source options.version)).Orderly :=
    alike.second.targeting decl _ alike.knownSecond freshSecond
  have symbol : (s.compiling decl references options).table.assembly?
      (s.compiling decl references options).assembly = some _ :=
    (alike.first.wellFormed.bound_targeting decl references (.source options.version)).symbol
  have symbolSecond : (t.compiling decl images options).table.assembly?
      (t.compiling decl images options).assembly = some _ :=
    (alike.second.wellFormed.bound_targeting decl images (.source options.version)).symbol
  have faithful : (s.compiling decl references options).Faithful (t.compiling decl images options)
      (Corresponds.embedding orderly orderlySecond
        (alike.corresponds decl _ orderly orderlySecond)) :=
    { symbols := alike.faithful decl _ orderly orderlySecond
      types := ?_
      name := ?_
      bindingDiagnostics := alike.bind_diagnostics decl _ orderly orderlySecond
      flag := ?_ }
  · exact faithful.report orderly.wellFormed orderlySecond.wellFormed.closed implementations
      schedule
  · rw [Compilation.types, Compilation.types, typesOf, typesOf, symbol, symbolSecond]
    refine map_eq_of_forall₂ ((forall₂_typeIds s t decl.types.length).imp fun x y matched => ?_)
    exact (alike.twins decl _ (.inr matched)).typeMap orderly orderlySecond
  · rw [Compilation.name, Compilation.name, symbol, symbolSecond]
    rfl
  · rw [Compilation.runtimeFlag_own, Compilation.runtimeFlag_own, declaredRuntime,
      declaredRuntime, symbol, symbolSecond]
    rfl

end SymbolTable

namespace Compilation

open SymbolTable (Genuine Interchangeable genuine_empty)

/-- Copies of references have no locations. -/
theorem addReferences_unplaced (references : List Compilation) :
    (references.foldl addReference (∅, [])).1.Unplaced :=
  addReferences_keeps (fun {_ _ _ _} direct made exported unplaced =>
    unplaced.importAssembly made.wellFormed (SymbolTable.exportAssembly_unplaced exported) direct)
    .empty SymbolTable.unplaced_empty references

theorem ofDecl_eq (decl : AssemblyDecl) (references : List Compilation)
    (options : CompilationOptions) : ofDecl decl references options =
      (references.foldl addReference (∅, [])).1.compiling decl
        (references.foldl addReference (∅, [])).2 options := by
  have made := (addReferences_binds references).1.made .empty
  unfold ofDecl SymbolTable.compiling
  generalize references.foldl addReference (∅, []) = state at made ⊢
  simp only [SymbolTable.bind_eq made.wellFormed.untangling_keeps.fault]

section

variable {catalogue : Catalogue} {references images : List Compilation}
  (same : ∀ reference, reference ∈ images ↔ reference ∈ references)

namespace Gathers

variable {s t : SymbolTable} {direct directImage : List AssemblyId}
  (gathers : Gathers catalogue references s direct)
  (gathersImage : Gathers catalogue images t directImage)

include gathers gathersImage same

/-- The same references lead to the same assemblies. -/
theorem sameOutlines : s.SameOutlines t := by
  refine gathers.genuine.sameOutlines gathersImage.genuine fun name has => ?_
  obtain ⟨reference, inside, known⟩ := (gathers.names name).mp has
  exact (gathersImage.names name).mpr ⟨reference, (same reference).mpr inside, known⟩

/-- Among the copies of the same references a name means the same, if no two of the references
declare types of one name. -/
theorem referencedType? (apart : catalogue.Apart (references.map Compilation.name))
    (name : String) : Option.Rel (s.Twins t) (s.referencedType? direct name)
      (t.referencedType? directImage name) := by
  have meaning {a b : AssemblyId} {A B : AssemblySymbol} (found : s.assembly? a = some A)
      (foundImage : t.assembly? b = some B) {called : String} (first : A.name = called)
      (second : B.name = called) :
      Option.Rel (s.Twins t) (s.typeIn? a name) (t.typeIn? b name) :=
    SymbolTable.SameOutlines.typeIn? gathers.genuine.orderly gathersImage.genuine.orderly
      (gathers.sameOutlines same gathersImage) found foundImage (second.trans first.symm) name
  refine rel_findSome?_of_unique (fun a inside => ?forward) (fun b inside => ?backward)
    fun {a c x y} inside insideToo named namedToo => ?unique
  case forward =>
    obtain ⟨reference, listed, A, found, called⟩ := gathers.exists_reference inside
    obtain ⟨b, insideImage, B, foundImage, calledImage⟩ :=
      gathersImage.exists_copy ((same reference).mpr listed)
    exact ⟨b, insideImage, meaning found foundImage called calledImage⟩
  case backward =>
    obtain ⟨reference, listed, B, foundImage, calledImage⟩ := gathersImage.exists_reference inside
    obtain ⟨a, insideFirst, A, found, called⟩ := gathers.exists_copy ((same reference).mp listed)
    exact ⟨a, insideFirst, meaning found foundImage called calledImage⟩
  case unique =>
    obtain ⟨reference, listed, A, found, called⟩ := gathers.exists_reference inside
    obtain ⟨other, listedToo, C, foundToo, calledToo⟩ := gathers.exists_reference insideToo
    obtain ⟨_, _, outline, declared, declaredName⟩ := gathers.genuine.exists_outline found named
    obtain ⟨_, _, another, declaredToo, declaredNameToo⟩ :=
      gathers.genuine.exists_outline foundToo namedToo
    have one : A.name = C.name := apart (called ▸ List.mem_map_of_mem listed)
      (calledToo ▸ List.mem_map_of_mem listedToo) outline another declared declaredToo
      (declaredName.trans declaredNameToo.symm)
    cases gathers.genuine.orderly.distinct found foundToo one
    exact Option.some.inj (named.symm.trans namedToo)

end Gathers

variable (genuine : ∀ reference ∈ references, Genuine catalogue reference.table)
  (own : ∀ reference ∈ references, reference.table.HasAssembly reference.name)

include genuine own same

theorem addReferences_gathers_images : Gathers catalogue images
    (images.foldl addReference (∅, [])).1 (images.foldl addReference (∅, [])).2 :=
  addReferences_gathers (fun reference inside => genuine reference ((same reference).mp inside))
    fun reference inside => own reference ((same reference).mp inside)

/-- The tables that the same references are copied into are interchangeable. -/
theorem addReferences_interchangeable
    (apart : catalogue.Apart (references.map Compilation.name)) :
    Interchangeable (references.foldl addReference (∅, [])).1
      (images.foldl addReference (∅, [])).1 (references.foldl addReference (∅, [])).2
      (images.foldl addReference (∅, [])).2 := by
  have gathers := addReferences_gathers genuine own
  have gathersImage := addReferences_gathers_images same genuine own
  exact
    { first := gathers.genuine.orderly
      second := gathersImage.genuine.orderly
      outlines := gathers.sameOutlines same gathersImage
      known := gathers.known
      knownSecond := gathersImage.known
      names := gathers.referencedType? same gathersImage apart
      unplaced := addReferences_unplaced references
      unplacedSecond := addReferences_unplaced images }

/-- By every schedule, the compilations of a declaration against the same references have one
report, if none of the references knows an assembly of its name. -/
theorem ofDecl_report_of_mem_iff (decl : AssemblyDecl) (options : CompilationOptions)
    (fresh : ∀ reference ∈ references, ¬ reference.table.HasAssembly decl.name)
    (apart : catalogue.Apart (references.map Compilation.name)) (implementations : Bool)
    (schedule : List Nat) : ∃ report,
      (ofDecl decl references options).report implementations schedule = .ok report ∧
        (ofDecl decl images options).report implementations schedule = .ok report := by
  have alike := addReferences_interchangeable same genuine own apart
  rw [ofDecl_eq, ofDecl_eq]
  refine alike.report decl options ((addReferences_gathers genuine own).fresh fresh) ?_
    implementations schedule
  exact (addReferences_gathers_images same genuine own).fresh fun reference inside =>
    fresh reference ((same reference).mp inside)

end

end Compilation

end Conformance
