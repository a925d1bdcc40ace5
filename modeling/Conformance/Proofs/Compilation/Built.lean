import Conformance.Compilation.Basic
import Conformance.Proofs.Binding.Reports
import Conformance.Proofs.Binding.Sourced
import Conformance.Proofs.Symbol.Places

/-!
Compilations that are built.

A compilation is built from a declaration and from compilations built before it. What
it references is copied by binding assembly after assembly, each against assemblies
that are there (`SymbolTable.BindsAll`). So its symbol table is well-formed and traced.
-/

namespace Conformance

namespace SymbolTable

/-- An assembly was bound, against assemblies that were there. -/
def Binds (before after : SymbolTable) : Prop :=
  ∃ (decl : AssemblyDecl) (references : List AssemblyId) (mode : BindMode),
    (∀ reference ∈ references, ∃ symbol, before.assembly? reference = some symbol) ∧
      after = (before.bind decl references mode).table

/-- Assemblies were bound, one after another. -/
abbrev BindsAll : SymbolTable → SymbolTable → Prop := Relation.ReflTransGen Binds

variable {before after : SymbolTable}

theorem BindsAll.made (binds : BindsAll before after) (made : Made before) : Made after := by
  induction binds with
  | refl => exact made
  | tail _ step ih =>
    rcases step with ⟨decl, references, mode, _, rfl⟩
    exact ih.bind decl references mode

theorem BindsAll.extends (binds : BindsAll before after) (made : Made before) :
    before.Extends after := by
  induction binds with
  | refl => exact .refl _
  | tail first step ih =>
    have wellFormed := (BindsAll.made first made).wellFormed
    rcases step with ⟨decl, references, mode, _, rfl⟩
    exact ih.trans (bind_bound wellFormed decl references mode).grown

theorem BindsAll.traced (binds : BindsAll before after) (made : Made before)
    (traced : before.Traced) : after.Traced := by
  induction binds with
  | refl => exact traced
  | tail first step ih =>
    have wellFormed := (BindsAll.made first made).wellFormed
    rcases step with ⟨decl, references, mode, known, rfl⟩
    intro id assembly found
    exact ih.bind wellFormed decl mode known found

end SymbolTable

namespace Compilation

open SymbolTable (Made Binds BindsAll)

/-- The types of a compilation are those of its assembly. -/
theorem mem_types {compilation : Compilation} (laid : compilation.table.Laid) {id : TypeId} :
    id ∈ compilation.types ↔
      ∃ type, compilation.table.type? id = some type ∧ type.assembly = compilation.assembly := by
  rw [types, SymbolTable.typesOf]
  constructor
  · intro listed
    cases found : compilation.table.assembly? compilation.assembly with
    | none =>
      rw [found] at listed
      cases listed
    | some assembly =>
      rw [found] at listed
      exact laid.type found listed
  · intro own
    rcases own with ⟨type, found, own⟩
    rcases laid.assembly found with ⟨assembly, foundAssembly, listed⟩
    rw [← own, foundAssembly]
    exact listed

/-- A compilation that is bound from a declaration, against compilations that
are built likewise. -/
inductive Built : Compilation → Prop where
  | ofDecl (decl : AssemblyDecl) {references : List Compilation}
    (built : ∀ reference ∈ references, Built reference) (options : CompilationOptions) :
    Built (.ofDecl decl references options)

theorem copyAssembly_binds (source target : SymbolTable) (assembly : AssemblySymbol) :
    BindsAll target (copyAssembly source target assembly) := by
  unfold copyAssembly
  split
  · exact .refl
  · split
    · exact .refl
    · rename_i decl _
      refine .single ⟨decl, _, .metadata, fun reference listed => ?_, rfl⟩
      rcases List.mem_filterMap.mp listed with ⟨name, _, named⟩
      rcases SymbolTable.assemblyNamed?_some named with ⟨symbol, found, _⟩
      exact ⟨symbol, found⟩

theorem copyAssemblies_binds (source target : SymbolTable) (assemblies : List AssemblySymbol) :
    BindsAll target (assemblies.foldl (copyAssembly source) target) :=
  List.foldlRecOn assemblies (copyAssembly source)
    (motive := fun table : SymbolTable => BindsAll target table) .refl
    fun table binds assembly _ => binds.trans (copyAssembly_binds _ table assembly)

theorem copyInto_binds (compilation : Compilation) (target : SymbolTable) :
    BindsAll target (compilation.copyInto target) := by
  unfold copyInto
  rw [← Array.foldl_toList]
  exact copyAssemblies_binds _ _ _

theorem addReferences_bindsAll (references : List Compilation)
    (state : SymbolTable × List AssemblyId) :
    BindsAll state.1 (references.foldl addReference state).1 :=
  List.foldlRecOn references addReference
    (motive := fun after : SymbolTable × List AssemblyId => BindsAll state.1 after.1) .refl
    fun after binds reference _ => binds.trans (reference.copyInto_binds after.1)

/-- What every import keeps is kept where references are copied. -/
theorem addReferences_keeps {P : SymbolTable → Prop}
    (imports : ∀ {source target : SymbolTable} {assembly : AssemblySymbol} {decl : AssemblyDecl}
      (references : List AssemblyId), Made target → source.exportAssembly assembly = .ok decl →
        P target → P (target.importAssembly decl references).table)
    {state : SymbolTable × List AssemblyId} (made : Made state.1) (start : P state.1)
    (references : List Compilation) : P (references.foldl addReference state).1 := by
  have copied (source target : SymbolTable) (assembly : AssemblySymbol)
      (known : Made target ∧ P target) :
      Made (copyAssembly source target assembly) ∧ P (copyAssembly source target assembly) := by
    refine ⟨(copyAssembly_binds source target assembly).made known.1, ?_⟩
    unfold copyAssembly
    split
    · exact known.2
    · split
      · exact known.2
      · rename_i exported
        exact imports _ known.1 exported known.2
  refine (List.foldlRecOn references addReference
    (motive := fun after : SymbolTable × List AssemblyId => Made after.1 ∧ P after.1)
    ⟨made, start⟩ fun after known reference _ => ?_).2
  show Made (reference.copyInto after.1) ∧ P (reference.copyInto after.1)
  unfold copyInto
  rw [← Array.foldl_toList]
  exact List.foldlRecOn _ (copyAssembly reference.table)
    (motive := fun target : SymbolTable => Made target ∧ P target) known
    fun target kept assembly _ => copied _ target assembly kept

/-- The assemblies that a declaration is compiled against are there. -/
theorem addReferences_binds (references : List Compilation) :
    BindsAll ∅ (references.foldl addReference (∅, [])).1 ∧
      ∀ id ∈ (references.foldl addReference (∅, [])).2, ∃ symbol,
        (references.foldl addReference (∅, [])).1.assembly? id = some symbol := by
  refine List.foldlRecOn references addReference
    (motive := fun state : SymbolTable × List AssemblyId => BindsAll ∅ state.1 ∧
      ∀ id ∈ state.2, ∃ symbol, state.1.assembly? id = some symbol) ⟨.refl, nofun⟩
    fun state known reference _ => ?_
  have copied := reference.copyInto_binds state.1
  refine ⟨known.1.trans copied, fun id listed => ?_⟩
  rcases List.mem_append.mp listed with earlier | last
  · rcases known.2 id earlier with ⟨symbol, found⟩
    exact ⟨symbol, (copied.extends (known.1.made .empty)).assembly found⟩
  · rcases SymbolTable.assemblyNamed?_some (Option.mem_toList.mp last) with ⟨symbol, found, _⟩
    exact ⟨symbol, found⟩

/-- The table that a compilation is bound in, the declaration, and the assemblies that it
is bound against. -/
theorem Built.bound {compilation : Compilation} (built : compilation.Built) :
    ∃ (table : SymbolTable) (decl : AssemblyDecl) (references : List AssemblyId),
      BindsAll ∅ table ∧
      (∀ reference ∈ references, ∃ symbol, table.assembly? reference = some symbol) ∧
      compilation.table =
        (table.bind decl references (.source compilation.options.version)).table ∧
      compilation.assembly =
        (table.bind decl references (.source compilation.options.version)).assembly ∧
      compilation.bindingDiagnostics =
        (table.bind decl references (.source compilation.options.version)).diagnostics := by
  cases built with
  | @ofDecl decl references _ options =>
    rcases addReferences_binds references with ⟨binds, known⟩
    exact ⟨_, decl, _, binds, known, rfl, rfl, rfl⟩

/-- What is reported before any check. -/
theorem Built.bindingDiagnostics_report {compilation : Compilation} (built : compilation.Built) :
    Reports (Rule.ofHeritage ++ Rule.ofCycles ++ Rule.ofMembers ++ Rule.ofTargets)
      compilation.bindingDiagnostics := by
  rcases built.bound with ⟨table, decl, references, binds, _, _, _, reported⟩
  rw [reported]
  exact table.bind_report (binds.made .empty).wellFormed decl references _

/-- The table of a compilation is made by binding. -/
theorem Built.binds {compilation : Compilation} (built : compilation.Built) :
    BindsAll ∅ compilation.table := by
  rcases built.bound with ⟨table, decl, references, binds, known, same, _⟩
  exact binds.tail ⟨decl, references, _, known, same⟩

theorem Built.wellFormed {compilation : Compilation} (built : compilation.Built) :
    compilation.table.WellFormed :=
  (built.binds.made .empty).wellFormed

theorem Built.closed {compilation : Compilation} (built : compilation.Built) :
    compilation.table.Closed :=
  built.wellFormed.closed

/-- Everything that a compilation knows comes from declarations. -/
theorem Built.traced {compilation : Compilation} (built : compilation.Built) :
    compilation.table.Traced :=
  built.binds.traced .empty SymbolTable.traced_empty

end Compilation

end Conformance
