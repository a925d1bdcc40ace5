import Conformance.Compilation.Basic
import Conformance.Proofs.Binding.Import

/-!
Copies of assemblies.

A catalogue says which outline the assembly of a name has. Copying what a
compilation knows into another table, one assembly after another, keeps to the
catalogue (`Compilation.copyInto_copies`), and so does binding a declaration
against the copies, if its own outline is in the catalogue
(`Compilation.ofDecl_compiles`).
-/

namespace Conformance

/-- The outlines of assemblies, by their names. -/
abbrev Catalogue : Type := String → Option AssemblyOutline

/-- One catalogue lists what another does. -/
def Catalogue.Extends (before after : Catalogue) : Prop :=
  ∀ name outline, before name = some outline → after name = some outline

namespace SymbolTable

/-- A table has an assembly of a name. -/
def HasAssembly (table : SymbolTable) (name : String) : Prop :=
  ∃ id assembly, table.assembly? id = some assembly ∧ assembly.name = name

variable {table : SymbolTable}

theorem assemblyNamed?_eq_none {name : String} :
    table.assemblyNamed? name = none ↔ ¬ table.HasAssembly name := by
  constructor
  · rintro absent ⟨id, assembly, found, rfl⟩
    obtain ⟨first, named⟩ := assemblyNamed?_isSome found
    rw [absent] at named
    cases named
  · intro absent
    cases named : table.assemblyNamed? name with
    | none => rfl
    | some id =>
      obtain ⟨assembly, found, same⟩ := assemblyNamed?_some named
      exact absurd ⟨id, assembly, found, same⟩ absent

theorem Extends.hasAssembly {after : SymbolTable} (grown : table.Extends after) {name : String}
    (has : table.HasAssembly name) : after.HasAssembly name := by
  obtain ⟨id, assembly, found, same⟩ := has
  exact ⟨id, assembly, grown.assembly found, same⟩

/-! ## Tables that keep to a catalogue -/

/-- Every assembly of a table has the outline that is listed for its name. -/
structure Genuine (catalogue : Catalogue) (table : SymbolTable) : Prop where
  orderly : table.Orderly
  outlines : ∀ {id assembly}, table.assembly? id = some assembly →
    catalogue assembly.name = some (table.assemblyOutline assembly)

variable {catalogue : Catalogue}

theorem Genuine.mono (genuine : Genuine catalogue table) {later : Catalogue}
    (listed : catalogue.Extends later) : Genuine later table where
  orderly := genuine.orderly
  outlines found := listed _ _ (genuine.outlines found)

theorem genuine_empty (catalogue : Catalogue) : Genuine catalogue ∅ where
  orderly := ⟨wellFormed_empty, traced_empty, nofun⟩
  outlines found := nomatch found

/-- Tables that keep to one catalogue have assemblies of the same outlines, as far as they
have assemblies of the same names. -/
theorem Genuine.sameOutlines {s t : SymbolTable} (first : Genuine catalogue s)
    (second : Genuine catalogue t) (names : ∀ name, s.HasAssembly name → t.HasAssembly name) :
    s.SameOutlines t := by
  intro a A found
  obtain ⟨b, B, foundImage, name⟩ := names A.name ⟨a, A, found, rfl⟩
  refine ⟨b, B, foundImage, name, ?_⟩
  have listed := second.outlines foundImage
  rw [name, first.outlines found] at listed
  exact (Option.some.inj listed).symm

theorem Genuine.corresponds {s t : SymbolTable} (first : Genuine catalogue s)
    (second : Genuine catalogue t) (names : ∀ name, s.HasAssembly name → t.HasAssembly name) :
    s.Corresponds t :=
  SameOutlines.corresponds first.orderly second.orderly (first.sameOutlines second names)

/-- The assemblies after binding: those that were there, and the new one. -/
theorem Bound.hasAssembly_iff {decl : AssemblyDecl} {references : List AssemblyId}
    {mode : BindMode} {binding : Binding} (bound : Bound table decl references mode binding)
    (name : String) :
    binding.table.HasAssembly name ↔ name = decl.name ∨ table.HasAssembly name := by
  constructor
  · rintro ⟨id, assembly, found, same⟩
    by_cases new : id = binding.assembly
    · rw [new, bound.symbol] at found
      cases found
      exact .inl same.symm
    · exact .inr ⟨id, assembly, bound.others found new, same⟩
  · rintro (rfl | earlier)
    · exact ⟨_, _, bound.symbol, rfl⟩
    · exact bound.grown.hasAssembly earlier

/-- An assembly after binding is the new one, or was there. -/
theorem Bound.assembly_cases {decl : AssemblyDecl} {references : List AssemblyId}
    {mode : BindMode} {binding : Binding} (bound : Bound table decl references mode binding)
    {id : AssemblyId} {assembly : AssemblySymbol}
    (found : binding.table.assembly? id = some assembly) :
    (id = table.nextAssembly ∧ assembly.name = decl.name) ∨ table.assembly? id = some assembly := by
  by_cases new : id = binding.assembly
  · refine .inl ⟨new.trans bound.assembly, ?_⟩
    rw [new, bound.symbol] at found
    cases found
    rfl
  · exact .inr (bound.others found new)

/-- Binding an assembly of a new name keeps names apart. -/
theorem Orderly.bind (orderly : table.Orderly) (decl : AssemblyDecl)
    {references : List AssemblyId} (mode : BindMode)
    (known : ∀ reference ∈ references, ∃ symbol, table.assembly? reference = some symbol)
    (fresh : ¬ table.HasAssembly decl.name) : (table.bind decl references mode).table.Orderly := by
  have bound := bind_bound orderly.wellFormed decl references mode
  have traced : table.Traced := orderly.traced
  refine ⟨bound.wellFormed, traced.bind orderly.wellFormed decl mode known, ?_⟩
  intro a b A B foundA foundB same
  rcases bound.assembly_cases foundA with ⟨rfl, own⟩ | old
  · rcases bound.assembly_cases foundB with ⟨rfl, _⟩ | oldB
    · rfl
    · exact absurd ⟨b, B, oldB, same.symm.trans own⟩ fresh
  · rcases bound.assembly_cases foundB with ⟨_, own⟩ | oldB
    · exact absurd ⟨a, A, old, same.trans own⟩ fresh
    · exact orderly.distinct old oldB same

/-- Binding an assembly of a new name keeps to a catalogue that lists its outline. -/
theorem Genuine.bind (genuine : Genuine catalogue table) (decl : AssemblyDecl)
    {references : List AssemblyId} (mode : BindMode)
    (known : ∀ reference ∈ references, ∃ symbol, table.assembly? reference = some symbol)
    (fresh : ¬ table.HasAssembly decl.name)
    (listed : ∀ {id assembly}, (table.bind decl references mode).table.assembly? id =
      some assembly → id = table.nextAssembly → catalogue decl.name =
        some ((table.bind decl references mode).table.assemblyOutline assembly)) :
    Genuine catalogue (table.bind decl references mode).table := by
  have bound := bind_bound genuine.orderly.wellFormed decl references mode
  refine ⟨genuine.orderly.bind decl mode known fresh, fun {id assembly} found => ?_⟩
  rcases bound.assembly_cases found with ⟨new, own⟩ | old
  · rw [own]
    exact listed found new
  · rw [bound.grown.assemblyOutline genuine.orderly old]
    exact genuine.outlines old

end SymbolTable

namespace Compilation

open SymbolTable (Bound Genuine assemblyNamed?_eq_none assemblyNamed?_some genuine_empty)

variable {catalogue : Catalogue}

/-! ## Copies -/

/-- What copying assemblies of some names leaves behind. -/
structure Copies (catalogue : Catalogue) (before after : SymbolTable) (names : String → Prop) :
    Prop where
  genuine : Genuine catalogue after
  grown : before.Extends after
  names : ∀ name, after.HasAssembly name ↔ before.HasAssembly name ∨ names name

/-- A copy of an assembly, if the assemblies that it references have been copied. -/
theorem copyAssembly_copies {source target : SymbolTable} (first : Genuine catalogue source)
    (second : Genuine catalogue target) {id : AssemblyId} {assembly : AssemblySymbol}
    (found : source.assembly? id = some assembly)
    (references : ∀ {reference symbol}, reference ∈ assembly.references →
      source.assembly? reference = some symbol → target.HasAssembly symbol.name) :
    Copies catalogue target (copyAssembly source target assembly) (· = assembly.name) := by
  unfold copyAssembly
  split
  · rename_i present
    obtain ⟨other, named⟩ := Option.isSome_iff_exists.mp present
    obtain ⟨symbol, foundOther, same⟩ := assemblyNamed?_some named
    refine ⟨second, .refl target, fun name => ⟨.inl, ?_⟩⟩
    rintro (has | rfl)
    · exact has
    · exact ⟨other, symbol, foundOther, same⟩
  · rename_i absent
    have fresh : target.assemblyNamed? assembly.name = none :=
      Option.not_isSome_iff_eq_none.mp absent
    rw [first.orderly.wellFormed.closed.exportAssembly assembly]
    have importable : source.Importable target id assembly := by
      refine ⟨first.orderly, second.orderly, found, fun listed foundReference => ?_, fresh⟩
      obtain ⟨other, symbol, foundOther, same⟩ := references listed foundReference
      refine ⟨other, symbol, foundOther, same, ?_⟩
      have outline := second.outlines foundOther
      rw [same, first.outlines foundReference] at outline
      exact (Option.some.inj outline).symm
    obtain ⟨imported, foundImport, _, outline⟩ := importable.outline
    have genuine : Genuine catalogue (target.importing (source.exportedAssembly assembly)) := by
      refine second.bind _ .metadata (fun reference listed => ?_)
        (assemblyNamed?_eq_none.mp fresh) fun {other symbol} foundOther new => ?_
      · obtain ⟨name, _, named⟩ := List.mem_filterMap.mp listed
        obtain ⟨symbol, foundReference, _⟩ := assemblyNamed?_some named
        exact ⟨symbol, foundReference⟩
      · subst new
        cases foundImport.symm.trans foundOther
        exact (first.outlines found).trans (congrArg some outline.symm)
    refine ⟨genuine, importable.bound.grown, fun name => ?_⟩
    exact (importable.bound.hasAssembly_iff name).trans or_comm

/-- Copies of assemblies, each after those that it references. -/
theorem copyAssemblies_copies {source : SymbolTable} (first : Genuine catalogue source)
    {assemblies : List AssemblySymbol} {target : SymbolTable} (second : Genuine catalogue target)
    (copied : List AssemblySymbol) (listed : source.assemblies.toList = copied ++ assemblies)
    (earlier : ∀ assembly ∈ copied, target.HasAssembly assembly.name) :
    Copies catalogue target (assemblies.foldl (copyAssembly source) target) fun name =>
      ∃ assembly ∈ assemblies, assembly.name = name := by
  induction assemblies generalizing target copied with
  | nil =>
    refine ⟨second, .refl target, fun name => ⟨.inl, ?_⟩⟩
    rintro (has | ⟨_, inside, _⟩)
    · exact has
    · cases inside
  | cons assembly rest ih =>
    have found : source.assembly? ⟨copied.length⟩ = some assembly := by
      rw [SymbolTable.assembly?, ← Array.getElem?_toList, listed,
        List.getElem?_append_right (Nat.le_refl _), Nat.sub_self]
      rfl
    have copy := copyAssembly_copies first second found fun {reference symbol} inside known => by
      -- A reference stands before the assembly, so it has been copied.
      have before := ((first.orderly.traced found).references inside).2
      rw [SymbolTable.assembly?, ← Array.getElem?_toList, listed,
        List.getElem?_append_left before] at known
      exact earlier symbol (List.mem_of_getElem? known)
    have others := ih copy.genuine (copied ++ [assembly])
      (listed.trans (List.append_cons copied assembly rest)) fun other inside => by
        rw [copy.names]
        rcases List.mem_append.mp inside with old | new
        · exact .inl (earlier other old)
        · exact .inr (congrArg _ (List.mem_singleton.mp new))
    refine ⟨others.genuine, copy.grown.trans others.grown, fun name => ?_⟩
    rw [List.foldl_cons, others.names, copy.names, or_assoc]
    simp only [List.mem_cons, exists_eq_or_imp, eq_comm (a := name)]

/-- Copies of all that a compilation knows. -/
theorem copyInto_copies (reference : Compilation) {target : SymbolTable}
    (first : Genuine catalogue reference.table) (second : Genuine catalogue target) :
    Copies catalogue target (reference.copyInto target) reference.table.HasAssembly := by
  have copies := copyAssemblies_copies first second [] rfl nofun
  unfold copyInto
  rw [← Array.foldl_toList]
  refine ⟨copies.genuine, copies.grown, fun name => (copies.names name).trans (or_congr_right ?_)⟩
  constructor
  · rintro ⟨assembly, inside, same⟩
    obtain ⟨index, found⟩ := List.getElem?_of_mem inside
    exact ⟨⟨index⟩, assembly, (Array.getElem?_toList ..).symm.trans found, same⟩
  · rintro ⟨id, assembly, found, same⟩
    exact ⟨assembly, Array.mem_toList_iff.mpr (Array.mem_of_getElem? found), same⟩

/-! ## References -/

/-- A compilation knows the assembly that it is of. -/
theorem hasAssembly_of_found {compilation : Compilation} {assembly : AssemblySymbol}
    (found : compilation.table.assembly? compilation.assembly = some assembly) :
    compilation.name = assembly.name ∧ compilation.table.HasAssembly compilation.name := by
  have name : compilation.name = assembly.name := by
    rw [Compilation.name, found]
    rfl
  exact ⟨name, compilation.assembly, assembly, found, name.symm⟩

/-- The copies of referenced compilations, with the ids of their assemblies. -/
theorem addReferences_copies {references : List Compilation}
    (genuine : ∀ reference ∈ references, Genuine catalogue reference.table)
    (own : ∀ reference ∈ references, reference.table.HasAssembly reference.name)
    {state : SymbolTable × List AssemblyId} (start : Genuine catalogue state.1) :
    Copies catalogue state.1 (references.foldl addReference state).1
        (fun name => ∃ reference ∈ references, reference.table.HasAssembly name) ∧
      ∃ direct, (references.foldl addReference state).2 = state.2 ++ direct ∧
        List.Forall₂ (fun reference id => ∃ assembly,
          (references.foldl addReference state).1.assembly? id = some assembly ∧
            assembly.name = reference.name) references direct := by
  induction references generalizing state with
  | nil =>
    refine ⟨⟨start, .refl _, fun name => ⟨.inl, ?_⟩⟩, [], (List.append_nil _).symm, .nil⟩
    rintro (has | ⟨_, inside, _⟩)
    · exact has
    · cases inside
  | cons reference rest ih =>
    have copy := reference.copyInto_copies (genuine reference List.mem_cons_self) start
    obtain ⟨id, named⟩ : ∃ id, (reference.copyInto state.1).assemblyNamed? reference.name =
        some id := by
      have has := (copy.names reference.name).mpr (.inr (own reference List.mem_cons_self))
      refine Option.ne_none_iff_exists'.mp fun absent => ?_
      exact assemblyNamed?_eq_none.mp absent has
    obtain ⟨assembly, found, name⟩ := assemblyNamed?_some named
    have step : addReference state reference = (reference.copyInto state.1, state.2 ++ [id]) := by
      rw [addReference, named]
      rfl
    have later : Genuine catalogue (reference.copyInto state.1, state.2 ++ [id]).1 := copy.genuine
    obtain ⟨copies, direct, ids, related⟩ := ih
      (fun other listed => genuine other (List.mem_cons_of_mem _ listed))
      (fun other listed => own other (List.mem_cons_of_mem _ listed)) later
    rw [List.foldl_cons, step]
    refine ⟨⟨copies.genuine, copy.grown.trans copies.grown, fun name => ?_⟩, id :: direct, ?_, ?_⟩
    · rw [copies.names, copy.names, or_assoc]
      simp only [List.mem_cons, exists_eq_or_imp]
    · rw [ids, List.append_assoc]
      rfl
    · exact .cons ⟨assembly, copies.grown.assembly found, name⟩ related

/-- A table that nothing but references was copied into, and the ids of their copies. -/
structure Gathers (catalogue : Catalogue) (references : List Compilation) (table : SymbolTable)
    (direct : List AssemblyId) : Prop where
  genuine : Genuine catalogue table
  names : ∀ name, table.HasAssembly name ↔
    ∃ reference ∈ references, reference.table.HasAssembly name
  copied : List.Forall₂ (fun reference id => ∃ assembly,
    table.assembly? id = some assembly ∧ assembly.name = reference.name) references direct

theorem addReferences_gathers {references : List Compilation}
    (genuine : ∀ reference ∈ references, Genuine catalogue reference.table)
    (own : ∀ reference ∈ references, reference.table.HasAssembly reference.name) :
    Gathers catalogue references (references.foldl addReference (∅, [])).1
      (references.foldl addReference (∅, [])).2 := by
  have start : Genuine catalogue ((∅, []) : SymbolTable × List AssemblyId).1 :=
    genuine_empty catalogue
  obtain ⟨copies, direct, ids, copied⟩ := addReferences_copies genuine own start
  rw [List.nil_append] at ids
  refine ⟨copies.genuine, fun name => (copies.names name).trans ⟨?_, .inr⟩, ids ▸ copied⟩
  rintro (⟨id, _, found, _⟩ | has)
  · exact nomatch found
  · exact has

namespace Gathers

variable {references : List Compilation} {table : SymbolTable} {direct : List AssemblyId}
  (gathers : Gathers catalogue references table direct)

include gathers

/-- Each assembly that is referenced is the copy of a reference. -/
theorem exists_reference {id : AssemblyId} (inside : id ∈ direct) :
    ∃ reference ∈ references, ∃ assembly, table.assembly? id = some assembly ∧
      assembly.name = reference.name :=
  exists_of_mem_forall₂ (List.Forall₂.flip gathers.copied) inside

/-- A reference has a copy that is referenced. -/
theorem exists_copy {reference : Compilation} (inside : reference ∈ references) :
    ∃ id ∈ direct, ∃ assembly, table.assembly? id = some assembly ∧
      assembly.name = reference.name :=
  exists_of_mem_forall₂ gathers.copied inside

theorem known (id : AssemblyId) (inside : id ∈ direct) :
    ∃ symbol, table.assembly? id = some symbol := by
  obtain ⟨_, _, assembly, found, _⟩ := gathers.exists_reference inside
  exact ⟨assembly, found⟩

/-- No copy has a name that none of the references knows. -/
theorem fresh {name : String}
    (unknown : ∀ reference ∈ references, ¬ reference.table.HasAssembly name) :
    ¬ table.HasAssembly name := by
  intro has
  obtain ⟨reference, inside, known⟩ := (gathers.names name).mp has
  exact unknown reference inside known

end Gathers

/-! ## Compilations of declarations -/

/-- A compilation of a declaration, against compilations of what it references. -/
structure Compiles (catalogue : Catalogue) (decl : AssemblyDecl) (references : List Compilation)
    (options : CompilationOptions) (compilation : Compilation) : Prop where
  genuine : Genuine catalogue compilation.table
  name : compilation.name = decl.name
  kept : compilation.options = options
  /-- The assemblies that it knows: its own, and those that its references know. -/
  names : ∀ name, compilation.table.HasAssembly name ↔
    name = decl.name ∨ ∃ reference ∈ references, reference.table.HasAssembly name
  /-- Its own assembly is bound from source, in a table that had none of its name. -/
  bound : ∃ (table : SymbolTable) (direct : List AssemblyId) (binding : Binding),
    table.WellFormed ∧ ¬ table.HasAssembly decl.name ∧
      Bound table decl direct (.source options.version) binding ∧
      compilation.table = binding.table ∧ compilation.assembly = binding.assembly ∧
      compilation.bindingDiagnostics = binding.diagnostics

theorem Compiles.mono {decl : AssemblyDecl} {references : List Compilation}
    {options : CompilationOptions} {compilation : Compilation}
    (compiles : Compiles catalogue decl references options compilation) {later : Catalogue}
    (listed : catalogue.Extends later) : Compiles later decl references options compilation where
  genuine := compiles.genuine.mono listed
  name := compiles.name
  kept := compiles.kept
  names := compiles.names
  bound := compiles.bound

/-- The outline that is listed for a compilation has types of the names that are declared. -/
theorem Compiles.typeNames {decl : AssemblyDecl} {references : List Compilation}
    {options : CompilationOptions} {compilation : Compilation}
    (compiles : Compiles catalogue decl references options compilation) :
    ∃ outline, catalogue decl.name = some outline ∧
      outline.types.map TypeOutline.name = decl.types.map TypeDecl.name := by
  obtain ⟨table, _, binding, _, _, bound, same, _⟩ := compiles.bound
  have genuine := compiles.genuine
  rw [same] at genuine
  refine ⟨_, genuine.outlines bound.symbol, ?_⟩
  have types : List.Forall₂ (fun id (declared : TypeDecl) => ∃ type,
      binding.table.type? id = some type ∧ declared.name = type.name)
      (SymbolTable.typeIds table.types.size decl.types.length) decl.types := by
    refine forall₂_of_getElem? fun position => ?_
    by_cases inside : position < decl.types.length
    · obtain ⟨type, found, bindsType⟩ := bound.types (List.getElem?_eq_getElem inside)
      rw [SymbolTable.getElem?_typeIds inside, List.getElem?_eq_getElem inside]
      exact .some ⟨type, found, by rw [bindsType.shell]; rfl⟩
    · have short : decl.types.length ≤ position := Nat.le_of_not_lt inside
      rw [List.getElem?_eq_none (by rwa [SymbolTable.length_typeIds]),
        List.getElem?_eq_none short]
      exact .none
  have names := forall₂_map_filterMap (p := TypeSymbol.name)
    (q := fun name (declared : TypeDecl) => declared.name = name) types
  rw [← map_eq_of_forall₂ (List.Forall₂.flip names), SymbolTable.assemblyOutline, List.map_map]
  rfl

/-- The outline of the assembly of a compilation. -/
def ownOutline? (compilation : Compilation) : Option AssemblyOutline :=
  (compilation.table.assembly? compilation.assembly).map compilation.table.assemblyOutline

/-- Compiling a declaration of a new name keeps to a catalogue that lists the
outline of its assembly. -/
theorem ofDecl_compiles (decl : AssemblyDecl) {references : List Compilation}
    (options : CompilationOptions)
    (genuine : ∀ reference ∈ references, Genuine catalogue reference.table)
    (own : ∀ reference ∈ references, reference.table.HasAssembly reference.name)
    (fresh : ∀ reference ∈ references, ¬ reference.table.HasAssembly decl.name)
    (listed : catalogue decl.name = (ofDecl decl references options).ownOutline?) :
    Compiles catalogue decl references options (ofDecl decl references options) := by
  have gathers := addReferences_gathers genuine own
  generalize known : references.foldl addReference (∅, []) = state at gathers
  obtain ⟨table, given⟩ := state
  have isFresh : ¬ table.HasAssembly decl.name := gathers.fresh fresh
  have compiled : ofDecl decl references options =
      { table := (table.bind decl given (.source options.version)).table
        assembly := (table.bind decl given (.source options.version)).assembly
        options
        bindingDiagnostics := (table.bind decl given (.source options.version)).diagnostics } := by
    unfold ofDecl
    rw [known]
  have wellFormed := gathers.genuine.orderly.wellFormed
  have bound := SymbolTable.bind_bound wellFormed decl given (.source options.version)
  rw [compiled] at listed ⊢
  refine ⟨?_, ?_, rfl, fun name => ?_, table, given, _, wellFormed, isFresh, bound, rfl, rfl, rfl⟩
  · refine gathers.genuine.bind decl _ gathers.known isFresh fun {id assembly} found new => ?_
    rw [listed, ownOutline?]
    rw [new, ← bound.assembly] at found
    simp only [found, Option.map_some]
  · simp only [Compilation.name, bound.symbol, Option.map_some, Option.getD_some]
  · rw [bound.hasAssembly_iff, gathers.names]

end Compilation

end Conformance
