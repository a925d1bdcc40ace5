import Conformance.Proofs.Binding.Gate
import Conformance.Proofs.Binding.Import
import Conformance.Proofs.Compilation.Built
import Conformance.Proofs.Compilation.Copying
import Conformance.Proofs.Resolution.Direct
import Conformance.Proofs.Resolution.Flattening

/-!
What an assembly stems from.

An assembly of a table stems from a declaration that was bound from source: it was bound
from the declaration there, or it was imported from a table where it stems from it
(`SymbolTable.Stems`). Bodies of interface members are lost if the version of the source lacks
them, and no import brings one back (`SymbolTable.Stems.mute`). So no such assembly answers
with the body of a member (`AssemblyDecl.loses_defaults`).
-/

namespace Conformance

/-! ## Assemblies without bodies to answer with -/

/-- Neither a member nor one of its accessors implements itself. -/
def BlockOutline.IsMute (block : BlockOutline) : Prop :=
  block.head.implemented = false ∧ ∀ accessor ∈ block.accessors, accessor.implemented = false

namespace MemberDecl

variable {decl : MemberDecl} {scope : MemberScope} {id : MemberId}

/-- A member that a version without the feature binds does not implement itself. -/
theorem isMute_outdated {version : LanguageVersion} (outdated : scope.outdated? = some version) :
    ((decl.bind scope id).outline scope.ownerIsInterface).IsMute := by
  by_cases interface : scope.ownerIsInterface = true ∧ decl.explicitInterface = none
  · have draft := draft_outdated interface.1 interface.2 outdated
    have head : (decl.bind scope id).head.hasImplementation = false := by
      rw [MemberSymbol.hasImplementation, bind_head_hasBody, bind_head_modifiers, draft]
      exact Bool.or_eq_false_iff.mpr ⟨ite_self false, rfl⟩
    refine ⟨?_, fun accessor listed => ?_⟩
    · show ((decl.bind scope id).head.implementableIn _ && _) = false
      rw [head, Bool.and_false]
    · rw [MemberBlock.outline, bind_accessors, List.map_map] at listed
      rcases List.mem_map.mp listed with ⟨clause, isClause, rfl⟩
      show ((decl.clauseSymbol scope id clause).implementableIn _ && _) = false
      rw [hasImplementation_clauseSymbol decl scope id isClause, head, Bool.and_false]
  · have closed (member : MemberSymbol) (same : member.explicitInterface = decl.explicitInterface) :
        (member.outline scope.ownerIsInterface).implemented = false := by
      refine Bool.and_eq_false_iff.mpr (.inl (Bool.eq_false_iff.mpr fun implementable => ?_))
      rcases implementableIn_iff.mp implementable with ⟨inside, implicit, _⟩
      exact interface ⟨inside, same ▸ implicit⟩
    refine ⟨closed _ rfl, fun accessor listed => ?_⟩
    rw [MemberBlock.outline, bind_accessors, List.map_map] at listed
    rcases List.mem_map.mp listed with ⟨clause, _, rfl⟩
    exact closed _ rfl

end MemberDecl

namespace SymbolTable

variable {table : SymbolTable} {assembly : AssemblyId}

/-- No member of a type of an assembly implements itself. -/
def Mute (table : SymbolTable) (assembly : AssemblyId) : Prop :=
  ∀ id type, table.type? id = some type → type.assembly = assembly →
    ∀ entry ∈ table.membersOf type, (table.blockOutline type.isInterface entry.2).IsMute

theorem Mute.implemented_eq_false (mute : table.Mute assembly) (laid : table.Laid) {id : MemberId}
    {member : MemberSymbol} {type : TypeSymbol} (found : table.member? id = some member)
    (foundType : table.type? member.owner = some type) (own : type.assembly = assembly) :
    (member.outline type.isInterface).implemented = false := by
  cases clause : member.clause? with
  | none =>
    rcases laid.listed found clause with ⟨_, foundOwner, listed⟩
    cases foundType.symm.trans foundOwner
    exact (mute _ _ foundType own _ (mem_membersOf listed found)).1
  | some entry =>
    rcases entry with ⟨kind, parentId⟩
    rcases laid.clause found clause with ⟨parent, foundParent, noClause, owner, has⟩
    rcases laid.listed foundParent noClause with ⟨_, foundOwner, listed⟩
    rw [owner] at foundOwner
    cases foundType.symm.trans foundOwner
    have isAccessor := mem_accessorsOf (MemberSymbol.mem_accessors.mpr ⟨kind, has⟩) found
    exact (mute _ _ foundType own _ (mem_membersOf listed foundParent)).2 _
      (List.mem_map_of_mem (f := fun entry : MemberId × MemberSymbol =>
        entry.2.outline type.isInterface) isAccessor)

/-- The members of a type are blocks made of those that are declared. -/
theorem BoundType.blocks {mode : BindMode} {decl : TypeDecl} {id : TypeId} {type : TypeSymbol}
    (bindsType : BoundType table assembly mode decl id type) :
    ∀ entry ∈ table.membersOf type, ∃ memberDecl ∈ decl.members,
      table.blockOutline type.isInterface entry.2 =
        (memberDecl.bind (memberScope mode id type) entry.1).outline type.isInterface := by
  intro entry listed
  rcases member?_of_mem_membersOf listed with ⟨own, found⟩
  rcases exists_of_mem_forall₂ bindsType.members own with ⟨memberDecl, isDeclared, carries⟩
  rw [carries.head] at found
  refine ⟨memberDecl, isDeclared, ?_⟩
  rw [← Option.some.inj found]
  exact carries.blockOutline _ _

/-- An assembly that a version without bodies in interfaces binds is mute. -/
theorem Bound.mute {decl : AssemblyDecl} {references : List AssemblyId} {version : LanguageVersion}
    {binding : Binding} (bound : Bound table decl references (.source version) binding)
    (old : version < .v8_0) : binding.table.Mute binding.assembly := by
  intro id type found own entry listed
  rcases bound.exists_decl found own with ⟨_, _, _, bindsType⟩
  rcases bindsType.blocks entry listed with ⟨memberDecl, _, same⟩
  rw [same]
  exact MemberDecl.isMute_outdated (outdated?_source old)

/-- So are the imports of a mute assembly. -/
theorem Mute.import {source : SymbolTable} {id : AssemblyId} {symbol : AssemblySymbol}
    (mute : source.Mute id) (traced : source.Traced) (laid : source.Laid)
    (found : source.assembly? id = some symbol) {references : List AssemblyId} {binding : Binding}
    (bound : Bound table (source.exportedAssembly symbol) references .metadata binding) :
    binding.table.Mute binding.assembly := by
  intro y Y foundImage own entry listed
  rcases bound.exists_decl foundImage own with ⟨position, decl, declared, bindsType⟩
  rcases exists_getElem?_of_forall₂_right (laid.exported_types found) declared with
    ⟨x, inside, X, foundFirst, rfl⟩
  rcases laid.type found (List.mem_of_getElem? inside) with ⟨_, again, ownFirst⟩
  cases foundFirst.symm.trans again
  have isInterface : Y.isInterface = X.isInterface := by
    rw [TypeSymbol.isInterface, bindsType.shell]
    rfl
  have blocks := traced.imported_blocks laid foundFirst isInterface bindsType.members
  rcases member?_of_mem_membersOf listed with ⟨isMember, foundMember⟩
  rcases exists_of_mem_forall₂ (List.Forall₂.flip blocks) isMember with
    ⟨m, listedFirst, first, second, pairFirst, pairSecond, same⟩
  rw [foundMember] at pairSecond
  cases pairSecond
  rcases Option.map_eq_some_iff.mp pairFirst with ⟨M, foundM, rfl⟩
  rw [same]
  exact mute _ _ foundFirst ownFirst _ (mem_membersOf listedFirst foundM)

/-- Adding assemblies does not change whether one is mute. -/
theorem Mute.extend {before after : SymbolTable} (mute : before.Mute assembly)
    (wellFormed : before.WellFormed) (laid : after.Laid) (grown : before.Extends after)
    {symbol : AssemblySymbol} (known : before.assembly? assembly = some symbol) :
    after.Mute assembly := by
  intro id type found own entry listed
  rcases laid.assembly found with ⟨_, foundAssembly, isType⟩
  rw [own, grown.assembly known] at foundAssembly
  cases foundAssembly
  rcases wellFormed.laid.type known isType with ⟨_, foundBefore, _⟩
  cases found.symm.trans (grown.type foundBefore)
  rw [grown.membersOf wellFormed.closed foundBefore] at listed
  rw [grown.blockOutline wellFormed.closed (member?_of_mem_membersOf listed).2]
  exact mute _ _ foundBefore own entry listed

/-! ## Lineages -/

/-- What references name is there. -/
def Knows (table : SymbolTable) (references : List AssemblyId) : Prop :=
  ∀ reference ∈ references, ∃ symbol, table.assembly? reference = some symbol

/-- An assembly of a table stems from a declaration that a version bound: it was bound from it,
or imported from where it stems from it. Assemblies that are added later do not matter. -/
inductive Stems (decl : AssemblyDecl) (version : LanguageVersion) :
    SymbolTable → AssemblyId → Prop where
  | source {table : SymbolTable} {references : List AssemblyId} (binds : BindsAll ∅ table)
    (known : table.Knows references) :
    Stems decl version (table.bind decl references (.source version)).table table.nextAssembly
  | imported {source table : SymbolTable} {id : AssemblyId} {symbol : AssemblySymbol}
    {exported : AssemblyDecl} {references : List AssemblyId} (stems : Stems decl version source id)
    (found : source.assembly? id = some symbol)
    (exports : source.exportAssembly symbol = .ok exported)
    (binds : BindsAll ∅ table) (known : table.Knows references) :
    Stems decl version (table.importAssembly exported references).table table.nextAssembly
  | later {before after : SymbolTable} {id : AssemblyId} (stems : Stems decl version before id)
    (binds : Binds before after) : Stems decl version after id

variable {decl : AssemblyDecl} {version : LanguageVersion}

theorem Stems.binds (stems : Stems decl version table assembly) : BindsAll ∅ table := by
  induction stems with
  | source binds known => exact binds.tail ⟨decl, _, _, known, rfl⟩
  | imported _ _ _ binds known _ => exact binds.tail ⟨_, _, _, known, rfl⟩
  | later _ binds ih => exact ih.tail binds

theorem Stems.wellFormed (stems : Stems decl version table assembly) : table.WellFormed :=
  (stems.binds.made .empty).wellFormed

theorem Binds.extends {before after : SymbolTable} (binds : Binds before after)
    (wellFormed : before.WellFormed) : before.Extends after := by
  rcases binds with ⟨_, _, _, _, rfl⟩
  exact (bind_bound wellFormed _ _ _).grown

theorem bind_symbol (wellFormed : table.WellFormed) (decl : AssemblyDecl)
    (references : List AssemblyId) (mode : BindMode) :
    ∃ symbol,
      (table.bind decl references mode).table.assembly? table.nextAssembly = some symbol := by
  have bound := bind_bound wellFormed decl references mode
  exact ⟨_, bound.assembly ▸ bound.symbol⟩

theorem Stems.exists_symbol (stems : Stems decl version table assembly) :
    ∃ symbol, table.assembly? assembly = some symbol := by
  induction stems with
  | source binds _ => exact bind_symbol (binds.made .empty).wellFormed _ _ _
  | imported _ _ _ binds _ _ => exact bind_symbol (binds.made .empty).wellFormed _ _ _
  | later stems binds ih =>
    rcases ih with ⟨symbol, found⟩
    exact ⟨symbol, (binds.extends stems.wellFormed).assembly found⟩

/-- What stems from the source of a version without bodies in interfaces is mute. -/
theorem Stems.mute (stems : Stems decl version table assembly) (old : version < .v8_0) :
    table.Mute assembly := by
  induction stems with
  | @source before references binds _ =>
    have bound := bind_bound (binds.made .empty).wellFormed decl references (.source version)
    exact bound.assembly ▸ bound.mute old
  | @imported source _ _ symbol _ references stems found exports binds _ ih =>
    rw [stems.wellFormed.closed.exportAssembly] at exports
    cases exports
    have bound := bind_bound (binds.made .empty).wellFormed (source.exportedAssembly symbol)
      references .metadata
    have traced : source.Traced := stems.binds.traced .empty traced_empty
    exact bound.assembly ▸ ih.import traced stems.wellFormed.laid found bound
  | later stems binds ih =>
    rcases stems.exists_symbol with ⟨symbol, found⟩
    exact ih.extend stems.wellFormed (stems.later binds).wellFormed.laid
      (binds.extends stems.wellFormed) found

/-- An answer, from whatever memory, is that of lookups in what is remembered after it. -/
theorem Closed.resolve_recalled (closed : table.Closed) {typeId : TypeId} {id : MemberId}
    {memory after : Memory} {resolution : Resolution}
    (answered : (table.resolve typeId id).answer memory = (.ok resolution, after)) :
    resolution = (after.lookups.resolve table typeId id).run := by
  rcases (remembering_settled closed).resolve closed typeId id memory with
    ⟨_, _, again, _, settles⟩
  cases answered.symm.trans again
  rcases settles after (.refl after) with ⟨_, known, rfl⟩
  exact (after.recalled_lookups table).agree.resolve closed typeId id _ known

/-- No query, from whatever memory, has an answer that is the body of a member or an accessor
of an assembly. -/
def WithoutDefaults (table : SymbolTable) (assembly : AssemblyId) : Prop :=
  ∀ {typeId : TypeId} {id other : MemberId} {memory after : Memory} {resolution : Resolution}
    {member : MemberSymbol} {type : TypeSymbol},
    (table.resolve typeId id).answer memory = (.ok resolution, after) →
      resolution.implementation = some ⟨other, .default⟩ → table.member? other = some member →
        table.type? member.owner = some type → type.assembly ≠ assembly

/-- What stems from the source of a version without bodies in interfaces answers with none. -/
theorem Stems.withoutDefaults (stems : Stems decl version table assembly) (old : version < .v8_0) :
    table.WithoutDefaults assembly := by
  intro typeId id other memory after resolution member type answered isDefault found foundType own
  have wellFormed := stems.wellFormed
  have mute := (stems.mute old).implemented_eq_false wellFormed.laid found foundType own
  rw [wellFormed.closed.resolve_recalled answered] at isDefault
  cases foundAsked : table.member? id with
  | none =>
    unfold Lookups.resolve at isDefault
    rw [foundAsked] at isDefault
    split at isDefault
    · contradiction
    · cases isDefault
  | some asked =>
    cases foundFor : table.type? typeId with
    | none =>
      unfold Lookups.resolve at isDefault
      rw [foundFor] at isDefault
      cases isDefault
    | some implementing =>
      rcases Lookups.resolve_default wellFormed.laid foundFor foundAsked isDefault with
        ⟨rfl, implementable, bodied⟩
      cases found.symm.trans foundAsked
      rw [isImplementable_eq foundType] at implementable
      rw [MemberSymbol.outline, implementable, bodied] at mute
      cases mute

/-! ## Names -/

/-- The name of a new assembly means it, unless it meant another one. -/
theorem Bound.assemblyNamed? {references : List AssemblyId} {mode : BindMode} {binding : Binding}
    (bound : Bound table decl references mode binding)
    (fresh : table.assemblyNamed? decl.name = none) :
    binding.table.assemblyNamed? decl.name = some table.nextAssembly := by
  refine assemblyNamed?_eq_some.mpr ⟨⟨_, bound.assembly ▸ bound.symbol, rfl⟩, ?_⟩
  intro other symbol below found same
  have apart : other ≠ binding.assembly := by
    rintro rfl
    rw [bound.assembly] at below
    exact Nat.lt_irrefl _ below
  exact assemblyNamed?_eq_none.mp fresh ⟨other, symbol, bound.others found apart, same⟩

theorem Stems.laterAll {before after : SymbolTable} (stems : Stems decl version before assembly)
    (binds : BindsAll before after) : Stems decl version after assembly := by
  induction binds with
  | refl => exact stems
  | tail _ step ih => exact ih.later step

/-- The assembly that a name means stems from a declaration. -/
def NameStems (decl : AssemblyDecl) (version : LanguageVersion) (table : SymbolTable)
    (name : String) : Prop :=
  ∃ id, table.assemblyNamed? name = some id ∧ Stems decl version table id

theorem NameStems.later {before after : SymbolTable} {name : String}
    (stems : NameStems decl version before name) (binds : BindsAll before after) :
    NameStems decl version after name := by
  rcases stems with ⟨id, named, stems⟩
  exact ⟨id, (binds.extends (stems.binds.made .empty)).assemblyNamed? named, stems.laterAll binds⟩

end SymbolTable

/-! ## Compilations -/

namespace Compilation

open SymbolTable (BindsAll NameStems Stems assemblyNamed?_eq_none assemblyNamed?_eq_some bind_bound)

variable {decl : AssemblyDecl} {version : LanguageVersion} {name : String}

/-- An assembly that is copied under another name does not change what a name means. -/
theorem copyAssembly_unnamed {source target : SymbolTable} (binds : BindsAll ∅ target)
    {assembly : AssemblySymbol} (other : assembly.name ≠ name)
    (absent : target.assemblyNamed? name = none) :
    (copyAssembly source target assembly).assemblyNamed? name = none := by
  unfold copyAssembly
  split
  · exact absent
  · split
    · exact absent
    · rename_i exported exports
      have same : exported.name = assembly.name := by
        unfold SymbolTable.exportAssembly at exports
        cases known : (assembly.types.filterMap source.type?).mapM source.exportType with
        | error _ =>
          rw [known] at exports
          cases exports
        | ok _ =>
          rw [known] at exports
          cases exports
          rfl
      have bound := bind_bound (binds.made .empty).wellFormed exported
        (exported.references.filterMap target.assemblyNamed?) .metadata
      rw [assemblyNamed?_eq_none] at absent ⊢
      rw [SymbolTable.importAssembly, bound.hasAssembly_iff, same]
      exact fun has => has.elim (fun own => other own.symm) absent

/-- The copy of an assembly stems from what the assembly stems from. -/
theorem copyAssembly_stems {source target : SymbolTable} (binds : BindsAll ∅ target)
    {id : AssemblyId} {assembly : AssemblySymbol} (stems : Stems decl version source id)
    (found : source.assembly? id = some assembly)
    (absent : target.assemblyNamed? assembly.name = none) :
    NameStems decl version (copyAssembly source target assembly) assembly.name := by
  unfold copyAssembly
  rw [absent, Option.isSome_none, stems.wellFormed.closed.exportAssembly]
  have bound := bind_bound (binds.made .empty).wellFormed (source.exportedAssembly assembly)
    ((source.exportedAssembly assembly).references.filterMap target.assemblyNamed?) .metadata
  have known : target.Knows
      ((source.exportedAssembly assembly).references.filterMap target.assemblyNamed?) := by
    intro reference listed
    rcases List.mem_filterMap.mp listed with ⟨_, _, named⟩
    rcases SymbolTable.assemblyNamed?_some named with ⟨symbol, foundReference, _⟩
    exact ⟨symbol, foundReference⟩
  exact ⟨_, bound.assemblyNamed? absent,
    stems.imported found (stems.wellFormed.closed.exportAssembly assembly) binds known⟩

/-- What a compilation does not know under a name, copying it does not bring. -/
theorem copyAssemblies_unnamed {source target : SymbolTable} {assemblies : List AssemblySymbol}
    (binds : BindsAll ∅ target) (others : ∀ assembly ∈ assemblies, assembly.name ≠ name)
    (absent : target.assemblyNamed? name = none) :
    (assemblies.foldl (copyAssembly source) target).assemblyNamed? name = none := by
  refine (List.foldlRecOn assemblies (copyAssembly source)
    (motive := fun table : SymbolTable =>
      BindsAll ∅ table ∧ table.assemblyNamed? name = none)
    ⟨binds, absent⟩ fun table known assembly listed => ?_).2
  exact ⟨known.1.trans (copyAssembly_binds source table assembly),
    copyAssembly_unnamed known.1 (others assembly listed) known.2⟩

theorem copyInto_unnamed {reference : Compilation} {target : SymbolTable}
    (binds : BindsAll ∅ target) (unknown : reference.table.assemblyNamed? name = none)
    (absent : target.assemblyNamed? name = none) :
    (reference.copyInto target).assemblyNamed? name = none := by
  unfold copyInto
  rw [← Array.foldl_toList]
  refine copyAssemblies_unnamed binds (fun assembly listed same => ?_) absent
  rcases List.getElem?_of_mem listed with ⟨index, found⟩
  exact assemblyNamed?_eq_none.mp unknown
    ⟨⟨index⟩, assembly, (Array.getElem?_toList ..).symm.trans found, same⟩

/-- The first assembly of a name is copied, and what follows changes nothing. -/
theorem copyInto_stems {reference : Compilation} {target : SymbolTable} {id : AssemblyId}
    (binds : BindsAll ∅ target) (named : reference.table.assemblyNamed? name = some id)
    (stems : Stems decl version reference.table id)
    (absent : target.assemblyNamed? name = none) :
    NameStems decl version (reference.copyInto target) name := by
  rcases assemblyNamed?_eq_some.mp named with ⟨⟨assembly, found, rfl⟩, earlier⟩
  have inside : reference.table.assemblies.toList[id.index]? = some assembly :=
    (Array.getElem?_toList ..).trans found
  rcases List.getElem?_eq_some_iff.mp inside with ⟨within, isAssembly⟩
  have split : reference.table.assemblies.toList =
      reference.table.assemblies.toList.take id.index ++
        assembly :: reference.table.assemblies.toList.drop (id.index + 1) := by
    rw [← isAssembly, ← List.drop_eq_getElem_cons within, List.take_append_drop]
  unfold copyInto
  rw [← Array.foldl_toList, split, List.foldl_append, List.foldl_cons]
  have before : BindsAll ∅ ((reference.table.assemblies.toList.take id.index).foldl
      (copyAssembly reference.table) target) := binds.trans (copyAssemblies_binds _ _ _)
  refine (copyAssembly_stems before stems found ?_).later (copyAssemblies_binds _ _ _)
  refine copyAssemblies_unnamed binds (fun other listed same => ?_) absent
  rcases List.mem_take_iff_getElem.mp listed with ⟨place, below, rfl⟩
  have foundOther := List.getElem?_eq_getElem (Nat.lt_of_lt_of_le below (Nat.min_le_right ..))
  exact earlier ⟨place⟩ _ (Nat.lt_of_lt_of_le below (Nat.min_le_left ..))
    ((Array.getElem?_toList ..).symm.trans foundOther) same

/-- The first reference that knows a name brings the assembly. -/
theorem addReferences_stems {references : List Compilation} {reference : Compilation}
    {id : AssemblyId}
    (first : references.find? (fun other => (other.table.assemblyNamed? name).isSome) =
      some reference)
    (named : reference.table.assemblyNamed? name = some id)
    (stems : Stems decl version reference.table id) :
    NameStems decl version (references.foldl addReference (∅, [])).1 name := by
  rcases List.find?_eq_some_iff_append.mp first with ⟨_, before, after, rfl, unknown⟩
  have absent : BindsAll ∅ (before.foldl addReference (∅, [])).1 ∧
      (before.foldl addReference (∅, [])).1.assemblyNamed? name = none := by
    refine List.foldlRecOn before addReference
      (motive := fun state : SymbolTable × List AssemblyId =>
        BindsAll ∅ state.1 ∧ state.1.assemblyNamed? name = none)
      ⟨.refl, assemblyNamed?_eq_none.mpr fun ⟨_, _, found, _⟩ => nomatch found⟩
      fun state known other listed => ?_
    have missing : other.table.assemblyNamed? name = none := by
      have passed := unknown other listed
      rwa [Bool.not_eq_true', Option.isSome_eq_false_iff, Option.isNone_iff_eq_none] at passed
    exact ⟨known.1.trans (copyInto_binds other state.1), copyInto_unnamed known.1 missing known.2⟩
  rw [List.foldl_append, List.foldl_cons]
  have arrived := copyInto_stems absent.1 named stems absent.2
  exact arrived.later (addReferences_bindsAll after
    (addReference (before.foldl addReference (∅, [])) reference))

/-- An assembly of a compilation is what a version bound from a declaration: the compilation
is of that declaration, or it got the assembly from one of its references. It gets the assembly
of a name from the first reference that knows one. -/
inductive Holds (decl : AssemblyDecl) (version : LanguageVersion) :
    Compilation → AssemblyId → Prop where
  | own (references : List Compilation) {options : CompilationOptions}
    (same : options.version = version) :
    Holds decl version (ofDecl decl references options) (ofDecl decl references options).assembly
  | imported {other : AssemblyDecl} {references : List Compilation} {options : CompilationOptions}
    {reference : Compilation} {name : String} {id copy : AssemblyId}
    (holds : Holds decl version reference id)
    (first : references.find? (fun other => (other.table.assemblyNamed? name).isSome) =
      some reference)
    (named : reference.table.assemblyNamed? name = some id)
    (copied : (ofDecl other references options).table.assemblyNamed? name = some copy) :
    Holds decl version (ofDecl other references options) copy

/-- What a compilation imports from a declaration stems from it. -/
theorem Holds.stems {compilation : Compilation} {id : AssemblyId}
    (holds : compilation.Holds decl version id) : Stems decl version compilation.table id := by
  induction holds with
  | @own references options same =>
    rcases addReferences_binds references with ⟨binds, known⟩
    have bound := bind_bound (binds.made .empty).wellFormed decl
      (references.foldl addReference (∅, [])).2 (.source options.version)
    have own : (ofDecl decl references options).assembly =
        (references.foldl addReference (∅, [])).1.nextAssembly := bound.assembly
    rw [own, ← same]
    exact Stems.source binds known
  | @imported other references options _ _ _ _ _ first named copied ih =>
    rcases addReferences_binds references with ⟨binds, known⟩
    rcases (addReferences_stems first named ih).later
      (.single ⟨other, _, .source options.version, known, rfl⟩) with ⟨arrived, means, stems⟩
    have bound : (ofDecl other references options).table.assemblyNamed? _ = some arrived := means
    cases copied.symm.trans bound
    exact stems

end Compilation

/-- A version without bodies in interfaces leaves no body to answer with: it demotes the members
of interfaces, and no import of the assembly, by whatever version, brings a body back. -/
theorem AssemblyDecl.loses_defaults (decl : AssemblyDecl) {version : LanguageVersion}
    (old : version < .v8_0) :
    (∀ {table : SymbolTable} (references : List AssemblyId), table.Made →
      table.Outdates decl version (table.bind decl references (.source version))) ∧
    (∀ {compilation : Compilation} {assembly : AssemblyId},
      compilation.Holds decl version assembly → compilation.table.WithoutDefaults assembly) ∧
    ∀ {table : SymbolTable} {assembly : AssemblyId}, SymbolTable.Stems decl version table assembly →
      table.WithoutDefaults assembly := by
  refine ⟨fun references made => made.wellFormed.outdates decl references old, ?_, ?_⟩
  · intro compilation assembly holds
    exact holds.stems.withoutDefaults old
  · intro table assembly stems
    exact stems.withoutDefaults old

/-- An interface with a method that has a body. -/
def chimes : AssemblyDecl where
  name := "Chimes"
  types :=
    [{ name := "IChime", kind := .interfaceType,
       members := [.method { name := "Ring", hasBody := true }] }]

/-- A class that leaves the method to the interface. -/
def clock : AssemblyDecl where
  name := "Clock"
  references := ["Chimes"]
  types := [{ name := "Clock", kind := .classType, interfaces := ["IChime"] }]

/-- The interface, compiled by a version without bodies in interfaces. -/
def oldChimes : Compilation := .ofDecl chimes [] { version := .v7_3 }

/-- The class, compiled against it by a later version. -/
def newClock : Compilation := .ofDecl clock [oldChimes] {}

/-- The body of the method is reported, and neither compilation answers with it. -/
theorem chimes_withoutDefaults :
    oldChimes.bindingDiagnostics.filter (fun diagnostic =>
        diagnostic.Breaks [.featureNotAvailable]) = chimes.gateReports .v7_3 ∧
      (chimes.gateReports .v7_3).length = 1 ∧
      oldChimes.table.WithoutDefaults ⟨0⟩ ∧ newClock.table.WithoutDefaults ⟨0⟩ := by
  have old : LanguageVersion.v7_3 < .v8_0 := by decide
  rcases chimes.loses_defaults old with ⟨outdates, without, _⟩
  have own : oldChimes.Holds chimes .v7_3 ⟨0⟩ := .own [] rfl
  have named : oldChimes.table.assemblyNamed? "Chimes" = some ⟨0⟩ := by decide +kernel
  have copied : newClock.table.assemblyNamed? "Chimes" = some ⟨0⟩ := by decide +kernel
  have first : [oldChimes].find? (fun other => (other.table.assemblyNamed? "Chimes").isSome) =
      some oldChimes := List.find?_cons_of_pos (Option.isSome_of_eq_some named)
  exact ⟨(outdates [] .empty).reported, rfl, without own,
    without (.imported own first named copied)⟩

end Conformance
