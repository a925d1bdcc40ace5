import Conformance.Metadata
import Conformance.Proofs.Binding.Blocks

/-!
Symbols without locations.

The export of an assembly has no locations, and binding gives symbols those of their
declarations. So imported symbols have none (`SymbolTable.Unplaced.importAssembly`).
-/

namespace Conformance

/-! ## Declarations -/

/-- A member is declared without locations. -/
structure MemberDecl.Unplaced (decl : MemberDecl) : Prop where
  span : decl.span = .unknown
  clauses : ∀ clause ∈ decl.clauses, clause.decl.span = .unknown

/-- A type is declared without locations. -/
structure TypeDecl.Unplaced (decl : TypeDecl) : Prop where
  heritageSpan : decl.heritageSpan = .unknown
  members : ∀ member ∈ decl.members, member.Unplaced

namespace SymbolTable

/-- The symbols of a table have no locations. -/
structure Unplaced (table : SymbolTable) : Prop where
  type : ∀ {id type}, table.type? id = some type → type.interfaceListSpan = .unknown
  member : ∀ {id member}, table.member? id = some member → member.span = .unknown

theorem unplaced_empty : (∅ : SymbolTable).Unplaced := ⟨nofun, nofun⟩

variable {table : SymbolTable}

/-! ## Exports -/

theorem exportMember?_unplaced {member : MemberSymbol} {decl : MemberDecl}
    (exported : table.exportMember? member = some decl) : decl.Unplaced := by
  have accessor {id : Option MemberId} {declared : AccessorDecl}
      (isExported : table.exportAccessor? member id = some declared) :
      declared.span = .unknown := by
    obtain ⟨_, _, rfl⟩ := Option.map_eq_some_iff.mp isExported
    rfl
  have property (getter setter : Option MemberId) :
      ∀ clause ∈ MemberDecl.propertyClauses (table.exportProperty member getter setter),
        clause.decl.span = .unknown := by
    intro clause listed
    rcases List.mem_append.mp listed with inside | inside
    · obtain ⟨_, isExported, rfl⟩ := Option.map_eq_some_iff.mp (Option.mem_toList.mp inside)
      exact accessor isExported
    · obtain ⟨_, isExported, rfl⟩ := Option.map_eq_some_iff.mp (Option.mem_toList.mp inside)
      exact accessor isExported
  have eventClause (id : Option MemberId) :
      ((table.exportAccessor? member id).getD {}).span = .unknown := by
    cases known : table.exportAccessor? member id with
    | none => rfl
    | some declared => exact accessor known
  unfold exportMember? at exported
  split at exported
  · cases exported
    exact ⟨rfl, fun _ listed => absurd listed List.not_mem_nil⟩
  · cases exported
    exact ⟨rfl, property _ _⟩
  · cases exported
    exact ⟨rfl, property _ _⟩
  · cases exported
    refine ⟨rfl, fun clause listed => ?_⟩
    rcases List.mem_pair.mp listed with same | same
    · rw [same]
      exact eventClause _
    · rw [same]
      exact eventClause _
  · cases exported

theorem exportType_unplaced {type : TypeSymbol} {decl : TypeDecl}
    (exported : table.exportType type = .ok decl) : decl.Unplaced := by
  unfold exportType at exported
  cases base : type.base.mapM table.type with
  | error fault =>
    rw [base] at exported
    cases exported
  | ok base' =>
    cases interfaces : type.interfaces.mapM table.type with
    | error fault =>
      rw [base, interfaces] at exported
      cases exported
    | ok interfaces' =>
      rw [base, interfaces] at exported
      cases exported
      refine ⟨rfl, fun member listed => ?_⟩
      obtain ⟨_, _, isExported⟩ := List.mem_filterMap.mp listed
      exact exportMember?_unplaced isExported

theorem exportAssembly_unplaced {assembly : AssemblySymbol} {decl : AssemblyDecl}
    (exported : table.exportAssembly assembly = .ok decl) : ∀ type ∈ decl.types, type.Unplaced := by
  unfold exportAssembly at exported
  cases types : (assembly.types.filterMap table.type?).mapM table.exportType with
  | error fault =>
    rw [types] at exported
    cases exported
  | ok types' =>
    rw [types] at exported
    cases exported
    intro type listed
    obtain ⟨_, _, isExported⟩ :=
      exists_of_mem_forall₂ (List.Forall₂.flip (forall₂_of_mapM_ok types)) listed
    exact exportType_unplaced isExported

/-! ## Imports -/

/-- Imported symbols have no locations. -/
theorem Unplaced.importAssembly (unplaced : table.Unplaced) (wellFormed : table.WellFormed)
    {decl : AssemblyDecl} (unplacedDecl : ∀ type ∈ decl.types, type.Unplaced)
    (references : List AssemblyId) : (table.importAssembly decl references).table.Unplaced := by
  have bound : Bound table decl references .metadata (table.importAssembly decl references) :=
    bind_bound wellFormed decl references .metadata
  refine ⟨fun {id type} found => ?_, fun {id member} found => ?_⟩
  · rcases bound.type_cases wellFormed.laid found with old | own
    · exact unplaced.type old
    · obtain ⟨position, typeDecl, declared, bindsType⟩ := bound.exists_decl found own
      rw [bindsType.shell]
      exact (unplacedDecl typeDecl (List.mem_of_getElem? declared)).heritageSpan
  · have laid := bound.wellFormed.laid
    obtain ⟨type, foundType⟩ := bound.wellFormed.closed.owner found
    rcases bound.type_cases wellFormed.laid foundType with old | own
    · exact unplaced.member (bound.grown.member_of_owner wellFormed laid found old)
    · obtain ⟨position, typeDecl, declared, bindsType⟩ := bound.exists_decl foundType own
      have plain := (unplacedDecl typeDecl (List.mem_of_getElem? declared)).members
      cases isClause : member.clause? with
      | none =>
        obtain ⟨_, again, listed⟩ := laid.listed found isClause
        cases foundType.symm.trans again
        obtain ⟨memberDecl, isDeclared, carries⟩ := exists_of_mem_forall₂ bindsType.members listed
        rw [← Option.some.inj (carries.head.symm.trans found)]
        exact (plain _ isDeclared).span
      | some entry =>
        obtain ⟨kind, parentId⟩ := entry
        obtain ⟨parent, foundParent, noClause, owner, has⟩ := laid.clause found isClause
        obtain ⟨_, again, listed⟩ := laid.listed foundParent noClause
        cases foundType.symm.trans (owner ▸ again)
        obtain ⟨memberDecl, isDeclared, carries⟩ := exists_of_mem_forall₂ bindsType.members listed
        have isAccessor : id ∈ parent.accessors := MemberSymbol.mem_accessors.mpr ⟨kind, has⟩
        rw [← Option.some.inj (carries.head.symm.trans foundParent)] at isAccessor
        obtain ⟨clause, isClause, made⟩ := carries.exists_clause isAccessor
        rw [← Option.some.inj (made.symm.trans found)]
        show clause.decl.span.orElse memberDecl.span = .unknown
        rw [(plain _ isDeclared).clauses clause isClause, (plain _ isDeclared).span]
        rfl

end SymbolTable

end Conformance
