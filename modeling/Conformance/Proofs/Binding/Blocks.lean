import Conformance.Proofs.Binding.Regular
import Conformance.Proofs.Binding.Sourced

/-!
Blocks in traced tables.

Every member of a traced table is bound from a declaration, and every accessor from
an accessor of the declaration of its member (`SymbolTable.Traced.head`,
`SymbolTable.Traced.clause`). What binding makes of a declaration can so be read off
the symbols of a table.
-/

namespace Conformance

namespace SymbolTable

variable {table : SymbolTable} {assembly : AssemblyId} {decl : MemberDecl} {scope : MemberScope}
  {id : MemberId} {member : MemberSymbol}

/-- The symbol of the member stands at the start of its block. -/
theorem Carries.head {block : MemberBlock} (carries : table.Carries assembly id block) :
    table.member? id =
      some { block.head with target := table.expectedTarget? assembly block.head } :=
  carries 0 block.head rfl

/-- The accessors of a member that is bound are bound from those declared. -/
theorem Carries.exists_clause (carries : table.Carries assembly id (decl.bind scope id))
    {target : Option ExplicitTarget} {accessorId : MemberId}
    (listed : accessorId ∈ ({ (decl.bind scope id).head with target } : MemberSymbol).accessors) :
    ∃ clause ∈ decl.clauses, table.member? accessorId =
      some { decl.clauseSymbol scope id clause with
        target := table.expectedTarget? assembly (decl.clauseSymbol scope id clause) } := by
  rcases decl.exists_clause_of_mem_accessors scope id listed with ⟨position, clause, declared, rfl⟩
  exact ⟨clause, List.mem_of_getElem? declared, carries.clause declared⟩

/-- A member of a carried block is bound to what its name and signature lead to. -/
theorem Carries.target (carries : table.Carries assembly id (decl.bind scope id))
    (found : table.member? id = some member) :
    member.target = table.boundTarget? assembly member := by
  have noClause : (decl.bind scope id).head.clause? = none := decl.bind_head_clause scope id
  rw [carries.head] at found
  cases found
  rw [(SameButTargets.refl table).boundTarget?]
  exact expectedTarget?_head noClause

/-- An accessor is bound to the accessor, of the same kind, of what its member is bound to. -/
theorem Carries.clauseTarget {parentId : MemberId} {parent : MemberSymbol}
    (carries : table.Carries assembly parentId (decl.bind scope parentId))
    (foundParent : table.member? parentId = some parent) (listed : id ∈ parent.accessors)
    (found : table.member? id = some member) {kind : AccessorKind}
    (clause : member.clause? = some (kind, parentId)) :
    member.target = parent.target.bind (table.clauseTarget? kind) := by
  rw [carries.target foundParent, ← expectedTarget?_clause clause foundParent]
  rw [carries.head] at foundParent
  cases foundParent
  obtain ⟨_, _, held⟩ := carries.exists_clause listed
  cases held.symm.trans found
  rfl

/-- A member of a traced table is bound from a declaration. -/
theorem Traced.head (traced : table.Traced) (laid : table.Laid)
    (found : table.member? id = some member) (noClause : member.clause? = none) :
    ∃ type, ∃ (decl : MemberDecl) (scope : MemberScope),
      table.type? member.owner = some type ∧ scope.ownerIsInterface = type.isInterface ∧
      table.Carries type.assembly id (decl.bind scope id) := by
  rcases laid.listed found noClause with ⟨type, foundType, listed⟩
  rcases laid.assembly foundType with ⟨assembly, foundAssembly, isType⟩
  rcases (traced foundAssembly).members isType foundType listed with
    ⟨decl, scope, _, isInterface, carries⟩
  exact ⟨type, decl, scope, foundType, isInterface, carries⟩

/-- An accessor of a traced table is bound from an accessor of the declaration of its
member. -/
theorem Traced.clause (traced : table.Traced) (laid : table.Laid)
    (found : table.member? id = some member) {kind : AccessorKind} {parentId : MemberId}
    (isClause : member.clause? = some (kind, parentId)) :
    ∃ type, ∃ (decl : MemberDecl) (scope : MemberScope),
      table.type? member.owner = some type ∧ scope.ownerIsInterface = type.isInterface ∧
      table.Carries type.assembly parentId (decl.bind scope parentId) ∧
      ∃ clause ∈ decl.clauses, member = { decl.clauseSymbol scope parentId clause with
        target := table.expectedTarget? type.assembly
          (decl.clauseSymbol scope parentId clause) } := by
  rcases laid.clause found isClause with ⟨parent, foundParent, noClause, owner, has⟩
  rcases traced.head laid foundParent noClause with
    ⟨type, decl, scope, foundType, isInterface, carries⟩
  have listed : id ∈ parent.accessors := MemberSymbol.mem_accessors.mpr ⟨kind, has⟩
  rw [carries.head] at foundParent
  cases foundParent
  rcases carries.exists_clause listed with ⟨clause, isDeclared, foundClause⟩
  rw [found] at foundClause
  exact ⟨type, decl, scope, owner ▸ foundType, isInterface, carries, clause, isDeclared,
    Option.some.inj foundClause⟩

/-- An accessor has a body just if its member has. -/
theorem Traced.hasImplementation_clause (traced : table.Traced) (laid : table.Laid)
    (found : table.member? id = some member) {kind : AccessorKind} {parentId : MemberId}
    (isClause : member.clause? = some (kind, parentId)) {parent : MemberSymbol}
    (foundParent : table.member? parentId = some parent) :
    member.hasImplementation = parent.hasImplementation := by
  rcases traced.clause laid found isClause with ⟨type, decl, scope, _, _, carries, clause,
    isDeclared, rfl⟩
  rw [carries.head] at foundParent
  cases foundParent
  exact decl.hasImplementation_clauseSymbol scope parentId isDeclared

/-- A member of a traced table is bound to what it should. -/
theorem Traced.target (traced : table.Traced) (laid : table.Laid)
    (found : table.member? id = some member) (noClause : member.clause? = none)
    {type : TypeSymbol} (foundType : table.type? member.owner = some type) :
    member.target = table.boundTarget? type.assembly member := by
  rcases traced.head laid found noClause with ⟨_, decl, scope, foundOwner, _, carries⟩
  cases foundType.symm.trans foundOwner
  exact carries.target found

/-- So is an accessor, given what its member is bound to. -/
theorem Traced.clauseTarget (traced : table.Traced) (laid : table.Laid)
    (found : table.member? id = some member) {kind : AccessorKind} {parentId : MemberId}
    (isClause : member.clause? = some (kind, parentId)) {parent : MemberSymbol}
    (foundParent : table.member? parentId = some parent) :
    member.target = parent.target.bind (table.clauseTarget? kind) := by
  rcases laid.of_clause found isClause foundParent with ⟨noClause, _, has⟩
  rcases traced.head laid foundParent noClause with ⟨_, decl, scope, _, _, carries⟩
  exact carries.clauseTarget foundParent (MemberSymbol.mem_accessors.mpr ⟨kind, has⟩) found isClause

theorem isImplementable_of_isExplicitCandidate
    (candidate : table.isExplicitCandidate member = true) :
    table.isImplementable member = true :=
  (Bool.and_eq_true _ _ ▸ candidate).1

/-- What a member is bound to is a member of the interface that types can implement. -/
theorem Traced.image (traced : table.Traced) (laid : table.Laid)
    (found : table.member? id = some member) (noClause : member.clause? = none)
    {target : ExplicitTarget} (bound : member.target = some target) :
    ∃ image, table.member? target.member = some image ∧ image.owner = target.interface ∧
      image.clause? = none ∧ table.isImplementable image = true := by
  rcases laid.listed found noClause with ⟨type, foundType, _⟩
  rw [traced.target laid found noClause foundType] at bound
  rcases boundTarget?_some bound with ⟨_, interface, image, _, resolved, _, explicit⟩
  rcases resolve?_some resolved with ⟨_, foundInterface, _⟩
  rcases explicitTarget?_some explicit with ⟨listed, foundImage, candidate, _⟩
  rcases laid.of_head foundInterface listed foundImage with ⟨owner, imageNoClause⟩
  exact ⟨image, foundImage, owner, imageNoClause, isImplementable_of_isExplicitCandidate candidate⟩

/-- What an accessor is bound to is an accessor, of the same kind, of what its member is
bound to. -/
theorem Traced.clauseImage (traced : table.Traced) (laid : table.Laid)
    (found : table.member? id = some member) {kind : AccessorKind} {parentId : MemberId}
    (isClause : member.clause? = some (kind, parentId)) {parent : MemberSymbol}
    (foundParent : table.member? parentId = some parent) {target clause : ExplicitTarget}
    (bound : parent.target = some target) (clauseBound : member.target = some clause) :
    clause.interface = target.interface ∧ ∃ image,
      table.member? clause.member = some image ∧ image.owner = target.interface ∧
        image.clause? = some (kind, target.member) ∧ table.isImplementable image = true := by
  rcases laid.of_clause found isClause foundParent with ⟨noClause, _⟩
  rcases traced.image laid foundParent noClause bound with ⟨above, foundAbove, owner, _⟩
  rw [traced.clauseTarget laid found isClause foundParent, bound, Option.bind_some] at clauseBound
  rcases clauseTarget?_some clauseBound with ⟨interface, _, image, foundAgain, has, foundImage,
    candidate⟩
  cases foundAbove.symm.trans foundAgain
  rcases laid.of_accessor foundAbove has foundImage with ⟨imageClause, imageOwner⟩
  exact ⟨interface, image, foundImage, imageOwner.trans owner, imageClause,
    isImplementable_of_isExplicitCandidate candidate⟩

/-- In a regular assembly, the member of an accessor that can be implemented can be
implemented. -/
theorem isImplementable_of_regular (laid : table.Laid) {assemblyId : AssemblyId}
    {assembly : AssemblySymbol} (foundAssembly : table.assembly? assemblyId = some assembly)
    (regular : (table.assemblyOutline assembly).IsRegular) {type : TypeSymbol}
    (foundType : table.type? member.owner = some type) (own : type.assembly = assemblyId)
    (found : table.member? id = some member) {kind : AccessorKind} {parentId : MemberId}
    (isClause : member.clause? = some (kind, parentId)) {parent : MemberSymbol}
    (foundParent : table.member? parentId = some parent)
    (implementable : table.isImplementable member = true) :
    table.isImplementable parent = true := by
  rcases laid.of_clause found isClause foundParent with ⟨noClause, owner, has⟩
  rcases laid.listed foundParent noClause with ⟨_, foundOwner, listed⟩
  cases foundOwner.symm.trans (owner ▸ foundType)
  rcases laid.assembly foundType with ⟨_, foundListing, isType⟩
  rw [own] at foundListing
  cases foundListing.symm.trans foundAssembly
  rw [isImplementable_eq foundType] at implementable
  rw [isImplementable_eq foundOwner]
  have typeListed : table.typeOutline type ∈ (table.assemblyOutline assembly).types :=
    List.mem_map_of_mem (List.mem_filterMap.mpr ⟨member.owner, isType, foundType⟩)
  have blockListed :
      table.blockOutline type.isInterface parent ∈ (table.typeOutline type).members :=
    List.mem_map.mpr ⟨(parentId, parent), mem_membersOf listed foundParent, rfl⟩
  have accessorListed : member.outline type.isInterface ∈
      (table.blockOutline type.isInterface parent).accessors :=
    List.mem_map.mpr ⟨(id, member),
      mem_accessorsOf (MemberSymbol.mem_accessors.mpr ⟨kind, has⟩) found, rfl⟩
  exact regular _ typeListed _ blockListed _ accessorListed implementable

end SymbolTable

end Conformance
