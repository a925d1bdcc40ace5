import Conformance.Proofs.Binding.Blocks

/-!
Where the symbols of a table come from.

Whatever assemblies are bound, and whatever they are compiled against, each member of a
table is made of a declaration in a type of the same kind, and each accessor of an accessor
of that declaration (`SymbolTable.Made.derived`). A name may mean something else once more
assemblies are bound, so the block of a declaration stands in the table up to targets. What
an accessor is bound to always follows from what its member is bound to.
-/

namespace Conformance

namespace SymbolTable

/-- The symbols of a block stand in a table, from the id of its member on, whatever they
are bound to. -/
def Presents (table : SymbolTable) (id : MemberId) (block : MemberBlock) : Prop :=
  ∀ position symbol, block.symbols[position]? = some symbol →
    ∃ target, table.member? ⟨id.index + position⟩ = some { symbol with target }

/-- A member that is no accessor is made of a declaration, in a type of the kind that the
declaration was bound in. -/
def MadeOf (table : SymbolTable) (id : MemberId) (member : MemberSymbol) (decl : MemberDecl)
    (scope : MemberScope) : Prop :=
  (∃ type, table.type? member.owner = some type ∧ scope.ownerIsInterface = type.isInterface) ∧
    table.Presents id (decl.bind scope id)

/-- The members of a table are made of declarations, explicit implementations are bound to
what they may be bound to, and accessors to accessors of that. -/
structure Derived (table : SymbolTable) : Prop where
  head : ∀ {id member}, table.member? id = some member → member.clause? = none →
    ∃ decl scope, table.MadeOf id member decl scope
  candidate : ∀ {id member target}, table.member? id = some member → member.clause? = none →
    member.target = some target →
      ∃ image, table.member? target.member = some image ∧ table.isExplicitCandidate image = true
  clauseTarget : ∀ {id member kind parentId parent}, table.member? id = some member →
    member.clause? = some (kind, parentId) → table.member? parentId = some parent →
      member.target = parent.target.bind (table.clauseTarget? kind)

variable {table : SymbolTable} {assembly : AssemblyId} {decl : MemberDecl} {scope : MemberScope}
  {id : MemberId} {member : MemberSymbol}

/-! ## Blocks -/

theorem Carries.presents {block : MemberBlock} (carries : table.Carries assembly id block) :
    table.Presents id block :=
  fun position symbol held => ⟨_, carries position symbol held⟩

theorem Presents.extend {after : SymbolTable} {block : MemberBlock}
    (presents : table.Presents id block) (grown : table.Extends after) :
    after.Presents id block := by
  intro position symbol held
  obtain ⟨target, found⟩ := presents position symbol held
  exact ⟨target, grown.member found⟩

theorem Presents.head {block : MemberBlock} (presents : table.Presents id block)
    (found : table.member? id = some member) : ∃ target, member = { block.head with target } := by
  obtain ⟨target, held⟩ := presents 0 block.head rfl
  exact ⟨target, Option.some.inj (found.symm.trans held)⟩

/-- The accessors of a member are made of those of its declaration. -/
theorem Presents.clause (presents : table.Presents id (decl.bind scope id))
    {parent : MemberSymbol} (foundParent : table.member? id = some parent)
    {accessorId : MemberId} (listed : accessorId ∈ parent.accessors) {accessor : MemberSymbol}
    (found : table.member? accessorId = some accessor) :
    ∃ clause ∈ decl.clauses, ∃ target,
      accessor = { decl.clauseSymbol scope id clause with target } := by
  obtain ⟨_, rfl⟩ := presents.head foundParent
  obtain ⟨position, clause, declared, rfl⟩ := decl.exists_clause_of_mem_accessors scope id listed
  have held : (decl.bind scope id).symbols[position + 1]? =
      some (decl.clauseSymbol scope id clause) := by
    rw [MemberBlock.symbols, List.getElem?_cons_succ, MemberDecl.bind_accessors, List.getElem?_map,
      declared]
    rfl
  obtain ⟨target, standing⟩ := presents (position + 1) _ held
  rw [← Nat.add_assoc, Nat.add_right_comm] at standing
  exact ⟨clause, List.mem_of_getElem? declared, target,
    Option.some.inj (found.symm.trans standing)⟩

/-! ## Binding -/

theorem MadeOf.extend {after : SymbolTable} (made : table.MadeOf id member decl scope)
    (grown : table.Extends after) : after.MadeOf id member decl scope := by
  obtain ⟨⟨type, foundType, inside⟩, presents⟩ := made
  exact ⟨⟨type, grown.type foundType, inside⟩, presents.extend grown⟩

/-- A member that is no accessor was there, or is carried by the new assembly. -/
theorem Bound.head_cases {assemblyDecl : AssemblyDecl} {references : List AssemblyId}
    {mode : BindMode} {binding : Binding} (bound : Bound table assemblyDecl references mode binding)
    (wellFormed : table.WellFormed) (found : binding.table.member? id = some member)
    (noClause : member.clause? = none) :
    table.member? id = some member ∨ ∃ (decl : MemberDecl) (scope : MemberScope),
      binding.table.MadeOf id member decl scope ∧
        binding.table.Carries binding.assembly id (decl.bind scope id) := by
  have laid := bound.wellFormed.laid
  obtain ⟨type, foundType, listed⟩ := laid.listed found noClause
  rcases bound.type_cases wellFormed.laid foundType with old | own
  · exact .inl (bound.grown.member_of_owner wellFormed laid found old)
  · obtain ⟨_, typeDecl, _, bindsType⟩ := bound.exists_decl foundType own
    obtain ⟨decl, _, carries⟩ := exists_of_mem_forall₂ bindsType.members listed
    exact .inr ⟨decl, _, ⟨⟨type, foundType, rfl⟩, carries.presents⟩, carries⟩

/-- Binding an assembly keeps track of where symbols come from. -/
theorem Derived.bind (derived : table.Derived) (wellFormed : table.WellFormed)
    (assemblyDecl : AssemblyDecl) (references : List AssemblyId) (mode : BindMode) :
    (table.bind assemblyDecl references mode).table.Derived where
  head found noClause := by
    have bound := bind_bound wellFormed assemblyDecl references mode
    rcases bound.head_cases wellFormed found noClause with old | ⟨decl, scope, made, _⟩
    · obtain ⟨decl, scope, made⟩ := derived.head old noClause
      exact ⟨decl, scope, made.extend bound.grown⟩
    · exact ⟨decl, scope, made⟩
  candidate {id member target} found noClause hasTarget := by
    have bound := bind_bound wellFormed assemblyDecl references mode
    rcases bound.head_cases wellFormed found noClause with old | ⟨_, _, _, carries⟩
    · obtain ⟨image, foundImage, candidate⟩ := derived.candidate old noClause hasTarget
      refine ⟨image, bound.grown.member foundImage, ?_⟩
      rwa [bound.grown.isExplicitCandidate wellFormed.closed foundImage]
    · rw [carries.target found] at hasTarget
      obtain ⟨_, _, image, _, _, _, explicit⟩ := boundTarget?_some hasTarget
      obtain ⟨_, foundImage, candidate, _⟩ := explicitTarget?_some explicit
      exact ⟨image, foundImage, candidate⟩
  clauseTarget {id member kind parentId parent} found isClause foundParent := by
    have bound := bind_bound wellFormed assemblyDecl references mode
    have laid := bound.wellFormed.laid
    obtain ⟨noClause, owner, has⟩ := laid.of_clause found isClause foundParent
    have listed : id ∈ parent.accessors := MemberSymbol.mem_accessors.mpr ⟨kind, has⟩
    rcases bound.head_cases wellFormed foundParent noClause with oldParent | ⟨_, _, _, carries⟩
    · obtain ⟨type, foundType⟩ := wellFormed.closed.owner oldParent
      have old := bound.grown.member_of_owner wellFormed laid found (owner ▸ foundType)
      rw [derived.clauseTarget old isClause oldParent]
      cases above : parent.target with
      | none => rfl
      | some target =>
        obtain ⟨image, foundImage, _⟩ := wellFormed.targeted.target oldParent above
        exact (bound.grown.clauseTarget? wellFormed.closed kind ⟨image, foundImage⟩).symm
    · exact carries.clauseTarget foundParent listed found isClause

/-- The members of a table that is made by binding are made of declarations. -/
theorem Made.derived (made : Made table) : table.Derived := by
  induction made with
  | empty => exact ⟨nofun, nofun, nofun⟩
  | bind earlier decl references mode ih => exact ih.bind earlier.wellFormed decl references mode

/-! ## Accessors -/

namespace Derived

variable (derived : table.Derived) (laid : table.Laid) (found : table.member? id = some member)
  {kind : AccessorKind} {parentId : MemberId} (isClause : member.clause? = some (kind, parentId))
  {parent : MemberSymbol} (foundParent : table.member? parentId = some parent)

include derived laid found isClause foundParent

/-- An accessor is made of an accessor of the declaration that its member is made of. -/
theorem clause : ∃ (decl : MemberDecl) (scope : MemberScope),
    table.MadeOf parentId parent decl scope ∧
      (∃ target, parent = { (decl.bind scope parentId).head with target }) ∧
      ∃ declared ∈ decl.clauses, ∃ target,
        member = { decl.clauseSymbol scope parentId declared with target } := by
  obtain ⟨noClause, _, has⟩ := laid.of_clause found isClause foundParent
  obtain ⟨decl, scope, made⟩ := derived.head foundParent noClause
  exact ⟨decl, scope, made, made.2.head foundParent, made.2.clause foundParent
    (MemberSymbol.mem_accessors.mpr ⟨kind, has⟩) found⟩

/-- An accessor has a body just if its member has. -/
theorem hasImplementation_clause : member.hasImplementation = parent.hasImplementation := by
  obtain ⟨decl, scope, _, ⟨_, rfl⟩, declared, listed, _, rfl⟩ :=
    derived.clause laid found isClause foundParent
  exact decl.hasImplementation_clauseSymbol scope parentId listed

end Derived

end SymbolTable

end Conformance
