import Conformance.Proofs.Binding.Bound
import Conformance.Proofs.Symbol.Extension

/-!
Assemblies that can be traced back to declarations.

Everything in a table that is made by binding, each time against assemblies that
are there, comes from a declaration: names mean its links, its links do not come
back, and its members are blocks bound from member declarations. Adding further
assemblies does not change this (`SymbolTable.Sourced.extend`).
-/

namespace Conformance

namespace SymbolTable

/-- The symbols of an assembly come from declarations that were bound against
assemblies added earlier. -/
structure Sourced (table : SymbolTable) (id : AssemblyId) (assembly : AssemblySymbol) : Prop where
  references : ∀ {reference}, reference ∈ assembly.references →
    (∃ symbol, table.assembly? reference = some symbol) ∧ reference.index < id.index
  links : ∀ {typeId type link}, typeId ∈ assembly.types → table.type? typeId = some type →
    type.base = some link ∨ link ∈ type.interfaces →
      ∃ symbol, table.type? link = some symbol ∧
        table.typeSeenFrom? id symbol.name = some link
  untangled : ∀ {typeId}, typeId ∈ assembly.types → table.Untangled typeId
  members : ∀ {typeId type member}, typeId ∈ assembly.types → table.type? typeId = some type →
    member ∈ type.members → ∃ (decl : MemberDecl) (scope : MemberScope),
      scope.owner = typeId ∧ scope.ownerIsInterface = type.isInterface ∧
        table.Carries id member (decl.bind scope member)

/-- All assemblies of a table come from declarations. -/
def Traced (table : SymbolTable) : Prop :=
  ∀ {id assembly}, table.assembly? id = some assembly → table.Sourced id assembly

/-! ## Extensions -/

section

variable {before after : SymbolTable} (grown : before.Extends after) (closed : before.Closed)

include grown closed

theorem Extends.basesReach (target : TypeId) (steps : Nat) {id : TypeId}
    (known : ∃ type, before.type? id = some type) :
    after.basesReach target steps id = before.basesReach target steps id := by
  induction steps generalizing id with
  | zero => rfl
  | succ steps ih =>
    obtain ⟨type, found⟩ := known
    unfold SymbolTable.basesReach
    simp only [found, grown.type found]
    cases base : type.base with
    | none => rfl
    | some other => simp only [ih (closed.base found base)]

theorem Extends.reaches {id other : TypeId} (known : ∃ type, before.type? id = some type)
    (path : Relation.ReflTransGen after.Lists id other) :
    Relation.ReflTransGen before.Lists id other ∧ ∃ type, before.type? other = some type := by
  induction path with
  | refl => exact ⟨.refl, known⟩
  | tail _ step ih =>
    obtain ⟨earlier, type, found⟩ := ih
    obtain ⟨symbol, foundAfter, listed⟩ := step
    cases foundAfter.symm.trans (grown.type found)
    exact ⟨earlier.tail ⟨type, found, listed⟩, closed.interface found listed⟩

theorem Extends.untangled {id : TypeId} (known : ∃ type, before.type? id = some type)
    (untangled : before.Untangled id) : after.Untangled id := by
  obtain ⟨type, found⟩ := known
  constructor
  · intro symbol base foundAfter hasBase
    cases foundAfter.symm.trans (grown.type found)
    rw [grown.basesReach closed id maxDepth (closed.base found hasBase)]
    exact untangled.base type base found hasBase
  · intro symbol foundAfter isInterface other listed path
    cases foundAfter.symm.trans (grown.type found)
    exact untangled.interfaces type found isInterface other listed
      (grown.reaches closed (closed.interface found listed) path).1

variable {id : AssemblyId} {assembly : AssemblySymbol} (laid : before.Laid)
  (foundAssembly : before.assembly? id = some assembly)
  (references : ∀ reference ∈ assembly.references, ∃ symbol,
    before.assembly? reference = some symbol)

include laid foundAssembly references

theorem Extends.boundTarget? (member : MemberSymbol) :
    after.boundTarget? id member = before.boundTarget? id member := by
  unfold SymbolTable.boundTarget?
  cases member.explicitInterface with
  | none => rfl
  | some name =>
    simp only [Option.bind_eq_bind, Option.bind_some,
      grown.resolve? laid foundAssembly references]
    cases resolved : before.resolve? id name with
    | none => rfl
    | some found =>
      obtain ⟨typeId, type⟩ := found
      obtain ⟨_, foundType, _⟩ := resolve?_some resolved
      have explicit : after.explicitTarget? type member = before.explicitTarget? type member := by
        unfold SymbolTable.explicitTarget?
        rw [grown.membersOf closed foundType]
        refine List.find?_congr fun entry listed => ?_
        rw [grown.isExplicitCandidate closed (member?_of_mem_membersOf listed).2]
      simp only [Option.bind_some, explicit]

omit laid foundAssembly references in
theorem Extends.clauseTarget? (kind : AccessorKind) {target : ExplicitTarget}
    (known : ∃ member, before.member? target.member = some member) :
    after.clauseTarget? kind target = before.clauseTarget? kind target := by
  obtain ⟨member, found⟩ := known
  unfold SymbolTable.clauseTarget?
  rw [found, grown.member found]
  simp only [Option.bind_eq_bind, Option.bind_some]
  cases has : member.accessor? kind with
  | none => rfl
  | some accessorId =>
    obtain ⟨accessor, foundAccessor⟩ := closed.accessor found
      (MemberSymbol.mem_accessors.mpr ⟨kind, has⟩)
    simp only [Option.bind_some, foundAccessor, grown.member foundAccessor,
      grown.isExplicitCandidate closed foundAccessor]

theorem Extends.expectedTarget? {member : MemberSymbol}
    (parent : ∀ kind parentId, member.clause? = some (kind, parentId) →
      ∃ symbol, before.member? parentId = some symbol) :
    after.expectedTarget? id member = before.expectedTarget? id member := by
  unfold SymbolTable.expectedTarget?
  cases clause : member.clause? with
  | none => exact grown.boundTarget? closed laid foundAssembly references member
  | some entry =>
    obtain ⟨kind, parentId⟩ := entry
    obtain ⟨symbol, found⟩ := parent kind parentId clause
    simp only [Option.bind_eq_bind, found, grown.member found, Option.bind_some,
      grown.boundTarget? closed laid foundAssembly references]
    cases bound : before.boundTarget? id symbol with
    | none => rfl
    | some target =>
      obtain ⟨_, _, _, _, _, _, explicit⟩ := boundTarget?_some bound
      exact grown.clauseTarget? closed kind ⟨_, (explicitTarget?_some explicit).2.1⟩

theorem Extends.carries {member : MemberId} {block : MemberBlock}
    (carries : before.Carries id member block) : after.Carries id member block := by
  intro position symbol held
  have found := carries position symbol held
  rw [grown.member found, grown.expectedTarget? closed laid foundAssembly references]
  intro kind parentId clause
  exact closed.parent found clause

end

/-- Adding assemblies does not change where the symbols of one come from. -/
theorem Sourced.extend {before after : SymbolTable} {id : AssemblyId} {assembly : AssemblySymbol}
    (sourced : before.Sourced id assembly) (grown : before.Extends after)
    (wellFormed : before.WellFormed) (found : before.assembly? id = some assembly) :
    after.Sourced id assembly := by
  have laid := wellFormed.laid
  have closed := wellFormed.closed
  have references : ∀ reference ∈ assembly.references, ∃ symbol,
      before.assembly? reference = some symbol := fun _ listed => (sourced.references listed).1
  have known {typeId : TypeId} (listed : typeId ∈ assembly.types) :
      ∃ type, before.type? typeId = some type := by
    obtain ⟨type, foundType, _⟩ := laid.type found listed
    exact ⟨type, foundType⟩
  constructor
  · intro reference listed
    obtain ⟨⟨symbol, foundReference⟩, earlier⟩ := sourced.references listed
    exact ⟨⟨symbol, grown.assembly foundReference⟩, earlier⟩
  · intro typeId type link listed foundAfter linked
    obtain ⟨original, foundBefore⟩ := known listed
    cases foundAfter.symm.trans (grown.type foundBefore)
    obtain ⟨symbol, foundLink, seen⟩ := sourced.links listed foundBefore linked
    refine ⟨symbol, grown.type foundLink, ?_⟩
    rw [grown.typeSeenFrom? laid found references]
    exact seen
  · intro typeId listed
    exact grown.untangled closed (known listed) (sourced.untangled listed)
  · intro typeId type member listed foundAfter inside
    obtain ⟨original, foundBefore⟩ := known listed
    cases foundAfter.symm.trans (grown.type foundBefore)
    obtain ⟨decl, scope, owner, isInterface, carries⟩ := sourced.members listed foundBefore inside
    exact ⟨decl, scope, owner, isInterface,
      grown.carries closed laid found references carries⟩

/-- Binding an assembly against assemblies that are there keeps a table traced. -/
theorem Traced.bind {table : SymbolTable} (traced : table.Traced) (wellFormed : table.WellFormed)
    (decl : AssemblyDecl) {references : List AssemblyId} (mode : BindMode)
    (known : ∀ reference ∈ references, ∃ symbol, table.assembly? reference = some symbol) :
    (table.bind decl references mode).table.Traced := by
  have bound := bind_bound wellFormed decl references mode
  intro id assembly found
  by_cases new : id = (table.bind decl references mode).assembly
  · subst new
    cases found.symm.trans bound.symbol
    have bindsType {typeId : TypeId}
        (listed : typeId ∈ typeIds table.types.size decl.types.length) :
        ∃ typeDecl type, (table.bind decl references mode).table.type? typeId = some type ∧
          BoundType (table.bind decl references mode).table
            (table.bind decl references mode).assembly mode typeDecl typeId type := by
      obtain ⟨above, below⟩ := mem_typeIds.mp listed
      have inside : typeId.index - table.types.size < decl.types.length := by omega
      obtain ⟨type, foundType, facts⟩ := bound.types (List.getElem?_eq_getElem inside)
      rw [Nat.add_sub_cancel' above] at foundType facts
      exact ⟨_, type, foundType, facts⟩
    constructor
    · intro reference listed
      obtain ⟨symbol, foundReference⟩ := known reference listed
      refine ⟨⟨symbol, bound.grown.assembly foundReference⟩, ?_⟩
      rw [bound.assembly]
      exact lt_of_assembly? foundReference
    · intro typeId type link listed foundType linked
      obtain ⟨typeDecl, symbol, foundSymbol, facts⟩ := bindsType listed
      cases foundType.symm.trans foundSymbol
      exact facts.links linked
    · intro typeId listed
      obtain ⟨typeDecl, symbol, foundSymbol, facts⟩ := bindsType listed
      exact facts.untangled
    · intro typeId type member listed foundType inside
      obtain ⟨typeDecl, symbol, foundSymbol, facts⟩ := bindsType listed
      cases foundType.symm.trans foundSymbol
      obtain ⟨decl, _, carries⟩ := exists_of_mem_forall₂ facts.members inside
      exact ⟨decl, _, rfl, rfl, carries⟩
  · have foundBefore := bound.others found new
    exact (traced foundBefore).extend bound.grown wellFormed foundBefore

theorem traced_empty : (∅ : SymbolTable).Traced := by
  intro id assembly found
  cases found

end SymbolTable

end Conformance
