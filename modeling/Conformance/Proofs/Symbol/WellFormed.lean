import Conformance.Proofs.Options
import Conformance.Proofs.Symbol.Updates

/-!
Well-formed symbol tables.

The symbols of a well-formed table refer to each other in both directions: a
type lists its members and each of them names the type as its owner; a member
has accessors and each of them names the member; an assembly lists its types
and each of them names the assembly. Base types are classes, listed interfaces
are interfaces, and targets of explicit implementations are members of the
interface that they name.
-/

namespace Conformance

/-- Whether two kinds of clauses agree: neither is an accessor, or both are
accessors of one kind. -/
def MemberSymbol.clauseKind? (member : MemberSymbol) : Option AccessorKind :=
  member.clause?.map Prod.fst

theorem MemberSymbol.mem_accessors {member : MemberSymbol} {id : MemberId} :
    id ∈ member.accessors ↔ ∃ kind, member.accessor? kind = some id := by
  unfold accessors accessor?
  constructor
  · cases member.kind with
    | property isIndexer getter setter =>
      intro listed
      rcases List.mem_append.mp listed with first | second
      · exact ⟨.get, Option.mem_toList.mp first⟩
      · exact ⟨.set, Option.mem_toList.mp second⟩
    | event adder remover =>
      intro listed
      rcases List.mem_append.mp listed with first | second
      · exact ⟨.add, Option.mem_toList.mp first⟩
      · exact ⟨.remove, Option.mem_toList.mp second⟩
    | _ => intro listed; cases listed
  · rintro ⟨kind, found⟩
    cases known : member.kind <;> cases kind <;> simp_all

namespace SymbolTable

/-- Links lead to types of the right kind. -/
structure Linked (table : SymbolTable) : Prop where
  base : ∀ {id type base}, table.type? id = some type → type.base = some base →
    type.kind = .classType ∧ ∃ symbol, table.type? base = some symbol ∧ symbol.kind = .classType
  interface : ∀ {id type interface}, table.type? id = some type →
    interface ∈ type.interfaces →
      ∃ symbol, table.type? interface = some symbol ∧ symbol.isInterface = true
  nodup : ∀ {id type}, table.type? id = some type → type.interfaces.Nodup

/-- Assemblies, types, members and accessors refer to each other in both
directions. -/
structure Laid (table : SymbolTable) : Prop where
  /-- The members that a type lists are its own. -/
  head : ∀ {typeId type id}, table.type? typeId = some type → id ∈ type.members →
    ∃ member, table.member? id = some member ∧ member.owner = typeId ∧ member.clause? = none
  /-- A member that is no accessor is listed. -/
  listed : ∀ {id member}, table.member? id = some member → member.clause? = none →
    ∃ type, table.type? member.owner = some type ∧ id ∈ type.members
  /-- An accessor is that of its member. -/
  clause : ∀ {id member kind parentId}, table.member? id = some member →
    member.clause? = some (kind, parentId) →
      ∃ parent, table.member? parentId = some parent ∧ parent.clause? = none ∧
        parent.owner = member.owner ∧ parent.accessor? kind = some id
  /-- The accessors of a member are its own. -/
  accessor : ∀ {id member kind accessorId}, table.member? id = some member →
    member.accessor? kind = some accessorId →
      ∃ accessor, table.member? accessorId = some accessor ∧
        accessor.clause? = some (kind, id) ∧ accessor.owner = member.owner
  /-- A type lists each member once. -/
  members_nodup : ∀ {id type}, table.type? id = some type → type.members.Nodup
  /-- A type is listed in its assembly. -/
  assembly : ∀ {id type}, table.type? id = some type →
    ∃ assembly, table.assembly? type.assembly = some assembly ∧ id ∈ assembly.types
  /-- The types that an assembly lists are its own. -/
  type : ∀ {assemblyId assembly id}, table.assembly? assemblyId = some assembly →
    id ∈ assembly.types → ∃ type, table.type? id = some type ∧ type.assembly = assemblyId
  /-- An assembly lists each type once. -/
  types_nodup : ∀ {id assembly}, table.assembly? id = some assembly → assembly.types.Nodup

/-- Targets are members, accessors for accessors, of the interface that is named
with them. -/
structure Targeted (table : SymbolTable) : Prop where
  target : ∀ {id member target}, table.member? id = some member → member.target = some target →
    ∃ symbol, table.member? target.member = some symbol ∧ symbol.owner = target.interface ∧
      symbol.clauseKind? = member.clauseKind?
  /-- Members with a target name its interface. -/
  explicit : ∀ {id member target}, table.member? id = some member → member.clause? = none →
    member.target = some target → member.isExplicit = true

/-- A table whose symbols refer to each other as binding makes them. -/
structure WellFormed (table : SymbolTable) : Prop where
  linked : table.Linked
  laid : table.Laid
  targeted : table.Targeted

variable {table : SymbolTable}

theorem Laid.of_head (laid : table.Laid) {typeId : TypeId} {type : TypeSymbol} {id : MemberId}
    {member : MemberSymbol} (foundType : table.type? typeId = some type) (own : id ∈ type.members)
    (found : table.member? id = some member) : member.owner = typeId ∧ member.clause? = none := by
  rcases laid.head foundType own with ⟨_, foundAgain, facts⟩
  cases found.symm.trans foundAgain
  exact facts

theorem Laid.of_clause (laid : table.Laid) {id parentId : MemberId} {member parent : MemberSymbol}
    {kind : AccessorKind} (found : table.member? id = some member)
    (clause : member.clause? = some (kind, parentId))
    (foundParent : table.member? parentId = some parent) :
    parent.clause? = none ∧ parent.owner = member.owner ∧ parent.accessor? kind = some id := by
  rcases laid.clause found clause with ⟨_, foundAgain, facts⟩
  cases foundParent.symm.trans foundAgain
  exact facts

theorem Laid.of_accessor (laid : table.Laid) {id accessorId : MemberId}
    {member accessor : MemberSymbol} {kind : AccessorKind} (found : table.member? id = some member)
    (has : member.accessor? kind = some accessorId)
    (foundAccessor : table.member? accessorId = some accessor) :
    accessor.clause? = some (kind, id) ∧ accessor.owner = member.owner := by
  rcases laid.accessor found has with ⟨_, foundAgain, facts⟩
  cases foundAccessor.symm.trans foundAgain
  exact facts

/-- The members that a type has are its own. -/
theorem Laid.of_mem_membersOf (laid : table.Laid) {typeId : TypeId} {type : TypeSymbol}
    {entry : MemberId × MemberSymbol} (foundType : table.type? typeId = some type)
    (listed : entry ∈ table.membersOf type) :
    table.member? entry.1 = some entry.2 ∧ entry.2.owner = typeId ∧ entry.2.clause? = none := by
  rcases member?_of_mem_membersOf listed with ⟨own, found⟩
  exact ⟨found, laid.of_head foundType own found⟩

/-- The accessors that a member has are its own. -/
theorem Laid.of_mem_accessorsOf (laid : table.Laid) {id : MemberId} {member : MemberSymbol}
    {entry : MemberId × MemberSymbol} (found : table.member? id = some member)
    (listed : entry ∈ table.accessorsOf member) :
    ∃ kind, table.member? entry.1 = some entry.2 ∧ entry.2.clause? = some (kind, id) ∧
      entry.2.owner = member.owner := by
  rcases member?_of_mem_accessorsOf listed with ⟨own, foundEntry⟩
  rcases MemberSymbol.mem_accessors.mp own with ⟨kind, has⟩
  exact ⟨kind, foundEntry, laid.of_accessor found has foundEntry⟩

/-- A member has each of its accessors once. -/
theorem Laid.accessors_nodup (laid : table.Laid) {id : MemberId}
    {member : MemberSymbol} (found : table.member? id = some member) : member.accessors.Nodup := by
  have apart {first second : AccessorKind} (different : first ≠ second) {accessor other : MemberId}
      (one : member.accessor? first = some accessor)
      (two : member.accessor? second = some other) : accessor ≠ other := by
    intro same
    rcases laid.accessor found one with ⟨_, foundOne, isFirst, _⟩
    rcases laid.accessor found two with ⟨_, foundTwo, isSecond, _⟩
    cases foundOne.symm.trans (same ▸ foundTwo)
    cases isFirst.symm.trans isSecond
    exact different rfl
  have pair (first second : Option MemberId)
      (distinct : ∀ accessor ∈ first, ∀ other ∈ second, accessor ≠ other) :
      (first.toList ++ second.toList).Nodup := by
    cases first with
    | none => cases second <;> simp
    | some accessor =>
      cases second with
      | none => simp
      | some other => simpa using distinct accessor rfl other rfl
  unfold MemberSymbol.accessors
  unfold MemberSymbol.accessor? at apart
  cases kind : member.kind with
  | method => exact .nil
  | accessor => exact .nil
  | property isIndexer getter setter =>
    rw [kind] at apart
    exact pair getter setter fun accessor isGetter other isSetter =>
      apart (by decide : AccessorKind.get ≠ .set) isGetter isSetter
  | event adder remover =>
    rw [kind] at apart
    exact pair adder remover fun accessor isAdder other isRemover =>
      apart (by decide : AccessorKind.add ≠ .remove) isAdder isRemover

theorem Linked.closed (linked : table.Linked) (laid : table.Laid) : table.Closed where
  base found known := by
    obtain ⟨_, symbol, exists_symbol, _⟩ := linked.base found known
    exact ⟨symbol, exists_symbol⟩
  interface found known := by
    obtain ⟨symbol, exists_symbol, _⟩ := linked.interface found known
    exact ⟨symbol, exists_symbol⟩
  member found known := by
    obtain ⟨symbol, exists_symbol, _⟩ := laid.head found known
    exact ⟨symbol, exists_symbol⟩
  owner {id member} found := by
    cases clause : member.clause? with
    | none =>
      obtain ⟨symbol, exists_symbol, _⟩ := laid.listed found clause
      exact ⟨symbol, exists_symbol⟩
    | some entry =>
      obtain ⟨parent, foundParent, noClause, owner, _⟩ := laid.clause found clause
      obtain ⟨symbol, exists_symbol, _⟩ := laid.listed foundParent noClause
      exact ⟨symbol, owner ▸ exists_symbol⟩
  accessor found known := by
    obtain ⟨kind, has⟩ := MemberSymbol.mem_accessors.mp known
    obtain ⟨symbol, exists_symbol, _⟩ := laid.accessor found has
    exact ⟨symbol, exists_symbol⟩
  parent found known := by
    obtain ⟨symbol, exists_symbol, _⟩ := laid.clause found known
    exact ⟨symbol, exists_symbol⟩

theorem WellFormed.closed (wellFormed : table.WellFormed) : table.Closed :=
  wellFormed.linked.closed wellFormed.laid

theorem wellFormed_empty : empty.WellFormed where
  linked := ⟨nofun, nofun, nofun⟩
  laid := ⟨nofun, nofun, nofun, nofun, nofun, nofun, nofun, nofun⟩
  targeted := ⟨nofun, nofun⟩

/-! ## Changes to types that keep their place -/

/-- Links aside, the types of one table are those of another, and members and
assemblies are the same. -/
structure SameButLinks (before after : SymbolTable) : Prop where
  assemblies : after.assemblies = before.assemblies
  members : after.members = before.members
  types : ∀ id, Option.Rel (fun a b : TypeSymbol =>
    b = { a with base := b.base, interfaces := b.interfaces }) (before.type? id) (after.type? id)

variable {before after : SymbolTable}

theorem SameButLinks.member? (same : before.SameButLinks after) (id : MemberId) :
    after.member? id = before.member? id := by
  rw [SymbolTable.member?, SymbolTable.member?, same.members]

theorem SameButLinks.assembly? (same : before.SameButLinks after) (id : AssemblyId) :
    after.assembly? id = before.assembly? id := by
  rw [SymbolTable.assembly?, SymbolTable.assembly?, same.assemblies]

theorem SameButLinks.type? (same : before.SameButLinks after) {id : TypeId} {type : TypeSymbol}
    (found : before.type? id = some type) :
    ∃ other, after.type? id = some other ∧
      other = { type with base := other.base, interfaces := other.interfaces } :=
  exists_of_rel_some (same.types id) found

theorem SameButLinks.type?_of_after (same : before.SameButLinks after) {id : TypeId}
    {type : TypeSymbol} (found : after.type? id = some type) :
    ∃ other, before.type? id = some other ∧
      type = { other with base := type.base, interfaces := type.interfaces } :=
  exists_of_rel_some_right (same.types id) found

/-- Links take no part in how symbols refer to each other. -/
theorem SameButLinks.laid (same : before.SameButLinks after) (laid : before.Laid) : after.Laid where
  head found listed := by
    obtain ⟨original, foundBefore, rest⟩ := same.type?_of_after found
    rw [rest] at listed
    obtain ⟨member, foundMember, facts⟩ := laid.head foundBefore listed
    exact ⟨member, same.member? _ ▸ foundMember, facts⟩
  listed found noClause := by
    obtain ⟨type, foundType, listed⟩ := laid.listed (same.member? _ ▸ found) noClause
    obtain ⟨image, foundImage, rest⟩ := same.type? foundType
    exact ⟨image, foundImage, by rw [rest]; exact listed⟩
  clause found known := by
    obtain ⟨parent, foundParent, facts⟩ := laid.clause (same.member? _ ▸ found) known
    exact ⟨parent, same.member? _ ▸ foundParent, facts⟩
  accessor found known := by
    obtain ⟨accessor, foundAccessor, facts⟩ := laid.accessor (same.member? _ ▸ found) known
    exact ⟨accessor, same.member? _ ▸ foundAccessor, facts⟩
  members_nodup found := by
    obtain ⟨original, foundBefore, rest⟩ := same.type?_of_after found
    have distinct := laid.members_nodup foundBefore
    rw [rest]
    exact distinct
  assembly found := by
    obtain ⟨original, foundBefore, rest⟩ := same.type?_of_after found
    obtain ⟨assembly, foundAssembly, listed⟩ := laid.assembly foundBefore
    exact ⟨assembly, by rw [rest, same.assembly?]; exact foundAssembly, listed⟩
  type found listed := by
    obtain ⟨type, foundType, own⟩ := laid.type (same.assembly? _ ▸ found) listed
    obtain ⟨image, foundImage, rest⟩ := same.type? foundType
    exact ⟨image, foundImage, by rw [rest]; exact own⟩
  types_nodup found := laid.types_nodup (same.assembly? _ ▸ found)

end SymbolTable

end Conformance
