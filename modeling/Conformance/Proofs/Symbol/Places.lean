import Conformance.Proofs.Lists
import Conformance.Proofs.Symbol.WellFormed

/-!
Places of symbols.

A place says where a type or member was declared: the name of the assembly, the
position of the type in it, the position of the member in the type, and which
clause of the member an accessor is. In a table whose assemblies have different
names, symbols and places determine each other (`SymbolTable.typeAt?_iff`,
`SymbolTable.memberAt?_iff`), so places tell which symbols of different tables
are the same.
-/

namespace Conformance

/-- Where a type was declared. -/
structure TypePlace where
  assembly : String
  position : Nat
deriving DecidableEq, Repr

/-- Where a member was declared. -/
structure MemberPlace where
  type : TypePlace
  position : Nat
  /-- Which clause of the member an accessor is. -/
  clause : Option AccessorKind
deriving DecidableEq, Repr

namespace SymbolTable

/-- No two assemblies have one name. -/
def DistinctNames (table : SymbolTable) : Prop :=
  ∀ {first second a b}, table.assembly? first = some a → table.assembly? second = some b →
    a.name = b.name → first = second

section places

variable (table : SymbolTable)

/-- The place of a type. -/
def typePlace? (id : TypeId) : Option TypePlace := do
  let type ← table.type? id
  let assembly ← table.assembly? type.assembly
  let position ← assembly.types.idxOf? id
  return ⟨assembly.name, position⟩

/-- The type at a place. -/
def typeAt? (place : TypePlace) : Option TypeId := do
  let assembly ← table.assemblyNamed? place.assembly
  (table.typesOf assembly)[place.position]?

/-- The place of a member. -/
def memberPlace? (id : MemberId) : Option MemberPlace := do
  let member ← table.member? id
  let type ← table.type? member.owner
  let place ← table.typePlace? member.owner
  let position ← type.members.idxOf? ((member.clause?.map Prod.snd).getD id)
  return ⟨place, position, member.clauseKind?⟩

/-- The clause of a member, or the member itself. -/
def clauseAt? (head : MemberId) : Option AccessorKind → Option MemberId
  | none => some head
  | some kind => (table.member? head).bind (·.accessor? kind)

/-- The member at a place. -/
def memberAt? (place : MemberPlace) : Option MemberId := do
  let typeId ← table.typeAt? place.type
  let type ← table.type? typeId
  let head ← type.members[place.position]?
  table.clauseAt? head place.clause

end places

variable {table : SymbolTable}

theorem clauseAt?_accessor {head : MemberId} {member : MemberSymbol}
    (found : table.member? head = some member) (kind : AccessorKind) :
    table.clauseAt? head (some kind) = member.accessor? kind := by
  rw [clauseAt?, found, Option.bind_some]

/-! ## Assemblies -/

/-- The assembly that a name means is the first of it. -/
theorem assemblyNamed?_eq_some {name : String} {id : AssemblyId} :
    table.assemblyNamed? name = some id ↔
      (∃ symbol, table.assembly? id = some symbol ∧ symbol.name = name) ∧
      ∀ other symbol, other.index < id.index → table.assembly? other = some symbol →
        symbol.name ≠ name := by
  rcases id with ⟨index⟩
  rw [assemblyNamed?, Option.map_eq_some_iff]
  constructor
  · rintro ⟨_, found, same⟩
    cases same
    rcases Array.findIdx?_eq_some_iff_getElem.mp found with ⟨inside, named, earlier⟩
    refine ⟨⟨_, Array.getElem?_eq_getElem inside, of_decide_eq_true named⟩, ?_⟩
    intro other symbol below foundOther same
    rcases Array.getElem?_eq_some_iff.mp foundOther with ⟨within, rfl⟩
    exact earlier other.index below (decide_eq_true same)
  · rintro ⟨⟨symbol, found, named⟩, earlier⟩
    rcases Array.getElem?_eq_some_iff.mp found with ⟨inside, rfl⟩
    refine ⟨index, Array.findIdx?_eq_some_iff_getElem.mpr
      ⟨inside, decide_eq_true named, fun place below => ?_⟩, rfl⟩
    have apart := earlier ⟨place⟩ _ below (Array.getElem?_eq_getElem (below.trans inside))
    rw [decide_eq_true_eq]
    exact apart

theorem assemblyNamed?_some {name : String} {id : AssemblyId}
    (named : table.assemblyNamed? name = some id) :
    ∃ assembly, table.assembly? id = some assembly ∧ assembly.name = name :=
  (assemblyNamed?_eq_some.mp named).1

theorem assemblyNamed?_isSome {id : AssemblyId} {assembly : AssemblySymbol}
    (found : table.assembly? id = some assembly) :
    ∃ first, table.assemblyNamed? assembly.name = some first := by
  cases named : table.assemblyNamed? assembly.name with
  | some first => exact ⟨first, rfl⟩
  | none =>
    have absent := Array.findIdx?_eq_none_iff.mp (Option.map_eq_none_iff.mp named)
    have listed : assembly ∈ table.assemblies := Array.mem_of_getElem? found
    have apart := absent assembly listed
    rw [decide_eq_false_iff_not] at apart
    exact absurd rfl apart

theorem Extends.assemblyNamed? {before after : SymbolTable} (grown : before.Extends after)
    {name : String} {id : AssemblyId} (named : before.assemblyNamed? name = some id) :
    after.assemblyNamed? name = some id := by
  rcases assemblyNamed?_eq_some.mp named with ⟨⟨symbol, found, same⟩, earlier⟩
  refine assemblyNamed?_eq_some.mpr ⟨⟨symbol, grown.assembly found, same⟩, ?_⟩
  intro other image below foundImage
  rcases Array.getElem?_eq_some_iff.mp found with ⟨inside, _⟩
  have foundBefore : before.assembly? other = some _ :=
    Array.getElem?_eq_getElem (below.trans inside)
  cases foundImage.symm.trans (grown.assembly foundBefore)
  exact earlier other _ below foundBefore

/-- With different names, the assembly of a name is the one that has it. -/
theorem DistinctNames.assemblyNamed? (distinct : table.DistinctNames) {id : AssemblyId}
    {assembly : AssemblySymbol} (found : table.assembly? id = some assembly) :
    table.assemblyNamed? assembly.name = some id := by
  obtain ⟨first, named⟩ := assemblyNamed?_isSome found
  obtain ⟨other, foundFirst, same⟩ := assemblyNamed?_some named
  rw [named, distinct foundFirst found same]

/-- An assembly of one table has the name of an assembly of another. -/
def SharesName (s t : SymbolTable) (r q : AssemblyId) : Prop :=
  ∃ R Q, s.assembly? r = some R ∧ t.assembly? q = some Q ∧ Q.name = R.name

/-- With different names, one assembly has the name of another table's assembly. -/
theorem DistinctNames.sharesName_rightUnique {s t : SymbolTable} (distinct : t.DistinctNames) :
    Relator.RightUnique (s.SharesName t) := by
  rintro r q q' ⟨R, Q, foundR, foundQ, one⟩ ⟨R', Q', foundR', foundQ', two⟩
  cases foundR.symm.trans foundR'
  exact distinct foundQ foundQ' (one.trans two.symm)

/-! ## Types -/

/-- A type stands at a place. -/
def HasType (table : SymbolTable) (place : TypePlace) (id : TypeId) : Prop :=
  ∃ assemblyId assembly, table.assembly? assemblyId = some assembly ∧
    assembly.name = place.assembly ∧ assembly.types[place.position]? = some id

theorem typeAt?_iff (distinct : table.DistinctNames) {place : TypePlace} {id : TypeId} :
    table.typeAt? place = some id ↔ table.HasType place id := by
  constructor
  · intro at'
    obtain ⟨assemblyId, named, inside⟩ := Option.bind_eq_some_iff.mp at'
    obtain ⟨assembly, found, same⟩ := assemblyNamed?_some named
    rw [typesOf, found] at inside
    exact ⟨assemblyId, assembly, found, same, inside⟩
  · rintro ⟨assemblyId, assembly, found, same, inside⟩
    refine Option.bind_eq_some_iff.mpr ⟨assemblyId, ?_, ?_⟩
    · rw [← same]
      exact distinct.assemblyNamed? found
    · rw [typesOf, found]
      exact inside

theorem typePlace?_iff (laid : table.Laid) {place : TypePlace} {id : TypeId} :
    table.typePlace? id = some place ↔ table.HasType place id := by
  constructor
  · intro placed
    obtain ⟨type, found, rest⟩ := Option.bind_eq_some_iff.mp placed
    obtain ⟨assembly, foundAssembly, rest⟩ := Option.bind_eq_some_iff.mp rest
    obtain ⟨position, listed, same⟩ := Option.bind_eq_some_iff.mp rest
    cases same
    refine ⟨type.assembly, assembly, foundAssembly, rfl, ?_⟩
    exact (idxOf?_eq_some_iff_getElem? (laid.types_nodup foundAssembly)).mp listed
  · rintro ⟨assemblyId, assembly, foundAssembly, same, inside⟩
    obtain ⟨type, found, own⟩ := laid.type foundAssembly (List.mem_of_getElem? inside)
    refine Option.bind_eq_some_iff.mpr ⟨type, found, ?_⟩
    refine Option.bind_eq_some_iff.mpr ⟨assembly, own ▸ foundAssembly, ?_⟩
    refine Option.bind_eq_some_iff.mpr ⟨place.position, ?_, ?_⟩
    · exact (idxOf?_eq_some_iff_getElem? (laid.types_nodup foundAssembly)).mpr inside
    · rw [same]
      rfl

/-- One place holds one type. -/
theorem HasType.unique (distinct : table.DistinctNames) {place : TypePlace} {first second : TypeId}
    (one : table.HasType place first) (two : table.HasType place second) : first = second := by
  rw [← typeAt?_iff distinct] at one two
  exact Option.some.inj (one.symm.trans two)

/-- One type stands at one place. -/
theorem HasType.place_unique (laid : table.Laid) {first second : TypePlace} {id : TypeId}
    (one : table.HasType first id) (two : table.HasType second id) : first = second := by
  rw [← typePlace?_iff laid] at one two
  exact Option.some.inj (one.symm.trans two)

theorem HasType.type? (laid : table.Laid) {place : TypePlace} {id : TypeId}
    (has : table.HasType place id) : ∃ type, table.type? id = some type := by
  obtain ⟨assemblyId, assembly, found, _, inside⟩ := has
  obtain ⟨type, foundType, _⟩ := laid.type found (List.mem_of_getElem? inside)
  exact ⟨type, foundType⟩

/-! ## Members -/

/-- A member stands at a place. -/
def HasMember (table : SymbolTable) (place : MemberPlace) (id : MemberId) : Prop :=
  ∃ typeId type head, table.HasType place.type typeId ∧ table.type? typeId = some type ∧
    type.members[place.position]? = some head ∧ table.clauseAt? head place.clause = some id

theorem memberAt?_iff (distinct : table.DistinctNames) {place : MemberPlace} {id : MemberId} :
    table.memberAt? place = some id ↔ table.HasMember place id := by
  constructor
  · intro at'
    obtain ⟨typeId, typeAt, rest⟩ := Option.bind_eq_some_iff.mp at'
    obtain ⟨type, found, rest⟩ := Option.bind_eq_some_iff.mp rest
    obtain ⟨head, inside, clause⟩ := Option.bind_eq_some_iff.mp rest
    exact ⟨typeId, type, head, (typeAt?_iff distinct).mp typeAt, found, inside, clause⟩
  · rintro ⟨typeId, type, head, has, found, inside, clause⟩
    refine Option.bind_eq_some_iff.mpr ⟨typeId, (typeAt?_iff distinct).mpr has, ?_⟩
    refine Option.bind_eq_some_iff.mpr ⟨type, found, ?_⟩
    exact Option.bind_eq_some_iff.mpr ⟨head, inside, clause⟩

theorem memberPlace?_iff (laid : table.Laid) {place : MemberPlace} {id : MemberId} :
    table.memberPlace? id = some place ↔ table.HasMember place id := by
  constructor
  · intro placed
    obtain ⟨member, found, rest⟩ := Option.bind_eq_some_iff.mp placed
    obtain ⟨type, foundType, rest⟩ := Option.bind_eq_some_iff.mp rest
    obtain ⟨typePlace, placedType, rest⟩ := Option.bind_eq_some_iff.mp rest
    obtain ⟨position, listed, same⟩ := Option.bind_eq_some_iff.mp rest
    cases same
    have inside := (idxOf?_eq_some_iff_getElem? (laid.members_nodup foundType)).mp listed
    refine ⟨member.owner, type, _, (typePlace?_iff laid).mp placedType, foundType, inside, ?_⟩
    cases clause : member.clause? with
    | none => simp [clauseAt?, MemberSymbol.clauseKind?, clause]
    | some entry =>
      obtain ⟨kind, parentId⟩ := entry
      obtain ⟨parent, foundParent, _, _, has⟩ := laid.clause found clause
      simp only [MemberSymbol.clauseKind?, clause, Option.map_some, Option.getD_some, clauseAt?,
        foundParent, Option.bind_some, has]
  · rintro ⟨typeId, type, head, has, foundType, inside, clause⟩
    obtain ⟨member, foundHead, own, noClause⟩ := laid.head foundType (List.mem_of_getElem? inside)
    have listed := (idxOf?_eq_some_iff_getElem? (laid.members_nodup foundType)).mpr inside
    have placed := (typePlace?_iff laid).mpr has
    cases kind : place.clause with
    | none =>
      rw [kind, clauseAt?, Option.some.injEq] at clause
      subst clause
      refine Option.bind_eq_some_iff.mpr ⟨member, foundHead, ?_⟩
      refine Option.bind_eq_some_iff.mpr ⟨type, own ▸ foundType, ?_⟩
      refine Option.bind_eq_some_iff.mpr ⟨place.type, own ▸ placed, ?_⟩
      refine Option.bind_eq_some_iff.mpr ⟨place.position, ?_, ?_⟩
      · rw [noClause]
        exact listed
      · rw [MemberSymbol.clauseKind?, noClause, Option.map_none, ← kind]
        rfl
    | some kindOf =>
      rw [kind, clauseAt?_accessor foundHead] at clause
      obtain ⟨accessor, foundAccessor, isClause, ownAccessor⟩ := laid.accessor foundHead clause
      have owner : accessor.owner = typeId := ownAccessor.trans own
      refine Option.bind_eq_some_iff.mpr ⟨accessor, foundAccessor, ?_⟩
      refine Option.bind_eq_some_iff.mpr ⟨type, owner ▸ foundType, ?_⟩
      refine Option.bind_eq_some_iff.mpr ⟨place.type, owner ▸ placed, ?_⟩
      refine Option.bind_eq_some_iff.mpr ⟨place.position, ?_, ?_⟩
      · rw [isClause]
        exact listed
      · rw [MemberSymbol.clauseKind?, isClause, Option.map_some, ← kind]
        rfl

theorem HasMember.member? (laid : table.Laid) {place : MemberPlace} {id : MemberId}
    (has : table.HasMember place id) : ∃ member, table.member? id = some member := by
  obtain ⟨member, found, _⟩ := Option.bind_eq_some_iff.mp ((memberPlace?_iff laid).mpr has)
  exact ⟨member, found⟩

/-- One place holds one member. -/
theorem HasMember.unique (distinct : table.DistinctNames) {place : MemberPlace}
    {first second : MemberId} (one : table.HasMember place first)
    (two : table.HasMember place second) : first = second := by
  rw [← memberAt?_iff distinct] at one two
  exact Option.some.inj (one.symm.trans two)

/-- One member stands at one place. -/
theorem HasMember.place_unique (laid : table.Laid) {first second : MemberPlace} {id : MemberId}
    (one : table.HasMember first id) (two : table.HasMember second id) : first = second := by
  rw [← memberPlace?_iff laid] at one two
  exact Option.some.inj (one.symm.trans two)

end SymbolTable

end Conformance
