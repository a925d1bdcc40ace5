import Conformance.Proofs.Binding.Assembly

/-!
What binding an assembly leaves behind.

Binding keeps a symbol table well-formed and changes no symbol that was there.
The types of the new assembly can be read off the declaration: their links are
what names mean, none of them comes back to its type, and their members are the
blocks of the members declared (`SymbolTable.bind_bound`).
-/

namespace Conformance

namespace SymbolTable

variable {table : SymbolTable} {decl : AssemblyDecl} {references : List AssemblyId}
  {mode : BindMode}

/-! ## What the members of an assembly are -/

theorem Closed.populating_added (closed : table.Closed) :
    AllMembersAdded mode (table.typeEntries decl)
      ((table.untangling decl references mode).table, [])
      (table.populating decl references mode) := by
  refine foldl_bindMembers_added mode ?_ _ fun entry listed => ?_
  · rw [map_fst_typeEntries]
    exact nodup_typeIds _ _
  · obtain ⟨position, declared, own⟩ := mem_typeEntries.mp listed
    obtain ⟨type, found, _⟩ :=
      closed.untangling_keeps.trims.type? (type?_inheriting_new declared)
    exact ⟨type, own ▸ found⟩

theorem WellFormed.populating_added (wellFormed : table.WellFormed) :
    AllMembersAdded mode (table.typeEntries decl)
      ((table.untangling decl references mode).table, [])
      (table.populating decl references mode) :=
  wellFormed.closed.populating_added

/-- What is reported of the members of an assembly depends on its declaration only. -/
theorem Closed.populating_diagnostics (closed : table.Closed) :
    (table.populating decl references mode).2 = decl.types.flatMap fun typeDecl =>
      typeDecl.members.flatMap fun member =>
        (member.bind (declaredScope mode typeDecl ⟨0⟩) ⟨0⟩).diagnostics := by
  rw [populating, foldl_bindMembers_diagnostics, List.nil_append,
    ← map_snd_typeEntries table decl, List.flatMap_map]
  intro entry listed
  obtain ⟨position, declared, own⟩ := mem_typeEntries.mp listed
  obtain ⟨type, found, trimmed⟩ :=
    closed.untangling_keeps.trims.type? (type?_inheriting_new declared)
  refine ⟨type, own ▸ found, ?_⟩
  rw [trimmed.rest]
  rfl

/-- The symbols of a block stand in a table, from the id of its member on, each
with the target that it has as seen from an assembly. -/
def Carries (table : SymbolTable) (assembly : AssemblyId) (id : MemberId) (block : MemberBlock) :
    Prop :=
  ∀ position symbol, block.symbols[position]? = some symbol →
    table.member? ⟨id.index + position⟩ =
      some { symbol with target := table.expectedTarget? assembly symbol }

/-- A type is bound from a declaration: it has the name and kind of the
declaration, names mean its links, and its members are made of those declared. -/
structure BoundType (table : SymbolTable) (assembly : AssemblyId) (mode : BindMode)
    (decl : TypeDecl) (id : TypeId) (type : TypeSymbol) : Prop where
  shell : type = { SymbolTable.shell assembly decl with
    base := type.base, interfaces := type.interfaces, members := type.members }
  links : ∀ {link}, type.base = some link ∨ link ∈ type.interfaces →
    ∃ symbol, table.type? link = some symbol ∧
      table.typeSeenFrom? assembly symbol.name = some link
  untangled : table.Untangled id
  members : List.Forall₂ (fun member (decl : MemberDecl) =>
    table.Carries assembly member (decl.bind (memberScope mode id type) member)) type.members
    decl.members

/-- What binding a declaration leaves behind. -/
structure Bound (table : SymbolTable) (decl : AssemblyDecl) (references : List AssemblyId)
    (mode : BindMode) (binding : Binding) : Prop where
  wellFormed : binding.table.WellFormed
  grown : table.Extends binding.table
  assembly : binding.assembly = table.nextAssembly
  symbol : binding.table.assembly? binding.assembly = some
    { name := decl.name
      coreLibrary := decl.coreLibrary
      references
      isMetadata := mode.isMetadata
      types := typeIds table.types.size decl.types.length }
  others : ∀ {id symbol}, binding.table.assembly? id = some symbol →
    id ≠ binding.assembly → table.assembly? id = some symbol
  types : ∀ {position typeDecl}, decl.types[position]? = some typeDecl → ∃ type,
    binding.table.type? ⟨table.types.size + position⟩ = some type ∧
      BoundType binding.table binding.assembly mode typeDecl ⟨table.types.size + position⟩ type
  /-- What is wrong with members is reported, unless they come from metadata. -/
  reported : mode.isMetadata = false → ∀ {position typeDecl type},
    decl.types[position]? = some typeDecl →
      binding.table.type? ⟨table.types.size + position⟩ = some type →
        List.Forall₂ (fun member (decl : MemberDecl) =>
          (decl.bind (memberScope mode ⟨table.types.size + position⟩ type) member).diagnostics ⊆
            binding.diagnostics) type.members typeDecl.members

/-! ## Links do not depend on members -/

/-- Members aside, the types of one table are those of another, and assemblies
are the same. -/
structure SameButMembers (before after : SymbolTable) : Prop where
  assemblies : after.assemblies = before.assemblies
  types : ∀ id, Option.Rel (fun a b : TypeSymbol => b = { a with members := b.members })
    (before.type? id) (after.type? id)

namespace SameButMembers

variable {before after : SymbolTable} (same : before.SameButMembers after)

include same

theorem type? {id : TypeId} {type : TypeSymbol} (found : before.type? id = some type) :
    ∃ other, after.type? id = some other ∧ other = { type with members := other.members } :=
  exists_of_rel_some (same.types id) found

theorem type?_of_after {id : TypeId} {type : TypeSymbol} (found : after.type? id = some type) :
    ∃ other, before.type? id = some other ∧ type = { other with members := type.members } :=
  exists_of_rel_some_right (same.types id) found

theorem basesReach (target : TypeId) (steps : Nat) (id : TypeId) :
    after.basesReach target steps id = before.basesReach target steps id := by
  induction steps generalizing id with
  | zero => rfl
  | succ steps ih =>
    have related := same.types id
    unfold SymbolTable.basesReach
    generalize before.type? id = start at related ⊢
    generalize after.type? id = stop at related ⊢
    cases related with
    | none => rfl
    | @some a b rest =>
      rw [rest]
      simp only [ih]

theorem reaches {id other : TypeId} (path : Relation.ReflTransGen after.Lists id other) :
    Relation.ReflTransGen before.Lists id other := by
  refine Relation.ReflTransGen.mono (fun start stop lists => ?_) _ _ path
  obtain ⟨type, found, listed⟩ := lists
  obtain ⟨original, foundBefore, rest⟩ := same.type?_of_after found
  rw [rest] at listed
  exact ⟨original, foundBefore, listed⟩

theorem untangled {id : TypeId} (untangled : before.Untangled id) : after.Untangled id where
  base type base found known := by
    obtain ⟨original, foundBefore, rest⟩ := same.type?_of_after found
    rw [rest] at known
    rw [same.basesReach]
    exact untangled.base original base foundBefore known
  interfaces type found isInterface other listed path := by
    obtain ⟨original, foundBefore, rest⟩ := same.type?_of_after found
    rw [rest] at listed isInterface
    exact untangled.interfaces original foundBefore isInterface other listed (same.reaches path)

end SameButMembers

theorem Closed.sameButMembers_populating (closed : table.Closed) :
    (table.untangling decl references mode).table.SameButMembers
      (table.populating decl references mode).1 := by
  have added : AllMembersAdded mode (table.typeEntries decl)
    ((table.untangling decl references mode).table, [])
    (table.populating decl references mode) := closed.populating_added
  refine ⟨added.assemblies, fun id => ?_⟩
  by_cases new : id ∈ (table.typeEntries decl).map Prod.fst
  · obtain ⟨entry, listed, rfl⟩ := List.mem_map.mp new
    obtain ⟨position, declared, own⟩ := mem_typeEntries.mp listed
    obtain ⟨type, found, _⟩ :=
      closed.untangling_keeps.trims.type? (type?_inheriting_new declared)
    obtain ⟨ids, foundAfter, _⟩ := added.types entry listed type (own ▸ found)
    rw [own] at foundAfter ⊢
    rw [found, foundAfter]
    exact .some rfl
  · rw [added.others id new]
    cases (table.untangling decl references mode).table.type? id with
    | none => exact .none
    | some type => exact .some rfl

theorem Closed.sameButMembers_targeting (closed : table.Closed) :
    (table.untangling decl references mode).table.SameButMembers
      (table.targeting decl references mode) := by
  have populated : (table.untangling decl references mode).table.SameButMembers
    (table.populating decl references mode).1 := closed.sameButMembers_populating
  have same : (table.populating decl references mode).1.SameButTargets
    (table.targeting decl references mode) := sameButTargets_targeting
  refine ⟨same.assemblies.trans populated.assemblies, fun id => ?_⟩
  rw [same.type?]
  exact populated.types id

theorem WellFormed.sameButMembers_targeting (wellFormed : table.WellFormed) :
    (table.untangling decl references mode).table.SameButMembers
      (table.targeting decl references mode) :=
  wellFormed.closed.sameButMembers_targeting

/-! ## Names -/

/-- What names mean depends on the assemblies and on the names of types only. -/
theorem typeSeenFrom?_congr {before after : SymbolTable}
    (assemblies : ∀ id, after.assembly? id = before.assembly? id)
    (names : ∀ id, (after.type? id).map TypeSymbol.name = (before.type? id).map TypeSymbol.name)
    (assembly : AssemblyId) (name : String) :
    after.typeSeenFrom? assembly name = before.typeSeenFrom? assembly name := by
  have named (id : TypeId) : ((after.type? id).any fun type => decide (type.name = name)) =
      (before.type? id).any fun type => decide (type.name = name) := by
    have same := congrArg (Option.any fun other => decide (other = name)) (names id)
    rwa [Option.any_map, Option.any_map] at same
  simp only [typeSeenFrom?, typeIn?, typesOf, assemblies, named]

/-- Links aside, the table at the end has the types that were declared. -/
theorem WellFormed.type?_targeting (wellFormed : table.WellFormed) {id : TypeId}
    {type : TypeSymbol} (found : (table.declaring decl references mode).type? id = some type) :
    ∃ other, (table.targeting decl references mode).type? id = some other ∧ other =
      { type with base := other.base, interfaces := other.interfaces, members := other.members } := by
  obtain ⟨linked, foundLinked, rest⟩ := sameButLinks_inheriting.type? found
  obtain ⟨cut, foundCut, trimmed⟩ := wellFormed.untangling_keeps.trims.type? foundLinked
  obtain ⟨last, foundLast, same⟩ := wellFormed.sameButMembers_targeting.type? foundCut
  refine ⟨last, foundLast, ?_⟩
  rw [same, trimmed.rest, rest]

theorem WellFormed.type?_targeting_of_after (wellFormed : table.WellFormed) {id : TypeId}
    {type : TypeSymbol} (found : (table.targeting decl references mode).type? id = some type) :
    ∃ original, (table.declaring decl references mode).type? id = some original := by
  obtain ⟨cut, foundCut, _⟩ := wellFormed.sameButMembers_targeting.type?_of_after found
  obtain ⟨linked, foundLinked, _⟩ := wellFormed.untangling_keeps.trims.type?_of_after foundCut
  obtain ⟨original, foundOriginal, _⟩ := sameButLinks_inheriting.type?_of_after foundLinked
  exact ⟨original, foundOriginal⟩

theorem WellFormed.assembly?_targeting (wellFormed : table.WellFormed) (id : AssemblyId) :
    (table.targeting decl references mode).assembly? id =
      (table.declaring decl references mode).assembly? id := by
  have members : (table.untangling decl references mode).table.SameButMembers
    (table.targeting decl references mode) := wellFormed.sameButMembers_targeting
  have cut : (table.inheriting decl references mode).Trims
    (table.untangling decl references mode).table := wellFormed.untangling_keeps.trims
  have links : (table.declaring decl references mode).SameButLinks
    (table.inheriting decl references mode) := sameButLinks_inheriting
  rw [assembly?, members.assemblies, cut.assemblies, links.assemblies, assembly?]

theorem WellFormed.typeSeenFrom?_targeting (wellFormed : table.WellFormed)
    (assembly : AssemblyId) (name : String) :
    (table.targeting decl references mode).typeSeenFrom? assembly name =
      (table.declaring decl references mode).typeSeenFrom? assembly name := by
  refine typeSeenFrom?_congr wellFormed.assembly?_targeting (fun id => ?_) assembly name
  cases found : (table.declaring decl references mode).type? id with
  | some type =>
    obtain ⟨other, foundOther, rest⟩ := wellFormed.type?_targeting found
    rw [foundOther, rest]
    rfl
  | none =>
    cases last : (table.targeting decl references mode).type? id with
    | none => rfl
    | some type =>
      obtain ⟨original, known⟩ := wellFormed.type?_targeting_of_after last
      rw [found] at known
      cases known

/-- A type that was there is not touched. -/
theorem WellFormed.type?_targeting_of_some (wellFormed : table.WellFormed) {id : TypeId}
    {type : TypeSymbol} (found : table.type? id = some type) :
    (table.targeting decl references mode).type? id = some type := by
  have inside := lt_of_type? found
  have old : id ∉ typeIds table.types.size decl.types.length := by
    rw [mem_typeIds]
    omega
  have added : AllMembersAdded mode (table.typeEntries decl)
    ((table.untangling decl references mode).table, [])
    (table.populating decl references mode) := wellFormed.populating_added
  have same : (table.populating decl references mode).1.SameButTargets
    (table.targeting decl references mode) := sameButTargets_targeting
  rw [same.type?, added.others id (map_fst_typeEntries ▸ old),
    wellFormed.untangling_keeps.others id old]
  exact type?_inheriting_of_some found

theorem WellFormed.member?_populating_of_some (wellFormed : table.WellFormed) {id : MemberId}
    {member : MemberSymbol} (found : table.member? id = some member) :
    (table.populating decl references mode).1.member? id = some member := by
  have added : AllMembersAdded mode (table.typeEntries decl)
    ((table.untangling decl references mode).table, [])
    (table.populating decl references mode) := wellFormed.populating_added
  refine added.members ?_
  rw [wellFormed.untangling_keeps.trims.member?, sameButLinks_inheriting.member?,
    member?_declaring]
  exact found

/-- A table is extended by binding. -/
theorem WellFormed.extends_targeting (wellFormed : table.WellFormed) :
    table.Extends (table.targeting decl references mode) where
  assembly {id symbol} found := by
    rw [wellFormed.assembly?_targeting]
    exact assembly?_declaring_of_some found
  type found := wellFormed.type?_targeting_of_some found
  member {id member} found := by
    rw [wellFormed.member?_targeting (wellFormed.member?_populating_of_some found), if_neg ?_]
    obtain ⟨type, foundType⟩ := wellFormed.closed.owner found
    have inside := lt_of_type? foundType
    rw [mem_typeIds]
    omega

/-! ## The types of the new assembly -/

/-- What names mean are the links of the types that are bound. -/
theorem WellFormed.links_targeting (wellFormed : table.WellFormed) {position : Nat}
    {typeDecl : TypeDecl} (declared : decl.types[position]? = some typeDecl) {type : TypeSymbol}
    (found : (table.targeting decl references mode).type? ⟨table.types.size + position⟩ =
      some type) {link : TypeId} (linked : type.base = some link ∨ link ∈ type.interfaces) :
    ∃ symbol, (table.targeting decl references mode).type? link = some symbol ∧
      (table.targeting decl references mode).typeSeenFrom? table.nextAssembly symbol.name =
        some link := by
  obtain ⟨cut, foundCut, same⟩ := wellFormed.sameButMembers_targeting.type?_of_after found
  obtain ⟨original, foundOriginal, trimmed⟩ :=
    wellFormed.untangling_keeps.trims.type?_of_after foundCut
  rw [type?_inheriting_new declared] at foundOriginal
  cases foundOriginal
  have named := typeDecl.bindHeritage_named
    ((table.declaring decl references mode).resolve? table.nextAssembly)
  have resolved : ∃ name symbol, (table.declaring decl references mode).resolve?
      table.nextAssembly name = some (link, symbol) := by
    rw [same] at linked
    rcases linked with base | listed
    · rcases trimmed.base with none | kept
      · rw [none] at base
        cases base
      · obtain ⟨_, name, symbol, resolved, _⟩ := named.base (kept ▸ base)
        exact ⟨name, symbol, resolved⟩
    · obtain ⟨name, symbol, resolved, _⟩ := named.interfaces (trimmed.interfaces.subset listed)
      exact ⟨name, symbol, resolved⟩
  obtain ⟨name, symbol, resolved⟩ := resolved
  obtain ⟨seen, foundLink, sameName⟩ := resolve?_some resolved
  obtain ⟨image, foundImage, rest⟩ := wellFormed.type?_targeting foundLink
  refine ⟨image, foundImage, ?_⟩
  rw [wellFormed.typeSeenFrom?_targeting, rest]
  exact sameName ▸ seen

/-- If no link comes back to its type, none is taken out: the types that are
bound have the heritages of their declarations. -/
theorem WellFormed.heritage_targeting (wellFormed : table.WellFormed)
    (untangled : ∀ id ∈ typeIds table.types.size decl.types.length,
      (table.inheriting decl references mode).Untangled id)
    {position : Nat} {typeDecl : TypeDecl} (declared : decl.types[position]? = some typeDecl)
    {type : TypeSymbol}
    (found : (table.targeting decl references mode).type? ⟨table.types.size + position⟩ =
      some type) :
    type = { (typeDecl.bindHeritage ((table.declaring decl references mode).resolve?
      table.nextAssembly)).enter (shell table.nextAssembly typeDecl) with
        members := type.members } := by
  have idle : (table.untangling decl references mode).table =
      table.inheriting decl references mode := by
    rw [SymbolTable.untangling, breakCycles_idle wellFormed.inheriting.closed untangled]
  obtain ⟨cut, foundCut, same⟩ := wellFormed.sameButMembers_targeting.type?_of_after found
  rw [idle, type?_inheriting_new declared] at foundCut
  cases foundCut
  exact same

/-- The members of the types that are bound are made of those declared. -/
theorem WellFormed.members_targeting (wellFormed : table.WellFormed) {position : Nat}
    {typeDecl : TypeDecl} (declared : decl.types[position]? = some typeDecl) {type : TypeSymbol}
    (found : (table.targeting decl references mode).type? ⟨table.types.size + position⟩ =
      some type) :
    List.Forall₂ (fun member (decl' : MemberDecl) =>
      (table.targeting decl references mode).Carries table.nextAssembly member
        (decl'.bind (memberScope mode ⟨table.types.size + position⟩ type) member) ∧
      (decl'.bind (memberScope mode ⟨table.types.size + position⟩ type) member).diagnostics ⊆
        (table.populating decl references mode).2) type.members typeDecl.members := by
  have added : AllMembersAdded mode (table.typeEntries decl)
    ((table.untangling decl references mode).table, [])
    (table.populating decl references mode) := wellFormed.populating_added
  have same : (table.populating decl references mode).1.SameButTargets
    (table.targeting decl references mode) := sameButTargets_targeting
  have entry : (⟨table.types.size + position⟩, typeDecl) ∈ table.typeEntries decl :=
    mem_typeEntries.mpr ⟨position, declared, rfl⟩
  obtain ⟨cut, foundCut, trimmed⟩ :=
    wellFormed.untangling_keeps.trims.type? (type?_inheriting_new declared)
  obtain ⟨ids, foundType, blocks⟩ := added.types _ entry cut foundCut
  rw [same.type?, foundType] at found
  cases found
  have empty : cut.members = [] := by
    rw [trimmed.rest]
    rfl
  rw [empty, List.nil_append]
  refine blocks.imp fun id decl' facts => ⟨fun place symbol held => ?_, facts.2⟩
  have made : symbol.owner = ⟨table.types.size + position⟩ ∧ symbol.target = none := by
    rcases MemberBlock.symbols_cases held with ⟨_, rfl⟩ | ⟨earlier, _, listed⟩
    · exact ⟨rfl, rfl⟩
    · obtain ⟨_, _, _, own, none, _⟩ := decl'.bind_accessor _ _ listed
      exact ⟨own, none⟩
  have inside : symbol.owner ∈ typeIds table.types.size decl.types.length := by
    obtain ⟨below, _⟩ := List.getElem?_eq_some_iff.mp declared
    rw [made.1]
    exact add_mem_typeIds below
  have expected := same.expectedTarget? table.nextAssembly symbol symbol.target
  rw [wellFormed.member?_targeting (facts.1 place symbol held), if_pos inside, made.2,
    Option.or_none, ← expected]

/-- Binding a declaration leaves behind what it should. -/
theorem bind_bound (wellFormed : table.WellFormed) (decl : AssemblyDecl)
    (references : List AssemblyId) (mode : BindMode) :
    Bound table decl references mode (table.bind decl references mode) := by
  have untangled : ∀ id ∈ typeIds table.types.size decl.types.length,
      (table.untangling decl references mode).table.Untangled id :=
    (breakCycles_untangled wellFormed.inheriting.closed _).2
  have noFault : (table.untangling decl references mode).fault? = none :=
    wellFormed.untangling_keeps.fault
  rw [bind_eq noFault]
  refine ⟨wellFormed.targeting, wellFormed.extends_targeting, rfl, ?_, ?_, ?_, ?_⟩
  · show (table.targeting decl references mode).assembly? table.nextAssembly = _
    rw [wellFormed.assembly?_targeting, assembly?_declaring, if_pos rfl]
  · intro id symbol found apart
    rw [wellFormed.assembly?_targeting, assembly?_declaring, if_neg apart] at found
    exact found
  · intro position typeDecl declared
    have shell : (table.declaring decl references mode).type? _ = some _ :=
      type?_declaring_new declared
    obtain ⟨type, found, rest⟩ := wellFormed.type?_targeting shell
    obtain ⟨below, _⟩ := List.getElem?_eq_some_iff.mp declared
    refine ⟨type, found, rest, fun linked => wellFormed.links_targeting declared found linked,
      wellFormed.sameButMembers_targeting.untangled (untangled _ (mem_typeIds.mpr
        ⟨Nat.le_add_right .., Nat.add_lt_add_left below _⟩)), ?_⟩
    exact (wellFormed.members_targeting declared found).imp fun member decl' facts => facts.1
  · intro source position typeDecl type declared found
    refine (wellFormed.members_targeting declared found).imp fun member decl' facts => ?_
    intro diagnostic inside
    have kept := facts.2 inside
    simp only [BindMode.reported, source, Bool.false_eq_true, if_false, List.mem_append]
    exact .inl (.inr kept)

/-- What binding leaves behind is the table of its last phase. -/
theorem WellFormed.bound_targeting (wellFormed : table.WellFormed) (decl : AssemblyDecl)
    (references : List AssemblyId) (mode : BindMode) :
    Bound table decl references mode
      { table := table.targeting decl references mode
        assembly := table.nextAssembly
        types := typeIds table.types.size decl.types.length
        diagnostics := (table.bind decl references mode).diagnostics } := by
  have bound := bind_bound wellFormed decl references mode
  rw [bind_eq wellFormed.untangling_keeps.fault] at bound ⊢
  exact bound

/-- The types of a new assembly are bound from those that are declared. -/
theorem Bound.exists_decl {decl : AssemblyDecl} {references : List AssemblyId} {mode : BindMode}
    {binding : Binding} (bound : Bound table decl references mode binding) {id : TypeId}
    {type : TypeSymbol} (found : binding.table.type? id = some type)
    (own : type.assembly = binding.assembly) :
    ∃ (position : Nat) (typeDecl : TypeDecl), decl.types[position]? = some typeDecl ∧
      BoundType binding.table binding.assembly mode typeDecl id type := by
  rcases bound.wellFormed.laid.assembly found with ⟨symbol, foundAssembly, listed⟩
  rw [own, bound.symbol] at foundAssembly
  cases foundAssembly
  rcases mem_typeIds.mp listed with ⟨above, below⟩
  have inside : id.index - table.types.size < decl.types.length := by omega
  rcases bound.types (List.getElem?_eq_getElem inside) with ⟨_, foundAgain, bindsType⟩
  rw [Nat.add_sub_cancel' above] at foundAgain bindsType
  cases found.symm.trans foundAgain
  exact ⟨_, _, List.getElem?_eq_getElem inside, bindsType⟩

/-- A type was there, or is one of the new assembly. -/
theorem Bound.type_cases {decl : AssemblyDecl} {references : List AssemblyId} {mode : BindMode}
    {binding : Binding} (bound : Bound table decl references mode binding) (laid : table.Laid)
    {id : TypeId} {type : TypeSymbol} (found : binding.table.type? id = some type) :
    table.type? id = some type ∨ type.assembly = binding.assembly := by
  by_cases own : type.assembly = binding.assembly
  · exact .inr own
  · obtain ⟨assembly, foundAssembly, listed⟩ := bound.wellFormed.laid.assembly found
    obtain ⟨original, known, _⟩ := laid.type (bound.others foundAssembly own) listed
    cases found.symm.trans (bound.grown.type known)
    exact .inl known

/-! ## Tables that are made by binding -/

/-- A table that is made by binding declarations one after another, each against
whatever assemblies. -/
inductive Made : SymbolTable → Prop where
  | empty : Made ∅
  | bind {table : SymbolTable} (made : Made table) (decl : AssemblyDecl)
    (references : List AssemblyId) (mode : BindMode) :
    Made (table.bind decl references mode).table

/-- Binding makes well-formed tables only. -/
theorem Made.wellFormed {table : SymbolTable} (made : Made table) : table.WellFormed := by
  induction made with
  | empty => exact wellFormed_empty
  | bind _ decl references mode ih => exact (bind_bound ih decl references mode).wellFormed

end SymbolTable

end Conformance
