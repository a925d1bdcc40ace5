import Conformance.Proofs.Binding.Blocks
import Conformance.Proofs.Binding.Export
import Conformance.Proofs.Resolution.Flattening

/-!
The invariant of symbol tables.

A table that is bound from declarations, one after another and each against assemblies
that are there (`SymbolTable.BoundFrom`), stores no id that leads nowhere, and symbols
refer to each other as they should (`SymbolTable.Intact`). It holds what was declared, in
the order of the declarations (`SymbolTable.Represents`). So no look-up in it goes wrong
(`SymbolTable.Safe`).
-/

namespace Conformance

namespace SymbolTable

/-- Tables that are bound from declarations, listed in their order, each against assemblies
that are there. -/
inductive BoundFrom : List AssemblyDecl → SymbolTable → Prop where
  | empty : BoundFrom [] ∅
  | bind {decls : List AssemblyDecl} {table : SymbolTable} (earlier : BoundFrom decls table)
    (decl : AssemblyDecl) {references : List AssemblyId} (mode : BindMode)
    (known : ∀ reference ∈ references, ∃ symbol, table.assembly? reference = some symbol) :
    BoundFrom (decls ++ [decl]) (table.bind decl references mode).table

theorem BoundFrom.wellFormed {decls : List AssemblyDecl} {table : SymbolTable}
    (bound : BoundFrom decls table) : table.WellFormed := by
  induction bound with
  | empty => exact wellFormed_empty
  | bind _ decl mode _ ih => exact (bind_bound ih decl _ mode).wellFormed

theorem BoundFrom.traced {decls : List AssemblyDecl} {table : SymbolTable}
    (bound : BoundFrom decls table) : table.Traced := by
  induction bound with
  | empty => exact traced_empty
  | bind earlier decl mode known ih =>
    intro id assembly found
    exact Traced.bind ih earlier.wellFormed decl mode known found

/-! ## Ids -/

/-- An assembly references assemblies that stand before it, and lists types of its own. -/
structure IntactAssembly (table : SymbolTable) (id : AssemblyId) (assembly : AssemblySymbol) :
    Prop where
  references : ∀ reference ∈ assembly.references, reference.index < id.index ∧
    ∃ symbol, table.assembly? reference = some symbol
  types : ∀ typeId ∈ assembly.types, ∃ type, table.type? typeId = some type ∧ type.assembly = id
  nodup : assembly.types.Nodup

/-- A type is listed in its assembly, inherits from types of the right kinds, and lists members
of its own that are no accessors. -/
structure IntactType (table : SymbolTable) (id : TypeId) (type : TypeSymbol) : Prop where
  assembly : ∃ symbol, table.assembly? type.assembly = some symbol ∧ id ∈ symbol.types
  base : ∀ base, type.base = some base → type.kind = .classType ∧
    ∃ symbol, table.type? base = some symbol ∧ symbol.kind = .classType
  interfaces : ∀ interface ∈ type.interfaces, ∃ symbol,
    table.type? interface = some symbol ∧ symbol.kind = .interfaceType
  interfaces_nodup : type.interfaces.Nodup
  members : ∀ member ∈ type.members, ∃ symbol, table.member? member = some symbol ∧
    symbol.owner = id ∧ symbol.clause? = none
  members_nodup : type.members.Nodup

/-- A member has accessors of its own, and is bound to what it names. -/
structure IntactMember (table : SymbolTable) (id : MemberId) (member : MemberSymbol) : Prop where
  owner : ∃ type, table.type? member.owner = some type ∧
    (member.clause? = none → id ∈ type.members)
  accessor : ∀ kind accessorId, member.accessor? kind = some accessorId → ∃ accessor,
    table.member? accessorId = some accessor ∧ accessor.clause? = some (kind, id) ∧
      accessor.owner = member.owner ∧ accessor.explicitInterface = member.explicitInterface ∧
      accessor.modifiers.isStatic = member.modifiers.isStatic
  parent : ∀ kind parentId, member.clause? = some (kind, parentId) → ∃ parent,
    table.member? parentId = some parent ∧ parent.clause? = none ∧
      parent.accessor? kind = some id
  /-- Only members that name an interface have a target. -/
  explicit : ∀ target, member.target = some target → member.isExplicit = true
  /-- The target of a member that is no accessor. -/
  target : ∀ target, member.clause? = none → member.target = some target → ∃ interface image,
    table.type? target.interface = some interface ∧ interface.kind = .interfaceType ∧
      table.member? target.member = some image ∧ image.owner = target.interface ∧
      table.isExplicitCandidate image = true ∧ member.matchesSignature image = true
  /-- The target of an accessor. -/
  clauseTarget : ∀ kind parentId target, member.clause? = some (kind, parentId) →
    member.target = some target → ∃ parent above image accessor,
      table.member? parentId = some parent ∧ parent.target = some above ∧
        target.interface = above.interface ∧ table.member? above.member = some image ∧
        image.accessor? kind = some target.member ∧
        table.member? target.member = some accessor

/-- No symbol of a table leads nowhere, or to symbols of a wrong kind. -/
structure Intact (table : SymbolTable) : Prop where
  assembly : ∀ {id assembly}, table.assembly? id = some assembly → table.IntactAssembly id assembly
  type : ∀ {id type}, table.type? id = some type → table.IntactType id type
  member : ∀ {id member}, table.member? id = some member → table.IntactMember id member

section

variable {table : SymbolTable} (traced : table.Traced) (wellFormed : table.WellFormed)

include traced wellFormed

/-- An accessor names the interface that its member names, and is static if its member is. -/
theorem Traced.accessor_shares {id accessorId : MemberId} {member accessor : MemberSymbol}
    {kind : AccessorKind} (found : table.member? id = some member)
    (has : member.accessor? kind = some accessorId)
    (foundAccessor : table.member? accessorId = some accessor) :
    accessor.explicitInterface = member.explicitInterface ∧
      accessor.modifiers.isStatic = member.modifiers.isStatic := by
  obtain ⟨isClause, _⟩ := wellFormed.laid.of_accessor found has foundAccessor
  obtain ⟨_, decl, scope, _, _, carries, clause, _, rfl⟩ :=
    traced.clause wellFormed.laid foundAccessor isClause
  rw [carries.head] at found
  cases found
  exact ⟨rfl, decl.isStatic_clauseSymbol scope id clause⟩

theorem Traced.intactMember {id : MemberId} {member : MemberSymbol}
    (found : table.member? id = some member) : table.IntactMember id member := by
  have laid := wellFormed.laid
  refine ⟨?_, ?_, ?_, ?_, ?_, ?_⟩
  · cases clause : member.clause? with
    | none =>
      obtain ⟨type, foundType, listed⟩ := laid.listed found clause
      exact ⟨type, foundType, fun _ => listed⟩
    | some entry =>
      obtain ⟨type, foundType⟩ := wellFormed.closed.owner found
      exact ⟨type, foundType, nofun⟩
  · intro kind accessorId has
    obtain ⟨accessor, foundAccessor, isClause, owner⟩ := laid.accessor found has
    exact ⟨accessor, foundAccessor, isClause, owner,
      traced.accessor_shares wellFormed found has foundAccessor⟩
  · intro kind parentId isClause
    obtain ⟨parent, foundParent, noClause, _, has⟩ := laid.clause found isClause
    exact ⟨parent, foundParent, noClause, has⟩
  · intro target bound
    cases clause : member.clause? with
    | none => exact wellFormed.targeted.explicit found clause bound
    | some entry =>
      obtain ⟨kind, parentId⟩ := entry
      obtain ⟨parent, foundParent, noClause, _, has⟩ := laid.clause found clause
      rw [traced.clauseTarget laid found clause foundParent] at bound
      obtain ⟨above, boundParent, _⟩ := Option.bind_eq_some_iff.mp bound
      have named := wellFormed.targeted.explicit foundParent noClause boundParent
      rw [MemberSymbol.isExplicit, (traced.accessor_shares wellFormed foundParent has found).1]
      exact named
  · intro target noClause bound
    obtain ⟨type, foundType, _⟩ := laid.listed found noClause
    rw [traced.target laid found noClause foundType] at bound
    obtain ⟨_, interface, image, _, resolved, isInterface, explicit⟩ := boundTarget?_some bound
    obtain ⟨_, foundInterface, _⟩ := resolve?_some resolved
    obtain ⟨listed, foundImage, candidate, fits⟩ := explicitTarget?_some explicit
    exact ⟨interface, image, foundInterface, of_decide_eq_true isInterface, foundImage,
      (laid.of_head foundInterface listed foundImage).1, candidate, fits⟩
  · intro kind parentId target isClause bound
    obtain ⟨parent, foundParent, _⟩ := laid.clause found isClause
    rw [traced.clauseTarget laid found isClause foundParent] at bound
    obtain ⟨above, boundParent, rest⟩ := Option.bind_eq_some_iff.mp bound
    obtain ⟨interface, image, accessor, foundImage, has, foundAccessor, _⟩ :=
      clauseTarget?_some rest
    exact ⟨parent, above, image, accessor, foundParent, boundParent, interface, foundImage, has,
      foundAccessor⟩

theorem Traced.intact : table.Intact where
  assembly {id assembly} found := by
    refine ⟨fun reference listed => ?_, fun typeId listed => wellFormed.laid.type found listed,
      wellFormed.laid.types_nodup found⟩
    obtain ⟨known, below⟩ := (traced found).references listed
    exact ⟨below, known⟩
  type {id type} found := by
    refine ⟨wellFormed.laid.assembly found,
      fun base inherits => wellFormed.linked.base found inherits,
      fun interface listed => ?_, wellFormed.linked.nodup found,
      fun member listed => wellFormed.laid.head found listed, wellFormed.laid.members_nodup found⟩
    obtain ⟨symbol, known, isInterface⟩ := wellFormed.linked.interface found listed
    exact ⟨symbol, known, of_decide_eq_true isInterface⟩
  member found := traced.intactMember wellFormed found

end

/-! ## Declarations -/

/-- A member of a type, and the declaration that it is bound from. -/
def MemberStands (table : SymbolTable) (owner : TypeId) (id : MemberId) (decl : MemberDecl) :
    Prop :=
  ∃ member, table.member? id = some member ∧ member.owner = owner ∧ member.clause? = none ∧
    member.name = decl.name ∧ member.explicitInterface = decl.explicitInterface ∧
    member.signature = decl.signature ∧ member.declared = decl.modifiers ∧
    member.span = decl.span ∧ ∀ kind, (member.accessor? kind).isSome = true ↔
      ∃ clause ∈ decl.clauses, clause.kind = kind

/-- A type of an assembly, and the declaration that it is bound from: there is one member for
each that is declared, in the same order. -/
def TypeStands (table : SymbolTable) (assembly : AssemblyId) (id : TypeId) (decl : TypeDecl) :
    Prop :=
  ∃ type, table.type? id = some type ∧ type.assembly = assembly ∧ type.name = decl.name ∧
    type.kind = decl.kind ∧ List.Forall₂ (table.MemberStands id) type.members decl.members

/-- The assemblies of a table are those that are declared, each with one type for each that is
declared, in the same order. -/
def Represents (table : SymbolTable) (decls : List AssemblyDecl) : Prop :=
  ∀ position, Option.Rel (fun (decl : AssemblyDecl) assembly => assembly.name = decl.name ∧
    List.Forall₂ (table.TypeStands ⟨position⟩) assembly.types decl.types)
    decls[position]? (table.assembly? ⟨position⟩)

section

variable {before after : SymbolTable} (grown : before.Extends after)

include grown

theorem MemberStands.extend {owner : TypeId} {id : MemberId} {decl : MemberDecl}
    (stands : before.MemberStands owner id decl) : after.MemberStands owner id decl := by
  obtain ⟨member, found, rest⟩ := stands
  exact ⟨member, grown.member found, rest⟩

theorem TypeStands.extend {assembly : AssemblyId} {id : TypeId} {decl : TypeDecl}
    (stands : before.TypeStands assembly id decl) : after.TypeStands assembly id decl := by
  obtain ⟨type, found, own, name, kind, members⟩ := stands
  exact ⟨type, grown.type found, own, name, kind, members.imp fun _ _ => MemberStands.extend grown⟩

end

/-- A member that is bound stands for its declaration. -/
theorem Carries.memberStands {table : SymbolTable} {assembly : AssemblyId} {scope : MemberScope}
    {id : MemberId} {decl : MemberDecl} (carries : table.Carries assembly id (decl.bind scope id)) :
    table.MemberStands scope.owner id decl := by
  refine ⟨_, carries.head, rfl, decl.bind_head_clause scope id, rfl, rfl, rfl, rfl, rfl,
    fun kind => ?_⟩
  have accessor (accessorId : MemberId) : (decl.bind scope id).head.accessor? kind =
      some accessorId ↔ ∃ position clause, decl.clauses[position]? = some clause ∧
        clause.kind = kind ∧ accessorId = ⟨id.index + 1 + position⟩ :=
    decl.bind_head_accessor?_eq_some scope id
  rw [Option.isSome_iff_exists]
  constructor
  · intro ⟨accessorId, has⟩
    obtain ⟨position, clause, listed, same, _⟩ := (accessor accessorId).mp has
    exact ⟨clause, List.mem_of_getElem? listed, same⟩
  · intro ⟨clause, listed, same⟩
    obtain ⟨position, found⟩ := List.getElem?_of_mem listed
    exact ⟨_, (accessor _).mpr ⟨position, clause, found, same, rfl⟩⟩

/-- The assembly that is bound stands for its declaration. -/
theorem Bound.stands {table : SymbolTable} {decl : AssemblyDecl} {references : List AssemblyId}
    {mode : BindMode} {binding : Binding} (bound : Bound table decl references mode binding) :
    List.Forall₂ (binding.table.TypeStands binding.assembly)
      (typeIds table.types.size decl.types.length) decl.types := by
  refine List.Forall₂.flip (forall₂_typeIds_of_getElem? fun {position typeDecl} declared => ?_)
  obtain ⟨type, found, isBound⟩ := bound.types declared
  refine ⟨type, found, ?_, ?_, ?_, isBound.members.imp fun _ _ => Carries.memberStands⟩
  all_goals
    rw [isBound.shell]
    rfl

/-- There are as many assemblies as declarations. -/
theorem Represents.length {table : SymbolTable} {decls : List AssemblyDecl}
    (represents : table.Represents decls) : decls.length = table.assemblies.size := by
  have ends (position : Nat) : decls.length ≤ position ↔ table.assemblies.size ≤ position := by
    rw [← List.getElem?_eq_none_iff, ← Array.getElem?_eq_none_iff]
    have related := represents position
    unfold assembly? at related
    generalize decls[position]? = decl at related ⊢
    generalize table.assemblies[position]? = assembly at related ⊢
    cases related with
    | none => exact ⟨fun _ => rfl, fun _ => rfl⟩
    | some _ => exact ⟨nofun, nofun⟩
  exact Nat.le_antisymm ((ends _).mpr (Nat.le_refl _)) ((ends _).mp (Nat.le_refl _))

/-- A table represents the declarations that it is bound from. -/
theorem BoundFrom.represents {decls : List AssemblyDecl} {table : SymbolTable}
    (bound : BoundFrom decls table) : table.Represents decls := by
  induction bound with
  | empty => exact fun _ => .none
  | @bind decls table earlier decl references mode known ih =>
    have binding := bind_bound earlier.wellFormed decl references mode
    have length := ih.length
    intro position
    rcases Nat.lt_trichotomy position decls.length with before | rfl | beyond
    · have related := ih position
      rw [List.getElem?_append_left before]
      generalize decls[position]? = earlierDecl at related ⊢
      cases found : table.assembly? ⟨position⟩ with
      | none => exact absurd (length ▸ before) (Nat.not_lt.mpr (assembly?_eq_none.mp found))
      | some assembly =>
        rw [found] at related
        rw [binding.grown.assembly found]
        cases related with
        | some stands =>
          exact .some ⟨stands.1, stands.2.imp fun _ _ => TypeStands.extend binding.grown⟩
    · have own : (table.bind decl references mode).assembly = ⟨decls.length⟩ := by
        rw [binding.assembly, nextAssembly, length]
      have symbol := binding.symbol
      have stands := binding.stands
      rw [own] at symbol stands
      rw [List.getElem?_concat_length, symbol]
      exact .some ⟨rfl, stands⟩
    · have none : (table.bind decl references mode).table.assembly? ⟨position⟩ = none := by
        refine Option.eq_none_iff_forall_ne_some.mpr fun assembly found => ?_
        have other : (⟨position⟩ : AssemblyId) ≠ (table.bind decl references mode).assembly := by
          intro same
          rw [binding.assembly, nextAssembly, ← length] at same
          exact absurd (AssemblyId.mk.inj same) (Nat.ne_of_gt beyond)
        have below := lt_of_assembly? (binding.others found other)
        exact absurd (length ▸ below) (Nat.lt_asymm beyond)
      rw [List.getElem?_eq_none (by rw [List.length_append]; exact beyond), none]
      exact .none

/-! ## Look-ups -/

/-- No look-up in a table goes wrong. -/
structure Safe (table : SymbolTable) : Prop where
  /-- Further assemblies are bound without a fault. -/
  bind : ∀ decl references mode, (table.bind decl references mode).fault? = none
  /-- An assembly is exported with all that it lists. -/
  exports : ∀ {id assembly}, table.assembly? id = some assembly → ∃ decl,
    table.exportAssembly assembly = .ok decl ∧
      List.Forall₂ (fun typeId (typeDecl : TypeDecl) => ∃ type, table.type? typeId = some type ∧
        List.Forall₂ (fun memberId memberDecl => ∃ member, table.member? memberId = some member ∧
          table.exportMember? member = some memberDecl) type.members typeDecl.members)
        assembly.types decl.types
  /-- An accessor is displayed by the name of its member, which is no accessor. -/
  display : ∀ {id member kind parentId}, table.member? id = some member →
    member.clause? = some (kind, parentId) → ∃ parent, table.member? parentId = some parent ∧
      parent.clause? = none ∧
      table.display id = MemberSymbol.displayClause (table.display parentId) kind
  /-- A type that is there has an interface list, whatever is remembered. -/
  flatten : ∀ {id type}, table.type? id = some type → ∀ memory : Memory, ∃ list after,
    (table.flatten id).answer memory = (.ok list, after)
  /-- Members are resolved, whatever is remembered. -/
  resolve : ∀ (typeId : TypeId) (id : MemberId) (memory : Memory), ∃ resolution after,
    (table.resolve typeId id).answer memory = (.ok resolution, after)

theorem Traced.safe {table : SymbolTable} (traced : table.Traced) (wellFormed : table.WellFormed) :
    table.Safe where
  bind decl references mode := by
    rw [bind_eq wellFormed.untangling_keeps.fault]
  exports {id assembly} found := by
    refine ⟨_, wellFormed.closed.exportAssembly assembly, ?_⟩
    refine (wellFormed.laid.exported_types found).imp fun typeId typeDecl facts => ?_
    obtain ⟨type, foundType, rfl⟩ := facts
    refine ⟨type, foundType, ?_⟩
    have members := traced.exported_members wellFormed.laid foundType
    refine members.imp fun memberId memberDecl exported => ?_
    obtain ⟨source, scope, target, _, carries, foundMember, rfl⟩ := exported
    exact ⟨_, foundMember, carries.exportMember? target⟩
  display {id member kind parentId} found isClause := by
    obtain ⟨parent, foundParent, noClause, _⟩ := wellFormed.laid.clause found isClause
    refine ⟨parent, foundParent, noClause, ?_⟩
    simp only [SymbolTable.display, found, foundParent, Option.map_some, Option.getD_some,
      displayMember, isClause, noClause]
  flatten found memory := by
    obtain ⟨list, after, answered, _⟩ := flatten_settled wellFormed.closed found memory
    exact ⟨list, after, answered⟩
  resolve typeId id memory := by
    have agree := remembering_settled wellFormed.closed
    obtain ⟨resolution, after, answered, _⟩ :=
      agree.resolve wellFormed.closed typeId id memory
    exact ⟨resolution, after, answered⟩

/-- The invariant of symbol tables: what is bound from declarations is intact, represents the
declarations, and is safe to look things up in. -/
theorem BoundFrom.invariant {decls : List AssemblyDecl} {table : SymbolTable}
    (bound : BoundFrom decls table) : table.Intact ∧ table.Represents decls ∧ table.Safe := by
  have traced : table.Traced := bound.traced
  exact ⟨traced.intact bound.wellFormed, bound.represents, traced.safe bound.wellFormed⟩

/-- An interface with a property. -/
def lamps : AssemblyDecl where
  name := "Lamps"
  types :=
    [{ name := "Lamp", kind := .interfaceType,
       members := [.property { name := "Level", type := "int", getter := some {} }] }]

/-- A class that implements the property explicitly. -/
def desks : AssemblyDecl where
  name := "Desks"
  references := ["Lamps"]
  types :=
    [{ name := "DeskLamp", kind := .classType, interfaces := ["Lamp"],
       members := [.property { name := "Level", explicitInterface := some "Lamp", type := "int",
                               getter := some { hasBody := true } }] }]

/-- The interface, read from metadata, and the class, bound from source. -/
def desk : SymbolTable :=
  (((∅ : SymbolTable).bind lamps [] .metadata).table.bind desks [⟨0⟩] (.source .latest)).table

/-- The invariant holds of a table with targets: the property of the class is bound to that of
the interface, and its accessor to the accessor. -/
theorem desk_invariant :
    (desk.Intact ∧ desk.Represents [lamps, desks] ∧ desk.Safe) ∧
      (desk.member? ⟨2⟩).bind MemberSymbol.target = some ⟨⟨0⟩, ⟨0⟩⟩ ∧
      (desk.member? ⟨3⟩).bind MemberSymbol.target = some ⟨⟨0⟩, ⟨1⟩⟩ := by
  have first : BoundFrom [lamps] ((∅ : SymbolTable).bind lamps [] .metadata).table :=
    .bind .empty lamps .metadata nofun
  have known : ∀ reference ∈ [(⟨0⟩ : AssemblyId)], ∃ symbol,
      ((∅ : SymbolTable).bind lamps [] .metadata).table.assembly? reference = some symbol := by
    intro reference listed
    obtain rfl := List.mem_singleton.mp listed
    exact ⟨_, (bind_bound wellFormed_empty lamps [] .metadata).symbol⟩
  exact ⟨BoundFrom.invariant (first.bind desks (.source .latest) known), by decide +kernel,
    by decide +kernel⟩

end SymbolTable

end Conformance
