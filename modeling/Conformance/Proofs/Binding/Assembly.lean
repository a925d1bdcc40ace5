import Conformance.Proofs.Binding.Cycles
import Conformance.Proofs.Binding.Members
import Conformance.Proofs.Binding.Targets

/-!
The phases of binding an assembly.

Each phase of `SymbolTable.bind` has a name here, so that what it leaves behind
can be said without the others, and keeps the table well-formed. The last table
is `SymbolTable.targeting`.
-/

namespace Conformance

namespace SymbolTable

section phases

variable (table : SymbolTable) (decl : AssemblyDecl) (references : List AssemblyId)
  (mode : BindMode)

/-- The table with the types of an assembly declared. -/
def declaring : SymbolTable :=
  (table.addAssembly
    { name := decl.name
      coreLibrary := decl.coreLibrary
      references
      isMetadata := mode.isMetadata }).declareTypes table.nextAssembly decl.types

/-- The types that are bound, with their declarations. -/
def typeEntries : List (TypeId × TypeDecl) :=
  (typeIds table.types.size decl.types.length).zip decl.types

/-- What the types inherit from. -/
def heritages : List (TypeId × Heritage) :=
  (table.typeEntries decl).map fun entry =>
    (entry.1, entry.2.bindHeritage ((table.declaring decl references mode).resolve?
      table.nextAssembly))

/-- The table with base types and interface lists entered. -/
def inheriting : SymbolTable :=
  (table.declaring decl references mode).setHeritages (table.heritages decl references mode)

/-- The table without cycles. -/
def untangling : Untangling :=
  (table.inheriting decl references mode).breakCycles
    (typeIds table.types.size decl.types.length)

/-- The table with the members of the types. -/
def populating : SymbolTable × List Diagnostic :=
  (table.typeEntries decl).foldl (bindMembers mode)
    ((table.untangling decl references mode).table, [])

/-- The table with the targets of explicit implementations. -/
def targeting : SymbolTable :=
  (table.populating decl references mode).1.setTargets
    ((table.populating decl references mode).1.targetEntries table.nextAssembly
      (typeIds table.types.size decl.types.length))

end phases

variable {table : SymbolTable} {decl : AssemblyDecl} {references : List AssemblyId}
  {mode : BindMode}

/-! ## Declared types -/

theorem assembly?_declaring (id : AssemblyId) :
    (table.declaring decl references mode).assembly? id =
      if id = table.nextAssembly then some
        { name := decl.name
          coreLibrary := decl.coreLibrary
          references
          isMetadata := mode.isMetadata
          types := typeIds table.types.size decl.types.length }
      else table.assembly? id := by
  rw [declaring, assembly?_declareTypes, assembly?_addAssembly]
  by_cases own : id = table.nextAssembly
  · subst own
    simp [addAssembly]
  · rw [if_neg (Ne.symm own), if_neg own, if_neg own]

theorem type?_declaring (id : TypeId) :
    (table.declaring decl references mode).type? id =
      if id.index < table.types.size then table.type? id
      else (decl.types[id.index - table.types.size]?).map (shell table.nextAssembly) := by
  rw [declaring, type?_declareTypes]
  rfl

theorem member?_declaring (id : MemberId) :
    (table.declaring decl references mode).member? id = table.member? id := by
  rw [member?, declaring, members_declareTypes]
  rfl

theorem typesOf_declaring :
    (table.declaring decl references mode).typesOf table.nextAssembly =
      typeIds table.types.size decl.types.length := by
  rw [typesOf, assembly?_declaring, if_pos rfl]
  rfl

/-- A declared type is an earlier one, or made of one of the declarations. -/
theorem type?_declaring_cases {id : TypeId} {type : TypeSymbol}
    (found : (table.declaring decl references mode).type? id = some type) :
    table.type? id = some type ∨ ∃ position typeDecl, decl.types[position]? = some typeDecl ∧
      id = ⟨table.types.size + position⟩ ∧ type = shell table.nextAssembly typeDecl := by
  rw [type?_declaring] at found
  split at found
  · exact .inl found
  · rename_i outside
    obtain ⟨typeDecl, listed, rfl⟩ := Option.map_eq_some_iff.mp found
    refine .inr ⟨_, typeDecl, listed, ?_, rfl⟩
    obtain ⟨index⟩ := id
    rw [TypeId.mk.injEq]
    simp only at outside ⊢
    omega

theorem type?_declaring_of_some {id : TypeId} {type : TypeSymbol}
    (found : table.type? id = some type) :
    (table.declaring decl references mode).type? id = some type := by
  rw [type?_declaring, if_pos (lt_of_type? found)]
  exact found

theorem type?_declaring_new {position : Nat} {typeDecl : TypeDecl}
    (listed : decl.types[position]? = some typeDecl) :
    (table.declaring decl references mode).type? ⟨table.types.size + position⟩ =
      some (shell table.nextAssembly typeDecl) := by
  rw [type?_declaring, if_neg (by simp), Nat.add_sub_cancel_left, listed]
  rfl

/-- Where no two declarations share a name, the names mean what is declared. -/
theorem resolve?_declaring_new (distinct : (decl.types.map TypeDecl.name).Nodup) {position : Nat}
    {typeDecl : TypeDecl} (listed : decl.types[position]? = some typeDecl) :
    (table.declaring decl references mode).resolve? table.nextAssembly typeDecl.name =
      some (⟨table.types.size + position⟩, shell table.nextAssembly typeDecl) := by
  have declared : (table.declaring decl references mode).type? _ = some _ :=
    type?_declaring_new listed
  rcases List.getElem?_eq_some_iff.mp listed with ⟨inside, _⟩
  have isFound : ((table.declaring decl references mode).typeIn? table.nextAssembly
      typeDecl.name).isSome := by
    rw [typeIn?, typesOf_declaring, List.find?_isSome]
    refine ⟨⟨table.types.size + position⟩, add_mem_typeIds inside, ?_⟩
    rw [declared]
    simp [shell]
  obtain ⟨id, found⟩ := Option.isSome_iff_exists.mp isFound
  obtain ⟨own, type, foundType, named⟩ := typeIn?_some found
  rw [typesOf_declaring, mem_typeIds] at own
  rcases type?_declaring_cases foundType with earlier | ⟨place, other, otherListed, rfl, rfl⟩
  · exact absurd (lt_of_type? earlier) (by omega)
  · have name : (decl.types.map TypeDecl.name)[place]? = (decl.types.map TypeDecl.name)[position]? := by
      rw [List.getElem?_map, List.getElem?_map, otherListed, listed]
      exact congrArg some named
    have within : place < (decl.types.map TypeDecl.name).length := by
      rw [List.length_map]
      exact (List.getElem?_eq_some_iff.mp otherListed).1
    obtain rfl := (List.getElem?_inj within distinct).mp name
    rw [resolve?, typeSeenFrom?, found, Option.some_or]
    simp only [Option.bind_eq_bind, Option.bind_some, declared]
    rfl

theorem assembly?_declaring_of_some {id : AssemblyId} {assembly : AssemblySymbol}
    (found : table.assembly? id = some assembly) :
    (table.declaring decl references mode).assembly? id = some assembly := by
  have apart : id ≠ table.nextAssembly := by
    rintro rfl
    exact absurd (lt_of_assembly? found) (Nat.lt_irrefl _)
  rw [assembly?_declaring, if_neg apart]
  exact found

theorem bind_eq (untangled : (table.untangling decl references mode).fault? = none) :
    table.bind decl references mode =
      { table := table.targeting decl references mode
        assembly := table.nextAssembly
        types := typeIds table.types.size decl.types.length
        diagnostics := mode.reported
          ((table.heritages decl references mode).flatMap (fun entry => entry.2.diagnostics) ++
            (table.untangling decl references mode).diagnostics ++
            (table.populating decl references mode).2 ++
            ((typeIds table.types.size decl.types.length).flatMap
              ((table.populating decl references mode).1.targetsOf table.nextAssembly)).flatMap
                TargetBinding.diagnostics) } := by
  have types : (table.declaring decl references mode).typesOf table.nextAssembly =
      typeIds table.types.size decl.types.length := typesOf_declaring
  unfold declaring at types
  unfold untangling inheriting heritages typeEntries declaring setHeritages at untangled
  unfold bind
  simp only [types, untangled]
  rfl

/-! ## Well-formedness, phase by phase -/

theorem Laid.declaring (laid : table.Laid) : (table.declaring decl references mode).Laid where
  head {typeId type id} found listed := by
    rcases type?_declaring_cases found with earlier | ⟨_, _, _, _, rfl⟩
    · obtain ⟨member, foundMember, facts⟩ := laid.head earlier listed
      exact ⟨member, (member?_declaring id).trans foundMember, facts⟩
    · cases listed
  listed {id member} found noClause := by
    rw [member?_declaring] at found
    obtain ⟨type, foundType, listed⟩ := laid.listed found noClause
    exact ⟨type, type?_declaring_of_some foundType, listed⟩
  clause {id member kind parentId} found known := by
    rw [member?_declaring] at found
    obtain ⟨parent, foundParent, facts⟩ := laid.clause found known
    exact ⟨parent, (member?_declaring parentId).trans foundParent, facts⟩
  accessor {id member kind accessorId} found known := by
    rw [member?_declaring] at found
    obtain ⟨accessor, foundAccessor, facts⟩ := laid.accessor found known
    exact ⟨accessor, (member?_declaring accessorId).trans foundAccessor, facts⟩
  members_nodup {id type} found := by
    rcases type?_declaring_cases found with earlier | ⟨_, _, _, _, rfl⟩
    · exact laid.members_nodup earlier
    · exact List.nodup_nil
  assembly {id type} found := by
    rcases type?_declaring_cases found with earlier | ⟨position, _, listed, rfl, rfl⟩
    · obtain ⟨assembly, foundAssembly, listed⟩ := laid.assembly earlier
      exact ⟨assembly, assembly?_declaring_of_some foundAssembly, listed⟩
    · obtain ⟨inside, _⟩ := List.getElem?_eq_some_iff.mp listed
      exact ⟨_, (assembly?_declaring _).trans (if_pos rfl), add_mem_typeIds inside⟩
  type {assemblyId assembly id} found listed := by
    rw [assembly?_declaring] at found
    split at found
    · rename_i own
      cases found
      obtain ⟨above, below⟩ := mem_typeIds.mp listed
      have inside : id.index - table.types.size < decl.types.length := by omega
      have new : (table.declaring decl references mode).type? ⟨table.types.size + _⟩ = some _ :=
        type?_declaring_new (List.getElem?_eq_getElem inside)
      rw [Nat.add_sub_cancel' above] at new
      exact ⟨_, new, own.symm⟩
    · obtain ⟨type, foundType, own⟩ := laid.type found listed
      exact ⟨type, type?_declaring_of_some foundType, own⟩
  types_nodup {id assembly} found := by
    rw [assembly?_declaring] at found
    split at found
    · cases found
      exact nodup_typeIds _ _
    · exact laid.types_nodup found

theorem Targeted.of_member? {before after : SymbolTable} (targeted : before.Targeted)
    (same : ∀ id, after.member? id = before.member? id) : after.Targeted where
  target {id member target} found known := by
    obtain ⟨symbol, foundTarget, facts⟩ := targeted.target (same id ▸ found) known
    exact ⟨symbol, (same _).trans foundTarget, facts⟩
  explicit {id member target} found := targeted.explicit (same id ▸ found)

theorem mem_typeEntries {entry : TypeId × TypeDecl} :
    entry ∈ table.typeEntries decl ↔ ∃ position, decl.types[position]? = some entry.2 ∧
      entry.1 = ⟨table.types.size + position⟩ := by
  rw [typeEntries, List.mem_iff_getElem?]
  simp only [List.getElem?_zip_eq_some]
  constructor
  · rintro ⟨position, own, listed⟩
    obtain ⟨inside, _⟩ := List.getElem?_eq_some_iff.mp listed
    rw [getElem?_typeIds inside] at own
    exact ⟨position, listed, (Option.some.inj own).symm⟩
  · rintro ⟨position, listed, own⟩
    obtain ⟨inside, _⟩ := List.getElem?_eq_some_iff.mp listed
    exact ⟨position, by rw [getElem?_typeIds inside, own], listed⟩

theorem map_fst_typeEntries :
    (table.typeEntries decl).map Prod.fst = typeIds table.types.size decl.types.length := by
  rw [typeEntries, List.map_fst_zip (by simp)]

theorem map_snd_typeEntries (table : SymbolTable) (decl : AssemblyDecl) :
    (table.typeEntries decl).map Prod.snd = decl.types :=
  List.map_snd_zip (length_typeIds _ _).ge

theorem map_fst_heritages :
    (table.heritages decl references mode).map Prod.fst =
      typeIds table.types.size decl.types.length := by
  rw [heritages, List.map_map]
  exact map_fst_typeEntries

/-- The type of a declaration with its heritage entered. -/
theorem type?_inheriting_new {position : Nat} {typeDecl : TypeDecl}
    (listed : decl.types[position]? = some typeDecl) :
    (table.inheriting decl references mode).type? ⟨table.types.size + position⟩ =
      some ((typeDecl.bindHeritage ((table.declaring decl references mode).resolve?
        table.nextAssembly)).enter (shell table.nextAssembly typeDecl)) := by
  have entry : (⟨table.types.size + position⟩, typeDecl) ∈ table.typeEntries decl :=
    mem_typeEntries.mpr ⟨position, listed, rfl⟩
  have distinct : ((table.heritages decl references mode).map Prod.fst).Nodup := by
    rw [map_fst_heritages]
    exact nodup_typeIds _ _
  rw [inheriting, type?_setHeritages distinct (List.mem_map_of_mem entry),
    type?_declaring_new listed]
  rfl

theorem type?_inheriting_of_some {id : TypeId} {type : TypeSymbol}
    (found : table.type? id = some type) :
    (table.inheriting decl references mode).type? id = some type := by
  have inside := lt_of_type? found
  have old : id ∉ (table.heritages decl references mode).map Prod.fst := by
    rw [map_fst_heritages, mem_typeIds]
    omega
  rw [inheriting, type?_setHeritages_of_notMem old]
  exact type?_declaring_of_some found

theorem type?_inheriting_cases {id : TypeId} {type : TypeSymbol}
    (found : (table.inheriting decl references mode).type? id = some type) :
    table.type? id = some type ∨ ∃ position typeDecl, decl.types[position]? = some typeDecl ∧
      id = ⟨table.types.size + position⟩ ∧
      type = (typeDecl.bindHeritage ((table.declaring decl references mode).resolve?
        table.nextAssembly)).enter (shell table.nextAssembly typeDecl) := by
  have size : (table.inheriting decl references mode).types.size =
      table.types.size + decl.types.length := by
    rw [inheriting, types_setHeritages_size, declaring, types_declareTypes_size]
    rfl
  have inside := lt_of_type? found
  by_cases old : id.index < table.types.size
  · obtain ⟨original, known⟩ := exists_type? old
    cases found.symm.trans (type?_inheriting_of_some known)
    exact .inl known
  · have listed : id.index - table.types.size < decl.types.length := by omega
    have new : (table.inheriting decl references mode).type? ⟨table.types.size + _⟩ = some _ :=
      type?_inheriting_new (List.getElem?_eq_getElem listed)
    refine .inr ⟨_, _, List.getElem?_eq_getElem listed, ?_, ?_⟩
    · obtain ⟨index⟩ := id
      rw [TypeId.mk.injEq]
      simp only at old ⊢
      omega
    · rw [Nat.add_sub_cancel' (by omega)] at new
      exact Option.some.inj (found.symm.trans new)

theorem sameButLinks_inheriting :
    (table.declaring decl references mode).SameButLinks
      (table.inheriting decl references mode) where
  assemblies := assemblies_setHeritages _ _
  members := members_setHeritages _ _
  types id := by
    cases found : (table.declaring decl references mode).type? id with
    | none =>
      have outside := type?_eq_none.mp found
      have none : (table.inheriting decl references mode).type? id = none := by
        rw [type?_eq_none, inheriting, types_setHeritages_size]
        exact outside
      rw [none]
      exact .none
    | some type =>
      rcases type?_declaring_cases found with earlier | ⟨position, typeDecl, listed, rfl, rfl⟩
      · rw [type?_inheriting_of_some earlier]
        exact .some rfl
      · rw [type?_inheriting_new listed]
        exact .some rfl

/-- Names mean the same before and after links are entered. -/
theorem resolve?_declaring_kind {name : String} {id : TypeId} {type : TypeSymbol}
    (resolved : (table.declaring decl references mode).resolve? table.nextAssembly name =
      some (id, type)) :
    ∃ other, (table.inheriting decl references mode).type? id = some other ∧
      other.kind = type.kind := by
  obtain ⟨_, found, _⟩ := resolve?_some resolved
  obtain ⟨other, foundOther, rest⟩ := sameButLinks_inheriting.type? found
  exact ⟨other, foundOther, by rw [rest]⟩

theorem Linked.inheriting (linked : table.Linked) :
    (table.inheriting decl references mode).Linked where
  base {id type base} found known := by
    rcases type?_inheriting_cases found with earlier | ⟨_, typeDecl, _, _, rfl⟩
    · obtain ⟨isClass, symbol, foundBase, kind⟩ := linked.base earlier known
      exact ⟨isClass, symbol, type?_inheriting_of_some foundBase, kind⟩
    · obtain ⟨isClass, name, symbol, resolved, kind⟩ :=
        (typeDecl.bindHeritage_named _).base known
      obtain ⟨other, foundOther, same⟩ := resolve?_declaring_kind resolved
      exact ⟨isClass, other, foundOther, same.trans kind⟩
  interface {id type interface} found known := by
    rcases type?_inheriting_cases found with earlier | ⟨_, typeDecl, _, _, rfl⟩
    · obtain ⟨symbol, foundInterface, kind⟩ := linked.interface earlier known
      exact ⟨symbol, type?_inheriting_of_some foundInterface, kind⟩
    · obtain ⟨name, symbol, resolved, kind⟩ := (typeDecl.bindHeritage_named _).interfaces known
      obtain ⟨other, foundOther, same⟩ := resolve?_declaring_kind resolved
      refine ⟨other, foundOther, ?_⟩
      rw [TypeSymbol.isInterface, same]
      exact kind
  nodup {id type} found := by
    rcases type?_inheriting_cases found with earlier | ⟨_, typeDecl, _, _, rfl⟩
    · exact linked.nodup earlier
    · exact (typeDecl.bindHeritage_named _).nodup

/-- Entering links leaves no id without symbol. -/
theorem Closed.inheriting (closed : table.Closed) :
    (table.inheriting decl references mode).Closed := by
  have members (id : MemberId) :
      (table.inheriting decl references mode).member? id = table.member? id :=
    (sameButLinks_inheriting.member? id).trans (member?_declaring id)
  have named {name : String} {id : TypeId} {symbol : TypeSymbol}
      (resolved : (table.declaring decl references mode).resolve? table.nextAssembly name =
        some (id, symbol)) :
      ∃ other, (table.inheriting decl references mode).type? id = some other := by
    rcases resolve?_declaring_kind resolved with ⟨other, found, _⟩
    exact ⟨other, found⟩
  constructor
  · intro id type base found known
    rcases type?_inheriting_cases found with earlier | ⟨_, typeDecl, _, _, rfl⟩
    · rcases closed.base earlier known with ⟨symbol, foundBase⟩
      exact ⟨symbol, type?_inheriting_of_some foundBase⟩
    · rcases (typeDecl.bindHeritage_named _).base known with ⟨_, _, _, resolved, _⟩
      exact named resolved
  · intro id type interface found known
    rcases type?_inheriting_cases found with earlier | ⟨_, typeDecl, _, _, rfl⟩
    · rcases closed.interface earlier known with ⟨symbol, foundInterface⟩
      exact ⟨symbol, type?_inheriting_of_some foundInterface⟩
    · rcases (typeDecl.bindHeritage_named _).interfaces known with ⟨_, _, resolved, _⟩
      exact named resolved
  · intro id type member found known
    rw [members]
    rcases type?_inheriting_cases found with earlier | ⟨_, _, _, _, rfl⟩
    · exact closed.member earlier known
    · cases known
  · intro id member found
    rcases closed.owner (members id ▸ found) with ⟨symbol, foundOwner⟩
    exact ⟨symbol, type?_inheriting_of_some foundOwner⟩
  · intro id member accessor found known
    rw [members] at found ⊢
    exact closed.accessor found known
  · intro id member kind parent found known
    rw [members] at found ⊢
    exact closed.parent found known

theorem WellFormed.inheriting (wellFormed : table.WellFormed) :
    (table.inheriting decl references mode).WellFormed where
  linked := wellFormed.linked.inheriting
  laid := sameButLinks_inheriting.laid wellFormed.laid.declaring
  targeted := wellFormed.targeted.of_member? fun id =>
    (sameButLinks_inheriting.member? id).trans (member?_declaring id)

theorem Trims.sameButLinks {before after : SymbolTable} (trims : before.Trims after) :
    before.SameButLinks after where
  assemblies := trims.assemblies
  members := trims.members
  types id := rel_imp (trims.types id) fun _ _ trimmed => trimmed.rest

theorem Trims.linked {before after : SymbolTable} (trims : before.Trims after)
    (linked : before.Linked) : after.Linked where
  base {id type base} found known := by
    obtain ⟨original, foundBefore, trimmed⟩ := trims.type?_of_after found
    rcases trimmed.base with none | same
    · rw [none] at known
      cases known
    · obtain ⟨isClass, symbol, foundBase, kind⟩ := linked.base foundBefore (same ▸ known)
      obtain ⟨image, foundImage, cut⟩ := trims.type? foundBase
      exact ⟨by rw [trimmed.rest]; exact isClass, image, foundImage, by rw [cut.rest]; exact kind⟩
  interface {id type interface} found known := by
    obtain ⟨original, foundBefore, trimmed⟩ := trims.type?_of_after found
    obtain ⟨symbol, foundInterface, kind⟩ :=
      linked.interface foundBefore (trimmed.interfaces.subset known)
    obtain ⟨image, foundImage, cut⟩ := trims.type? foundInterface
    exact ⟨image, foundImage, by rw [cut.rest]; exact kind⟩
  nodup {id type} found := by
    obtain ⟨original, foundBefore, trimmed⟩ := trims.type?_of_after found
    exact (linked.nodup foundBefore).sublist trimmed.interfaces

theorem Closed.untangling_keeps (closed : table.Closed) :
    (table.untangling decl references mode).Keeps (table.inheriting decl references mode)
      (typeIds table.types.size decl.types.length) :=
  (breakCycles_untangled closed.inheriting _).1

theorem WellFormed.untangling_keeps (wellFormed : table.WellFormed) :
    (table.untangling decl references mode).Keeps (table.inheriting decl references mode)
      (typeIds table.types.size decl.types.length) :=
  wellFormed.closed.untangling_keeps

theorem WellFormed.untangling (wellFormed : table.WellFormed) :
    (table.untangling decl references mode).table.WellFormed where
  linked := wellFormed.untangling_keeps.trims.linked wellFormed.inheriting.linked
  laid := wellFormed.untangling_keeps.trims.sameButLinks.laid wellFormed.inheriting.laid
  targeted := wellFormed.inheriting.targeted.of_member? wellFormed.untangling_keeps.trims.member?

theorem WellFormed.populating (wellFormed : table.WellFormed) :
    (table.populating decl references mode).1.WellFormed :=
  foldl_bindMembers_wellFormed mode _ wellFormed.untangling

theorem sameButTargets_targeting :
    (table.populating decl references mode).1.SameButTargets
      (table.targeting decl references mode) :=
  sameButTargets_setTargets _ _

theorem WellFormed.member?_targeting (wellFormed : table.WellFormed) {id : MemberId}
    {member : MemberSymbol}
    (found : (table.populating decl references mode).1.member? id = some member) :
    (table.targeting decl references mode).member? id = some { member with
      target :=
        if member.owner ∈ typeIds table.types.size decl.types.length then
          ((table.populating decl references mode).1.expectedTarget? table.nextAssembly member).or
            member.target
        else member.target } :=
  member?_setTargets_targetEntries wellFormed.populating.laid _ found

/-- A target that a member has when targets are entered is the expected one, or it had it
before. -/
theorem WellFormed.target_targeting (wellFormed : table.WellFormed) {id : MemberId}
    {member : MemberSymbol} {target : ExplicitTarget}
    (found : (table.targeting decl references mode).member? id = some member)
    (known : member.target = some target) :
    ∃ original, (table.populating decl references mode).1.member? id = some original ∧
      member = { original with target := member.target } ∧
        ((table.populating decl references mode).1.expectedTarget? table.nextAssembly original =
          some target ∨ original.target = some target) := by
  obtain ⟨original, foundBefore, rest⟩ := sameButTargets_targeting.member?_of_after found
  have entered := wellFormed.member?_targeting foundBefore
  refine ⟨original, foundBefore, rest, ?_⟩
  rw [found, Option.some.injEq] at entered
  rw [entered] at known
  simp only at known
  split at known
  · rcases Option.or_eq_some_iff.mp known with expected | ⟨_, kept⟩
    · exact .inl expected
    · exact .inr kept
  · exact .inr known

theorem WellFormed.targeting (wellFormed : table.WellFormed) :
    (table.targeting decl references mode).WellFormed := by
  have before : (table.populating decl references mode).1.WellFormed := wellFormed.populating
  have same : (table.populating decl references mode).1.SameButTargets
    (table.targeting decl references mode) := sameButTargets_targeting
  refine ⟨same.linked before.linked, same.laid before.laid,
    fun {id member target} found known => ?_, fun {id member target} found noClause known => ?_⟩
  · obtain ⟨original, foundBefore, rest, made⟩ := wellFormed.target_targeting found known
    have targets : ∃ symbol, (table.populating decl references mode).1.member? target.member =
        some symbol ∧ symbol.owner = target.interface ∧
          symbol.clauseKind? = original.clauseKind? := by
      rcases made with expected | kept
      · exact expectedTarget?_targets before.laid expected
      · exact before.targeted.target foundBefore kept
    obtain ⟨symbol, foundTarget, owner, kind⟩ := targets
    obtain ⟨image, foundImage, restTarget⟩ := same.member? foundTarget
    refine ⟨image, foundImage, ?_, ?_⟩
    · rw [restTarget]
      exact owner
    · rw [restTarget, rest]
      exact kind
  · obtain ⟨original, foundBefore, rest, made⟩ := wellFormed.target_targeting found known
    rw [rest] at noClause ⊢
    have noClauseBefore : original.clause? = none := noClause
    rcases made with expected | kept
    · rw [expectedTarget?_head noClauseBefore] at expected
      obtain ⟨name, _, _, named, _⟩ := boundTarget?_some expected
      show original.explicitInterface.isSome = true
      rw [named]
      rfl
    · have explicit : original.isExplicit = true :=
        before.targeted.explicit foundBefore noClauseBefore kept
      exact explicit

end SymbolTable

end Conformance
