import Conformance.Proofs.Binding.Declaring
import Conformance.Proofs.Symbol.WellFormed

/-!
The third phase of binding: the symbols of members.

The symbols of a declaration form a block: the member, and its accessors right
after it. A block is added as a whole, so that member and accessors know each
other, and the type lists the member (`SymbolTable.MembersAdded`). What blocks
are made of stays readable from the table (`SymbolTable.Holds`).
-/

namespace Conformance

/-! ## Blocks -/

namespace MemberDecl

/-- The kinds of the accessors of a member, in the order of their declarations. -/
def clauseKinds (decl : MemberDecl) : List AccessorKind := decl.clauses.map Clause.kind

theorem nodup_clauseKinds (decl : MemberDecl) : decl.clauseKinds.Nodup := by
  cases decl with
  | method decl => exact List.nodup_nil
  | property decl =>
    obtain ⟨_, _, _, _, _, _, getter, setter, _⟩ := decl
    cases getter <;> cases setter <;> simp [clauseKinds, clauses, propertyClauses]
  | indexer decl =>
    obtain ⟨_, _, _, _, _, _, getter, setter, _⟩ := decl
    cases getter <;> cases setter <;> simp [clauseKinds, clauses, propertyClauses]
  | event decl => simp [clauseKinds, clauses]

section bind

variable (decl : MemberDecl) (scope : MemberScope) (id : MemberId)

@[simp] theorem bind_head_name : (decl.bind scope id).head.name = decl.name := rfl

@[simp] theorem bind_head_kind :
    (decl.bind scope id).head.kind = decl.kindAt ⟨id.index + 1⟩ := rfl

@[simp] theorem bind_head_owner : (decl.bind scope id).head.owner = scope.owner := rfl

@[simp] theorem bind_head_signature : (decl.bind scope id).head.signature = decl.signature := rfl

@[simp] theorem bind_head_target : (decl.bind scope id).head.target = none := rfl

@[simp] theorem bind_head_explicitInterface :
    (decl.bind scope id).head.explicitInterface = decl.explicitInterface := rfl

/-- A member that is declared is no accessor. -/
@[simp] theorem bind_head_clause : (decl.bind scope id).head.clause? = none := by
  cases decl <;> rfl

/-- What is reported of a member does not depend on ids. -/
theorem bind_diagnostics_elsewhere (owner : TypeId) (other : MemberId) :
    (decl.bind { scope with owner } other).diagnostics = (decl.bind scope id).diagnostics := by
  cases decl <;> rfl

theorem bind_accessors_length :
    (decl.bind scope id).accessors.length = decl.clauses.length := by
  simp [bind]

/-- What an accessor of a block is. -/
theorem bind_accessor {position : Nat} {accessor : MemberSymbol}
    (found : (decl.bind scope id).accessors[position]? = some accessor) :
    ∃ clause, decl.clauses[position]? = some clause ∧
      accessor.kind = .accessor clause.kind id ∧ accessor.owner = scope.owner ∧
      accessor.target = none ∧ accessor.explicitInterface = decl.explicitInterface := by
  simp only [bind, List.map_map, List.getElem?_map, Option.map_eq_some_iff] at found
  obtain ⟨clause, listed, rfl⟩ := found
  exact ⟨clause, listed, rfl, rfl, rfl, rfl⟩

/-- The accessors of a member stand right after it, in the order of their
declarations. -/
theorem bind_head_accessor? (kind : AccessorKind) :
    (decl.bind scope id).head.accessor? kind =
      (decl.clauseKinds.idxOf? kind).map fun position => ⟨id.index + 1 + position⟩ := by
  unfold MemberSymbol.accessor?
  rw [bind_head_kind]
  cases decl with
  | method decl => rfl
  | property decl =>
    obtain ⟨_, _, _, _, _, _, getter, setter, _⟩ := decl
    cases getter <;> cases setter <;> cases kind <;> rfl
  | indexer decl =>
    obtain ⟨_, _, _, _, _, _, getter, setter, _⟩ := decl
    cases getter <;> cases setter <;> cases kind <;> rfl
  | event decl => cases kind <;> rfl

theorem bind_head_accessor?_eq_some {kind : AccessorKind} {accessorId : MemberId} :
    (decl.bind scope id).head.accessor? kind = some accessorId ↔
      ∃ position clause, decl.clauses[position]? = some clause ∧ clause.kind = kind ∧
        accessorId = ⟨id.index + 1 + position⟩ := by
  have place {position : Nat} : decl.clauseKinds.idxOf? kind = some position ↔
      ∃ clause, decl.clauses[position]? = some clause ∧ clause.kind = kind := by
    rw [idxOf?_eq_some_iff_getElem? decl.nodup_clauseKinds, clauseKinds, List.getElem?_map,
      Option.map_eq_some_iff]
  rw [bind_head_accessor?, Option.map_eq_some_iff]
  constructor
  · rintro ⟨position, found, rfl⟩
    obtain ⟨clause, listed, same⟩ := place.mp found
    exact ⟨position, clause, listed, same, rfl⟩
  · rintro ⟨position, clause, listed, same, rfl⟩
    exact ⟨position, place.mpr ⟨clause, listed, same⟩, rfl⟩

end bind

end MemberDecl

namespace MemberBlock

theorem symbols_cases {block : MemberBlock} {position : Nat} {symbol : MemberSymbol}
    (found : block.symbols[position]? = some symbol) :
    position = 0 ∧ symbol = block.head ∨
      ∃ earlier, position = earlier + 1 ∧ block.accessors[earlier]? = some symbol := by
  cases position with
  | zero => exact .inl ⟨rfl, (Option.some.inj found).symm⟩
  | succ earlier => exact .inr ⟨earlier, rfl, found⟩

end MemberBlock

/-! ## Blocks in tables -/

namespace SymbolTable

variable {table : SymbolTable}

/-- The symbols of a block stand in a table, from the id of its member on. -/
def Holds (table : SymbolTable) (id : MemberId) (block : MemberBlock) : Prop :=
  ∀ position symbol, block.symbols[position]? = some symbol →
    table.member? ⟨id.index + position⟩ = some symbol

theorem members_foldl_addMember (table : SymbolTable) (symbols : List MemberSymbol) :
    (symbols.foldl addMember table).types = table.types ∧
      (symbols.foldl addMember table).assemblies = table.assemblies ∧
      (symbols.foldl addMember table).members = table.members ++ symbols.toArray := by
  induction symbols generalizing table with
  | nil => simp
  | cons symbol symbols ih =>
    obtain ⟨types, assemblies, members⟩ := ih (table.addMember symbol)
    refine ⟨types, assemblies, members.trans ?_⟩
    simp [addMember]

section addBlock

variable (table : SymbolTable) (block : MemberBlock)

theorem assemblies_addBlock : (table.addBlock block).assemblies = table.assemblies :=
  (members_foldl_addMember table block.symbols).2.1

theorem assembly?_addBlock (id : AssemblyId) :
    (table.addBlock block).assembly? id = table.assembly? id := by
  rw [assembly?, assembly?, assemblies_addBlock]

theorem member?_addBlock (id : MemberId) :
    (table.addBlock block).member? id =
      if id.index < table.members.size then table.member? id
      else block.symbols[id.index - table.members.size]? := by
  have members := (members_foldl_addMember table block.symbols).2.2
  show (block.symbols.foldl addMember table).members[id.index]? = _
  rw [members, Array.getElem?_append]
  simp only [List.getElem?_toArray, member?]

theorem type?_addBlock (id : TypeId) :
    (table.addBlock block).type? id =
      if block.head.owner = id then (table.type? id).map fun type =>
        { type with members := type.members ++ [table.nextMember] }
      else table.type? id := by
  have types := (members_foldl_addMember table block.symbols).1
  have same (id : TypeId) : (block.symbols.foldl addMember table).type? id = table.type? id := by
    rw [type?, type?, types]
  rw [addBlock, type?_modifyType, same]

theorem holds_addBlock : (table.addBlock block).Holds table.nextMember block := by
  intro position symbol found
  rw [member?_addBlock, if_neg (by simp [nextMember])]
  simpa [nextMember] using found

end addBlock

theorem member?_addBlock_of_some {block : MemberBlock} {id : MemberId} {member : MemberSymbol}
    (found : table.member? id = some member) :
    (table.addBlock block).member? id = some member := by
  rw [member?_addBlock, if_pos (lt_of_member? found)]
  exact found

/-- A member of a table with a block is an earlier one, or stands in the block. -/
theorem member?_addBlock_cases {block : MemberBlock} {id : MemberId} {member : MemberSymbol}
    (found : (table.addBlock block).member? id = some member) :
    table.member? id = some member ∨ id = table.nextMember ∧ member = block.head ∨
      ∃ position, id = ⟨table.nextMember.index + 1 + position⟩ ∧
        block.accessors[position]? = some member := by
  rw [member?_addBlock] at found
  split at found
  · exact .inl found
  · rename_i outside
    obtain ⟨index⟩ := id
    simp only [nextMember, MemberId.mk.injEq] at outside found ⊢
    rcases block.symbols_cases found with ⟨zero, rfl⟩ | ⟨earlier, succ, listed⟩
    · exact .inr (.inl ⟨by omega, rfl⟩)
    · exact .inr (.inr ⟨earlier, by omega, listed⟩)

theorem type?_addBlock_cases {block : MemberBlock} {id : TypeId} {type : TypeSymbol}
    (found : (table.addBlock block).type? id = some type) :
    ∃ original, table.type? id = some original ∧
      (block.head.owner ≠ id ∧ type = original ∨ block.head.owner = id ∧
        type = { original with members := original.members ++ [table.nextMember] }) := by
  rw [type?_addBlock] at found
  split at found
  · rename_i same
    obtain ⟨original, known, rfl⟩ := Option.map_eq_some_iff.mp found
    exact ⟨original, known, .inr ⟨same, rfl⟩⟩
  · rename_i apart
    exact ⟨type, found, .inl ⟨apart, rfl⟩⟩

theorem type?_addBlock_of_some {block : MemberBlock} {id : TypeId} {type : TypeSymbol}
    (found : table.type? id = some type) :
    ∃ image, (table.addBlock block).type? id = some image ∧
      image = { type with members := image.members } ∧
      ∀ member ∈ type.members, member ∈ image.members := by
  rw [type?_addBlock, found]
  split
  · exact ⟨_, rfl, rfl, fun _ listed => List.mem_append_left _ listed⟩
  · exact ⟨_, rfl, rfl, fun _ listed => listed⟩

/-- A block that is bound for an existing type keeps symbols in relation. -/
theorem Laid.addBlock (laid : table.Laid) {scope : MemberScope}
    (owner : ∃ type, table.type? scope.owner = some type) (decl : MemberDecl) :
    (table.addBlock (decl.bind scope table.nextMember)).Laid where
  head {typeId type id} found listed := by
    obtain ⟨original, known, ⟨_, rfl⟩ | ⟨own, rfl⟩⟩ := type?_addBlock_cases found
    · obtain ⟨member, foundMember, facts⟩ := laid.head known listed
      exact ⟨member, member?_addBlock_of_some foundMember, facts⟩
    · rcases List.mem_append.mp listed with earlier | last
      · obtain ⟨member, foundMember, facts⟩ := laid.head known earlier
        exact ⟨member, member?_addBlock_of_some foundMember, facts⟩
      · obtain rfl := List.mem_singleton.mp last
        exact ⟨_, holds_addBlock table _ 0 _ rfl, own, decl.bind_head_clause scope _⟩
  listed {id member} found noClause := by
    rcases member?_addBlock_cases found with earlier | ⟨rfl, rfl⟩ | ⟨position, _, accessor⟩
    · obtain ⟨type, foundType, listed⟩ := laid.listed earlier noClause
      obtain ⟨image, foundImage, _, kept⟩ := type?_addBlock_of_some foundType
      exact ⟨image, foundImage, kept id listed⟩
    · obtain ⟨type, foundType⟩ := owner
      refine ⟨{ type with members := type.members ++ [table.nextMember] }, ?_, by simp⟩
      rw [type?_addBlock]
      simp [foundType]
    · obtain ⟨clause, _, kind, _⟩ := decl.bind_accessor scope _ accessor
      rw [MemberSymbol.clause?, kind] at noClause
      cases noClause
  clause {id member kind parentId} found known := by
    rcases member?_addBlock_cases found with earlier | ⟨rfl, rfl⟩ | ⟨position, rfl, accessor⟩
    · obtain ⟨parent, foundParent, facts⟩ := laid.clause earlier known
      exact ⟨parent, member?_addBlock_of_some foundParent, facts⟩
    · rw [decl.bind_head_clause] at known
      cases known
    · obtain ⟨clause, listed, isAccessor, own, _⟩ := decl.bind_accessor scope _ accessor
      rw [MemberSymbol.clause?, isAccessor] at known
      cases known
      refine ⟨_, holds_addBlock table _ 0 _ rfl, decl.bind_head_clause scope _, own.symm, ?_⟩
      exact (decl.bind_head_accessor?_eq_some scope _).mpr ⟨position, clause, listed, rfl, rfl⟩
  accessor {id member kind accessorId} found known := by
    rcases member?_addBlock_cases found with earlier | ⟨rfl, rfl⟩ | ⟨position, rfl, accessor⟩
    · obtain ⟨accessor, foundAccessor, facts⟩ := laid.accessor earlier known
      exact ⟨accessor, member?_addBlock_of_some foundAccessor, facts⟩
    · obtain ⟨position, clause, listed, rfl, rfl⟩ :=
        (decl.bind_head_accessor?_eq_some scope _).mp known
      obtain ⟨inside, _⟩ := List.getElem?_eq_some_iff.mp listed
      rw [← decl.bind_accessors_length scope table.nextMember] at inside
      have symbol := List.getElem?_eq_getElem inside
      obtain ⟨other, listedOther, isAccessor, own, _⟩ := decl.bind_accessor scope _ symbol
      cases listed.symm.trans listedOther
      refine ⟨_, ?_, ?_, own⟩
      · have held := holds_addBlock table (decl.bind scope table.nextMember) (position + 1) _ symbol
        rwa [← Nat.add_assoc, Nat.add_right_comm] at held
      · rw [MemberSymbol.clause?, isAccessor]
    · obtain ⟨clause, _, isAccessor, _⟩ := decl.bind_accessor scope _ accessor
      unfold MemberSymbol.accessor? at known
      rw [isAccessor] at known
      cases known
  members_nodup {id type} found := by
    obtain ⟨original, known, ⟨_, rfl⟩ | ⟨_, rfl⟩⟩ := type?_addBlock_cases found
    · exact laid.members_nodup known
    · refine nodup_append_singleton (laid.members_nodup known) fun listed => ?_
      obtain ⟨symbol, foundMember, _⟩ := laid.head known listed
      exact absurd (lt_of_member? foundMember) (Nat.lt_irrefl _)
  assembly {id type} found := by
    obtain ⟨original, known, ⟨_, rfl⟩ | ⟨_, rfl⟩⟩ := type?_addBlock_cases found
    all_goals
      obtain ⟨assembly, foundAssembly, listed⟩ := laid.assembly known
      exact ⟨assembly, (assembly?_addBlock ..).trans foundAssembly, listed⟩
  type {assemblyId assembly id} found listed := by
    rw [assembly?_addBlock] at found
    obtain ⟨type, foundType, own⟩ := laid.type found listed
    obtain ⟨image, foundImage, rest, _⟩ := type?_addBlock_of_some foundType
    exact ⟨image, foundImage, by rw [rest]; exact own⟩
  types_nodup found := laid.types_nodup ((assembly?_addBlock ..).symm.trans found)

/-- Blocks change no links. -/
theorem Linked.addBlock (linked : table.Linked) (block : MemberBlock) :
    (table.addBlock block).Linked where
  base {id type base} found known := by
    obtain ⟨original, foundBefore, ⟨_, rfl⟩ | ⟨_, rfl⟩⟩ := type?_addBlock_cases found
    all_goals
      obtain ⟨isClass, symbol, foundBase, kind⟩ := linked.base foundBefore known
      obtain ⟨image, foundImage, rest, _⟩ := type?_addBlock_of_some foundBase
      exact ⟨isClass, image, foundImage, by rw [rest]; exact kind⟩
  interface {id type interface} found known := by
    obtain ⟨original, foundBefore, ⟨_, rfl⟩ | ⟨_, rfl⟩⟩ := type?_addBlock_cases found
    all_goals
      obtain ⟨symbol, foundInterface, kind⟩ := linked.interface foundBefore known
      obtain ⟨image, foundImage, rest, _⟩ := type?_addBlock_of_some foundInterface
      exact ⟨image, foundImage, by rw [rest]; exact kind⟩
  nodup {id type} found := by
    obtain ⟨original, foundBefore, ⟨_, rfl⟩ | ⟨_, rfl⟩⟩ := type?_addBlock_cases found
    all_goals
      have distinct := linked.nodup foundBefore
      exact distinct

/-- The symbols of a block are not bound to targets yet. -/
theorem Targeted.addBlock (targeted : table.Targeted) (decl : MemberDecl) (scope : MemberScope) :
    (table.addBlock (decl.bind scope table.nextMember)).Targeted where
  target {id member target} found known := by
    rcases member?_addBlock_cases found with earlier | ⟨rfl, rfl⟩ | ⟨position, rfl, accessor⟩
    · obtain ⟨symbol, foundTarget, facts⟩ := targeted.target earlier known
      exact ⟨symbol, member?_addBlock_of_some foundTarget, facts⟩
    · cases known
    · obtain ⟨_, _, _, _, none, _⟩ := decl.bind_accessor scope _ accessor
      rw [none] at known
      cases known
  explicit {id member target} found noClause known := by
    rcases member?_addBlock_cases found with earlier | ⟨rfl, rfl⟩ | ⟨position, rfl, accessor⟩
    · exact targeted.explicit earlier noClause known
    · cases known
    · obtain ⟨_, _, _, _, none, _⟩ := decl.bind_accessor scope _ accessor
      rw [none] at known
      cases known

theorem WellFormed.addBlock (wellFormed : table.WellFormed) {scope : MemberScope}
    (owner : ∃ type, table.type? scope.owner = some type) (decl : MemberDecl) :
    (table.addBlock (decl.bind scope table.nextMember)).WellFormed where
  linked := wellFormed.linked.addBlock _
  laid := wellFormed.laid.addBlock owner decl
  targeted := wellFormed.targeted.addBlock decl scope

/-! ## The members of a type -/

/-- The members of some declarations were added to a type, under the given ids,
and what is wrong with them was noted. -/
structure MembersAdded (scope : MemberScope) (decls : List MemberDecl)
    (before after : SymbolTable × List Diagnostic) (ids : List MemberId) : Prop where
  assemblies : after.1.assemblies = before.1.assemblies
  members : ∀ {id symbol}, before.1.member? id = some symbol → after.1.member? id = some symbol
  types : ∀ id, after.1.type? id =
    if scope.owner = id then (before.1.type? id).map fun type =>
      { type with members := type.members ++ ids }
    else before.1.type? id
  diagnostics : before.2 ⊆ after.2
  blocks : List.Forall₂ (fun id (decl : MemberDecl) =>
    after.1.Holds id (decl.bind scope id) ∧ (decl.bind scope id).diagnostics ⊆ after.2) ids decls

theorem Holds.mono {before after : SymbolTable} {id : MemberId} {block : MemberBlock}
    (holds : before.Holds id block)
    (members : ∀ {id symbol}, before.member? id = some symbol → after.member? id = some symbol) :
    after.Holds id block :=
  fun position symbol found => members (holds position symbol found)

theorem foldl_bindMember_added (scope : MemberScope) (decls : List MemberDecl)
    (state : SymbolTable × List Diagnostic) :
    ∃ ids, MembersAdded scope decls state (decls.foldl (bindMember scope) state) ids := by
  induction decls generalizing state with
  | nil => exact ⟨[], rfl, id, fun id => by simp, fun _ inside => inside, .nil⟩
  | cons decl decls ih =>
    obtain ⟨table, diagnostics⟩ := state
    let block := decl.bind scope table.nextMember
    obtain ⟨ids, added⟩ := ih (table.addBlock block, diagnostics ++ block.diagnostics)
    refine ⟨table.nextMember :: ids, ?_, ?_, ?_, ?_, ?_⟩
    · exact added.assemblies.trans (assemblies_addBlock table block)
    · exact fun found => added.members (member?_addBlock_of_some found)
    · intro id
      have owner : block.head.owner = scope.owner := rfl
      rw [List.foldl_cons, bindMember, added.types, type?_addBlock, owner]
      split
      · rw [Option.map_map]
        congr 1
        funext type
        simp
      · rfl
    · exact fun _ inside => added.diagnostics (List.mem_append_left _ inside)
    · refine .cons ⟨(holds_addBlock table block).mono added.members, ?_⟩ added.blocks
      exact fun _ inside => added.diagnostics (List.mem_append_right _ inside)

theorem foldl_bindMember_wellFormed (scope : MemberScope) (decls : List MemberDecl)
    {state : SymbolTable × List Diagnostic} (wellFormed : state.1.WellFormed)
    (owner : ∃ type, state.1.type? scope.owner = some type) :
    (decls.foldl (bindMember scope) state).1.WellFormed := by
  induction decls generalizing state with
  | nil => exact wellFormed
  | cons decl decls ih =>
    refine ih (wellFormed.addBlock owner decl) ?_
    obtain ⟨type, found⟩ := owner
    obtain ⟨image, foundImage, _⟩ := type?_addBlock_of_some found
    exact ⟨image, foundImage⟩

/-! ## The members of an assembly -/

theorem foldl_bindMembers_wellFormed (mode : BindMode) (entries : List (TypeId × TypeDecl))
    {state : SymbolTable × List Diagnostic} (wellFormed : state.1.WellFormed) :
    (entries.foldl (bindMembers mode) state).1.WellFormed := by
  induction entries generalizing state with
  | nil => exact wellFormed
  | cons entry entries ih =>
    refine ih ?_
    unfold bindMembers
    cases found : state.1.type? entry.1 with
    | none => exact wellFormed
    | some type => exact foldl_bindMember_wellFormed _ _ wellFormed ⟨type, found⟩

/-- The members of some types were added, to each type those of its declaration. -/
structure AllMembersAdded (mode : BindMode) (entries : List (TypeId × TypeDecl))
    (before after : SymbolTable × List Diagnostic) : Prop where
  assemblies : after.1.assemblies = before.1.assemblies
  members : ∀ {id symbol}, before.1.member? id = some symbol → after.1.member? id = some symbol
  others : ∀ id, id ∉ entries.map Prod.fst → after.1.type? id = before.1.type? id
  diagnostics : before.2 ⊆ after.2
  types : ∀ entry ∈ entries, ∀ type, before.1.type? entry.1 = some type → ∃ ids,
    after.1.type? entry.1 = some { type with members := type.members ++ ids } ∧
    List.Forall₂ (fun id (decl : MemberDecl) =>
      after.1.Holds id (decl.bind (memberScope mode entry.1 type) id) ∧
        (decl.bind (memberScope mode entry.1 type) id).diagnostics ⊆ after.2) ids entry.2.members

theorem foldl_bindMembers_added (mode : BindMode) {entries : List (TypeId × TypeDecl)}
    (distinct : (entries.map Prod.fst).Nodup) (state : SymbolTable × List Diagnostic)
    (known : ∀ entry ∈ entries, ∃ type, state.1.type? entry.1 = some type) :
    AllMembersAdded mode entries state (entries.foldl (bindMembers mode) state) := by
  induction entries generalizing state with
  | nil =>
    refine ⟨rfl, id, fun _ _ => rfl, fun _ inside => inside, fun _ inside => ?_⟩
    cases inside
  | cons entry entries ih =>
    rw [List.map_cons, List.nodup_cons] at distinct
    obtain ⟨type, found⟩ := known entry List.mem_cons_self
    obtain ⟨ids, added⟩ :=
      foldl_bindMember_added (memberScope mode entry.1 type) entry.2.members state
    have step : bindMembers mode state entry =
        entry.2.members.foldl (bindMember (memberScope mode entry.1 type)) state := by
      rw [bindMembers, found]
    rw [← step] at added
    have owner : (memberScope mode entry.1 type).owner = entry.1 := rfl
    have apart (other : TypeId × TypeDecl) (listed : other ∈ entries) : entry.1 ≠ other.1 :=
      fun same => distinct.1 (same ▸ List.mem_map_of_mem listed)
    have kept (other : TypeId × TypeDecl) (listed : other ∈ entries) :
        (bindMembers mode state entry).1.type? other.1 = state.1.type? other.1 := by
      rw [added.types, owner, if_neg (apart other listed)]
    have rest := ih distinct.2 (bindMembers mode state entry) fun other listed => by
      rw [kept other listed]
      exact known other (List.mem_cons_of_mem _ listed)
    refine ⟨rest.assemblies.trans added.assemblies, fun found => rest.members (added.members found),
      fun id outside => ?_, fun _ inside => rest.diagnostics (added.diagnostics inside), ?_⟩
    · rw [List.map_cons, List.mem_cons, not_or] at outside
      rw [List.foldl_cons, rest.others id outside.2, added.types, owner,
        if_neg (Ne.symm outside.1)]
    · intro other listed symbol foundOther
      rcases List.mem_cons.mp listed with rfl | later
      · cases found.symm.trans foundOther
        refine ⟨ids, ?_, ?_⟩
        · rw [List.foldl_cons, rest.others _ distinct.1, added.types, owner, if_pos rfl, found]
          rfl
        · refine added.blocks.imp fun id decl facts => ⟨facts.1.mono rest.members, ?_⟩
          exact fun _ inside => rest.diagnostics (facts.2 inside)
      · exact rest.types other later symbol (kept other later ▸ foundOther)

/-! ## What is reported of members -/

/-- What the members of a declared type have to know of it. -/
def declaredScope (mode : BindMode) (decl : TypeDecl) (owner : TypeId) : MemberScope :=
  memberScope mode owner (shell ⟨0⟩ decl)

theorem foldl_bindMember_diagnostics (scope : MemberScope) (decls : List MemberDecl)
    (state : SymbolTable × List Diagnostic) :
    (decls.foldl (bindMember scope) state).2 =
      state.2 ++ decls.flatMap fun decl => (decl.bind scope ⟨0⟩).diagnostics := by
  induction decls generalizing state with
  | nil => exact (List.append_nil _).symm
  | cons decl decls ih =>
    have step : (bindMember scope state decl).2 =
        state.2 ++ (decl.bind scope ⟨0⟩).diagnostics :=
      congrArg (state.2 ++ ·) (decl.bind_diagnostics_elsewhere scope ⟨0⟩ scope.owner _)
    rw [List.foldl_cons, ih, step, List.flatMap_cons, List.append_assoc]

/-- The reports on the members of some types depend on their declarations only. -/
theorem foldl_bindMembers_diagnostics (mode : BindMode) (entries : List (TypeId × TypeDecl))
    (state : SymbolTable × List Diagnostic)
    (known : ∀ entry ∈ entries, ∃ type, state.1.type? entry.1 = some type ∧
      memberScope mode entry.1 type = declaredScope mode entry.2 entry.1) :
    (entries.foldl (bindMembers mode) state).2 = state.2 ++ entries.flatMap fun entry =>
      entry.2.members.flatMap fun member =>
        (member.bind (declaredScope mode entry.2 ⟨0⟩) ⟨0⟩).diagnostics := by
  induction entries generalizing state with
  | nil => exact (List.append_nil _).symm
  | cons entry entries ih =>
    obtain ⟨type, found, scope⟩ := known entry List.mem_cons_self
    have step : bindMembers mode state entry =
        entry.2.members.foldl (bindMember (declaredScope mode entry.2 entry.1)) state := by
      rw [bindMembers, found, ← scope]
    obtain ⟨ids, added⟩ :=
      foldl_bindMember_added (declaredScope mode entry.2 entry.1) entry.2.members state
    have own (member : MemberDecl) :
        (member.bind (declaredScope mode entry.2 entry.1) ⟨0⟩).diagnostics =
          (member.bind (declaredScope mode entry.2 ⟨0⟩) ⟨0⟩).diagnostics :=
      member.bind_diagnostics_elsewhere (declaredScope mode entry.2 ⟨0⟩) ⟨0⟩ entry.1 _
    rw [List.foldl_cons, ih, List.flatMap_cons, ← List.append_assoc, step,
      foldl_bindMember_diagnostics]
    · simp only [own]
    · -- Adding members does not change what members have to know of another type.
      intro other listed
      obtain ⟨symbol, foundOther, same⟩ := known other (List.mem_cons_of_mem _ listed)
      rw [step, added.types, foundOther]
      split
      · exact ⟨_, rfl, same⟩
      · exact ⟨symbol, rfl, same⟩

end SymbolTable

end Conformance
