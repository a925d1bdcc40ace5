import Conformance.Binding.Assembly
import Conformance.Proofs.Symbol.WellFormed

/-!
The fourth phase of binding: targets of explicit implementations.

What a member is bound to can be read from the table without targets
(`SymbolTable.expectedTarget?`). The phase enters these targets, and nothing
else changes (`SymbolTable.SameButTargets`).
-/

namespace Conformance

namespace SymbolTable

/-- The interface member that the member naming `interface` is bound to. -/
def boundTarget? (table : SymbolTable) (assembly : AssemblyId) (member : MemberSymbol) :
    Option ExplicitTarget := do
  let name ← member.explicitInterface
  let (typeId, type) ← table.resolve? assembly name
  if type.isInterface then
    (table.explicitTarget? type member).map fun target => ⟨typeId, target.1⟩
  else none

/-- The accessor that an accessor is bound to, if its member is bound to `target`. -/
def clauseTarget? (table : SymbolTable) (kind : AccessorKind) (target : ExplicitTarget) :
    Option ExplicitTarget := do
  let member ← table.member? target.member
  let id ← member.accessor? kind
  let accessor ← table.member? id
  if table.isExplicitCandidate accessor then some ⟨target.interface, id⟩ else none

/-- What a member or accessor is bound to, as seen from an assembly. -/
def expectedTarget? (table : SymbolTable) (assembly : AssemblyId) (member : MemberSymbol) :
    Option ExplicitTarget :=
  match member.clause? with
  | none => table.boundTarget? assembly member
  | some (kind, parentId) => do
    let parent ← table.member? parentId
    let target ← table.boundTarget? assembly parent
    table.clauseTarget? kind target

variable {table : SymbolTable}

theorem expectedTarget?_head {assembly : AssemblyId} {member : MemberSymbol}
    (noClause : member.clause? = none) :
    table.expectedTarget? assembly member = table.boundTarget? assembly member := by
  rw [expectedTarget?, noClause]

theorem expectedTarget?_clause {assembly : AssemblyId} {member parent : MemberSymbol}
    {kind : AccessorKind} {parentId : MemberId} (clause : member.clause? = some (kind, parentId))
    (found : table.member? parentId = some parent) :
    table.expectedTarget? assembly member =
      (table.boundTarget? assembly parent).bind (table.clauseTarget? kind) := by
  rw [expectedTarget?, clause]
  simp only [found, Option.bind_eq_bind, Option.bind_some]

/-! ## What targets are -/

theorem explicitTarget?_some {interface : TypeSymbol} {member : MemberSymbol}
    {found : MemberId × MemberSymbol}
    (bound : table.explicitTarget? interface member = some found) :
    found.1 ∈ interface.members ∧ table.member? found.1 = some found.2 ∧
      table.isExplicitCandidate found.2 = true ∧ member.matchesSignature found.2 = true := by
  have fits := List.find?_some bound
  have listed := member?_of_mem_membersOf (List.mem_of_find?_eq_some bound)
  rw [Bool.and_eq_true] at fits
  exact ⟨listed.1, listed.2, fits.1, fits.2⟩

theorem boundTarget?_some {assembly : AssemblyId} {member : MemberSymbol} {target : ExplicitTarget}
    (bound : table.boundTarget? assembly member = some target) :
    ∃ name type found, member.explicitInterface = some name ∧
      table.resolve? assembly name = some (target.interface, type) ∧ type.isInterface = true ∧
      table.explicitTarget? type member = some (target.member, found) := by
  obtain ⟨name, named, rest⟩ := Option.bind_eq_some_iff.mp bound
  obtain ⟨⟨typeId, type⟩, resolved, last⟩ := Option.bind_eq_some_iff.mp rest
  simp only [Option.ite_none_right_eq_some, Option.map_eq_some_iff] at last
  obtain ⟨isInterface, ⟨id, found⟩, explicit, rfl⟩ := last
  exact ⟨name, type, found, named, resolved, isInterface, explicit⟩

theorem clauseTarget?_some {kind : AccessorKind} {target clause : ExplicitTarget}
    (bound : table.clauseTarget? kind target = some clause) :
    clause.interface = target.interface ∧ ∃ member accessor,
      table.member? target.member = some member ∧ member.accessor? kind = some clause.member ∧
      table.member? clause.member = some accessor ∧
      table.isExplicitCandidate accessor = true := by
  obtain ⟨member, found, rest⟩ := Option.bind_eq_some_iff.mp bound
  obtain ⟨id, has, rest⟩ := Option.bind_eq_some_iff.mp rest
  obtain ⟨accessor, foundAccessor, last⟩ := Option.bind_eq_some_iff.mp rest
  rw [Option.ite_none_right_eq_some] at last
  obtain ⟨candidate, same⟩ := last
  cases same
  exact ⟨rfl, member, accessor, found, has, foundAccessor, candidate⟩

/-- Targets are members of the interface that they name. -/
theorem expectedTarget?_targets (laid : table.Laid) {assembly : AssemblyId}
    {member : MemberSymbol} {target : ExplicitTarget}
    (expected : table.expectedTarget? assembly member = some target) :
    ∃ symbol, table.member? target.member = some symbol ∧ symbol.owner = target.interface ∧
      symbol.clauseKind? = member.clauseKind? := by
  have head {member : MemberSymbol} {target : ExplicitTarget}
      (bound : table.boundTarget? assembly member = some target) :
      ∃ symbol, table.member? target.member = some symbol ∧ symbol.owner = target.interface ∧
        symbol.clause? = none := by
    obtain ⟨name, type, found, _, resolved, _, explicit⟩ := boundTarget?_some bound
    obtain ⟨listed, foundMember, _⟩ := explicitTarget?_some explicit
    obtain ⟨_, _, rest⟩ := Option.bind_eq_some_iff.mp resolved
    obtain ⟨symbol, foundType, same⟩ := Option.bind_eq_some_iff.mp rest
    cases same
    obtain ⟨other, foundOther, owner, noClause⟩ := laid.head foundType listed
    exact ⟨other, foundOther, owner, noClause⟩
  unfold MemberSymbol.clauseKind?
  cases clause : member.clause? with
  | none =>
    rw [expectedTarget?_head clause] at expected
    obtain ⟨symbol, found, owner, noClause⟩ := head expected
    exact ⟨symbol, found, owner, by rw [noClause]⟩
  | some entry =>
    obtain ⟨kind, parentId⟩ := entry
    rw [expectedTarget?, clause] at expected
    obtain ⟨parent, _, rest⟩ := Option.bind_eq_some_iff.mp expected
    obtain ⟨above, bound, last⟩ := Option.bind_eq_some_iff.mp rest
    obtain ⟨interface, symbol, accessor, found, has, foundAccessor, _⟩ := clauseTarget?_some last
    obtain ⟨other, foundOther, owner, _⟩ := head bound
    cases found.symm.trans foundOther
    obtain ⟨accessor', foundAccessor', isClause, own⟩ := laid.accessor found has
    exact ⟨accessor', foundAccessor', own.trans (owner.trans interface.symm), by rw [isClause]; rfl⟩

/-! ## Tables that differ in targets -/

/-- Targets aside, the members of one table are those of another, and types and
assemblies are the same. -/
structure SameButTargets (before after : SymbolTable) : Prop where
  assemblies : after.assemblies = before.assemblies
  types : after.types = before.types
  members : ∀ id, Option.Rel (fun a b : MemberSymbol => b = { a with target := b.target })
    (before.member? id) (after.member? id)

namespace SameButTargets

variable {before after : SymbolTable}

theorem refl (table : SymbolTable) : table.SameButTargets table where
  assemblies := rfl
  types := rfl
  members id := by
    cases table.member? id with
    | none => exact .none
    | some member => exact .some rfl

theorem trans {middle : SymbolTable} (first : before.SameButTargets middle)
    (second : middle.SameButTargets after) : before.SameButTargets after where
  assemblies := second.assemblies.trans first.assemblies
  types := second.types.trans first.types
  members id := rel_comp (first.members id) (second.members id) fun _ _ _ same again => by
    rw [again, same]

variable (same : before.SameButTargets after)

include same

theorem type? (id : TypeId) : after.type? id = before.type? id := by
  rw [SymbolTable.type?, SymbolTable.type?, same.types]

theorem assembly? (id : AssemblyId) : after.assembly? id = before.assembly? id := by
  rw [SymbolTable.assembly?, SymbolTable.assembly?, same.assemblies]

theorem member? {id : MemberId} {member : MemberSymbol} (found : before.member? id = some member) :
    ∃ other, after.member? id = some other ∧ other = { member with target := other.target } :=
  exists_of_rel_some (same.members id) found

theorem member?_of_after {id : MemberId} {member : MemberSymbol}
    (found : after.member? id = some member) :
    ∃ other, before.member? id = some other ∧ member = { other with target := member.target } :=
  exists_of_rel_some_right (same.members id) found

theorem resolve? (assembly : AssemblyId) (name : String) :
    after.resolve? assembly name = before.resolve? assembly name := by
  simp only [SymbolTable.resolve?, typeSeenFrom?, typeIn?, typesOf, same.type?, same.assembly?]

theorem isExplicitCandidate (member : MemberSymbol) (target : Option ExplicitTarget) :
    after.isExplicitCandidate { member with target } = before.isExplicitCandidate member := by
  unfold SymbolTable.isExplicitCandidate isImplementable
  rw [same.type?]
  rfl

omit same in
/-- Two members with their ids are the same, but for targets. -/
def Pairs (a b : MemberId × MemberSymbol) : Prop :=
  b.1 = a.1 ∧ b.2 = { a.2 with target := b.2.target }

theorem lookup_pairs (ids : List MemberId) :
    List.Forall₂ Pairs
      (ids.filterMap fun id => (before.member? id).map fun member => (id, member))
      (ids.filterMap fun id => (after.member? id).map fun member => (id, member)) := by
  induction ids with
  | nil => exact .nil
  | cons id ids ih =>
    have related := same.members id
    rw [List.filterMap_cons, List.filterMap_cons]
    generalize before.member? id = start at related ⊢
    generalize after.member? id = stop at related ⊢
    cases related with
    | none => exact ih
    | some rest => exact .cons ⟨rfl, rest⟩ ih

theorem membersOf (type : TypeSymbol) :
    List.Forall₂ Pairs (before.membersOf type) (after.membersOf type) :=
  same.lookup_pairs type.members

theorem accessorsOf (member : MemberSymbol) (target : Option ExplicitTarget) :
    List.Forall₂ Pairs (before.accessorsOf member) (after.accessorsOf { member with target }) :=
  same.lookup_pairs member.accessors

/-- Which member fits does not depend on targets. -/
theorem explicitTarget? (type : TypeSymbol) (member : MemberSymbol)
    (target : Option ExplicitTarget) :
    (after.explicitTarget? type { member with target }).map Prod.fst =
      (before.explicitTarget? type member).map Prod.fst := by
  have pairs := same.membersOf type
  unfold SymbolTable.explicitTarget?
  generalize before.membersOf type = earlier at pairs ⊢
  generalize after.membersOf type = later at pairs ⊢
  induction pairs with
  | nil => rfl
  | @cons a b as bs head _ ih =>
    have fits : (after.isExplicitCandidate b.2 &&
        { member with target }.matchesSignature b.2) =
          (before.isExplicitCandidate a.2 && member.matchesSignature a.2) := by
      rw [head.2, same.isExplicitCandidate]
      rfl
    rw [List.find?_cons, List.find?_cons, fits]
    split
    · exact congrArg some head.1
    · exact ih

theorem boundTarget? (assembly : AssemblyId) (member : MemberSymbol)
    (target : Option ExplicitTarget) :
    after.boundTarget? assembly { member with target } = before.boundTarget? assembly member := by
  have bound (typeId : TypeId) (type : TypeSymbol) :
      (after.explicitTarget? type { member with target }).map
          (fun found => ExplicitTarget.mk typeId found.1) =
        (before.explicitTarget? type member).map fun found => ExplicitTarget.mk typeId found.1 := by
    have ids := congrArg (Option.map (ExplicitTarget.mk typeId))
      (same.explicitTarget? type member target)
    rwa [Option.map_map, Option.map_map] at ids
  simp only [SymbolTable.boundTarget?, same.resolve?, bound]

theorem clauseTarget? (kind : AccessorKind) (target : ExplicitTarget) :
    after.clauseTarget? kind target = before.clauseTarget? kind target := by
  unfold SymbolTable.clauseTarget?
  refine bind_eq_bind_of_rel (same.members target.member) fun member other rest => ?_
  have has : other.accessor? kind = member.accessor? kind := by
    rw [rest]
    rfl
  rw [has]
  refine congrArg _ (funext fun id => bind_eq_bind_of_rel (same.members id) fun a b rest => ?_)
  rw [rest, same.isExplicitCandidate]

/-- What members are to be bound to does not depend on targets. -/
theorem expectedTarget? (assembly : AssemblyId) (member : MemberSymbol)
    (target : Option ExplicitTarget) :
    after.expectedTarget? assembly { member with target } =
      before.expectedTarget? assembly member := by
  have clause : { member with target }.clause? = member.clause? := rfl
  unfold SymbolTable.expectedTarget?
  rw [clause]
  cases member.clause? with
  | none => exact same.boundTarget? assembly member target
  | some entry =>
    obtain ⟨kind, parentId⟩ := entry
    refine bind_eq_bind_of_rel (same.members parentId) fun a b rest => ?_
    rw [rest, same.boundTarget?]
    exact congrArg _ (funext fun target => same.clauseTarget? kind target)

theorem linked (linked : before.Linked) : after.Linked where
  base found known := by
    rw [same.type?] at found ⊢
    exact linked.base found known
  interface found known := by
    rw [same.type?] at found ⊢
    exact linked.interface found known
  nodup found := linked.nodup (same.type? _ ▸ found)

/-- Targets take no part in how symbols refer to each other. -/
theorem laid (laid : before.Laid) : after.Laid where
  head found listed := by
    obtain ⟨member, foundMember, owner, noClause⟩ := laid.head (same.type? _ ▸ found) listed
    obtain ⟨image, foundImage, rest⟩ := same.member? foundMember
    exact ⟨image, foundImage, by rw [rest]; exact owner, by rw [rest]; exact noClause⟩
  listed found noClause := by
    obtain ⟨original, foundBefore, rest⟩ := same.member?_of_after found
    rw [rest] at noClause
    obtain ⟨type, foundType, listed⟩ := laid.listed foundBefore noClause
    exact ⟨type, by rw [rest, same.type?]; exact foundType, listed⟩
  clause found known := by
    obtain ⟨original, foundBefore, rest⟩ := same.member?_of_after found
    rw [rest] at known
    obtain ⟨parent, foundParent, noClause, owner, has⟩ := laid.clause foundBefore known
    obtain ⟨image, foundImage, restParent⟩ := same.member? foundParent
    refine ⟨image, foundImage, ?_, ?_, ?_⟩
    · rw [restParent]
      exact noClause
    · rw [restParent, rest]
      exact owner
    · rw [restParent]
      exact has
  accessor found known := by
    obtain ⟨original, foundBefore, rest⟩ := same.member?_of_after found
    rw [rest] at known
    obtain ⟨accessor, foundAccessor, isClause, owner⟩ := laid.accessor foundBefore known
    obtain ⟨image, foundImage, restAccessor⟩ := same.member? foundAccessor
    refine ⟨image, foundImage, ?_, ?_⟩
    · rw [restAccessor]
      exact isClause
    · rw [restAccessor, rest]
      exact owner
  members_nodup found := laid.members_nodup (same.type? _ ▸ found)
  assembly found := by
    obtain ⟨assembly, foundAssembly, listed⟩ := laid.assembly (same.type? _ ▸ found)
    exact ⟨assembly, same.assembly? _ ▸ foundAssembly, listed⟩
  type found listed := by
    obtain ⟨type, foundType, own⟩ := laid.type (same.assembly? _ ▸ found) listed
    exact ⟨type, same.type? _ ▸ foundType, own⟩
  types_nodup found := laid.types_nodup (same.assembly? _ ▸ found)

end SameButTargets

/-! ## Entering targets -/

/-- Enters targets. -/
def setTargets (table : SymbolTable) (entries : List (MemberId × ExplicitTarget)) : SymbolTable :=
  entries.foldl setTarget table

theorem member?_setTargets (table : SymbolTable) (entries : List (MemberId × ExplicitTarget))
    (id : MemberId) :
    (table.setTargets entries).member? id = (table.member? id).map fun member =>
      { member with
        target := ((entries.reverse.find? fun entry => entry.1 = id).map Prod.snd).or
          member.target } := by
  unfold setTargets
  induction entries generalizing table with
  | nil => simp
  | cons entry entries ih =>
    rw [List.foldl_cons, ih, setTarget, member?_modifyMember, List.reverse_cons, List.find?_append,
      List.find?_singleton]
    by_cases same : entry.1 = id
    · rw [if_pos same, Option.map_map]
      congr 1
      funext member
      simp only [Function.comp_apply, same, decide_true, if_true]
      cases entries.reverse.find? fun entry => entry.1 = id <;> rfl
    · rw [if_neg same]
      simp [same]

theorem sameButTargets_setTargets (table : SymbolTable)
    (entries : List (MemberId × ExplicitTarget)) :
    table.SameButTargets (table.setTargets entries) := by
  unfold setTargets
  induction entries generalizing table with
  | nil => exact .refl table
  | cons entry entries ih =>
    have step : table.SameButTargets (table.setTarget entry) := by
      refine ⟨rfl, rfl, fun id => ?_⟩
      rw [setTarget, member?_modifyMember]
      cases table.member? id with
      | none => split <;> exact .none
      | some member => split <;> exact .some rfl
    exact step.trans (ih (table.setTarget entry))

/-! ## The targets of the members of some types -/

/-- The targets of the members of some types. -/
def targetEntries (table : SymbolTable) (assembly : AssemblyId) (types : List TypeId) :
    List (MemberId × ExplicitTarget) :=
  (types.flatMap (table.targetsOf assembly)).flatMap TargetBinding.targets

variable {table : SymbolTable} {assembly : AssemblyId}

theorem mem_targets_bindAccessorTarget {interface : TypeId} {target : MemberSymbol}
    {accessor : MemberId × MemberSymbol} {entry : MemberId × ExplicitTarget} :
    entry ∈ (table.bindAccessorTarget interface target accessor).targets ↔
      entry.1 = accessor.1 ∧ ∃ kind parent id member, accessor.2.clause? = some (kind, parent) ∧
        target.accessor? kind = some id ∧ table.member? id = some member ∧
        table.isExplicitCandidate member = true ∧ entry.2 = ⟨interface, id⟩ := by
  unfold bindAccessorTarget
  cases clause : accessor.2.clause? with
  | none => simp
  | some found =>
    obtain ⟨kind, parent⟩ := found
    cases has : target.accessor? kind with
    | none => simp [has]
    | some id =>
      cases foundMember : table.member? id with
      | none => simp [has, foundMember]
      | some member =>
        by_cases candidate : table.isExplicitCandidate member = true
        · simp [has, foundMember, candidate, Prod.ext_iff]
        · simp [has, foundMember, candidate]

theorem mem_targetEntries {types : List TypeId} {entry : MemberId × ExplicitTarget} :
    entry ∈ table.targetEntries assembly types ↔
      ∃ typeId ∈ types, ∃ type, table.type? typeId = some type ∧ ∃ head ∈ table.membersOf type,
        ∃ name, head.2.explicitInterface = some name ∧
          entry ∈ (table.bindTarget assembly head.1 head.2 name).targets := by
  unfold targetEntries targetsOf
  simp only [List.mem_flatMap]
  constructor
  · rintro ⟨binding, ⟨typeId, inside, listed⟩, has⟩
    cases found : table.type? typeId with
    | none => simp [found] at listed
    | some type =>
      rw [found] at listed
      obtain ⟨head, member, bound⟩ := List.mem_filterMap.mp listed
      obtain ⟨name, named, rfl⟩ := Option.map_eq_some_iff.mp bound
      exact ⟨typeId, inside, type, found, head, member, name, named, has⟩
  · rintro ⟨typeId, inside, type, found, head, member, name, named, has⟩
    refine ⟨_, ⟨typeId, inside, ?_⟩, has⟩
    rw [found]
    exact List.mem_filterMap.mpr ⟨head, member, by rw [named]; rfl⟩

/-- The entries of a member that names an interface: its own target, and those
of its accessors. -/
theorem mem_targets_bindTarget {id : MemberId} {member : MemberSymbol} {name : String}
    (named : member.explicitInterface = some name) {entry : MemberId × ExplicitTarget} :
    entry ∈ (table.bindTarget assembly id member name).targets ↔
      ∃ target, table.boundTarget? assembly member = some target ∧
        (entry = (id, target) ∨ ∃ accessor ∈ table.accessorsOf member, entry.1 = accessor.1 ∧
          ∃ kind parent, accessor.2.clause? = some (kind, parent) ∧
            table.clauseTarget? kind target = some entry.2) := by
  unfold bindTarget boundTarget?
  rw [named]
  cases resolved : table.resolve? assembly name with
  | none => simp [resolved]
  | some found =>
    obtain ⟨typeId, type⟩ := found
    cases isInterface : type.isInterface with
    | false => simp [resolved, isInterface]
    | true =>
      cases explicit : table.explicitTarget? type member with
      | none => simp [resolved, isInterface, explicit]
      | some target =>
        obtain ⟨_, foundTarget, _⟩ := explicitTarget?_some explicit
        have clause (accessor : MemberId × MemberSymbol) :
            entry ∈ (table.bindAccessorTarget typeId target.2 accessor).targets ↔
              entry.1 = accessor.1 ∧ ∃ kind parent, accessor.2.clause? = some (kind, parent) ∧
                table.clauseTarget? kind ⟨typeId, target.1⟩ = some entry.2 := by
          rw [mem_targets_bindAccessorTarget]
          simp only [clauseTarget?, foundTarget, Option.bind_eq_bind, Option.bind_some,
            Option.bind_eq_some_iff, Option.ite_none_right_eq_some, Option.some.injEq]
          constructor
          · rintro ⟨same, kind, parent, id, symbol, isClause, has, known, candidate, bound⟩
            exact ⟨same, kind, parent, isClause, id, has, symbol, known, candidate, bound.symm⟩
          · rintro ⟨same, kind, parent, isClause, id, has, symbol, known, candidate, bound⟩
            exact ⟨same, kind, parent, id, symbol, isClause, has, known, candidate, bound.symm⟩
        simp [resolved, isInterface, explicit, clause]

/-- The entries for the members of some types are their expected targets. -/
theorem mem_targetEntries_iff (laid : table.Laid) {types : List TypeId}
    {entry : MemberId × ExplicitTarget} :
    entry ∈ table.targetEntries assembly types ↔
      ∃ member, table.member? entry.1 = some member ∧ member.owner ∈ types ∧
        table.expectedTarget? assembly member = some entry.2 := by
  rw [mem_targetEntries]
  constructor
  · rintro ⟨typeId, inside, type, found, head, listed, name, named, has⟩
    obtain ⟨own, foundHead⟩ := member?_of_mem_membersOf listed
    obtain ⟨symbol, foundSymbol, owner, noClause⟩ := laid.head found own
    cases foundHead.symm.trans foundSymbol
    obtain ⟨target, bound, rfl | ⟨accessor, of, same, kind, parent, isClause, clauseBound⟩⟩ :=
      (mem_targets_bindTarget named).mp has
    · exact ⟨head.2, foundHead, owner ▸ inside, (expectedTarget?_head noClause).trans bound⟩
    · obtain ⟨ofHead, foundAccessor⟩ := member?_of_mem_accessorsOf of
      obtain ⟨other, has⟩ := MemberSymbol.mem_accessors.mp ofHead
      obtain ⟨isClause', owner'⟩ := laid.of_accessor foundHead has foundAccessor
      cases isClause.symm.trans isClause'
      refine ⟨accessor.2, same ▸ foundAccessor, owner'.trans owner ▸ inside, ?_⟩
      rw [expectedTarget?_clause isClause foundHead, bound]
      exact clauseBound
  · rintro ⟨member, found, inside, expected⟩
    cases clause : member.clause? with
    | none =>
      obtain ⟨type, foundType, listed⟩ := laid.listed found clause
      rw [expectedTarget?_head clause] at expected
      obtain ⟨name, _, _, named, _⟩ := boundTarget?_some expected
      exact ⟨member.owner, inside, type, foundType, (entry.1, member), mem_membersOf listed found,
        name, named, (mem_targets_bindTarget named).mpr ⟨entry.2, expected, .inl rfl⟩⟩
    | some part =>
      obtain ⟨kind, parentId⟩ := part
      obtain ⟨parent, foundParent, noClause, owner, has⟩ := laid.clause found clause
      obtain ⟨type, foundType, listed⟩ := laid.listed foundParent noClause
      rw [expectedTarget?_clause clause foundParent] at expected
      obtain ⟨target, bound, clauseBound⟩ := Option.bind_eq_some_iff.mp expected
      obtain ⟨name, _, _, named, _⟩ := boundTarget?_some bound
      refine ⟨parent.owner, owner ▸ inside, type, foundType, (parentId, parent),
        mem_membersOf listed foundParent, name, named, (mem_targets_bindTarget named).mpr
          ⟨target, bound, .inr ⟨(entry.1, member), ?_, rfl, kind, parentId, clause, clauseBound⟩⟩⟩
      exact mem_accessorsOf (MemberSymbol.mem_accessors.mpr ⟨kind, has⟩) found

/-- Every member of the types is bound to what it is expected to be bound to,
and no other member is touched. -/
theorem member?_setTargets_targetEntries (laid : table.Laid) (types : List TypeId) {id : MemberId}
    {member : MemberSymbol} (found : table.member? id = some member) :
    (table.setTargets (table.targetEntries assembly types)).member? id = some { member with
      target :=
        if member.owner ∈ types then (table.expectedTarget? assembly member).or member.target
        else member.target } := by
  rw [member?_setTargets, found, Option.map_some]
  congr 2
  cases last : (table.targetEntries assembly types).reverse.find? fun entry => entry.1 = id with
  | none =>
    have absent (target : ExplicitTarget) :
        (id, target) ∉ table.targetEntries assembly types := by
      intro inside
      have apart := List.find?_eq_none.mp last _ (List.mem_reverse.mpr inside)
      simp at apart
    split
    · rename_i inside
      cases expected : table.expectedTarget? assembly member with
      | none => rfl
      | some target =>
        exact absurd ((mem_targetEntries_iff laid).mpr ⟨member, found, inside, expected⟩)
          (absent target)
    · rfl
  | some entry =>
    have same : entry.1 = id := by
      have fits := List.find?_some last
      simpa using fits
    have listed := List.mem_reverse.mp (List.mem_of_find?_eq_some last)
    obtain ⟨symbol, foundSymbol, inside, expected⟩ := (mem_targetEntries_iff laid).mp listed
    rw [same, found] at foundSymbol
    cases foundSymbol
    rw [if_pos inside, expected]
    rfl

end SymbolTable

end Conformance
