import Conformance.Compilation.ImplementationMap
import Conformance.Proofs.Binding.Blocks
import Conformance.Proofs.Compilation.Checks

/-!
What a class or struct has to implement.

The implementation map has an entry for every member and accessor that a type has to
implement, and the checks report what is wrong with them. The map asks for all of them, the
checks for the accessors of a member only if a property or event implements it. What the
checks report can still be found entry by entry (`Lookups.filter_checkImplementations`).
-/

namespace Conformance

/-- What is reported of a member without implementation. -/
def Rule.ofMissing : List Rule := [notImplemented, candidateStatic, candidateNotPublic]

/-- What is reported of a single member or accessor that a type has to implement. -/
def Rule.ofObligations : List Rule :=
  [notImplemented, candidateStatic, candidateNotPublic, runtimeLacksDefaultFor]

namespace Lookups

open SymbolTable (member?_of_mem_membersOf member?_of_mem_accessorsOf)

variable (lookups : Lookups Id) (table : SymbolTable) (assembly : AssemblyId) (typeId : TypeId)
  (type : TypeSymbol)

/-- What a type has to implement: members of its interfaces, and their accessors. -/
def obligations : List (MemberId × MemberSymbol) :=
  ((lookups.interfaces typeId).run.filterMap table.type?).flatMap fun interface =>
    ((table.membersOf interface).flatMap fun member => member :: table.accessorsOf member.2).filter
      fun entry => table.isImplementable entry.2

/-- Whether the checks look at a member or accessor by itself. Those of members that are not
implemented, or implement themselves, they do not. -/
def isChecked (member : MemberSymbol) : Bool :=
  match member.clause? with
  | none => true
  | some (_, parent) =>
    match (lookups.resolve table typeId parent).run.source? with
    | some .explicit => true
    | some .implicit => true
    | _ => false

/-- What is wrong with the implementation of a member or accessor. -/
def shortcoming? (entry : MemberId × MemberSymbol) : Option Diagnostic :=
  match (lookups.resolve table typeId entry.1).run.source? with
  | none => some (notImplemented table typeId type entry.1
      (lookups.resolve table typeId entry.1).run.closeMismatch)
  | some .default =>
    if (table.type? entry.2.owner).map TypeSymbol.assembly = some assembly ∨
        (lookups.runtime assembly).run = true then none
    else some (table.useSite type entry.2)
  | some _ => none

/-- What is reported of a member or accessor. -/
def finding? (entry : MemberId × MemberSymbol) : Option Diagnostic :=
  if lookups.isChecked table typeId entry.2 then
    lookups.shortcoming? table assembly typeId type entry
  else none

variable {lookups table assembly typeId type} {entry : MemberId × MemberSymbol}
  {member : MemberSymbol}

/-! ## Entries of the map -/

theorem implementationEntries_run (foundType : table.type? typeId = some type)
    (isClass : type.isInterface = false) :
    (lookups.implementationEntries table typeId).run =
      (lookups.obligations table typeId).map fun entry =>
        (lookups.implementationEntry table typeId entry.1).run := by
  have ids (interface : TypeSymbol) : implementableMembers table interface =
      (((table.membersOf interface).flatMap fun member =>
        member :: table.accessorsOf member.2).filter fun entry =>
          table.isImplementable entry.2).map Prod.fst := by
    rw [implementableMembers, ← List.filterMap_eq_map, List.filterMap_filter]
    rfl
  have entries : (lookups.implementationEntries table typeId).run =
      (((lookups.interfaces typeId).run.filterMap table.type?).flatMap
        (implementableMembers table)).map fun id =>
          (lookups.implementationEntry table typeId id).run := by
    rw [← List.idRun_mapM]
    unfold implementationEntries
    rw [foundType, Option.any_some, isClass]
    rfl
  rw [entries, obligations, List.map_flatMap, List.map_flatMap]
  refine List.flatMap_congr fun interface _ => ?_
  rw [ids, List.map_map]
  rfl

/-! ## Findings -/

theorem shortcoming?_breaks {diagnostic : Diagnostic}
    (short : lookups.shortcoming? table assembly typeId type entry = some diagnostic) :
    diagnostic.Breaks Rule.ofObligations := by
  unfold shortcoming? at short
  split at short
  · cases short
    exact (notImplemented_breaks _ _).mono (by decide)
  · split at short
    · cases short
    · cases short
      exact (useSite_breaks _).mono (by decide)
  · cases short

theorem filter_shortcoming? :
    (lookups.shortcoming? table assembly typeId type entry).toList.filter
        (fun diagnostic => diagnostic.Breaks Rule.ofObligations) =
      (lookups.shortcoming? table assembly typeId type entry).toList := by
  refine Reports.filter_self fun diagnostic inside => ?_
  exact shortcoming?_breaks (Option.mem_toList.mp inside)

theorem isChecked_head (noClause : member.clause? = none) :
    lookups.isChecked table typeId member = true := by
  rw [isChecked, noClause]

theorem finding?_of_checked (checked : lookups.isChecked table typeId entry.2 = true) :
    lookups.finding? table assembly typeId type entry =
      lookups.shortcoming? table assembly typeId type entry :=
  if_pos checked

section

variable (laid : table.Laid) (foundType : table.type? typeId = some type)
  (found : table.member? entry.1 = some entry.2)

include laid foundType found

/-- What is reported of a body that implements its own member. -/
theorem checkDefaultUse_eq
    (isDefault : (lookups.resolve table typeId entry.1).run.source? = some .default) :
    (lookups.checkDefaultUse table assembly type entry.1 entry.2).run =
      (lookups.shortcoming? table assembly typeId type entry).toList := by
  have bodied := hasImplementation_of_default laid foundType found isDefault
  rw [lookups.checkDefaultUse_run found bodied, shortcoming?, isDefault]
  simp only
  split <;> rfl

theorem checkClause_eq :
    (lookups.checkClause table assembly typeId type entry).run =
      if table.isImplementable entry.2 then
        (lookups.shortcoming? table assembly typeId type entry).toList
      else [] := by
  rw [checkClause_run]
  cases source : (lookups.resolve table typeId entry.1).run.source? with
  | none => rw [shortcoming?, source]; rfl
  | some found =>
    cases found with
    | default =>
      simp only
      rw [checkDefaultUse_eq laid foundType found source]
    | explicit => rw [shortcoming?, source]; rfl
    | implicit => rw [shortcoming?, source]; rfl

omit foundType in
/-- Whether an accessor is looked at depends on what implements its member. -/
theorem isChecked_accessor {accessor : MemberId × MemberSymbol}
    (listed : accessor ∈ table.accessorsOf entry.2) :
    lookups.isChecked table typeId accessor.2 =
      match (lookups.resolve table typeId entry.1).run.source? with
      | some .explicit => true
      | some .implicit => true
      | _ => false := by
  rcases laid.of_mem_accessorsOf found listed with ⟨kind, _, isClause, _⟩
  rw [isChecked, isClause]

omit laid foundType found in
/-- Accessors are passed over where nothing else implements their member. -/
theorem accessors_passed (unchecked : ∀ accessor ∈ table.accessorsOf entry.2,
      lookups.isChecked table typeId accessor.2 = false) :
    ((table.accessorsOf entry.2).filter fun entry => table.isImplementable entry.2).filterMap
      (lookups.finding? table assembly typeId type) = [] := by
  refine List.filterMap_eq_nil_iff.mpr fun accessor listed => ?_
  rw [finding?, unchecked accessor (List.mem_filter.mp listed).1, if_neg Bool.false_ne_true]

omit found in
/-- Otherwise each is looked at. -/
theorem filter_checkClauses (checked : ∀ accessor ∈ table.accessorsOf entry.2,
      lookups.isChecked table typeId accessor.2 = true) :
    ((table.accessorsOf entry.2).map fun accessor =>
      (lookups.checkClause table assembly typeId type accessor).run).flatten.filter
        (fun diagnostic => diagnostic.Breaks Rule.ofObligations) =
    ((table.accessorsOf entry.2).filter fun entry => table.isImplementable entry.2).filterMap
      (lookups.finding? table assembly typeId type) := by
  rw [← List.flatMap_def, List.filter_flatMap, List.filterMap_filter,
    List.filterMap_eq_flatMap_toList]
  refine List.flatMap_congr fun accessor listed => ?_
  rw [checkClause_eq laid foundType (member?_of_mem_accessorsOf listed).2,
    finding?_of_checked (checked accessor listed)]
  split
  · exact filter_shortcoming?
  · rfl

/-- What the checks report of a member and its accessors is what is found of them one by
one. -/
theorem filter_checkMember (noClause : entry.2.clause? = none)
    (implementable : table.isImplementable entry.2 = true) :
    (lookups.checkMember table assembly typeId type entry).run.filter
        (fun diagnostic => diagnostic.Breaks Rule.ofObligations) =
      ((entry :: table.accessorsOf entry.2).filter fun entry =>
        table.isImplementable entry.2).filterMap
          (lookups.finding? table assembly typeId type) := by
  have head : lookups.finding? table assembly typeId type entry =
      lookups.shortcoming? table assembly typeId type entry :=
    finding?_of_checked (isChecked_head noClause)
  have cons (entries : List (MemberId × MemberSymbol)) :
      (entry :: entries).filterMap (lookups.finding? table assembly typeId type) =
        (lookups.shortcoming? table assembly typeId type entry).toList ++
          entries.filterMap (lookups.finding? table assembly typeId type) := by
    rw [List.filterMap_cons, head]
    cases lookups.shortcoming? table assembly typeId type entry <;> rfl
  have short : (lookups.shortcoming? table assembly typeId type entry).toList.filter
      (fun diagnostic => diagnostic.Breaks Rule.ofObligations) = _ := filter_shortcoming?
  have looked {accessor : MemberId × MemberSymbol} (listed : accessor ∈ table.accessorsOf entry.2) :
      lookups.isChecked table typeId accessor.2 = _ := isChecked_accessor laid found listed
  rw [List.filter_cons, if_pos implementable, cons, checkMember_run]
  cases implementation : (lookups.resolve table typeId entry.1).run.implementation with
  | none =>
    have source : (lookups.resolve table typeId entry.1).run.source? = none :=
      congrArg (Option.map Implementation.source) implementation
    rw [accessors_passed fun accessor listed => by rw [looked listed, source],
      List.append_nil, ← short, shortcoming?, source]
    rfl
  | some answer =>
    obtain ⟨answer, how⟩ := answer
    have source : (lookups.resolve table typeId entry.1).run.source? = some how :=
      congrArg (Option.map Implementation.source) implementation
    cases how with
    | default =>
      rw [accessors_passed fun accessor listed => by rw [looked listed, source],
        List.append_nil, ← short, ← checkDefaultUse_eq laid foundType found source]
    | explicit =>
      rw [← filter_checkClauses laid foundType fun accessor listed => by
        rw [looked listed, source], shortcoming?, source]
      rfl
    | implicit =>
      have returns : Reports [.candidateReturnType]
          (checkReturnType table typeId type entry.1 entry.2 answer) :=
        checkReturnType_report _ _ _
      rw [← filter_checkClauses laid foundType fun accessor listed => by
        rw [looked listed, source], shortcoming?, source]
      simp only [if_true]
      rw [List.filter_append, returns.filter_others (by decide)]
      rfl

/-- Nothing is found of a member that types cannot implement, nor of its accessors. -/
theorem findings_of_not_implementable (noClause : entry.2.clause? = none)
    (implementable : ¬ table.isImplementable entry.2 = true) :
    ((entry :: table.accessorsOf entry.2).filter fun entry =>
      table.isImplementable entry.2).filterMap
        (lookups.finding? table assembly typeId type) = [] := by
  have missing : (lookups.resolve table typeId entry.1).run.source? = none := by
    rw [resolve_head foundType found noClause, whenImplemented_run,
      if_neg fun both => implementable both.1]
    rfl
  rw [List.filter_cons, if_neg implementable]
  refine accessors_passed fun accessor listed => ?_
  rw [isChecked_accessor laid found listed, missing]

end

/-- What the checks report of a class or struct is what is found of what it has to
implement. -/
theorem filter_checkImplementations (laid : table.Laid)
    (foundType : table.type? typeId = some type) :
    (lookups.checkImplementations table assembly typeId type).run.filter
        (fun diagnostic => diagnostic.Breaks Rule.ofObligations) =
      (lookups.obligations table typeId).filterMap
        (lookups.finding? table assembly typeId type) := by
  rw [checkImplementations_run, ← List.flatMap_def, List.filter_flatMap, List.flatMap_assoc,
    obligations, List.filterMap_flatMap]
  refine List.flatMap_congr fun interface listed => ?_
  rcases List.mem_filterMap.mp listed with ⟨interfaceId, _, foundInterface⟩
  rw [flatMap_filter, List.filter_flatMap, List.filterMap_flatMap]
  refine List.flatMap_congr fun entry inside => ?_
  rcases laid.of_mem_membersOf foundInterface inside with ⟨found, _, noClause⟩
  split
  · rename_i implementable
    exact filter_checkMember laid foundType found noClause implementable
  · rename_i implementable
    exact (findings_of_not_implementable laid foundType found noClause implementable).symm

/-! ## What has to be implemented -/

/-- A member and its accessors, with their ids. -/
theorem mem_block (laid : table.Laid) {head : MemberId × MemberSymbol}
    (foundHead : table.member? head.1 = some head.2) (noClause : head.2.clause? = none)
    (listed : entry ∈ head :: table.accessorsOf head.2) :
    table.member? entry.1 = some entry.2 ∧ entry.2.owner = head.2.owner ∧
      (entry.2.clause?.map Prod.snd).getD entry.1 = head.1 := by
  rcases List.mem_cons.mp listed with rfl | isAccessor
  · exact ⟨foundHead, rfl, by rw [noClause]; rfl⟩
  · rcases laid.of_mem_accessorsOf foundHead isAccessor with ⟨kind, found, isClause, owner⟩
    exact ⟨found, owner, by rw [isClause]; rfl⟩

theorem mem_obligations (laid : table.Laid) :
    entry ∈ lookups.obligations table typeId ↔ table.member? entry.1 = some entry.2 ∧
      table.isImplementable entry.2 = true ∧
        entry.2.owner ∈ (lookups.interfaces typeId).run := by
  unfold obligations
  simp only [List.mem_flatMap, List.mem_filter, List.mem_filterMap]
  constructor
  · intro listed
    rcases listed with ⟨interface, ⟨id, inside, foundInterface⟩, ⟨head, isHead, ofHead⟩,
      implementable⟩
    rcases laid.of_mem_membersOf foundInterface isHead with ⟨foundHead, owner, noClause⟩
    rcases mem_block laid foundHead noClause ofHead with ⟨found, sameOwner, _⟩
    exact ⟨found, implementable, sameOwner ▸ owner ▸ inside⟩
  · intro obliged
    rcases obliged with ⟨found, implementable, inside⟩
    cases clause : entry.2.clause? with
    | none =>
      rcases laid.listed found clause with ⟨interface, foundInterface, own⟩
      exact ⟨interface, ⟨_, inside, foundInterface⟩, ⟨entry, SymbolTable.mem_membersOf own found,
        List.mem_cons_self⟩, implementable⟩
    | some part =>
      obtain ⟨kind, parentId⟩ := part
      rcases laid.clause found clause with ⟨parent, foundParent, noClause, owner, has⟩
      rcases laid.listed foundParent noClause with ⟨interface, foundInterface, own⟩
      refine ⟨interface, ⟨_, owner ▸ inside, foundInterface⟩, ⟨(parentId, parent),
        SymbolTable.mem_membersOf own foundParent, List.mem_cons_of_mem _ ?_⟩, implementable⟩
      exact SymbolTable.mem_accessorsOf (MemberSymbol.mem_accessors.mpr ⟨kind, has⟩) found

/-- A member and its accessors are different members. -/
theorem block_nodup (laid : table.Laid) {head : MemberId × MemberSymbol}
    (foundHead : table.member? head.1 = some head.2) (noClause : head.2.clause? = none) :
    (head :: table.accessorsOf head.2).Nodup := by
  refine List.nodup_cons.mpr ⟨fun listed => ?_, ?_⟩
  · rcases laid.of_mem_accessorsOf foundHead listed with ⟨_, _, isClause, _⟩
    cases noClause.symm.trans isClause
  · have accessors := laid.accessors_nodup foundHead
    exact .of_map Prod.fst ((table.sublist_accessorsOf head.2).nodup accessors)

/-- Members that types can implement are different members. -/
theorem implementable_nodup (laid : table.Laid) {interface : TypeId} {symbol : TypeSymbol}
    (found : table.type? interface = some symbol) :
    ((table.membersOf symbol).flatMap fun member =>
      member :: table.accessorsOf member.2).Nodup := by
  have members := (table.sublist_membersOf symbol).nodup (laid.members_nodup found)
  apply nodup_flatMap_of_key members (fun head isHead => ?_) fun head isHead entry ofHead => ?_
  · exact fun entry => (entry.2.clause?.map Prod.snd).getD entry.1
  · rcases laid.of_mem_membersOf found isHead with ⟨foundHead, _, noClause⟩
    exact block_nodup laid foundHead noClause
  · rcases laid.of_mem_membersOf found isHead with ⟨foundHead, _, noClause⟩
    exact (mem_block laid foundHead noClause ofHead).2.2

/-- Nothing has to be implemented twice. -/
theorem obligations_nodup (laid : table.Laid) (distinct : (lookups.interfaces typeId).run.Nodup) :
    ((lookups.obligations table typeId).map Prod.fst).Nodup := by
  have entries : (lookups.obligations table typeId).Nodup := by
    rw [obligations, List.filterMap_eq_flatMap_toList, List.flatMap_assoc]
    rw [← List.map_id (lookups.interfaces typeId).run] at distinct
    apply nodup_flatMap_of_key distinct (fun interface _ => ?_) fun interface _ entry listed => ?_
    · exact fun entry => entry.2.owner
    · cases found : table.type? interface with
      | none => exact .nil
      | some symbol =>
        rw [Option.toList_some, List.flatMap_singleton]
        exact (implementable_nodup laid found).filter _
    · rcases List.mem_flatMap.mp listed with ⟨symbol, isSymbol, inside⟩
      rcases List.mem_flatMap.mp (List.mem_filter.mp inside).1 with ⟨head, isHead, ofHead⟩
      rcases laid.of_mem_membersOf (Option.mem_toList.mp isSymbol) isHead with
        ⟨foundHead, owner, noClause⟩
      exact (mem_block laid foundHead noClause ofHead).2.1.trans owner
  refine entries.map_on fun first isFirst second isSecond same => ?_
  have foundFirst := ((mem_obligations laid).mp isFirst).1
  have foundSecond := ((mem_obligations laid).mp isSecond).1
  rw [same, foundSecond] at foundFirst
  exact Prod.ext same (Option.some.inj foundFirst).symm

end Lookups

end Conformance
