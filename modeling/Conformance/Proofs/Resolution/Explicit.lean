import Conformance.Proofs.Resolution.PlainRule

/-!
Explicit implementations as answers.

A member that is bound to an interface member is the answer for it in its own type, as long
as the type implements the interface and no later member is bound to the same
(`Lookups.resolve_of_bound`), and its accessors are the answers for what they are bound to
(`Lookups.resolve_of_boundClause`). Where a type does not implement the interface, its
explicit implementations are the answer to nothing (`Lookups.listed_of_answer`).
-/

namespace Conformance

namespace SymbolTable

variable {table : SymbolTable}

theorem baseChain_eq_cons (id : TypeId) : ∃ rest, table.baseChain id = id :: rest := by
  show ∃ rest, table.walkBases (255 + 1) [] id = _
  rw [walkBases, if_neg List.not_mem_nil]
  cases (table.type? id).bind TypeSymbol.base with
  | none => exact ⟨_, rfl⟩
  | some base => exact ⟨_, rfl⟩

/-- Of the members of a type that are bound to a member, the last counts. -/
theorem exists_boundMember? {level : TypeId} {type : TypeSymbol}
    (foundLevel : table.type? level = some type) {bound : MemberId} {symbol : MemberSymbol}
    (listed : bound ∈ type.members) (found : table.member? bound = some symbol)
    {interface : TypeId} {id : MemberId} (isBound : symbol.isBoundTo interface id = true) :
    ∃ last, table.boundMember? level interface id = some last ∧
      (last = bound ∨ [bound, last].Sublist type.members ∧
        ∃ other, table.member? last = some other ∧ other.isBoundTo interface id = true) := by
  have kept : (bound, symbol) ∈ (table.membersOf type).filter fun entry =>
      entry.2.isBoundTo interface id := List.mem_filter.mpr ⟨mem_membersOf listed found, isBound⟩
  rcases exists_getLast?_of_mem kept with ⟨last, isLast, place⟩
  refine ⟨last.1, ?_, ?_⟩
  · rw [boundMember?, declaredMembers_of_found foundLevel, isLast]
    rfl
  · rcases place with rfl | later
    · exact .inl rfl
    · rcases List.mem_filter.mp (List.mem_of_getLast? isLast) with ⟨declared, lastBound⟩
      refine .inr ⟨?_, last.2, (member?_of_mem_membersOf declared).2, lastBound⟩
      exact ((later.trans List.filter_sublist).map Prod.fst).trans (table.sublist_membersOf type)

theorem boundMember?_some {level : TypeId} {interface : TypeId} {id bound : MemberId}
    (found : table.boundMember? level interface id = some bound) :
    ∃ type symbol, table.type? level = some type ∧ bound ∈ type.members ∧
      table.member? bound = some symbol ∧ symbol.isBoundTo interface id = true := by
  rcases Option.map_eq_some_iff.mp found with ⟨entry, isLast, rfl⟩
  rcases List.mem_filter.mp (List.mem_of_getLast? isLast) with ⟨declared, isBound⟩
  cases foundLevel : table.type? level with
  | none =>
    rw [declaredMembers, foundLevel] at declared
    cases declared
  | some type =>
    rw [declaredMembers_of_found foundLevel] at declared
    rcases member?_of_mem_membersOf declared with ⟨listed, foundMember⟩
    exact ⟨type, entry.2, rfl, listed, foundMember, isBound⟩

end SymbolTable

namespace Lookups

open SymbolTable

variable {table : SymbolTable} {lookups : Lookups Id} {typeId : TypeId} {type : TypeSymbol}
  {id : MemberId} {member : MemberSymbol}

/-- Members that types can implement name no interface themselves. -/
theorem isExplicit_of_implementable (implementable : table.isImplementable member = true) :
    member.isExplicit = false := by
  unfold isImplementable at implementable
  simp only [Bool.and_eq_true, Bool.not_eq_true'] at implementable
  exact implementable.1.1.1.2

/-! ## Bound members are answers -/

section

variable (foundType : table.type? typeId = some type) (isClass : type.isInterface = false)
  (found : table.member? id = some member) (implementable : table.isImplementable member = true)
  (inside : member.owner ∈ (lookups.interfaces typeId).run)

include foundType found implementable inside

theorem resolve_of_bound (wellFormed : table.WellFormed)
    (levels : ∀ {level type}, table.type? level = some type →
      (lookups.level level).run = LevelTable.ofType table type)
    (isClass : type.isInterface = false) (noClause : member.clause? = none) {bound : MemberId}
    (isBound : table.boundMember? typeId member.owner id = some bound) :
    (lookups.resolve table typeId id).run = { implementation := some ⟨bound, .explicit⟩ } := by
  have answer := resolve_eq wellFormed levels foundType isClass found noClause
    (fun level => member.owner ∈ (lookups.interfaces level).run) fun _ => Iff.rfl
  rcases table.baseChain_eq_cons typeId with ⟨rest, chain⟩
  rw [answer, plainResolution, if_pos ⟨implementable, inside⟩, chain, List.filter_cons,
    if_pos (decide_eq_true inside), List.findSome?_cons, isBound]

theorem resolve_of_boundClause {kind : AccessorKind} {parentId : MemberId}
    {parent : MemberSymbol} (isClause : member.clause? = some (kind, parentId))
    (foundParent : table.member? parentId = some parent) (noClause : parent.clause? = none)
    {candidate : MemberId} {implementing : MemberSymbol}
    (answered : (lookups.resolve table typeId parentId).run.implementation =
      some ⟨candidate, .explicit⟩)
    (foundCandidate : table.member? candidate = some implementing) {clause : MemberId}
    {accessor : MemberSymbol} (has : implementing.accessor? kind = some clause)
    (foundClause : table.member? clause = some accessor)
    (isBound : accessor.isBoundTo member.owner id = true) :
    (lookups.resolve table typeId id).run.implementation = some ⟨clause, .explicit⟩ := by
  have answer : (resolveClause table id member kind
      (lookups.resolve table typeId parentId).run).implementation = some ⟨clause, .explicit⟩ := by
    unfold resolveClause
    simp only [answered, foundCandidate, Option.bind_some, has, foundClause, Option.map_some,
      isBound, if_true]
  rw [implementation_clause foundType found isClause foundParent noClause implementable inside,
    answer]
  rfl

end

/-! ## Answers are bound members -/

/-- What implements an accessor is an accessor. -/
theorem clause_of_resolveClause (laid : table.Laid) {kind : AccessorKind} {parent : Resolution}
    {answer : MemberId}
    (answered : (resolveClause table id member kind parent).member? = some answer)
    {symbol : MemberSymbol} (foundAnswer : table.member? answer = some symbol) :
    symbol.clause?.isSome = true := by
  have accessor {candidate : MemberId} {entry : MemberId × MemberSymbol}
      (has : (((table.member? candidate).bind (·.accessor? kind)).bind fun clause =>
        (table.member? clause).map fun symbol => (clause, symbol)) = some entry)
      (same : entry.1 = answer) : symbol.clause?.isSome = true := by
    rcases Option.bind_eq_some_iff.mp has with ⟨clause, known, pair⟩
    rcases Option.bind_eq_some_iff.mp known with ⟨implementing, foundCandidate, isAccessor⟩
    rcases Option.map_eq_some_iff.mp pair with ⟨_, _, rfl⟩
    cases same
    rcases laid.of_accessor foundCandidate isAccessor foundAnswer with ⟨isClause, _⟩
    rw [isClause]
    rfl
  unfold resolveClause at answered
  cases implementation : parent.implementation with
  | none =>
    rw [implementation] at answered
    cases answered
  | some found =>
    obtain ⟨candidate, source⟩ := found
    simp only [implementation] at answered
    generalize has : (((table.member? candidate).bind (·.accessor? kind)).bind fun clause =>
      (table.member? clause).map fun symbol => (clause, symbol)) = clause? at answered
    cases clause? with
    | none => cases source <;> cases answered
    | some entry =>
      cases source with
      | default => cases answered
      | explicit =>
        refine accessor has ?_
        simp only [Resolution.member?, Option.bind_some] at answered
        split at answered
        · exact Option.some.inj answered
        · cases answered
      | implicit =>
        refine accessor has ?_
        simp only [Resolution.member?] at answered
        split at answered
        · exact Option.some.inj answered
        · cases answered

/-- Only members that types can implement have answers, and only for types that implement
their interface. -/
theorem implements_of_answer {answer : MemberId}
    (answered : (lookups.resolve table typeId id).run.member? = some answer) :
    ∃ type member, table.type? typeId = some type ∧ table.member? id = some member ∧
      table.isImplementable member = true ∧ member.owner ∈ (lookups.interfaces typeId).run := by
  unfold resolve at answered
  cases foundType : table.type? typeId with
  | none =>
    rw [foundType] at answered
    cases answered
  | some type =>
    cases found : table.member? id with
    | none =>
      rw [foundType, found] at answered
      cases answered
    | some member =>
      rw [foundType, found, whenImplemented_run] at answered
      split at answered
      · rename_i implemented
        exact ⟨type, member, rfl, rfl, implemented.1, implemented.2⟩
      · cases answered

/-- A member that fits by its signature names no interface. -/
theorem isExplicit_of_firstFitting {levels : List TypeId} {implementation : Implementation}
    (answered : (firstFitting (table.signatureMatches member levels)).implementation =
      some implementation) {symbol : MemberSymbol}
    (found : table.member? implementation.member = some symbol) : symbol.isExplicit = false := by
  rcases Option.map_eq_some_iff.mp answered with ⟨entry, fits, rfl⟩
  have listed := List.mem_of_find?_eq_some fits
  cases found.symm.trans (member?_of_signatureMatches listed)
  rcases List.mem_flatMap.mp listed with ⟨level, _, inside⟩
  have matching := (List.mem_filter.mp inside).2
  rw [Bool.and_eq_true, Bool.not_eq_true'] at matching
  exact matching.1

/-- An answer other than the member itself is not made by the body of the member. -/
theorem member?_of_orDefault (found : table.member? id = some member) {resolution : Resolution}
    {answer : MemberId}
    (completed : (lookups.orDefault table type id resolution).run.member? = some answer)
    (other : answer ≠ id) : resolution.member? = some answer := by
  rcases Option.map_eq_some_iff.mp completed with ⟨implementation, answering, rfl⟩
  rcases orDefault_cases found answering with before | ⟨_, rfl⟩
  · exact congrArg (Option.map Implementation.member) before
  · exact absurd rfl other

/-- A bound member on a level that implements an interface has the interface on the list of
its own type. -/
theorem listed_of_bound (laid : table.Laid) {levels : List TypeId} {interface : TypeId}
    {bound : MemberId} (last : (levels.filter fun level =>
      interface ∈ (lookups.interfaces level).run).findSome? (fun level =>
        table.boundMember? level interface id) = some bound)
    {symbol : MemberSymbol} (found : table.member? bound = some symbol) :
    symbol.target = some ⟨interface, id⟩ ∧ interface ∈ (lookups.interfaces symbol.owner).run := by
  rcases List.exists_of_findSome?_eq_some last with ⟨level, listed, isLast⟩
  rcases boundMember?_some isLast with ⟨_, _, foundLevel, own, foundAgain, isBound⟩
  cases found.symm.trans foundAgain
  rcases laid.of_head foundLevel own found with ⟨owner, _⟩
  rw [MemberSymbol.isBoundTo, decide_eq_true_iff] at isBound
  refine ⟨isBound, ?_⟩
  rw [owner]
  exact of_decide_eq_true (List.mem_filter.mp listed).2

/-- A member that names an interface is an answer only for members of an interface that it
is bound to, and only if its own type implements that. -/
theorem listed_of_answer (wellFormed : table.WellFormed)
    (levels : ∀ {level type}, table.type? level = some type →
      (lookups.level level).run = LevelTable.ofType table type) {answer : MemberId}
    (answered : (lookups.resolve table typeId id).run.member? = some answer)
    {symbol : MemberSymbol} (foundAnswer : table.member? answer = some symbol)
    (noClause : symbol.clause? = none) (explicit : symbol.isExplicit = true) :
    ∃ target, symbol.target = some target ∧
      target.interface ∈ (lookups.interfaces symbol.owner).run := by
  have laid := wellFormed.laid
  rcases implements_of_answer answered with
    ⟨type, member, foundType, found, implementable, inside⟩
  -- The member itself is no explicit implementation.
  have other : answer ≠ id := by
    intro same
    cases foundAnswer.symm.trans (same ▸ found)
    rw [isExplicit_of_implementable implementable] at explicit
    cases explicit
  cases clause : member.clause? with
  | some entry =>
    obtain ⟨kind, parentId⟩ := entry
    rcases laid.clause found clause with ⟨parent, foundParent, noParent, _⟩
    rw [resolve_clause foundType found clause foundParent noParent, whenImplemented_run,
      if_pos ⟨implementable, inside⟩] at answered
    have isAccessor :=
      clause_of_resolveClause laid (member?_of_orDefault found answered other) foundAnswer
    rw [noClause] at isAccessor
    cases isAccessor
  | none =>
    cases isClass : type.isInterface with
    | true =>
      rw [resolve_head foundType found clause, whenImplemented_run,
        if_pos ⟨implementable, inside⟩, resolveMember_run, isClass, if_pos rfl] at answered
      cases member?_of_orDefault found answered other
    | false =>
      rw [resolve_eq wellFormed levels foundType isClass found clause
        (fun level => member.owner ∈ (lookups.interfaces level).run) fun _ => Iff.rfl,
        plainResolution, if_pos ⟨implementable, inside⟩] at answered
      cases explicitly : ((table.baseChain typeId).filter fun level =>
          member.owner ∈ (lookups.interfaces level).run).findSome? fun level =>
            table.boundMember? level member.owner id with
      | some bound =>
        rw [explicitly] at answered
        cases answered
        exact ⟨_, listed_of_bound laid explicitly foundAnswer⟩
      | none =>
        rw [explicitly] at answered
        have completed : (lookups.orDefault table type id _).run.member? = some answer :=
          (congrArg Resolution.member? (orDefault_eq found type _)).trans answered
        have fits := member?_of_orDefault found completed other
        rcases Option.map_eq_some_iff.mp fits with ⟨implementation, fitting, rfl⟩
        rw [isExplicit_of_firstFitting fitting foundAnswer] at explicit
        cases explicit

end Lookups

end Conformance
