import Conformance.Proofs.Symbol.WellFormed
import Conformance.Resolution.Basic

/-!
Resolution without memory.

What each part of the resolver answers where lookups are pure. A body of an interface
member is an answer only if no other member is, and only for the member itself
(`Lookups.resolve_default`); an accessor with a body implements itself where
its member does (`Lookups.resolve_clause_of_default`).
-/

namespace Conformance

namespace Lookups

variable (lookups : Lookups Id) {table : SymbolTable} {assembly : AssemblyId} {typeId : TypeId}
  {type : TypeSymbol} {id : MemberId} {member : MemberSymbol}

theorem orDefault_run (resolution : Resolution) :
    (lookups.orDefault table type id resolution).run =
      if resolution.implementation.isSome then resolution
      else { resolution with
        implementation := (lookups.defaultBody table id type.assembly).run.member?.map
          fun member => ⟨member, .default⟩ } := by
  unfold orDefault
  split <;> rfl

theorem defaultBody_run :
    (lookups.defaultBody table id assembly).run =
      if (table.member? id).any MemberSymbol.hasImplementation then
        if (lookups.runtime assembly).run then .usable id else .unsupported id
      else .missing := by
  unfold defaultBody
  rfl

theorem resolveMember_run :
    (lookups.resolveMember table typeId type id member).run =
      if type.isInterface then (lookups.orDefault table type id .missing).run
      else
        match (lookups.findExplicit table member.owner id (table.baseChain typeId)).run with
        | some found => { implementation := some ⟨found, .explicit⟩ }
        | none => (lookups.orDefault table type id
            (lookups.findImplicit table (.ofMember member) none
              (table.baseChain typeId)).run).run := by
  unfold resolveMember
  split
  · rfl
  · simp only [Id.run_bind]
    cases (lookups.findExplicit table member.owner id (table.baseChain typeId)).run <;> rfl

theorem whenImplemented_run (resolution : Id Resolution) :
    (lookups.whenImplemented table typeId member resolution).run =
      if table.isImplementable member ∧ member.owner ∈ (lookups.interfaces typeId).run then
        resolution.run
      else .missing := by
  unfold whenImplemented implements
  by_cases implementable : table.isImplementable member = true
  · by_cases inside : member.owner ∈ (lookups.interfaces typeId).run
    · simp [implementable, inside]
    · simp [implementable, inside]
  · simp [implementable]

/-- What is found by signature is found in no other way. -/
theorem scan_source {source : ImplementationSource} (other : source ≠ .implicit)
    (close : Option CloseMismatch) (ids : List MemberId) :
    (scan table close ids).source? ≠ some source := by
  induction ids generalizing close with
  | nil => nofun
  | cons id rest ih =>
    rw [scan]
    cases (table.member? id).bind mismatch? with
    | none => exact fun same => other (Option.some.inj same).symm
    | some reason => exact ih _

theorem findExplicit_run (interface : TypeId) (level : TypeId) (rest : List TypeId) :
    (lookups.findExplicit table interface id (level :: rest)).run =
      if interface ∈ (lookups.interfaces level).run then
        match (lookups.level level).run.explicit? id with
        | some candidate =>
          if (table.member? candidate).any fun member => member.isBoundTo interface id then
            some candidate
          else (lookups.findExplicit table interface id rest).run
        | none => (lookups.findExplicit table interface id rest).run
      else (lookups.findExplicit table interface id rest).run := by
  rw [findExplicit]
  unfold implements
  simp only [Id.run_bind, Id.run_pure, decide_eq_true_eq]
  split
  · rw [Id.run_bind]
    cases (lookups.level level).run.explicit? id with
    | none => rfl
    | some candidate =>
      simp only
      split <;> rfl
  · rfl

theorem findImplicit_run (key : SignatureKey) (close : Option CloseMismatch) (level : TypeId)
    (rest : List TypeId) :
    (lookups.findImplicit table key close (level :: rest)).run =
      if (scan table close ((lookups.level level).run.candidates key)).implementation.isSome ||
          (lookups.level level).run.hides key then
        scan table close ((lookups.level level).run.candidates key)
      else (lookups.findImplicit table key
        (scan table close ((lookups.level level).run.candidates key)).closeMismatch rest).run := by
  rw [findImplicit]
  rfl

theorem findImplicit_source {source : ImplementationSource} (other : source ≠ .implicit)
    (key : SignatureKey) (close : Option CloseMismatch) (chain : List TypeId) :
    (lookups.findImplicit table key close chain).run.source? ≠ some source := by
  induction chain generalizing close with
  | nil => nofun
  | cons level rest ih =>
    rw [findImplicit_run]
    split
    · exact scan_source other _ _
    · exact ih _

theorem resolveClause_source (kind : AccessorKind) (parent : Resolution) :
    (resolveClause table id member kind parent).source? ≠ some .default := by
  unfold resolveClause
  cases parent.implementation with
  | none => nofun
  | some found =>
    obtain ⟨candidate, source⟩ := found
    cases source with
    | default => nofun
    | explicit =>
      simp only [Resolution.source?]
      generalize ((table.member? candidate).bind (·.accessor? kind)).bind _ = clause
      cases clause with
      | none => nofun
      | some entry =>
        simp only [Option.bind_some]
        split <;> nofun
    | implicit =>
      simp only
      generalize ((table.member? candidate).bind (·.accessor? kind)).bind _ = clause
      cases clause with
      | none => nofun
      | some entry =>
        simp only
        split <;> nofun

section

variable {lookups} (found : table.member? id = some member)

include found

theorem orDefault_eq (type : TypeSymbol) (resolution : Resolution) :
    (lookups.orDefault table type id resolution).run =
      if resolution.implementation.isNone ∧ member.hasImplementation = true then
        { resolution with implementation := some ⟨id, .default⟩ }
      else resolution := by
  rw [orDefault_run, defaultBody_run, found, Option.any_some]
  obtain ⟨implementation, close⟩ := resolution
  cases implementation with
  | some found => rfl
  | none =>
    cases member.hasImplementation with
    | false => rfl
    | true => cases (lookups.runtime type.assembly).run <;> rfl

/-- What was found comes first, and the body of the member itself comes next. -/
theorem implementation_orDefault (type : TypeSymbol) (resolution : Resolution) :
    (lookups.orDefault table type id resolution).run.implementation =
      resolution.implementation.or
        (if member.hasImplementation then some ⟨id, .default⟩ else none) := by
  rw [orDefault_eq found]
  obtain ⟨implementation, close⟩ := resolution
  cases implementation with
  | some found => rfl
  | none => cases member.hasImplementation <;> rfl

/-- An implementation was found before, or is the body of the member itself. -/
theorem orDefault_cases {resolution : Resolution} {implementation : Implementation}
    (completed : (lookups.orDefault table type id resolution).run.implementation =
      some implementation) :
    resolution.implementation = some implementation ∨
      member.hasImplementation = true ∧ implementation = ⟨id, .default⟩ := by
  rw [implementation_orDefault found, Option.or_eq_some_iff] at completed
  rcases completed with before | ⟨_, own⟩
  · exact .inl before
  · rw [Option.ite_none_right_eq_some] at own
    exact .inr ⟨own.1, (Option.some.inj own.2).symm⟩

/-- Members are completed by their own bodies only. -/
theorem orDefault_default {resolution : Resolution} (given : resolution.source? ≠ some .default)
    {other : MemberId} (isDefault : (lookups.orDefault table type id resolution).run.implementation =
      some ⟨other, .default⟩) :
    other = id ∧ member.hasImplementation = true := by
  rcases orDefault_cases found isDefault with before | ⟨bodied, own⟩
  · rw [Resolution.source?, before] at given
    exact absurd rfl given
  · exact ⟨congrArg Implementation.member own, bodied⟩

/-- A member that is no accessor implements itself only with its body. -/
theorem resolveMember_default {other : MemberId}
    (isDefault : (lookups.resolveMember table typeId type id member).run.implementation =
      some ⟨other, .default⟩) :
    other = id ∧ member.hasImplementation = true := by
  rw [resolveMember_run] at isDefault
  split at isDefault
  · have given : Resolution.missing.source? ≠ some .default := by nofun
    exact orDefault_default found given isDefault
  · split at isDefault
    · cases isDefault
    · exact orDefault_default found (lookups.findImplicit_source (by decide) _ _ _) isDefault

end

section

variable {lookups} (laid : table.Laid) (foundType : table.type? typeId = some type)
  (found : table.member? id = some member)

include foundType found

theorem resolve_head (noClause : member.clause? = none) :
    (lookups.resolve table typeId id).run =
      (lookups.whenImplemented table typeId member
        (lookups.resolveMember table typeId type id member)).run := by
  unfold resolve
  rw [foundType, found]
  simp only [noClause]

theorem resolve_clause {kind : AccessorKind} {parentId : MemberId} {parent : MemberSymbol}
    (clause : member.clause? = some (kind, parentId))
    (foundParent : table.member? parentId = some parent) (noClause : parent.clause? = none) :
    (lookups.resolve table typeId id).run =
      (lookups.whenImplemented table typeId member (lookups.orDefault table type id
        (resolveClause table id member kind (lookups.resolve table typeId parentId).run))).run := by
  rw [resolve_head foundType foundParent noClause]
  unfold resolve
  rw [foundType, found]
  simp only [clause, foundParent]
  rfl

/-- What implements an accessor comes from what implements its member, or is the body of the
accessor itself. -/
theorem implementation_clause {kind : AccessorKind} {parentId : MemberId} {parent : MemberSymbol}
    (clause : member.clause? = some (kind, parentId))
    (foundParent : table.member? parentId = some parent) (noClause : parent.clause? = none)
    (implementable : table.isImplementable member = true)
    (inside : member.owner ∈ (lookups.interfaces typeId).run) :
    (lookups.resolve table typeId id).run.implementation =
      (resolveClause table id member kind
        (lookups.resolve table typeId parentId).run).implementation.or
          (if member.hasImplementation then some ⟨id, .default⟩ else none) := by
  rw [resolve_clause foundType found clause foundParent noClause, whenImplemented_run,
    if_pos ⟨implementable, inside⟩]
  exact implementation_orDefault found type _

include laid

/-- A body that is an answer is that of the member itself, and the member can be implemented. -/
theorem resolve_default {other : MemberId}
    (isDefault : (lookups.resolve table typeId id).run.implementation = some ⟨other, .default⟩) :
    other = id ∧ table.isImplementable member = true ∧ member.hasImplementation = true := by
  cases clause : member.clause? with
  | none =>
    rw [resolve_head foundType found clause, whenImplemented_run] at isDefault
    split at isDefault
    · rename_i both
      have own := resolveMember_default found isDefault
      exact ⟨own.1, both.1, own.2⟩
    · cases isDefault
  | some entry =>
    obtain ⟨kind, parentId⟩ := entry
    obtain ⟨parent, foundParent, noClause, _⟩ := laid.clause found clause
    rw [resolve_clause foundType found clause foundParent noClause, whenImplemented_run]
      at isDefault
    split at isDefault
    · rename_i both
      have own := orDefault_default found (resolveClause_source _ _) isDefault
      exact ⟨own.1, both.1, own.2⟩
    · cases isDefault

/-- A member implements itself only if it has a body. -/
theorem hasImplementation_of_default
    (isDefault : (lookups.resolve table typeId id).run.source? = some .default) :
    member.hasImplementation = true := by
  obtain ⟨⟨other, source⟩, answer, same⟩ := Option.map_eq_some_iff.mp isDefault
  cases same
  exact (resolve_default laid foundType found answer).2.2

omit laid in
/-- An accessor with a body implements itself if its member does. -/
theorem resolve_clause_of_default {kind : AccessorKind} {parentId : MemberId}
    {parent : MemberSymbol} (clause : member.clause? = some (kind, parentId))
    (foundParent : table.member? parentId = some parent) (noClause : parent.clause? = none)
    (implementable : table.isImplementable member = true)
    (inside : member.owner ∈ (lookups.interfaces typeId).run)
    (bodied : member.hasImplementation = true)
    (isDefault : (lookups.resolve table typeId parentId).run.source? = some .default) :
    (lookups.resolve table typeId id).run.implementation = some ⟨id, .default⟩ := by
  have missing : resolveClause table id member kind
      (lookups.resolve table typeId parentId).run = .missing := by
    unfold resolveClause
    generalize (lookups.resolve table typeId parentId).run = resolution at isDefault
    obtain ⟨implementation, close⟩ := resolution
    obtain ⟨⟨candidate, source⟩, rfl, same⟩ := Option.map_eq_some_iff.mp isDefault
    cases same
    rfl
  rw [implementation_clause foundType found clause foundParent noClause implementable inside,
    missing, bodied]
  rfl

omit laid in
/-- A member with a body is implemented wherever it has to be. -/
theorem implemented_of_body (noClause : member.clause? = none)
    (implementable : table.isImplementable member = true)
    (inside : member.owner ∈ (lookups.interfaces typeId).run)
    (bodied : member.hasImplementation = true) :
    (lookups.resolve table typeId id).run.source? ≠ none := by
  have completed (resolution : Resolution) :
      (lookups.orDefault table type id resolution).run.source? ≠ none := by
    rw [Resolution.source?, implementation_orDefault found, if_pos bodied]
    cases resolution.implementation <;> nofun
  rw [resolve_head foundType found noClause, whenImplemented_run, if_pos ⟨implementable, inside⟩,
    resolveMember_run]
  split
  · exact completed _
  · split
    · nofun
    · exact completed _

omit laid in
/-- An accessor without a body is not implemented where its member is not. -/
theorem resolve_clause_of_missing {kind : AccessorKind} {parentId : MemberId}
    {parent : MemberSymbol} (clause : member.clause? = some (kind, parentId))
    (foundParent : table.member? parentId = some parent) (noClause : parent.clause? = none)
    (bodiless : member.hasImplementation = false)
    (missing : (lookups.resolve table typeId parentId).run.source? = none) :
    (lookups.resolve table typeId id).run.source? = none := by
  have above : (lookups.resolve table typeId parentId).run.implementation = none :=
    Option.map_eq_none_iff.mp missing
  rw [resolve_clause foundType found clause foundParent noClause, whenImplemented_run]
  split
  · have here : (resolveClause table id member kind
        (lookups.resolve table typeId parentId).run).implementation = none := by
      unfold resolveClause
      rw [above]
    rw [Resolution.source?, implementation_orDefault found, here, bodiless]
    rfl
  · rfl

end

end Lookups

end Conformance
