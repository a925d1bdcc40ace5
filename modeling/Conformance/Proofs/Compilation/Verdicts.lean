import Conformance.Proofs.Compilation.Built
import Conformance.Proofs.Compilation.Obligations
import Conformance.Proofs.Compilation.Run

/-!
The implementation map and the diagnostics agree.

The map asks what implements a member or accessor, whatever implements the property or event
that an accessor is of. The checks ask for an accessor only where a property or event is the
implementation. An entry of the map is without implementation just if the diagnostics say so
of it, or of the member that it is an accessor of; and nothing else is said
(`Compilation.Built.map_agrees`). For accessors this rests on what binding makes of them: they
have bodies just if their members have.
-/

namespace Conformance

/-- A diagnostic as the checks make it of a type and a member or accessor. -/
def SymbolTable.Faults (table : SymbolTable) (pair : TypeId × MemberId)
    (diagnostic : Diagnostic) : Prop :=
  ∃ type member, table.type? pair.1 = some type ∧ table.member? pair.2 = some member ∧
    ((∃ close, diagnostic = Lookups.notImplemented table pair.1 type pair.2 close) ∨
      diagnostic = table.useSite type member)

/-- A member, or an accessor of a member that types can implement. -/
def SymbolTable.Accountable (table : SymbolTable) (member : MemberSymbol) : Prop :=
  ∀ {kind parentId}, member.clause? = some (kind, parentId) →
    ∃ parent, table.member? parentId = some parent ∧ table.isImplementable parent = true

/-- How often it is reported of a type and a member or accessor that one of some rules is
broken. -/
def timesReported (rules : List Rule) (reports : List ((TypeId × MemberId) × Diagnostic))
    (pair : TypeId × MemberId) : Nat :=
  reports.countP fun report => report.1 = pair ∧ report.2.Breaks rules

/-- How an accessor is implemented, and whether the checks look at it, where its member is
implemented in some way. -/
inductive Follows : Option ImplementationSource → Option ImplementationSource → Bool → Prop where
  | missing : Follows none none false
  | itself : Follows (some .default) (some .default) false
  | checked {source : ImplementationSource} (another : source ≠ .default)
      {accessor : Option ImplementationSource} : Follows (some source) accessor true

namespace Lookups

variable (lookups : Lookups Id) (table : SymbolTable) (assembly : AssemblyId)

/-- What is reported of a type and a member or accessor that it has to implement. -/
def verdict? (pair : TypeId × MemberId) : Option Diagnostic :=
  (table.type? pair.1).bind fun type => (table.member? pair.2).bind fun member =>
    lookups.finding? table assembly pair.1 type (pair.2, member)

variable {lookups table assembly} {typeId : TypeId} {type : TypeSymbol} {id : MemberId}
  {member : MemberSymbol}

/-! ## Single findings -/

/-- What is found, and when. -/
theorem finding?_eq_some {diagnostic : Diagnostic} :
    lookups.finding? table assembly typeId type (id, member) = some diagnostic ↔
      lookups.isChecked table typeId member = true ∧
        ((lookups.resolve table typeId id).run.source? = none ∧
          notImplemented table typeId type id (lookups.resolve table typeId id).run.closeMismatch =
            diagnostic ∨
        (lookups.resolve table typeId id).run.source? = some .default ∧
          ¬ ((table.type? member.owner).map TypeSymbol.assembly = some assembly ∨
            (lookups.runtime assembly).run = true) ∧ table.useSite type member = diagnostic) := by
  rw [finding?, Option.ite_none_right_eq_some]
  refine and_congr_right fun _ => ?_
  rw [shortcoming?]
  cases (lookups.resolve table typeId id).run.source? with
  | none => simp
  | some source =>
    cases source with
    | default => simp only [Option.ite_none_left_eq_some, Option.some.injEq, reduceCtorEq,
        false_and, false_or, true_and]
    | _ => simp

/-- It is found that there is no implementation just if there is none. -/
theorem finding?_missing :
    (lookups.finding? table assembly typeId type (id, member)).any
        (fun diagnostic => diagnostic.Breaks Rule.ofMissing) = true ↔
      lookups.isChecked table typeId member = true ∧
        (lookups.resolve table typeId id).run.source? = none := by
  rw [Option.any_eq_true]
  constructor
  · intro found
    rcases found with ⟨diagnostic, found, breaks⟩
    rcases finding?_eq_some.mp found with ⟨checked, ⟨missing, _⟩ | ⟨_, _, rfl⟩⟩
    · exact ⟨checked, missing⟩
    · exact ((useSite_breaks member).absurd (of_decide_eq_true breaks) (by decide)).elim
  · intro missing
    refine ⟨_, finding?_eq_some.mpr ⟨missing.1, .inl ⟨missing.2, rfl⟩⟩, decide_eq_true ?_⟩
    exact notImplemented_breaks _ _

/-- It is found that the runtime cannot call a body just if that body is used, and declared
elsewhere. -/
theorem finding?_unsupported :
    (lookups.finding? table assembly typeId type (id, member)).any
        (fun diagnostic => diagnostic.Breaks [.runtimeLacksDefaultFor]) = true ↔
      lookups.isChecked table typeId member = true ∧
        (lookups.resolve table typeId id).run.source? = some .default ∧
          ¬ ((table.type? member.owner).map TypeSymbol.assembly = some assembly ∨
            (lookups.runtime assembly).run = true) := by
  rw [Option.any_eq_true]
  constructor
  · intro found
    rcases found with ⟨diagnostic, found, breaks⟩
    rcases finding?_eq_some.mp found with ⟨checked, ⟨_, rfl⟩ | ⟨isDefault, unusable, _⟩⟩
    · exact ((notImplemented_breaks id _).absurd (of_decide_eq_true breaks) (by decide)).elim
    · exact ⟨checked, isDefault, unusable⟩
  · intro unusable
    rcases unusable with ⟨checked, isDefault, unusable⟩
    refine ⟨_, finding?_eq_some.mpr ⟨checked, .inr ⟨isDefault, unusable, rfl⟩⟩, decide_eq_true ?_⟩
    exact useSite_breaks member

/-! ## Accessors -/

section

variable {kind : AccessorKind} {parentId : MemberId} {parent : MemberSymbol}
  (laid : table.Laid) (traced : table.Traced) (foundType : table.type? typeId = some type)
  (found : table.member? id = some member) (clause : member.clause? = some (kind, parentId))
  (foundParent : table.member? parentId = some parent)
  (inside : member.owner ∈ (lookups.interfaces typeId).run)

include laid traced foundType found clause foundParent inside

/-- The accessors of a member without implementation are without one. -/
theorem clause_missing (implementable : table.isImplementable parent = true)
    (missing : (lookups.resolve table typeId parentId).run.source? = none) :
    (lookups.resolve table typeId id).run.source? = none := by
  rcases laid.of_clause found clause foundParent with ⟨noClause, owner, _⟩
  have bodies := traced.hasImplementation_clause laid found clause foundParent
  -- With a body the member would implement itself.
  have bodiless : parent.hasImplementation = false := by
    rw [← Bool.not_eq_true]
    intro bodied
    exact implemented_of_body foundType foundParent noClause implementable (owner ▸ inside) bodied
      missing
  exact resolve_clause_of_missing foundType found clause foundParent noClause
    (bodies.trans bodiless) missing

/-- The accessors of a member that implements itself do so as well. -/
theorem clause_default (implementable : table.isImplementable member = true)
    (isDefault : (lookups.resolve table typeId parentId).run.source? = some .default) :
    (lookups.resolve table typeId id).run.source? = some .default := by
  rcases laid.of_clause found clause foundParent with ⟨noClause, _⟩
  have bodies := traced.hasImplementation_clause laid found clause foundParent
  have bodied := hasImplementation_of_default laid foundType foundParent isDefault
  have itself := resolve_clause_of_default foundType found clause foundParent noClause implementable
    inside (bodies.trans bodied) isDefault
  exact congrArg (Option.map Implementation.source) itself

/-- What the checks do with an accessor fits how its member is implemented. -/
theorem follows (parentImplementable : table.isImplementable parent = true)
    (implementable : table.isImplementable member = true) :
    Follows (lookups.resolve table typeId parentId).run.source?
      (lookups.resolve table typeId id).run.source? (lookups.isChecked table typeId member) := by
  rw [isChecked, clause]
  simp only
  -- The four answers for the member: none, its own body, or one of two others.
  cases implemented : (lookups.resolve table typeId parentId).run.source? with
  | none =>
    rw [clause_missing laid traced foundType found clause foundParent inside parentImplementable
      implemented]
    exact .missing
  | some source =>
    cases source with
    | default =>
      rw [clause_default laid traced foundType found clause foundParent inside implementable
        implemented]
      exact .itself
    | explicit => exact .checked (by decide)
    | implicit => exact .checked (by decide)

end

/-- Only members that types can implement are implemented. -/
theorem isImplementable_of_source (foundType : table.type? typeId = some type)
    (found : table.member? id = some member) (noClause : member.clause? = none)
    {source : ImplementationSource}
    (implemented : (lookups.resolve table typeId id).run.source? = some source) :
    table.isImplementable member = true := by
  rw [resolve_head foundType found noClause, whenImplemented_run] at implemented
  split at implemented
  · rename_i both
    exact both.1
  · cases implemented

end Lookups

namespace Compilation

/-- What the classes and structs of a compilation have to implement. -/
def obligations (compilation : Compilation) (lookups : Lookups Id) : List (TypeId × MemberId) :=
  compilation.types.flatMap fun typeId =>
    if (compilation.table.type? typeId).any fun type => !type.isInterface then
      (lookups.obligations compilation.table typeId).map fun entry => (typeId, entry.1)
    else []

/-- The entry of the implementation map for a type and a member or accessor, at the end of a
run. -/
def entry (compilation : Compilation) (final : Memory) (pair : TypeId × MemberId) :
    ImplementationEntry :=
  ((compilation.lookups final).implementationEntry compilation.table pair.1 pair.2).run

variable {compilation : Compilation} {lookups : Lookups Id}

/-! ## Everything that has to be implemented -/

theorem mem_obligations (laid : compilation.table.Laid) {typeId : TypeId} {id : MemberId} :
    (typeId, id) ∈ compilation.obligations lookups ↔ typeId ∈ compilation.types ∧
      (∃ type, compilation.table.type? typeId = some type ∧ type.isInterface = false) ∧
      ∃ member, compilation.table.member? id = some member ∧
        compilation.table.isImplementable member = true ∧
        member.owner ∈ (lookups.interfaces typeId).run := by
  unfold obligations
  rw [List.mem_flatMap]
  constructor
  · intro listed
    rcases listed with ⟨other, isType, inside⟩
    split at inside
    · rename_i isClass
      rcases (Option.any_eq_true _ _).mp isClass with ⟨type, foundType, notInterface⟩
      rcases List.mem_map.mp inside with ⟨entry, obliged, same⟩
      cases same
      refine ⟨isType, ⟨type, foundType, by simpa using notInterface⟩, entry.2, ?_⟩
      exact (Lookups.mem_obligations laid).mp obliged
    · cases inside
  · intro obliged
    rcases obliged with ⟨isType, ⟨type, foundType, isClass⟩, member, obliged⟩
    refine ⟨typeId, isType, ?_⟩
    rw [foundType, Option.any_some, isClass]
    exact List.mem_map.mpr ⟨(id, member), (Lookups.mem_obligations laid).mpr obliged, rfl⟩

theorem nodup_types (laid : compilation.table.Laid) : compilation.types.Nodup := by
  rw [types, SymbolTable.typesOf]
  cases found : compilation.table.assembly? compilation.assembly with
  | none => exact .nil
  | some assembly => exact laid.types_nodup found

theorem nodup_obligations (laid : compilation.table.Laid)
    (distinct : ∀ typeId, (lookups.interfaces typeId).run.Nodup) :
    (compilation.obligations lookups).Nodup := by
  have types := nodup_types laid
  rw [← List.map_id compilation.types] at types
  apply nodup_flatMap_of_key types (fun typeId _ => ?_) fun typeId _ pair inside => ?_
  · exact Prod.fst
  · split
    · have members := Lookups.obligations_nodup laid (distinct typeId)
      have pairs := members.map (f := fun id => (typeId, id)) fun _ _ same => congrArg Prod.snd same
      rwa [List.map_map] at pairs
    · exact .nil
  · split at inside
    · rcases List.mem_map.mp inside with ⟨_, _, rfl⟩
      rfl
    · cases inside

/-- The map has an entry for everything that has to be implemented. -/
theorem implementationMap_run (laid : compilation.table.Laid) (final : Memory) :
    (compilation.implementationMap (compilation.lookups final)).run =
      (compilation.obligations (compilation.lookups final)).map (compilation.entry final) := by
  have entries : (compilation.implementationMap (compilation.lookups final)).run =
      compilation.types.flatMap fun typeId =>
        ((compilation.lookups final).implementationEntries compilation.table typeId).run := by
    rw [List.flatMap_def, ← List.idRun_mapM]
    rfl
  rw [entries, obligations, List.map_flatMap]
  refine List.flatMap_congr fun typeId listed => ?_
  rcases (mem_types laid).mp listed with ⟨type, foundType, _⟩
  rw [foundType, Option.any_some]
  cases isClass : type.isInterface with
  | true =>
    unfold Lookups.implementationEntries
    rw [foundType, Option.any_some, isClass]
    rfl
  | false =>
    rw [Lookups.implementationEntries_run foundType isClass, Bool.not_false, if_pos rfl,
      List.map_map]
    rfl

/-- What is reported of what a type has to implement is found entry by entry. -/
theorem filter_checkType (laid : compilation.table.Laid) {typeId : TypeId} {type : TypeSymbol}
    (foundType : compilation.table.type? typeId = some type) (assembly : AssemblyId) :
    (lookups.checkType compilation.table assembly typeId).run.filter
        (fun diagnostic => diagnostic.Breaks Rule.ofObligations) =
      (if (compilation.table.type? typeId).any fun type => !type.isInterface then
        (lookups.obligations compilation.table typeId).map fun entry => (typeId, entry.1)
      else []).filterMap (lookups.verdict? compilation.table assembly) := by
  rw [lookups.checkType_run foundType, foundType, Option.any_some]
  cases isClass : type.isInterface with
  | true =>
    have bodies : Reports [.runtimeLacksDefaults]
        (lookups.checkBodies compilation.table assembly type).run := lookups.checkBodies_report
    rw [if_pos rfl, bodies.filter_others (by decide)]
    rfl
  | false =>
    have explicit : Reports [.explicitNotListed]
        (lookups.checkExplicit compilation.table typeId type).run := lookups.checkExplicit_report
    have hides : Reports Rule.ofHiding (Lookups.checkHiding compilation.table type) :=
      Lookups.checkHiding_report
    rw [if_neg Bool.false_ne_true, List.filter_append, List.filter_append,
      explicit.filter_others (by decide), hides.filter_others (by decide),
      List.nil_append, List.append_nil, Lookups.filter_checkImplementations laid foundType,
      Bool.not_false, if_pos rfl, List.filterMap_map]
    refine List.filterMap_congr fun entry obliged => ?_
    have found := ((Lookups.mem_obligations laid).mp obliged).1
    rw [Function.comp_apply, Lookups.verdict?, foundType, Option.bind_some, found,
      Option.bind_some]

/-- What is reported of what a compilation has to implement. -/
theorem Built.filter_diagnostics (built : compilation.Built) {final : Memory}
    {diagnostics : List Diagnostic}
    (checked : compilation.Answered final .diagnostics (.ok diagnostics)) :
    diagnostics.filter (fun diagnostic => diagnostic.Breaks Rule.ofObligations) =
      (compilation.obligations (compilation.lookups final)).filterMap
        ((compilation.lookups final).verdict? compilation.table compilation.assembly) := by
  have laid := built.wellFormed.laid
  cases checked.diagnostics built.closed
  rw [List.filter_append, built.bindingDiagnostics_report.filter_others (by decide),
    List.nil_append, List.filter_flatMap, obligations, List.filterMap_flatMap]
  refine List.flatMap_congr fun typeId listed => ?_
  rcases (mem_types laid).mp listed with ⟨type, foundType, _⟩
  exact filter_checkType laid foundType compilation.assembly

/-! ## Reports -/

/-- What is reported of what a compilation has to implement, and of what it is. -/
def reports (compilation : Compilation) (final : Memory) :
    List ((TypeId × MemberId) × Diagnostic) :=
  (compilation.obligations (compilation.lookups final)).filterMap fun pair =>
    ((compilation.lookups final).verdict? compilation.table compilation.assembly pair).map
      fun diagnostic => (pair, diagnostic)

theorem Built.nodup_obligations (built : compilation.Built) {final : Memory}
    (run : compilation.Run compilation.memory final) :
    (compilation.obligations (compilation.lookups final)).Nodup :=
  Compilation.nodup_obligations built.wellFormed.laid (Run.nodup_interfaces built.closed run)

theorem entry_implementation (final : Memory) (pair : TypeId × MemberId) :
    (compilation.entry final pair).implementation = none ↔
      (compilation.entry final pair).source = none := by
  show (Option.map _ (Option.map _ _)) = none ↔ Option.map _ _ = none
  simp only [Option.map_eq_none_iff]

section

variable (built : compilation.Built) {final : Memory}
  (run : compilation.Run compilation.memory final) {typeId : TypeId} {id : MemberId}
  {member : MemberSymbol}
  (listed : (typeId, id) ∈ compilation.obligations (compilation.lookups final))
  (found : compilation.table.member? id = some member)

include built run

/-- At most once is something reported of what a type has to implement. -/
theorem timesReported_reports (rules : List Rule) (pair : TypeId × MemberId) :
    timesReported rules (compilation.reports final) pair ≤ 1 ∧
      (timesReported rules (compilation.reports final) pair = 1 ↔
        pair ∈ compilation.obligations (compilation.lookups final) ∧
        ((compilation.lookups final).verdict? compilation.table compilation.assembly pair).any
          (fun diagnostic => diagnostic.Breaks rules) = true) := by
  unfold timesReported
  simp only [Bool.decide_and]
  exact countP_filterMap_of_nodup (built.nodup_obligations run)
    ((compilation.lookups final).verdict? compilation.table compilation.assembly)
    (fun diagnostic => diagnostic.Breaks rules) pair

/-- What is not reported once is not reported. -/
theorem timesReported_eq_zero (rules : List Rule) (pair : TypeId × MemberId) :
    timesReported rules (compilation.reports final) pair = 0 ↔
      ¬ timesReported rules (compilation.reports final) pair = 1 := by
  have most := (timesReported_reports built run rules pair).1
  omega

include listed found

theorem timesReported_eq_one (rules : List Rule) {type : TypeSymbol}
    (foundType : compilation.table.type? typeId = some type) :
    timesReported rules (compilation.reports final) (typeId, id) = 1 ↔
      ((compilation.lookups final).finding? compilation.table compilation.assembly typeId type
        (id, member)).any (fun diagnostic => diagnostic.Breaks rules) = true := by
  rw [(timesReported_reports built run rules _).2, Lookups.verdict?, foundType, Option.bind_some,
    found, Option.bind_some, and_iff_right listed]

/-- How often it is reported that there is no implementation. -/
theorem timesReported_missing :
    timesReported Rule.ofMissing (compilation.reports final) (typeId, id) = 1 ↔
      (compilation.lookups final).isChecked compilation.table typeId member = true ∧
        (compilation.entry final (typeId, id)).source = none := by
  rcases (mem_obligations built.wellFormed.laid).mp listed with ⟨_, ⟨type, foundType, _⟩, _⟩
  rw [timesReported_eq_one built run listed found _ foundType]
  exact Lookups.finding?_missing

/-- How often it is reported that the runtime cannot call the body that is used. -/
theorem timesReported_unsupported :
    timesReported [.runtimeLacksDefaultFor] (compilation.reports final) (typeId, id) = 1 ↔
      (compilation.lookups final).isChecked compilation.table typeId member = true ∧
        (compilation.entry final (typeId, id)).source = some .default ∧
          ¬ ((compilation.table.type? member.owner).map TypeSymbol.assembly =
            some compilation.assembly ∨ compilation.runtimeFlag compilation.assembly = true) := by
  rcases (mem_obligations built.wellFormed.laid).mp listed with ⟨_, ⟨type, foundType, _⟩, _⟩
  rw [timesReported_eq_one built run listed found _ foundType]
  exact Lookups.finding?_unsupported

end

/-! ## Agreement -/

/-- The entries of an implementation map agree with what is reported of what a compilation has
to implement. -/
structure MapAgrees (compilation : Compilation) (final : Memory)
    (obligations : List (TypeId × MemberId)) (reports : List ((TypeId × MemberId) × Diagnostic)) :
    Prop where
  /-- A member is without implementation just if that is reported. -/
  head : ∀ {typeId id member}, (typeId, id) ∈ obligations →
    compilation.table.member? id = some member → member.clause? = none →
      ((compilation.entry final (typeId, id)).implementation = none ↔
        timesReported Rule.ofMissing reports (typeId, id) = 1)
  /-- An accessor is without implementation just if its member is, or if that is reported of
  it. If its member is, only that is reported. -/
  clause : ∀ {typeId id member kind parentId parent}, (typeId, id) ∈ obligations →
    compilation.table.member? id = some member → member.clause? = some (kind, parentId) →
    compilation.table.member? parentId = some parent →
    compilation.table.isImplementable parent = true →
      (typeId, parentId) ∈ obligations ∧
      ((compilation.entry final (typeId, id)).implementation = none ↔
        (compilation.entry final (typeId, parentId)).implementation = none ∨
          timesReported Rule.ofMissing reports (typeId, id) = 1) ∧
      ((compilation.entry final (typeId, parentId)).implementation = none →
        timesReported Rule.ofMissing reports (typeId, parentId) = 1 ∧
          timesReported Rule.ofMissing reports (typeId, id) = 0)
  /-- If the runtime cannot call bodies of interfaces, a body of another assembly is an
  implementation just if that is reported, of the member or of that it is an accessor of. -/
  body : compilation.runtimeFlag compilation.assembly = false →
    ∀ {typeId id member}, (typeId, id) ∈ obligations →
    compilation.table.member? id = some member → compilation.table.Accountable member →
    (compilation.table.type? member.owner).map TypeSymbol.assembly ≠ some compilation.assembly →
      ((compilation.entry final (typeId, id)).source = some .default ↔
        timesReported [.runtimeLacksDefaultFor] reports (typeId, id) = 1 ∨
        ∃ kind parentId, member.clause? = some (kind, parentId) ∧
          (compilation.entry final (typeId, parentId)).source = some .default ∧
          timesReported [.runtimeLacksDefaultFor] reports (typeId, parentId) = 1)
  /-- Nothing else is reported. -/
  only : ∀ {typeId id diagnostic}, ((typeId, id), diagnostic) ∈ reports →
    ∃ member, (typeId, id) ∈ obligations ∧ compilation.table.member? id = some member ∧
      compilation.table.Accountable member ∧
      (∀ {kind parentId}, member.clause? = some (kind, parentId) →
        (compilation.entry final (typeId, parentId)).source = some .explicit ∨
          (compilation.entry final (typeId, parentId)).source = some .implicit) ∧
      (diagnostic.Breaks Rule.ofMissing →
        (compilation.entry final (typeId, id)).implementation = none ∧
          timesReported Rule.ofMissing reports (typeId, id) = 1) ∧
      (diagnostic.Breaks [.runtimeLacksDefaultFor] →
        compilation.runtimeFlag compilation.assembly = false ∧
        (compilation.table.type? member.owner).map TypeSymbol.assembly ≠
          some compilation.assembly ∧
        (compilation.entry final (typeId, id)).source = some .default ∧
          timesReported [.runtimeLacksDefaultFor] reports (typeId, id) = 1)

/-- Where an accessor has to be implemented, its member has to be as well. -/
theorem obligations_parent (laid : compilation.table.Laid) {typeId : TypeId}
    {id parentId : MemberId} {member parent : MemberSymbol} {kind : AccessorKind}
    (listed : (typeId, id) ∈ compilation.obligations lookups)
    (found : compilation.table.member? id = some member)
    (clause : member.clause? = some (kind, parentId))
    (foundParent : compilation.table.member? parentId = some parent)
    (implementable : compilation.table.isImplementable parent = true) :
    (typeId, parentId) ∈ compilation.obligations lookups := by
  rcases (mem_obligations laid).mp listed with ⟨isType, isClass, _, foundAgain, _, inside⟩
  cases found.symm.trans foundAgain
  rcases laid.of_clause found clause foundParent with ⟨_, owner, _⟩
  exact (mem_obligations laid).mpr
    ⟨isType, isClass, parent, foundParent, implementable, owner ▸ inside⟩

section

variable (built : compilation.Built) {final : Memory}
  (run : compilation.Run compilation.memory final) {typeId : TypeId} {id : MemberId}
  {member : MemberSymbol}
  (listed : (typeId, id) ∈ compilation.obligations (compilation.lookups final))
  (found : compilation.table.member? id = some member)

include built run listed found

theorem head_agrees (noClause : member.clause? = none) :
    (compilation.entry final (typeId, id)).implementation = none ↔
      timesReported Rule.ofMissing (compilation.reports final) (typeId, id) = 1 := by
  rw [entry_implementation, timesReported_missing built run listed found,
    and_iff_right (Lookups.isChecked_head noClause)]

omit run in
theorem entry_follows {kind : AccessorKind} {parentId : MemberId} {parent : MemberSymbol}
    (clause : member.clause? = some (kind, parentId))
    (foundParent : compilation.table.member? parentId = some parent)
    (implementable : compilation.table.isImplementable parent = true) :
    Follows (compilation.entry final (typeId, parentId)).source
      (compilation.entry final (typeId, id)).source
      ((compilation.lookups final).isChecked compilation.table typeId member) := by
  have laid := built.wellFormed.laid
  rcases (mem_obligations laid).mp listed with ⟨_, ⟨type, foundType, _⟩, _, foundAgain, own, inside⟩
  cases found.symm.trans foundAgain
  exact Lookups.follows laid built.traced foundType found clause foundParent inside implementable
    own

theorem clause_agrees {kind : AccessorKind} {parentId : MemberId} {parent : MemberSymbol}
    (clause : member.clause? = some (kind, parentId))
    (foundParent : compilation.table.member? parentId = some parent)
    (implementable : compilation.table.isImplementable parent = true) :
    ((compilation.entry final (typeId, id)).implementation = none ↔
      (compilation.entry final (typeId, parentId)).implementation = none ∨
        timesReported Rule.ofMissing (compilation.reports final) (typeId, id) = 1) ∧
    ((compilation.entry final (typeId, parentId)).implementation = none →
      timesReported Rule.ofMissing (compilation.reports final) (typeId, parentId) = 1 ∧
        timesReported Rule.ofMissing (compilation.reports final) (typeId, id) = 0) := by
  have laid := built.wellFormed.laid
  have above := obligations_parent laid listed found clause foundParent implementable
  rcases laid.of_clause found clause foundParent with ⟨noClause, _⟩
  have never := timesReported_eq_zero built run Rule.ofMissing (typeId, id)
  rw [← head_agrees built run above foundParent noClause, never,
    timesReported_missing built run listed found, entry_implementation, entry_implementation]
  have follows := entry_follows built listed found clause foundParent implementable
  generalize (compilation.entry final (typeId, parentId)).source = parentSource at follows ⊢
  generalize (compilation.entry final (typeId, id)).source = source at follows ⊢
  generalize (compilation.lookups final).isChecked _ typeId member = checked at follows ⊢
  cases follows with
  | missing => simp
  | itself => simp
  | checked another => simp

/-- A body that the runtime cannot call is used. -/
theorem body_agrees (unsupported : compilation.runtimeFlag compilation.assembly = false)
    (accountable : compilation.table.Accountable member)
    (foreign : (compilation.table.type? member.owner).map TypeSymbol.assembly ≠
      some compilation.assembly) :
    (compilation.entry final (typeId, id)).source = some .default ↔
      timesReported [.runtimeLacksDefaultFor] (compilation.reports final) (typeId, id) = 1 ∨
      ∃ kind parentId, member.clause? = some (kind, parentId) ∧
        (compilation.entry final (typeId, parentId)).source = some .default ∧
        timesReported [.runtimeLacksDefaultFor] (compilation.reports final)
          (typeId, parentId) = 1 := by
  have laid := built.wellFormed.laid
  -- The body is of another assembly, and the flag is not set.
  have unusable : ¬ ((compilation.table.type? member.owner).map TypeSymbol.assembly =
      some compilation.assembly ∨ compilation.runtimeFlag compilation.assembly = true) :=
    not_or.mpr ⟨foreign, Bool.eq_false_iff.mp unsupported⟩
  rw [timesReported_unsupported built run listed found, and_iff_left unusable]
  cases clause : member.clause? with
  | none => simp [Lookups.isChecked_head clause]
  | some part =>
    obtain ⟨kind, parentId⟩ := part
    rcases accountable clause with ⟨parent, foundParent, implementable⟩
    have above := obligations_parent laid listed found clause foundParent implementable
    have follows := entry_follows built listed found clause foundParent implementable
    rcases laid.of_clause found clause foundParent with ⟨noClause, owner, _⟩
    have parentTimes := timesReported_unsupported built run above foundParent
    rw [owner, and_iff_left unusable, and_iff_right (Lookups.isChecked_head noClause)]
      at parentTimes
    simp only [Option.some.injEq, Prod.mk.injEq, and_assoc, exists_eq_left', exists_and_left,
      parentTimes]
    generalize (compilation.entry final (typeId, parentId)).source = parentSource at follows ⊢
    generalize (compilation.entry final (typeId, id)).source = source at follows ⊢
    generalize (compilation.lookups final).isChecked _ typeId member = checked at follows ⊢
    cases follows with
    | missing => simp
    | itself => simp
    | checked another => simp [another]

end

/-- What is reported is reported of something that has to be implemented. -/
theorem mem_reports (laid : compilation.table.Laid) {final : Memory} {typeId : TypeId}
    {id : MemberId} {diagnostic : Diagnostic}
    (reported : ((typeId, id), diagnostic) ∈ compilation.reports final) :
    ∃ type member, (typeId, id) ∈ compilation.obligations (compilation.lookups final) ∧
      compilation.table.type? typeId = some type ∧ compilation.table.member? id = some member ∧
      (compilation.lookups final).finding? compilation.table compilation.assembly typeId type
        (id, member) = some diagnostic := by
  rcases List.mem_filterMap.mp reported with ⟨_, listed, isVerdict⟩
  rcases Option.map_eq_some_iff.mp isVerdict with ⟨_, verdict, same⟩
  cases same
  rcases (mem_obligations laid).mp listed with ⟨_, ⟨type, foundType, _⟩, member, found, _⟩
  rw [Lookups.verdict?, foundType, Option.bind_some, found, Option.bind_some] at verdict
  exact ⟨type, member, listed, foundType, found, verdict⟩

theorem reports_faults (laid : compilation.table.Laid) {final : Memory}
    {report : (TypeId × MemberId) × Diagnostic} (reported : report ∈ compilation.reports final) :
    compilation.table.Faults report.1 report.2 := by
  rcases mem_reports laid reported with ⟨type, member, _, foundType, found, finding⟩
  refine ⟨type, member, foundType, found, ?_⟩
  rcases Lookups.finding?_eq_some.mp finding with ⟨_, ⟨_, same⟩ | ⟨_, _, same⟩⟩
  · exact .inl ⟨_, same.symm⟩
  · exact .inr same.symm

/-- What the checks look at by itself is a member, or an accessor of a member that another one
implements. -/
theorem checked_sources (laid : compilation.table.Laid) {final : Memory} {typeId : TypeId}
    {type : TypeSymbol} (foundType : compilation.table.type? typeId = some type) {id : MemberId}
    {member : MemberSymbol} (found : compilation.table.member? id = some member)
    (checked : (compilation.lookups final).isChecked compilation.table typeId member = true) :
    compilation.table.Accountable member ∧
      ∀ {kind parentId}, member.clause? = some (kind, parentId) →
        (compilation.entry final (typeId, parentId)).source = some .explicit ∨
          (compilation.entry final (typeId, parentId)).source = some .implicit := by
  have sources {kind : AccessorKind} {parentId : MemberId}
      (clause : member.clause? = some (kind, parentId)) :
      (compilation.entry final (typeId, parentId)).source = some .explicit ∨
        (compilation.entry final (typeId, parentId)).source = some .implicit := by
    show ((compilation.lookups final).resolve compilation.table typeId parentId).run.source? = _ ∨
      ((compilation.lookups final).resolve compilation.table typeId parentId).run.source? = _
    rw [Lookups.isChecked, clause] at checked
    simp only at checked
    split at checked
    · rename_i explicit
      exact .inl explicit
    · rename_i implicit
      exact .inr implicit
    · cases checked
  refine ⟨fun {kind parentId} clause => ?_, sources⟩
  rcases laid.clause found clause with ⟨parent, foundParent, noClause, _⟩
  rcases sources clause with implemented | implemented
  · exact ⟨parent, foundParent, Lookups.isImplementable_of_source foundType foundParent noClause
      implemented⟩
  · exact ⟨parent, foundParent, Lookups.isImplementable_of_source foundType foundParent noClause
      implemented⟩

theorem Built.reports_agree (built : compilation.Built) {final : Memory}
    (run : compilation.Run compilation.memory final) :
    compilation.MapAgrees final (compilation.obligations (compilation.lookups final))
      (compilation.reports final) where
  head listed found noClause := head_agrees built run listed found noClause
  clause listed found clause foundParent implementable :=
    ⟨obligations_parent built.wellFormed.laid listed found clause foundParent implementable,
      clause_agrees built run listed found clause foundParent implementable⟩
  body unsupported := fun listed found accountable foreign =>
    body_agrees built run listed found unsupported accountable foreign
  only {typeId id diagnostic} reported := by
    have laid := built.wellFormed.laid
    rcases mem_reports laid reported with ⟨type, member, listed, foundType, found, finding⟩
    have once {rules : List Rule} (breaks : diagnostic.Breaks rules) :
        timesReported rules (compilation.reports final) (typeId, id) = 1 := by
      rw [timesReported_eq_one built run listed found rules foundType, finding, Option.any_some]
      exact decide_eq_true breaks
    have checked := (Lookups.finding?_eq_some.mp finding).1
    rcases checked_sources laid foundType found checked with ⟨accountable, sources⟩
    refine ⟨member, listed, found, accountable, sources, fun breaks => ?_, fun breaks => ?_⟩
    · have missing := (timesReported_missing built run listed found).mp (once breaks)
      exact ⟨(entry_implementation final _).mpr missing.2, once breaks⟩
    · have unsupported := (timesReported_unsupported built run listed found).mp (once breaks)
      rcases not_or.mp unsupported.2.2 with ⟨foreign, flag⟩
      exact ⟨Bool.eq_false_iff.mpr flag, foreign, unsupported.2.1, once breaks⟩

end Compilation

/-- An assembly of an interface with two properties, one of them with a body. -/
def widgets : AssemblyDecl where
  name := "Widgets"
  types :=
    [ { name := "Widget"
        kind := .interfaceType
        members :=
          [ .property { name := "Size", type := "int", getter := some {} },
            .property { name := "Weight", type := "int", getter := some { hasBody := true } } ] } ]

/-- An assembly of a class that implements neither. -/
def gauges : AssemblyDecl where
  name := "Gauges"
  references := ["Widgets"]
  types := [{ name := "Gauge", kind := .classType, interfaces := ["Widget"] }]

namespace Compilation

/-- The compilation of `gauges`, for a runtime that cannot call bodies of interfaces. -/
def gauged : Compilation :=
  .ofDecl gauges [.ofDecl widgets [] {}] { runtimeSupport := some false }

/-- What is remembered after `gauged` was checked, and asked for its implementation map. -/
def gaugedMemory : Memory :=
  (gauged.reply .implementationMap (gauged.reply .diagnostics gauged.memory).2).2

end Compilation

end Conformance
