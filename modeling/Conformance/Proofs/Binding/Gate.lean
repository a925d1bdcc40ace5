import Conformance.Proofs.Binding.Blocks
import Conformance.Proofs.Binding.Reports

/-!
The language version gate.

Below the version that has bodies and modifiers in interfaces, an interface member that
uses them is reported and loses them. Whatever was declared, the member ends up public
and abstract (`MemberDecl.draft_outdated`), and of all that is reported of it, one
diagnostic says that the feature is missing just if the member uses it
(`MemberDecl.gate_reports`). Explicit implementations do not pass the gate.
-/

namespace Conformance

/-- Whether a complaint is that of the gate. -/
def Complaint.isUnavailable : Complaint → Bool
  | unavailable _ _ => true
  | _ => false

/-- Only the complaint of the gate says that a feature is missing. -/
theorem Complaint.not_breaks_toDiagnostic {complaint : Complaint}
    (available : complaint.isUnavailable = false) {span : Span} {display owner : String} :
    ¬ (complaint.toDiagnostic span display owner).Breaks [.featureNotAvailable] := by
  cases complaint with
  | unavailable => cases available
  | _ => rintro ⟨rule, listed, same⟩; cases List.mem_singleton.mp listed; cases same

/-! ## Repairs -/

namespace Repair

/-- Complaints are those of repairs. -/
theorem mem_complaints_repairAll {draft : Draft} {repairs : List Repair} {complaint : Complaint}
    (inside : complaint ∈ (draft.repairAll repairs).complaints) :
    complaint ∈ draft.complaints ∨ ∃ r ∈ repairs, r.complaint? = some complaint := by
  unfold Draft.repairAll at inside
  induction repairs generalizing draft with
  | nil => exact .inl inside
  | cons r repairs ih =>
    rcases ih inside with earlier | ⟨other, listed, complains⟩
    · unfold Draft.repair at earlier
      split at earlier
      · rcases List.mem_append.mp earlier with old | new
        · exact .inl old
        · exact .inr ⟨r, List.mem_cons_self, Option.mem_toList.mp new⟩
      · exact .inl earlier
    · exact .inr ⟨other, List.mem_cons_of_mem _ listed, complains⟩

theorem complaints_repairAll_subset (draft : Draft) (repairs : List Repair) :
    draft.complaints ⊆ (draft.repairAll repairs).complaints := by
  unfold Draft.repairAll
  induction repairs generalizing draft with
  | nil => exact fun _ inside => inside
  | cons r repairs ih =>
    refine fun complaint inside => ih (draft.repair r) ?_
    unfold Draft.repair
    split
    · exact List.mem_append_left _ inside
    · exact inside

/-- If nothing is complained about, a repair with a complaint does not apply. -/
theorem applies_head_of_silent {draft : Draft} {r : Repair} {repairs : List Repair}
    (complaining : r.complaint?.isSome = true)
    (silent : ((draft.repair r).repairAll repairs).complaints = []) : r.applies draft = false := by
  by_contra applies
  obtain ⟨complaint, complains⟩ := Option.isSome_iff_exists.mp complaining
  have inside : complaint ∈ (draft.repair r).complaints := by
    rw [Draft.repair, if_pos (by simpa using applies), complains]
    exact List.mem_append_right _ (List.mem_singleton_self _)
  have kept := complaints_repairAll_subset (draft.repair r) repairs inside
  rw [silent] at kept
  cases kept

/-- A repair that does not apply changes nothing. -/
theorem repair_idle {draft : Draft} {r : Repair} (idle : r.applies draft = false) :
    draft.repair r = draft := by
  rw [Draft.repair, if_neg (by simp [idle])]

/-- If nothing is complained about, no repair with a complaint applies. -/
theorem applies_of_silent {draft : Draft} {repairs : List Repair}
    (complaining : ∀ r ∈ repairs, r.complaint?.isSome = true)
    (silent : (draft.repairAll repairs).complaints = []) :
    ∀ r ∈ repairs, r.applies draft = false := by
  induction repairs with
  | nil => nofun
  | cons first repairs ih =>
    have after : ((draft.repair first).repairAll repairs).complaints = [] := silent
    have idle := applies_head_of_silent (complaining first List.mem_cons_self) after
    rw [repair_idle idle] at after
    exact List.forall_mem_cons.mpr
      ⟨idle, ih (fun r listed => complaining r (List.mem_cons_of_mem _ listed)) after⟩

end Repair

namespace MemberRules

variable {rules : MemberRules}

/-- No repair says that a feature is missing. -/
theorem repairs_available :
    ∀ r ∈ rules.repairs, r.complaint?.any Complaint.isUnavailable = false := by
  have ofInterface : ∀ r ∈ Repair.ofInterface,
      r.complaint?.any Complaint.isUnavailable = false := by decide
  have ofClass : ∀ ownerIsAbstract needsBody, ∀ r ∈ Repair.ofClass ownerIsAbstract needsBody,
      r.complaint?.any Complaint.isUnavailable = false := by decide
  have ofExplicit : ∀ needsBody, ∀ r ∈ Repair.ofExplicit needsBody,
      r.complaint?.any Complaint.isUnavailable = false := by decide
  unfold repairs
  cases rules.container with
  | interfaceType => exact ofInterface
  | classType => exact ofClass _ _
  | explicit => exact ofExplicit _

theorem complaints_available {declared : Modifiers} {hasBody : Bool}
    (passes : rules.tooOld? declared hasBody = none) :
    ∀ complaint ∈ (rules.apply declared hasBody).complaints, complaint.isUnavailable = false := by
  intro complaint inside
  unfold apply at inside
  rw [passes] at inside
  rcases Repair.mem_complaints_repairAll inside with none | ⟨r, listed, complains⟩
  · cases none
  · have available := repairs_available r listed
    rwa [complains, Option.any_some] at available

end MemberRules

namespace MemberDecl

variable (decl : MemberDecl) (scope : MemberScope) (id : MemberId)

/-- Whether a member uses what members of interfaces did not have at first: a body, its own
or that of an accessor, or a modifier other than `new`. -/
def isModern : Bool :=
  decl.declaresBody || decide ({ decl.modifiers with isNew := false } ≠ ∅)

/-- Whether the gate is for a member of an interface. -/
def isGated : Bool := decl.explicitInterface.isNone && decl.isModern

/-- What the gate reports of a member. -/
def gateReport (version : LanguageVersion) : Diagnostic :=
  .breach .featureNotAvailable decl.span
    [.text Feature.defaultInterfaceImplementation.name, .text version.name,
      .text Feature.defaultInterfaceImplementation.since.name]

variable {decl scope}

/-- The gate looks at members of interfaces that are no explicit implementations. -/
theorem tooOld?_eq :
    (scope.rules decl).tooOld? decl.modifiers decl.declaresBody =
      if scope.ownerIsInterface = true ∧ decl.isGated = true then scope.outdated? else none := by
  have same : ((scope.rules decl).container = .interfaceType ∧
      (decl.declaresBody = true ∨ { decl.modifiers with isNew := false } ≠ ∅)) ↔
        scope.ownerIsInterface = true ∧ decl.isGated = true := by
    show (scope.container decl = .interfaceType ∧ _) ↔ _
    rw [container_eq_interface, isGated, isModern, Bool.and_eq_true, Bool.or_eq_true,
      decide_eq_true_iff, Option.isNone_iff_eq_none, and_assoc]
  rw [MemberRules.tooOld?]
  simp only [same]
  rfl

/-- Without a feature that members of interfaces did not have at first, repairs make them
public and abstract as well. -/
theorem apply_plain (rules : MemberRules) (inside : rules.container = .interfaceType)
    (isNew : Bool) : rules.apply { isNew } false =
      { modifiers := { isNew, isPublic := true, isAbstract := true }, hasBody := false } := by
  have passes : rules.tooOld? { isNew } false = none :=
    if_neg fun both => both.2.elim nofun fun modified => modified rfl
  unfold MemberRules.apply MemberRules.repairs
  rw [passes, inside]
  cases isNew <;> rfl

/-- What a version without the feature makes of a member of an interface. -/
theorem draft_outdated {version : LanguageVersion} (inside : scope.ownerIsInterface = true)
    (implicit : decl.explicitInterface = none) (outdated : scope.outdated? = some version) :
    decl.draft scope =
      { modifiers := { isNew := decl.modifiers.isNew, isPublic := true, isAbstract := true }
        hasBody := false
        complaints := if decl.isModern then
            [.unavailable .defaultInterfaceImplementation version] else [] } := by
  have gated : decl.isGated = decl.isModern := by
    rw [isGated, implicit]
    rfl
  cases modern : decl.isModern with
  | true =>
    have old : (scope.rules decl).tooOld? decl.modifiers decl.declaresBody = some version := by
      rw [tooOld?_eq, if_pos ⟨inside, gated.trans modern⟩, outdated]
    unfold draft MemberRules.apply
    rw [old]
    rfl
  | false =>
    unfold isModern at modern
    rw [Bool.or_eq_false_iff, decide_eq_false_iff_not, not_not] at modern
    have plain : decl.modifiers = { isNew := decl.modifiers.isNew } := by
      rcases same : decl.modifiers with ⟨isNew, _⟩
      have rest := modern.2
      rw [same] at rest
      cases rest
      rfl
    have container := container_eq_interface.mpr ⟨inside, implicit⟩
    unfold draft
    rw [modern.1, plain]
    exact apply_plain (scope.rules decl) container _

/-! ## Reports -/

variable (decl scope)

/-- Accessors without the body that they need. -/
def bodyReports (id : MemberId) : List Diagnostic :=
  ((decl.clauses.map (decl.place scope id)).filter fun placed =>
      (!(decl.draft scope).modifiers.isAbstract && !(decl.draft scope).modifiers.isExternal) &&
        decl.missesBody (scope.container decl) placed.clause).map fun placed =>
    Complaint.missingBody.toDiagnostic placed.span placed.display scope.ownerName

/-- What is reported of a member: complaints, then what is wrong with the modifiers of its
accessors, then accessors without the body that they need. -/
theorem bind_diagnostics : (decl.bind scope id).diagnostics =
    (decl.draft scope).complaints.map (·.toDiagnostic decl.span
        ((decl.bind scope id).head.displayIn scope.ownerName) scope.ownerName) ++
      decl.modifierReports scope id ++ decl.bodyReports scope id :=
  rfl

/-- One diagnostic of a member says that the feature is missing, if the gate holds it back. -/
theorem gate_reports :
    (decl.bind scope id).diagnostics.filter (fun diagnostic =>
      diagnostic.Breaks [.featureNotAvailable]) =
      ((scope.rules decl).tooOld? decl.modifiers decl.declaresBody).toList.map decl.gateReport := by
  have accessors : Reports Rule.ofAccessors (decl.modifierReports scope id) := by
    unfold modifierReports
    split
    · exact checkAccessors_report _ _ _ _
    · exact .flatMap fun placed _ => placed.reject_report _
  have bodies : Reports [.missingBody] (decl.bodyReports scope id) :=
    .map fun _ _ => Diagnostic.breaks_breach List.mem_cons_self _ _
  rw [bind_diagnostics, List.filter_append, List.filter_append, accessors.filter_others (by decide),
    bodies.filter_others (by decide), List.append_nil, List.append_nil, List.filter_map]
  cases old : (scope.rules decl).tooOld? decl.modifiers decl.declaresBody with
  | none =>
    have available := MemberRules.complaints_available old
    rw [List.filter_eq_nil_iff.mpr fun complaint inside breaks => ?_]
    · rfl
    · exact Complaint.not_breaks_toDiagnostic (available complaint inside)
        (of_decide_eq_true breaks)
  | some version =>
    have complaints : (decl.draft scope).complaints =
        [.unavailable .defaultInterfaceImplementation version] := by
      unfold draft MemberRules.apply
      rw [old]
    rw [complaints]
    rfl

end MemberDecl

/-! ## Reports of an assembly -/

namespace AssemblyDecl

/-- What the gate reports of an assembly: one diagnostic for each member of an interface that
it holds back, in the order of the declarations. -/
def gateReports (version : LanguageVersion) (decl : AssemblyDecl) : List Diagnostic :=
  decl.types.flatMap fun type =>
    if type.kind = .interfaceType then
      (type.members.filter MemberDecl.isGated).map fun member => member.gateReport version
    else []

end AssemblyDecl

namespace SymbolTable

variable {table : SymbolTable}

/-- A version without the feature of the gate. -/
theorem outdated?_source {version : LanguageVersion} (old : version < .v8_0) :
    (BindMode.source version).outdated? .defaultInterfaceImplementation = some version := by
  cases version <;> first | rfl | exact absurd old (by decide)

/-- What the gate reports of an assembly, and in which order. -/
theorem Closed.gate_reports (closed : table.Closed) (decl : AssemblyDecl)
    (references : List AssemblyId) {version : LanguageVersion} (old : version < .v8_0) :
    (table.bind decl references (.source version)).diagnostics.filter (fun diagnostic =>
      diagnostic.Breaks [.featureNotAvailable]) = decl.gateReports version := by
  have members : (table.populating decl references (.source version)).2.filter
      (fun diagnostic => diagnostic.Breaks [.featureNotAvailable]) = decl.gateReports version := by
    rw [closed.populating_diagnostics, List.filter_flatMap]
    refine List.flatMap_congr fun typeDecl _ => ?_
    have inside : (declaredScope (.source version) typeDecl ⟨0⟩).ownerIsInterface = true ↔
        typeDecl.kind = .interfaceType := decide_eq_true_iff
    have lacks : (declaredScope (.source version) typeDecl ⟨0⟩).outdated? = some version :=
      outdated?_source old
    simp only [List.filter_flatMap, MemberDecl.gate_reports, MemberDecl.tooOld?_eq, inside, lacks]
    by_cases isInterface : typeDecl.kind = .interfaceType
    · simp only [isInterface, true_and, if_true, List.map_eq_flatMap, flatMap_filter]
      refine List.flatMap_congr fun member _ => ?_
      split <;> rfl
    · simp only [isInterface, false_and, if_false, Option.toList_none, List.map_nil,
        List.flatMap_eq_nil_iff, implies_true]
  have others {rules : List Rule} {first : List Diagnostic} (report : Reports rules first)
      (apart : ∀ rule ∈ rules, ∀ other ∈ [Rule.featureNotAvailable], rule.code ≠ other.code) :
      first.filter (fun diagnostic => diagnostic.Breaks [.featureNotAvailable]) = [] :=
    report.filter_others apart
  have heritages := others (table.heritages_report decl references (.source version)) (by decide)
  have cycles := others (table.untangling_report decl references (.source version)) (by decide)
  have targets := others (targets_report (table.populating decl references (.source version)).1
    table.nextAssembly (typeIds table.types.size decl.types.length)) (by decide)
  rw [bind_eq closed.untangling_keeps.fault]
  simp only [BindMode.reported, BindMode.isMetadata, Bool.false_eq_true, if_false,
    List.filter_append, heritages, cycles, members, targets, List.nil_append, List.append_nil]

/-! ## Demotion -/

/-- A member stands in a table as the gate leaves it: public and abstract, without a body,
and so are its accessors. -/
structure Demoted (table : SymbolTable) (declared : Modifiers) (member : MemberSymbol) : Prop where
  modifiers : member.modifiers = { isNew := declared.isNew, isPublic := true, isAbstract := true }
  body : member.hasBody = false
  accessors : ∀ {id}, id ∈ member.accessors →
    ∃ accessor, table.member? id = some accessor ∧ accessor.hasImplementation = false

/-- Members of interfaces are demoted, explicit implementations apart. -/
theorem BoundType.demoted {assembly : AssemblyId} {version : LanguageVersion} {decl : TypeDecl}
    {id : TypeId} {type : TypeSymbol}
    (bindsType : BoundType table assembly (.source version) decl id type) (old : version < .v8_0)
    (isInterface : decl.kind = .interfaceType) :
    List.Forall₂ (fun memberId (member : MemberDecl) => member.explicitInterface = none →
      ∃ symbol, table.member? memberId = some symbol ∧ table.Demoted member.modifiers symbol)
      type.members decl.members := by
  have inside : (memberScope (.source version) id type).ownerIsInterface = true := by
    show decide (type.kind = .interfaceType) = true
    rw [bindsType.shell]
    exact decide_eq_true isInterface
  refine bindsType.members.imp fun memberId member carries implicit => ?_
  have draft := MemberDecl.draft_outdated inside implicit (outdated?_source old)
  refine ⟨_, carries.head, ?_, ?_, fun {accessorId} listed => ?_⟩
  · show (member.draft _).modifiers = _
    rw [draft]
  · show (member.bind (memberScope (.source version) id type) memberId).head.hasBody = false
    rw [MemberDecl.bind_head_hasBody, draft]
    exact ite_self false
  · rcases carries.exists_clause listed with ⟨clause, _, found⟩
    refine ⟨_, found, ?_⟩
    show ((member.clauseSymbol _ memberId clause).hasBody ||
      (member.clauseSymbol _ memberId clause).modifiers.isExternal) = false
    rw [MemberDecl.isExternal_clauseSymbol]
    unfold MemberDecl.clauseSymbol
    rw [draft]
    rfl

/-- What a version without bodies and modifiers in interfaces makes of an assembly: members of
interfaces are demoted, and those that the gate holds back are reported once each. -/
structure Outdates (table : SymbolTable) (decl : AssemblyDecl) (version : LanguageVersion)
    (binding : Binding) : Prop where
  demoted : ∀ {position typeDecl}, decl.types[position]? = some typeDecl →
    typeDecl.kind = .interfaceType →
      ∃ type, binding.table.type? ⟨table.types.size + position⟩ = some type ∧
        List.Forall₂ (fun id (member : MemberDecl) => member.explicitInterface = none →
          ∃ symbol, binding.table.member? id = some symbol ∧
            binding.table.Demoted member.modifiers symbol) type.members typeDecl.members
  reported : binding.diagnostics.filter (fun diagnostic =>
    diagnostic.Breaks [.featureNotAvailable]) = decl.gateReports version

theorem WellFormed.outdates (wellFormed : table.WellFormed) (decl : AssemblyDecl)
    (references : List AssemblyId) {version : LanguageVersion} (old : version < .v8_0) :
    table.Outdates decl version (table.bind decl references (.source version)) where
  demoted declared isInterface := by
    have bound := bind_bound wellFormed decl references (.source version)
    rcases bound.types declared with ⟨type, found, bindsType⟩
    exact ⟨type, found, bindsType.demoted old isInterface⟩
  reported := wellFormed.closed.gate_reports decl references old

end SymbolTable

/-! ## Silence -/

namespace Modifiers

theorem eq_empty_iff {modifiers : Modifiers} :
    modifiers = ∅ ↔ ∀ modifier, modifiers.has modifier = false := by
  have empty (modifier : Modifier) : (∅ : Modifiers).has modifier = false := by
    cases modifier <;> rfl
  exact ⟨fun same modifier => same ▸ empty modifier,
    fun absent => ext_has fun modifier => (absent modifier).trans (empty modifier).symm⟩

theorem toList_eq_nil {modifiers : Modifiers} : modifiers.toList = [] ↔ modifiers = ∅ := by
  rw [eq_empty_iff, toList, List.filter_eq_nil_iff]
  have all (modifier : Modifier) : modifier ∈ Modifier.all := by cases modifier <;> decide
  exact ⟨fun absent modifier => Bool.eq_false_iff.mpr (absent modifier (all modifier)),
    fun absent modifier _ => Bool.eq_false_iff.mp (absent modifier)⟩

/-- A set of modifiers that give an accessibility is empty just if it gives none. -/
theorem accessibility?_eq_none {modifiers : Modifiers} (only : modifiers \ accesses = ∅) :
    modifiers.accessibility? = none ↔ modifiers = ∅ := by
  constructor
  · intro none
    have absent := accessibility?_eq_none_iff.mp none
    refine eq_empty_iff.mpr fun modifier => ?_
    have other := eq_empty_iff.mp only modifier
    rw [has_sdiff] at other
    cases modifier with
    | publicAccess => exact absent .publicAccess
    | protectedInternalAccess => exact absent .protectedInternalAccess
    | protectedAccess => exact absent .protectedAccess
    | internalAccess => exact absent .internalAccess
    | privateAccess => exact absent .privateAccess
    | _ => exact (Bool.and_true _).symm.trans other
  · rintro rfl
    rfl

end Modifiers

namespace MemberDecl

/-- A member of an interface in the form that all versions have: without a body, and without
modifiers but `new`; and so are its accessors, without `new`. -/
structure IsClassic (decl : MemberDecl) : Prop where
  body : decl.declaresBody = false
  modifiers : { decl.modifiers with isNew := false } = ∅
  clauses : ∀ clause ∈ decl.clauses, clause.decl.hasBody = false ∧ clause.decl.modifiers = ∅

/-- What no version complains about although not all have it: the body, `extern` or `async` of
an explicit implementation, and the accessibility of an accessor of another property. -/
inductive Slips (decl : MemberDecl) : Prop where
  | body (explicit : decl.explicitInterface.isSome = true) (body : decl.declaresBody = true)
  | external (explicit : decl.explicitInterface.isSome = true)
    (external : decl.modifiers.isExternal = true)
  | async (explicit : decl.explicitInterface.isSome = true) (async : decl.modifiers.isAsync = true)
  | access (implicit : decl.explicitInterface = none) (isProperty : decl.isProperty = true)
    (clause : Clause) (listed : clause ∈ decl.clauses)
    (access : clause.decl.modifiers.accessibility?.isSome = true)

variable {decl : MemberDecl} {scope : MemberScope} {id : MemberId}

theorem hasBody_clause (bodiless : decl.declaresBody = false) :
    ∀ clause ∈ decl.clauses, clause.decl.hasBody = false := by
  cases kind : decl.isMethod with
  | true =>
    cases decl with
    | method m => exact fun clause listed => absurd listed List.not_mem_nil
    | _ => cases kind
  | false =>
    rw [declaresBody_eq_any decl kind, List.any_eq_false] at bodiless
    exact fun clause listed => Bool.eq_false_iff.mpr (bodiless clause listed)

/-- Where nothing is said of accessors, only those of properties have modifiers, and these
give an accessibility. -/
theorem clause_of_silent (silent : (decl.bind scope id).diagnostics = []) {clause : Clause}
    (listed : clause ∈ decl.clauses) :
    if decl.isProperty = true ∧ decl.explicitInterface = none then
      clause.decl.modifiers \ .accesses = ∅
    else clause.decl.modifiers = ∅ := by
  have quiet := List.eq_nil_of_subset_nil (silent ▸ decl.modifiers_reported scope id)
  have placed := List.mem_map_of_mem (f := decl.place scope id) listed
  have implicit : scope.container decl ≠ .explicit ↔ decl.explicitInterface = none := by
    rw [ne_eq, container_eq_explicit, Bool.not_eq_true, Option.isSome_eq_false_iff,
      Option.isNone_iff_eq_none]
  have accepted {modifiers : Modifiers}
      (none : (decl.place scope id clause).reject modifiers = []) : modifiers = ∅ :=
    Modifiers.toList_eq_nil.mp (List.map_eq_nil_iff.mp none)
  simp only [← implicit]
  unfold modifierReports at quiet
  split at quiet
  · rename_i property
    rw [if_pos property]
    have rejected := (List.append_eq_nil_iff.mp (List.append_eq_nil_iff.mp quiet).1).1
    exact accepted (List.flatMap_eq_nil_iff.mp rejected _ placed)
  · rename_i other
    rw [if_neg other]
    exact accepted (List.flatMap_eq_nil_iff.mp quiet _ placed)

/-- Where nothing is reported of a member, nothing is complained about. -/
theorem complaints_of_silent (silent : (decl.bind scope id).diagnostics = []) :
    (decl.draft scope).complaints = [] := by
  rw [bind_diagnostics] at silent
  exact List.map_eq_nil_iff.mp (List.append_eq_nil_iff.mp (List.append_eq_nil_iff.mp silent).1).1

/-- A version without the feature is silent only of members that do without it. -/
theorem isModern_of_silent {version : LanguageVersion} (inside : scope.ownerIsInterface = true)
    (implicit : decl.explicitInterface = none) (outdated : scope.outdated? = some version)
    (silent : (decl.bind scope id).diagnostics = []) : decl.isModern = false := by
  have quiet := complaints_of_silent silent
  rw [draft_outdated inside implicit outdated] at quiet
  cases modern : decl.isModern with
  | false => rfl
  | true =>
    rw [modern] at quiet
    cases quiet

/-- Where nothing is said of an explicit implementation, it has no modifiers but `extern` and
`async`. -/
theorem modifiers_of_silent_explicit (explicit : decl.explicitInterface.isSome = true)
    (silent : (decl.bind scope id).diagnostics = []) :
    ∀ modifier ∈ Repair.explicitInvalid, decl.modifiers.has modifier = false := by
  have container : (scope.rules decl).container = .explicit := container_eq_explicit.mpr explicit
  have complaining : ∀ needsBody,
      ∀ r ∈ Repair.ofExplicit needsBody, r.complaint?.isSome = true := by
    decide
  have quiet := complaints_of_silent silent
  have passes : (scope.rules decl).tooOld? decl.modifiers decl.declaresBody = none := by
    rw [MemberRules.tooOld?, container, if_neg (by simp)]
  unfold draft MemberRules.apply at quiet
  rw [passes] at quiet
  simp only [MemberRules.repairs, container] at quiet
  have idle := Repair.applies_of_silent (complaining _) quiet
  exact fun modifier invalid =>
    idle _ (List.mem_append_left _ (List.mem_map_of_mem (f := Repair.invalidForExplicit) invalid))

/-- A classic member has nothing to slip through with. -/
theorem IsClassic.not_slips (classic : decl.IsClassic) : ¬ decl.Slips := by
  rintro (⟨_, body⟩ | ⟨_, external⟩ | ⟨_, async⟩ | ⟨_, _, clause, listed, access⟩)
  · rw [classic.body] at body
    cases body
  · have absent := congrArg Modifiers.isExternal classic.modifiers
    rw [show decl.modifiers.isExternal = false from absent] at external
    cases external
  · have absent := congrArg Modifiers.isAsync classic.modifiers
    rw [show decl.modifiers.isAsync = false from absent] at async
    cases async
  · rw [(classic.clauses clause listed).2] at access
    cases access

/-- A member that names no interface and does not slip through is classic if a version without
the feature says nothing of it. -/
theorem isClassic_of_silent_implicit {version : LanguageVersion}
    (inside : scope.ownerIsInterface = true) (outdated : scope.outdated? = some version)
    (named : decl.explicitInterface = none) (silent : (decl.bind scope id).diagnostics = [])
    (blocked : ¬ decl.Slips) : decl.IsClassic := by
  have old := isModern_of_silent inside named outdated silent
  rw [isModern, Bool.or_eq_false_iff, decide_eq_false_iff_not, not_not] at old
  refine ⟨old.1, old.2, fun clause listed => ⟨hasBody_clause old.1 clause listed, ?_⟩⟩
  have modifiers := clause_of_silent silent listed
  split at modifiers
  · rename_i property
    refine (Modifiers.accessibility?_eq_none modifiers).mp ?_
    by_contra access
    exact blocked (.access named property.1 clause listed (Option.isSome_iff_ne_none.mpr access))
  · exact modifiers

/-- An explicit implementation of which nothing is said and that does not slip through is
classic. -/
theorem isClassic_of_silent_explicit (explicit : decl.explicitInterface.isSome = true)
    (silent : (decl.bind scope id).diagnostics = []) (blocked : ¬ decl.Slips) :
    decl.IsClassic := by
  have invalid := modifiers_of_silent_explicit explicit silent
  have bodiless : decl.declaresBody = false :=
    Bool.eq_false_iff.mpr fun body => blocked (.body explicit body)
  refine ⟨bodiless, Modifiers.eq_empty_iff.mpr fun modifier => ?_, fun clause listed =>
    ⟨hasBody_clause bodiless clause listed, ?_⟩⟩
  · by_cases isInvalid : modifier ∈ Repair.explicitInvalid
    · have absent := invalid modifier isInvalid
      cases modifier <;> first | rfl | exact absent
    · cases modifier with
      | external =>
        exact Bool.eq_false_iff.mpr fun external => blocked (.external explicit external)
      | async => exact Bool.eq_false_iff.mpr fun async => blocked (.async explicit async)
      | _ => exact absurd (by decide) isInvalid
  · have modifiers := clause_of_silent silent listed
    rwa [if_neg fun both => by rw [both.2] at explicit; cases explicit] at modifiers

/-- Where a version without the feature says nothing of a member of an interface, the member
is classic unless it slips through. -/
theorem isClassic_iff_of_silent {version : LanguageVersion} (inside : scope.ownerIsInterface = true)
    (outdated : scope.outdated? = some version) (silent : (decl.bind scope id).diagnostics = []) :
    decl.IsClassic ↔ ¬ decl.Slips := by
  refine ⟨IsClassic.not_slips, fun blocked => ?_⟩
  cases named : decl.explicitInterface with
  | none => exact isClassic_of_silent_implicit inside outdated named silent blocked
  | some interface =>
    exact isClassic_of_silent_explicit (Option.isSome_of_eq_some named) silent blocked

end MemberDecl

namespace SymbolTable

variable {table : SymbolTable}

/-- If a version without bodies and modifiers in interfaces binds an assembly without any
diagnostic, the members of its interfaces are classic, all but those that slip through. -/
theorem Made.classic_iff_of_silent (made : Made table) (decl : AssemblyDecl)
    (references : List AssemblyId) {version : LanguageVersion} (old : version < .v8_0)
    (silent : (table.bind decl references (.source version)).diagnostics = []) :
    ∀ type ∈ decl.types, type.kind = .interfaceType → ∀ member ∈ type.members,
      (member.IsClassic ↔ ¬ member.Slips) := by
  intro typeDecl listed isInterface member isMember
  rcases List.getElem?_of_mem listed with ⟨position, declared⟩
  have bound := bind_bound made.wellFormed decl references (.source version)
  rcases bound.types declared with ⟨type, found, bindsType⟩
  rcases exists_of_mem_forall₂ (List.Forall₂.flip (bound.reported rfl declared found)) isMember with
    ⟨memberId, _, reported⟩
  have inside :
      (memberScope (.source version) ⟨table.types.size + position⟩ type).ownerIsInterface =
        true := by
    show decide (type.kind = .interfaceType) = true
    rw [bindsType.shell]
    exact decide_eq_true isInterface
  rw [silent] at reported
  exact MemberDecl.isClassic_iff_of_silent inside (outdated?_source old)
    (List.eq_nil_of_subset_nil reported)

end SymbolTable

/-- A method that names the interface it implements, and has a body. -/
def ringing : MemberDecl :=
  .method { name := "Ring", explicitInterface := some "IBell", hasBody := true }

/-- An interface with a method, and one that implements the method. -/
def bells : AssemblyDecl where
  name := "Bells"
  types :=
    [{ name := "IBell", kind := .interfaceType, members := [.method { name := "Ring" }] },
      { name := "IAlarm", kind := .interfaceType, interfaces := ["IBell"], members := [ringing] }]

theorem bells_silent : ((∅ : SymbolTable).bind bells [] (.source .v7_3)).diagnostics = [] := by
  decide +kernel

/-- The method of `IAlarm` slips through, and that of `IBell` is classic. -/
theorem bells_classic_iff :
    (MemberDecl.method { name := "Ring" }).IsClassic ∧ ¬ ringing.IsClassic := by
  have classic := SymbolTable.Made.classic_iff_of_silent .empty bells [] (by decide) bells_silent
  constructor
  · refine (classic _ List.mem_cons_self rfl _ List.mem_cons_self).mpr ?_
    rintro (⟨explicit, _⟩ | ⟨explicit, _⟩ | ⟨explicit, _⟩ | ⟨_, isProperty, _⟩)
    all_goals contradiction
  · intro isClassic
    have slips : ringing.Slips := .body rfl rfl
    exact (classic _ (List.mem_cons_of_mem _ List.mem_cons_self) rfl _ List.mem_cons_self).mp
      isClassic slips

/-- A silent version without bodies in interfaces accepts a body in one. -/
theorem bells_silent_body :
    ((∅ : SymbolTable).bind bells [] (.source .v7_3)).diagnostics = [] ∧
      LanguageVersion.v7_3 < .v8_0 ∧
      ∃ type ∈ bells.types, type.kind = .interfaceType ∧
        ∃ member ∈ type.members, member.declaresBody = true :=
  ⟨bells_silent, by decide, _, List.mem_cons_of_mem _ List.mem_cons_self, rfl, ringing,
    List.mem_cons_self, rfl⟩

end Conformance
