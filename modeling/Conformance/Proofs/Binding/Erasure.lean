import Conformance.Proofs.Binding.Relabelling
import Conformance.Proofs.Compilation.Checks

/-!
Binding without `new`.

The modifier `new` of a member decides what is reported of hiding, and of `new` where it may not
stand, and nothing else. So binding commutes with taking it out of all members and accessors: of
the declarations on one side, and of the symbols and the diagnostics on the other
(`SymbolTable.bind_withoutNew`).
-/

namespace Conformance

/-! ## Erasure -/

/-- The set without `new`. -/
def Modifiers.withoutNew (m : Modifiers) : Modifiers := { m with isNew := false }

/-- The accessor without `new`. -/
def AccessorDecl.withoutNew (decl : AccessorDecl) : AccessorDecl :=
  { decl with modifiers := decl.modifiers.withoutNew }

/-- The property or indexer, and its accessors, without `new`. -/
def PropertyDecl.withoutNew (decl : PropertyDecl) : PropertyDecl :=
  { decl with
    modifiers := decl.modifiers.withoutNew
    getter := decl.getter.map AccessorDecl.withoutNew
    setter := decl.setter.map AccessorDecl.withoutNew }

/-- The member, and its accessors, without `new`. -/
def MemberDecl.withoutNew : MemberDecl → MemberDecl
  | method decl => method { decl with modifiers := decl.modifiers.withoutNew }
  | property decl => property decl.withoutNew
  | indexer decl => indexer decl.withoutNew
  | event decl => event
    { decl with
      modifiers := decl.modifiers.withoutNew
      adder := decl.adder.map AccessorDecl.withoutNew
      remover := decl.remover.map AccessorDecl.withoutNew }

/-- The type with its members without `new`. -/
def TypeDecl.withoutNew (decl : TypeDecl) : TypeDecl :=
  { decl with members := decl.members.map MemberDecl.withoutNew }

/-- The assembly with its members without `new`. -/
def AssemblyDecl.withoutNew (decl : AssemblyDecl) : AssemblyDecl :=
  { decl with types := decl.types.map TypeDecl.withoutNew }

/-- The member without `new`. -/
def MemberSymbol.withoutNew (member : MemberSymbol) : MemberSymbol :=
  { member with
    declared := member.declared.withoutNew
    modifiers := member.modifiers.withoutNew }

/-- The table with its members without `new`. -/
def SymbolTable.withoutNew (table : SymbolTable) : SymbolTable :=
  { table with members := table.members.map MemberSymbol.withoutNew }

/-- A diagnostic is about hiding, or about a `new` that may not stand where it does. -/
def Diagnostic.AboutNew (diagnostic : Diagnostic) : Prop :=
  diagnostic.Breaks Rule.ofHiding ∨
    diagnostic.Breaks [.modifierNotValid] ∧ diagnostic.arguments = [.text Modifier.new.keyword]

instance : DecidablePred Diagnostic.AboutNew := fun diagnostic =>
  inferInstanceAs (Decidable (diagnostic.Breaks Rule.ofHiding ∨
    diagnostic.Breaks [.modifierNotValid] ∧
      diagnostic.arguments = [.text Modifier.new.keyword]))

/-- The diagnostics that are not about `new`. -/
def ignoringNew (diagnostics : List Diagnostic) : List Diagnostic :=
  diagnostics.filter fun diagnostic => ¬ diagnostic.AboutNew

theorem ignoringNew_append (first second : List Diagnostic) :
    ignoringNew (first ++ second) = ignoringNew first ++ ignoringNew second :=
  List.filter_append first second

theorem ignoringNew_flatMap {α : Type} (items : List α) (f : α → List Diagnostic) :
    ignoringNew (items.flatMap f) = items.flatMap fun item => ignoringNew (f item) :=
  List.filter_flatMap

/-- A report of other rules says nothing about `new`. -/
theorem Reports.ignoringNew {rules : List Rule} {diagnostics : List Diagnostic}
    (report : Reports rules diagnostics)
    (apart : ∀ rule ∈ rules, ∀ other ∈ Rule.modifierNotValid :: Rule.ofHiding,
      rule.code ≠ other.code) : ignoringNew diagnostics = diagnostics := by
  refine List.filter_eq_self.mpr fun diagnostic inside => decide_eq_true fun about => ?_
  have breaks : diagnostic.Breaks (Rule.modifierNotValid :: Rule.ofHiding) := by
    rcases about with hides | ⟨invalid, _⟩
    · exact hides.mono (List.subset_cons_self _ _)
    · exact invalid.mono (by decide)
  exact (report diagnostic inside).absurd breaks apart

/-! ## Repairs -/

namespace Modifiers

theorem has_withoutNew (m : Modifiers) (modifier : Modifier) :
    m.withoutNew.has modifier = (m.has modifier && decide (modifier ≠ .new)) := by
  cases modifier <;> simp [has, withoutNew]

theorem toList_withoutNew (m : Modifiers) :
    m.withoutNew.toList = m.toList.filter (· ≠ .new) := by
  rw [toList, toList, List.filter_filter]
  refine List.filter_congr fun modifier _ => ?_
  rw [has_withoutNew, Bool.and_comm]

theorem withoutNew_sdiff (m other : Modifiers) :
    m.withoutNew \ other = (m \ other).withoutNew := by
  refine ext_has fun modifier => ?_
  rw [has_sdiff, has_withoutNew, has_withoutNew, has_sdiff, Bool.and_right_comm]

theorem withoutNew_withAccessibility (m : Modifiers) (access : Accessibility) :
    m.withoutNew.withAccessibility access = (m.withAccessibility access).withoutNew := by
  have given (modifier : Modifier) : (ofList [access.modifier]).has modifier =
      ((ofList [access.modifier]).has modifier && decide (modifier ≠ .new)) := by
    cases modifier <;> cases access <;> rfl
  refine ext_has fun modifier => ?_
  rw [withAccessibility, withAccessibility, withoutNew_sdiff, has_union, has_withoutNew,
    has_withoutNew, has_union, Bool.and_or_distrib_right, ← given]

end Modifiers

/-- The draft without `new`, and without complaints about it. -/
def Draft.withoutNew (draft : Draft) : Draft :=
  { draft with
    modifiers := draft.modifiers.withoutNew
    complaints := draft.complaints.filter (· ≠ .invalid .new) }

namespace Repair

/-- A repair does the same to a draft with and without `new`. -/
structure IgnoresNew (r : Repair) : Prop where
  applies : ∀ draft : Draft, r.applies draft.withoutNew = r.applies draft
  change : ∀ draft : Draft, r.change draft.withoutNew = (r.change draft).withoutNew
  complaint : r.complaint? ≠ some (.invalid .new)

theorem IgnoresNew.repair {r : Repair} (ignores : r.IgnoresNew) (draft : Draft) :
    draft.withoutNew.repair r = (draft.repair r).withoutNew := by
  have kept : r.complaint?.toList.filter (· ≠ .invalid .new) = r.complaint?.toList := by
    refine List.filter_eq_self.mpr fun complaint listed => decide_eq_true ?_
    rintro rfl
    exact ignores.complaint (Option.mem_toList.mp listed)
  unfold Draft.repair
  rw [ignores.applies]
  split
  · rw [ignores.change]
    simp only [Draft.withoutNew, List.filter_append, kept]
  · rfl

theorem ignoresNew_ofInterface : ∀ r ∈ ofInterface, r.IgnoresNew := by
  simp only [ofInterface, List.forall_mem_cons]
  iterate 15 refine ⟨⟨fun _ => rfl, fun _ => rfl, by decide⟩, ?_⟩
  exact nofun

theorem ignoresNew_ofClass (ownerIsAbstract needsBody : Bool) :
    ∀ r ∈ ofClass ownerIsAbstract needsBody, r.IgnoresNew := by
  simp only [ofClass, List.forall_mem_cons]
  iterate 11 refine ⟨⟨fun _ => rfl, fun _ => rfl, nofun⟩, ?_⟩
  exact nofun

/-- Where `new` may not stand, it is taken out by the repair. -/
theorem repair_invalidForExplicit (invalid : Modifier) (draft : Draft) :
    draft.withoutNew.repair (invalidForExplicit invalid) =
      (draft.repair (invalidForExplicit invalid)).withoutNew := by
  by_cases same : invalid = .new
  · subst same
    have gone : (draft.modifiers \ .ofList [.new]).withoutNew = draft.modifiers.withoutNew := by
      refine Modifiers.ext_has fun modifier => ?_
      cases modifier <;> simp [Modifiers.has_withoutNew, Modifiers.ofList]
    have absent : (invalidForExplicit .new).applies draft.withoutNew = false := rfl
    unfold Draft.repair
    rw [absent, if_neg Bool.false_ne_true]
    split
    · simp [Draft.withoutNew, invalidForExplicit, Draft.mapModifiers, gone]
    · rfl
  · refine IgnoresNew.repair ⟨fun draft => ?_, fun draft => ?_, ?_⟩ draft
    · show draft.modifiers.withoutNew.has invalid = draft.modifiers.has invalid
      rw [Modifiers.has_withoutNew, decide_eq_true same, Bool.and_true]
    · exact congrArg (fun modifiers => { draft.withoutNew with modifiers })
        (Modifiers.withoutNew_sdiff _ _)
    · simpa [invalidForExplicit] using same

theorem repair_ofExplicit (needsBody : Bool) : ∀ r ∈ ofExplicit needsBody, ∀ draft : Draft,
    draft.withoutNew.repair r = (draft.repair r).withoutNew := by
  intro r listed draft
  rcases List.mem_append.mp listed with invalid | body
  · obtain ⟨modifier, _, rfl⟩ := List.mem_map.mp invalid
    exact repair_invalidForExplicit modifier draft
  · have ignores : ∀ r ∈ [externalWithBody, missingBody needsBody], r.IgnoresNew := by
      simp only [List.forall_mem_cons]
      iterate 2 refine ⟨⟨fun _ => rfl, fun _ => rfl, nofun⟩, ?_⟩
      exact nofun
    exact (ignores r body).repair draft

end Repair

theorem Draft.repairAll_withoutNew {repairs : List Repair} (erases : ∀ r ∈ repairs,
    ∀ draft : Draft, draft.withoutNew.repair r = (draft.repair r).withoutNew) (draft : Draft) :
    draft.withoutNew.repairAll repairs = (draft.repairAll repairs).withoutNew := by
  unfold Draft.repairAll
  induction repairs generalizing draft with
  | nil => rfl
  | cons r repairs ih =>
    obtain ⟨first, later⟩ := List.forall_mem_cons.mp erases
    rw [List.foldl_cons, List.foldl_cons, first, ih later]

/-- The rules make the same of a member with and without `new`. -/
theorem MemberRules.apply_withoutNew (rules : MemberRules) (declared : Modifiers)
    (hasBody : Bool) :
    rules.apply declared.withoutNew hasBody = (rules.apply declared hasBody).withoutNew := by
  have gate : rules.tooOld? declared.withoutNew hasBody = rules.tooOld? declared hasBody := rfl
  have start : ({ modifiers := declared.withoutNew, hasBody } : Draft) =
      ({ modifiers := declared, hasBody } : Draft).withoutNew := rfl
  unfold apply
  rw [gate, start]
  cases rules.tooOld? declared hasBody with
  | some version => rfl
  | none =>
    refine Draft.repairAll_withoutNew ?_ _
    unfold repairs
    split
    · exact fun r listed => (Repair.ignoresNew_ofInterface r listed).repair
    · exact fun r listed => (Repair.ignoresNew_ofClass _ _ r listed).repair
    · exact Repair.repair_ofExplicit _

/-! ## Members -/

/-- The clause without `new`. -/
def Clause.withoutNew (clause : Clause) : Clause := { clause with decl := clause.decl.withoutNew }

/-- The clause without `new`, where it is placed. -/
def PlacedClause.withoutNew (placed : PlacedClause) : PlacedClause :=
  { placed with clause := placed.clause.withoutNew }

/-- The symbols without `new`, and what else is reported of them. -/
def MemberBlock.withoutNew (block : MemberBlock) : MemberBlock where
  head := block.head.withoutNew
  accessors := block.accessors.map MemberSymbol.withoutNew
  diagnostics := ignoringNew block.diagnostics

namespace PlacedClause

variable (placed : PlacedClause)

theorem reject_withoutNew (modifiers : Modifiers) :
    placed.withoutNew.reject modifiers.withoutNew = ignoringNew (placed.reject modifiers) := by
  unfold reject ignoringNew
  rw [Modifiers.toList_withoutNew, List.filter_map]
  refine congrArg (List.map _) (List.filter_congr fun modifier _ => ?_)
  cases modifier <;> rfl

theorem checkAccess_withoutNew (property : Modifiers) (display : String) :
    placed.withoutNew.checkAccess property.withoutNew display =
      ignoringNew (placed.checkAccess property display) := by
  have same : placed.withoutNew.checkAccess property.withoutNew display =
      placed.checkAccess property display := rfl
  rw [same]
  unfold checkAccess
  cases placed.modifiers.accessibility? with
  | none => rfl
  | some access =>
    simp only
    split
    · rfl
    · split <;> rfl

end PlacedClause

theorem checkAccessors_withoutNew (clauses : List PlacedClause) (property : Modifiers)
    (display : String) (span : Span) :
    checkAccessors (clauses.map PlacedClause.withoutNew) property.withoutNew display span =
      ignoringNew (checkAccessors clauses property display span) := by
  have narrowed : ((clauses.map PlacedClause.withoutNew).filter fun placed =>
      placed.modifiers.accessibility?.isSome) =
        (clauses.filter fun placed => placed.modifiers.accessibility?.isSome).map
          PlacedClause.withoutNew := List.filter_map
  have rejected (placed : PlacedClause) :
      placed.withoutNew.reject (placed.withoutNew.modifiers \ .accesses) =
        ignoringNew (placed.reject (placed.modifiers \ .accesses)) := by
    rw [← placed.reject_withoutNew, ← Modifiers.withoutNew_sdiff]
    rfl
  unfold checkAccessors
  simp only [narrowed, List.flatMap_map, List.isEmpty_map, List.length_map, rejected,
    PlacedClause.checkAccess_withoutNew, ignoringNew_append, ignoringNew_flatMap]
  congr 2
  split
  · rfl
  · split
    · rfl
    · split <;> rfl

theorem accessorModifiers_withoutNew (member : Modifiers) (access : Option Accessibility) :
    accessorModifiers member.withoutNew access =
      (accessorModifiers member access).withoutNew := by
  cases access with
  | none => rfl
  | some access =>
    have given := member.withoutNew_withAccessibility access
    cases access with
    | privateAccess =>
      unfold accessorModifiers
      simp only [given]
      rfl
    | _ => exact given

/-- Only the complaint about `new` is about `new`. -/
theorem Complaint.aboutNew_toDiagnostic (complaint : Complaint) (span : Span)
    (display owner : String) :
    (complaint.toDiagnostic span display owner).AboutNew ↔ complaint = .invalid .new := by
  cases complaint with
  | invalid modifier => cases modifier <;> exact decide_eq_decide.mp rfl
  | _ => exact decide_eq_decide.mp rfl

/-- The complaints about a draft without `new` are those about the draft, but for `new`. -/
theorem Draft.complaints_withoutNew (draft : Draft) (span : Span) (display owner : String) :
    draft.withoutNew.complaints.map (·.toDiagnostic span display owner) =
      ignoringNew (draft.complaints.map (·.toDiagnostic span display owner)) := by
  unfold ignoringNew
  rw [List.filter_map]
  refine congrArg (List.map _) (List.filter_congr fun complaint _ => ?_)
  exact decide_eq_decide.mpr (not_congr (complaint.aboutNew_toDiagnostic span display owner).symm)

theorem ignoringNew_missingBodies (clauses : List PlacedClause) (owner : String) :
    ignoringNew (clauses.map fun placed =>
      Complaint.missingBody.toDiagnostic placed.span placed.display owner) =
        clauses.map fun placed =>
          Complaint.missingBody.toDiagnostic placed.span placed.display owner := by
  refine List.filter_eq_self.mpr (List.forall_mem_map.mpr fun placed _ => decide_eq_true ?_)
  rw [Complaint.aboutNew_toDiagnostic]
  exact nofun

namespace MemberDecl

variable (decl : MemberDecl)

theorem modifiers_withoutNew : decl.withoutNew.modifiers = decl.modifiers.withoutNew := by
  cases decl <;> rfl

theorem name_withoutNew : decl.withoutNew.name = decl.name := by
  cases decl <;> rfl

theorem explicitInterface_withoutNew :
    decl.withoutNew.explicitInterface = decl.explicitInterface := by
  cases decl <;> rfl

theorem span_withoutNew : decl.withoutNew.span = decl.span := by
  cases decl <;> rfl

theorem signature_withoutNew : decl.withoutNew.signature = decl.signature := by
  cases decl <;> rfl

theorem isMethod_withoutNew : decl.withoutNew.isMethod = decl.isMethod := by
  cases decl <;> rfl

theorem isProperty_withoutNew : decl.withoutNew.isProperty = decl.isProperty := by
  cases decl <;> rfl

theorem bodiesRequired_withoutNew : decl.withoutNew.bodiesRequired = decl.bodiesRequired := by
  cases decl with
  | event decl => simp [withoutNew, bodiesRequired]
  | _ => rfl

theorem clauses_withoutNew : decl.withoutNew.clauses = decl.clauses.map Clause.withoutNew := by
  have properties (decl : PropertyDecl) : propertyClauses decl.withoutNew =
      (propertyClauses decl).map Clause.withoutNew := by
    obtain ⟨_, _, _, _, _, _, getter, setter, _⟩ := decl
    cases getter <;> cases setter <;> rfl
  cases decl with
  | method decl => rfl
  | property decl => exact properties decl
  | indexer decl => exact properties decl
  | event decl =>
    obtain ⟨_, _, _, _, adder, remover, _⟩ := decl
    cases adder <;> cases remover <;> rfl

theorem kindAt_withoutNew (first : MemberId) :
    decl.withoutNew.kindAt first = decl.kindAt first := by
  have properties (decl : PropertyDecl) : decl.withoutNew.getter.map (fun _ => first) =
      decl.getter.map (fun _ => first) ∧ decl.withoutNew.getter.isSome = decl.getter.isSome ∧
      ∀ id : MemberId, decl.withoutNew.setter.map (fun _ => id) = decl.setter.map fun _ => id := by
    obtain ⟨_, _, _, _, _, _, getter, setter, _⟩ := decl
    cases getter <;> cases setter <;> exact ⟨rfl, rfl, fun _ => rfl⟩
  cases decl with
  | method decl => rfl
  | event decl => rfl
  | _ decl =>
    obtain ⟨getter, isSome, setter⟩ := properties decl
    simp only [kindAt, withoutNew, getter, isSome, setter]

theorem declaresBody_withoutNew : decl.withoutNew.declaresBody = decl.declaresBody := by
  have clauses := decl.clauses_withoutNew
  cases decl with
  | method decl => rfl
  | _ =>
    unfold declaresBody
    simp only [withoutNew] at clauses ⊢
    rw [clauses, List.any_map]
    rfl

theorem missesBody_withoutNew (container : Container) (clause : Clause) :
    decl.withoutNew.missesBody container clause.withoutNew = decl.missesBody container clause := by
  unfold missesBody
  rw [declaresBody_withoutNew, bodiesRequired_withoutNew]
  rfl

/-- A member without `new` is bound to the same symbols without `new`. -/
theorem bind_withoutNew (scope : MemberScope) (id : MemberId) :
    decl.withoutNew.bind scope id = (decl.bind scope id).withoutNew := by
  have container : scope.container decl.withoutNew = scope.container decl := by
    rw [MemberScope.container, MemberScope.container, explicitInterface_withoutNew]
  have rules : scope.rules decl.withoutNew = scope.rules decl := by
    rw [MemberScope.rules, MemberScope.rules, container, isMethod_withoutNew]
  unfold bind MemberBlock.withoutNew
  rw [container, rules, modifiers_withoutNew, declaresBody_withoutNew,
    (scope.rules decl).apply_withoutNew, clauses_withoutNew, name_withoutNew, kindAt_withoutNew,
    signature_withoutNew, explicitInterface_withoutNew, span_withoutNew, isMethod_withoutNew,
    isProperty_withoutNew]
  generalize (scope.rules decl).apply decl.modifiers decl.declaresBody = draft
  extract_lets container draft' implemented' clauses' head' display' placed' accessor' rejected'
    bodiless' draft implemented clauses head display placed accessor rejected bodiless
  have heads : head' = head.withoutNew := by
    have empty : clauses'.isEmpty = clauses.isEmpty := List.isEmpty_map
    show MemberSymbol.mk _ _ _ _ _ _ _ _ _ _ = _
    rw [empty]
    rfl
  have displays : display' = display := congrArg (·.displayIn scope.ownerName) heads
  have clausesPlaced : placed' = placed.map PlacedClause.withoutNew := by
    show (clauses.map Clause.withoutNew).map _ = (clauses.map _).map _
    rw [displays, List.map_map, List.map_map]
    rfl
  have accessors (clause : PlacedClause) :
      accessor' clause.withoutNew = (accessor clause).withoutNew := by
    show MemberSymbol.mk _ _ _ _ _ (accessorModifiers draft.modifiers.withoutNew _) _ _ _ _ = _
    rw [accessorModifiers_withoutNew]
    rfl
  have rejections : rejected' = ignoringNew rejected := by
    show ite _ _ _ = ignoringNew (ite _ _ _)
    rw [clausesPlaced]
    split
    · exact checkAccessors_withoutNew placed draft.modifiers display decl.span
    · rw [ignoringNew_flatMap, List.flatMap_map]
      exact congrArg (placed.flatMap ·) (funext fun clause =>
        clause.reject_withoutNew clause.modifiers)
  have complaints : draft'.complaints.map (·.toDiagnostic decl.span display scope.ownerName) =
      ignoringNew (draft.complaints.map (·.toDiagnostic decl.span display scope.ownerName)) :=
    draft.complaints_withoutNew decl.span display scope.ownerName
  have bodies : bodiless'.map (fun clause =>
        Complaint.missingBody.toDiagnostic clause.span clause.display scope.ownerName) =
      ignoringNew (bodiless.map fun clause =>
        Complaint.missingBody.toDiagnostic clause.span clause.display scope.ownerName) := by
    have kept : bodiless' = bodiless.map PlacedClause.withoutNew := by
      show placed'.filter _ = (placed.filter _).map _
      rw [clausesPlaced, List.filter_map]
      refine congrArg (List.map _) (List.filter_congr fun clause _ => ?_)
      exact congrArg (implemented && ·) (decl.missesBody_withoutNew container clause.clause)
    rw [kept, List.map_map, ignoringNew_missingBodies]
    rfl
  have symbols (placed : List PlacedClause) : (placed.map PlacedClause.withoutNew).map accessor' =
      (placed.map accessor).map MemberSymbol.withoutNew := by
    rw [List.map_map, List.map_map]
    exact List.map_congr_left fun clause _ => accessors clause
  rw [heads, displays, rejections, complaints, bodies, clausesPlaced, symbols,
    ← ignoringNew_append, ← ignoringNew_append]

end MemberDecl

end Conformance
