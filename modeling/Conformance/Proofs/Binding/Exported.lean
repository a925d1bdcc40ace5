import Conformance.Metadata
import Conformance.Proofs.Binding.Bound
import Conformance.Proofs.Binding.Repairs
import Conformance.Proofs.Symbol.Outline

/-!
Members that are exported and bound again.

The export of a member declares the modifiers and bodies that binding made
(`MemberDecl.exported`). Bound again as metadata, it has the outline that it had
(`MemberDecl.outline_exported`), although its modifiers are not always the same.
-/

namespace Conformance

/-! ## Accessors -/

/-- The accessibility of an accessor is its own, or that of its member. -/
theorem accessibility?_accessorModifiers (member : Modifiers) (access : Option Accessibility) :
    (accessorModifiers member access).accessibility? = access.or member.accessibility? := by
  cases access with
  | none => rfl
  | some access =>
    cases access <;>
      simp [accessorModifiers, Modifiers.withAccessibility, Modifiers.accessibility?, Union.union,
        SDiff.sdiff, Modifiers.ofTest, Modifiers.has, Modifiers.ofList, Modifiers.accesses,
        Accessibility.modifier]

/-- A set that is given an accessibility keeps its other modifiers. -/
theorem has_withAccessibility (m : Modifiers) (access : Accessibility) {modifier : Modifier}
    (other : Modifiers.accesses.has modifier = false) :
    (m.withAccessibility access).has modifier = m.has modifier := by
  have apart : decide (modifier = access.modifier) = false := by
    refine decide_eq_false fun same => ?_
    rw [same] at other
    cases access <;> cases other
  simp [Modifiers.withAccessibility, Modifiers.ofList, other, apart]

/-- An accessor has the other modifiers of its member. If it is private, it takes
no part in dispatch. -/
theorem has_accessorModifiers (member : Modifiers) {access : Option Accessibility}
    {modifier : Modifier} (other : Modifiers.accesses.has modifier = false)
    (dispatched : access = some .privateAccess → modifier ≠ .virtual ∧ modifier ≠ .abstract) :
    (accessorModifiers member access).has modifier = member.has modifier := by
  cases access with
  | none => rfl
  | some access =>
    rw [← has_withAccessibility member access other]
    cases access with
    | privateAccess =>
      obtain ⟨notVirtual, notAbstract⟩ := dispatched rfl
      cases modifier <;> first | rfl | contradiction
    | _ => rfl

/-- The modifiers that give an accessibility give it alone. -/
theorem accessibility?_inter_accesses (modifiers : Modifiers) :
    (modifiers ∩ .accesses).accessibility? = modifiers.accessibility? := by
  simp [Modifiers.accessibility?, Inter.inter, Modifiers.ofTest, Modifiers.has, Modifiers.accesses]

/-- The accessibility that an accessor is exported with gives it what it had. -/
theorem accessibility?_exportAccessor (member : Modifiers) (accessor : MemberSymbol) :
    (exportAccessor member accessor).modifiers.accessibility?.or member.accessibility? =
      accessor.modifiers.accessibility?.or member.accessibility? := by
  unfold exportAccessor
  simp only
  split
  · rw [accessibility?_inter_accesses]
  · rename_i plain
    cases known : accessor.modifiers.accessibility? with
    | none => rfl
    | some access =>
      rw [known] at plain
      have same : some access = member.accessibility? := by
        by_contra apart
        exact plain ⟨rfl, apart⟩
      rw [← same]
      rfl

/-! ## Blocks -/

namespace MemberDecl

variable (decl : MemberDecl) (scope : MemberScope) (id : MemberId)

/-- The rules for interfaces are for members that name no interface. -/
theorem container_eq_interface {decl : MemberDecl} {scope : MemberScope} :
    scope.container decl = .interfaceType ↔
      scope.ownerIsInterface = true ∧ decl.explicitInterface = none := by
  unfold MemberScope.container
  cases decl.explicitInterface <;> cases scope.ownerIsInterface <;> simp

theorem container_eq_explicit {decl : MemberDecl} {scope : MemberScope} :
    scope.container decl = .explicit ↔ decl.explicitInterface.isSome = true := by
  unfold MemberScope.container
  cases decl.explicitInterface <;> cases scope.ownerIsInterface <;> simp

/-- The modifiers and the body that repairs make of those declared. -/
def draft : Draft := (scope.rules decl).apply decl.modifiers decl.declaresBody

/-- The symbol of an accessor. -/
def clauseSymbol (clause : Clause) : MemberSymbol where
  name := clause.kind.memberName decl.name
  kind := .accessor clause.kind id
  owner := scope.owner
  signature := clause.signature
  declared := clause.decl.modifiers
  modifiers := accessorModifiers (decl.draft scope).modifiers
    (if scope.container decl = .explicit then none else clause.decl.modifiers.accessibility?)
  explicitInterface := decl.explicitInterface
  hasBody := !(decl.draft scope).modifiers.isAbstract && !(decl.draft scope).modifiers.isExternal
  span := clause.decl.span.orElse decl.span

theorem bind_head_modifiers : (decl.bind scope id).head.modifiers =
  (decl.draft scope).modifiers := rfl

theorem bind_head_hasBody : (decl.bind scope id).head.hasBody =
    if decl.isMethod then (decl.draft scope).hasBody
    else (!(decl.draft scope).modifiers.isAbstract && !(decl.draft scope).modifiers.isExternal) &&
      !decl.clauses.isEmpty := rfl

theorem bind_accessors :
    (decl.bind scope id).accessors = decl.clauses.map (decl.clauseSymbol scope id) := by
  simp only [bind, List.map_map]
  rfl

/-- Outlines do not depend on ids. -/
theorem bind_outline_elsewhere (owner : TypeId) (other : MemberId) (inside : Bool) :
    (decl.bind { scope with owner } other).outline inside = (decl.bind scope id).outline inside := by
  have head : (decl.bind { scope with owner } other).head.outline inside =
      (decl.bind scope id).head.outline inside := by
    cases decl <;> rfl
  unfold MemberBlock.outline
  rw [head, bind_accessors, bind_accessors, List.map_map, List.map_map]
  rfl

/-- A clause as it is exported. -/
def exportedClause (clause : Clause) : Clause :=
  { clause with
    decl := exportAccessor (decl.draft scope).modifiers (decl.clauseSymbol scope id clause) }

/-- The declaration of a property or an indexer as it is exported. -/
def exportedProperty (property : PropertyDecl) : PropertyDecl where
  name := decl.name
  explicitInterface := decl.explicitInterface
  modifiers := (decl.draft scope).modifiers
  type := property.type
  parameters := property.parameters
  returnsByRef := property.returnsByRef
  getter := property.getter.map fun getter =>
    (decl.exportedClause scope id ⟨.get, getter, propertySignature property⟩).decl
  setter := property.setter.map fun setter =>
    (decl.exportedClause scope id
      ⟨.set, setter, valueSignature property.parameters property.type⟩).decl

/-- The declaration that a member is exported as. -/
def exported : MemberDecl :=
  match decl with
  | method m => method
    { name := m.name
      explicitInterface := m.explicitInterface
      modifiers := (decl.draft scope).modifiers
      parameters := m.parameters
      returnType := m.returnType
      returnsByRef := m.returnsByRef
      hasBody := (decl.draft scope).hasBody }
  | property p => property (decl.exportedProperty scope id p)
  | indexer p => indexer (decl.exportedProperty scope id p)
  | event e => event
    { name := e.name
      explicitInterface := e.explicitInterface
      modifiers := (decl.draft scope).modifiers
      type := e.type
      adder := some (decl.exportedClause scope id
        ⟨.add, e.adder.getD {}, valueSignature [] e.type⟩).decl
      remover := some (decl.exportedClause scope id
        ⟨.remove, e.remover.getD {}, valueSignature [] e.type⟩).decl }

theorem exported_name : (decl.exported scope id).name = decl.name := by
  cases decl <;> rfl

theorem exported_explicitInterface :
    (decl.exported scope id).explicitInterface = decl.explicitInterface := by
  cases decl <;> rfl

theorem exported_modifiers :
    (decl.exported scope id).modifiers = (decl.draft scope).modifiers := by
  cases decl <;> rfl

theorem exported_signature : (decl.exported scope id).signature = decl.signature := by
  cases decl <;> rfl

theorem exported_isMethod : (decl.exported scope id).isMethod = decl.isMethod := by
  cases decl <;> rfl

/-- The exported member has the clauses of the member, with other modifiers and
bodies. -/
theorem exported_clauses : (decl.exported scope id).clauses =
    decl.clauses.map (decl.exportedClause scope id) := by
  cases decl with
  | method m => rfl
  | property p =>
    obtain ⟨_, _, _, _, _, _, getter, setter, _⟩ := p
    cases getter <;> cases setter <;> rfl
  | indexer p =>
    obtain ⟨_, _, _, _, _, _, getter, setter, _⟩ := p
    cases getter <;> cases setter <;> rfl
  | event e => rfl

theorem exported_shape (first second : MemberId) :
    MemberShape.ofKind ((decl.exported scope id).kindAt first) =
      MemberShape.ofKind (decl.kindAt second) := by
  cases decl <;> rfl

theorem container_exported {again : MemberScope}
    (inside : again.ownerIsInterface = scope.ownerIsInterface) :
    again.container (decl.exported scope id) = scope.container decl := by
  rw [MemberScope.container, MemberScope.container, exported_explicitInterface, inside]

/-- What is no method has its bodies on its accessors. -/
theorem declaresBody_eq_any (plain : decl.isMethod = false) :
    decl.declaresBody = decl.clauses.any fun clause => clause.decl.hasBody := by
  cases decl with
  | method m => cases plain
  | _ => rfl

/-- The exported member declares the body that it was given, or none. -/
theorem declaresBody_exported (inside : scope.container decl = .interfaceType) :
    (decl.exported scope id).declaresBody = (decl.draft scope).hasBody ∨
      (decl.exported scope id).declaresBody = false ∧ decl.declaresBody = false := by
  cases kind : decl.isMethod with
  | true =>
    cases decl with
    | method m => exact .inl rfl
    | _ => cases kind
  | false =>
    rw [declaresBody_eq_any _ ((decl.exported_isMethod scope id).trans kind), exported_clauses,
      List.any_map, declaresBody_eq_any decl kind]
    cases listed : decl.clauses with
    | nil => exact .inr ⟨rfl, rfl⟩
    | cons first rest =>
      left
      have body : (decl.draft scope).hasBody = (!(decl.draft scope).modifiers.isAbstract &&
          !(decl.draft scope).modifiers.isExternal) := MemberRules.hasBody_apply inside _ _
      have same : ((fun clause : Clause => clause.decl.hasBody) ∘ decl.exportedClause scope id) =
          fun _ => (decl.draft scope).hasBody := by
        rw [body]
        rfl
      rw [same, List.any_cons]
      cases (decl.draft scope).hasBody <;> simp

variable {again : MemberScope}

/-- Resolution sees no difference between what binding makes of a member and what
it makes of the export. -/
theorem sameFace_exported (inside : again.ownerIsInterface = scope.ownerIsInterface)
    (current : again.outdated? = none) :
    Draft.SameFace (scope.container decl) (decl.draft scope)
      ((decl.exported scope id).draft again) := by
  have same : (again.rules (decl.exported scope id)).container = (scope.rules decl).container :=
    decl.container_exported scope id inside
  have outdated : (again.rules (decl.exported scope id)).outdated? = none := current
  have face := MemberRules.apply_again same outdated decl.modifiers
    fun kind => decl.declaresBody_exported scope id kind
  unfold MemberDecl.draft
  rw [exported_modifiers]
  exact face

/-- An accessor that is not private is dispatched as its member is. -/
theorem dispatch_clauseSymbol {clause : Clause}
    (visible : (decl.clauseSymbol scope id clause).isPrivate = false) :
    (decl.clauseSymbol scope id clause).modifiers.isAbstract =
        (decl.draft scope).modifiers.isAbstract ∧
      (decl.clauseSymbol scope id clause).modifiers.isVirtual =
        (decl.draft scope).modifiers.isVirtual ∧
      (decl.clauseSymbol scope id clause).modifiers.isSealed =
        (decl.draft scope).modifiers.isSealed := by
  have shown {modifier : Modifier} (other : Modifiers.accesses.has modifier = false) :
      (decl.clauseSymbol scope id clause).modifiers.has modifier =
        (decl.draft scope).modifiers.has modifier := by
    refine has_accessorModifiers _ other fun own => ?_
    have hidden : (decl.clauseSymbol scope id clause).isPrivate = true := by
      refine decide_eq_true ?_
      show (accessorModifiers _ _).accessibility?.getD _ = _
      rw [accessibility?_accessorModifiers, own]
      rfl
    rw [visible] at hidden
    cases hidden
  exact ⟨shown (show Modifiers.accesses.has .abstract = false from rfl),
    shown (show Modifiers.accesses.has .virtual = false from rfl),
    shown (show Modifiers.accesses.has .sealed = false from rfl)⟩

theorem isStatic_clauseSymbol (clause : Clause) :
    (decl.clauseSymbol scope id clause).modifiers.isStatic =
      (decl.draft scope).modifiers.isStatic :=
  has_accessorModifiers _ (show Modifiers.accesses.has .static = false from rfl)
    fun _ => ⟨nofun, nofun⟩

theorem isExternal_clauseSymbol (clause : Clause) :
    (decl.clauseSymbol scope id clause).modifiers.isExternal =
      (decl.draft scope).modifiers.isExternal :=
  has_accessorModifiers _ (show Modifiers.accesses.has .external = false from rfl)
    fun _ => ⟨nofun, nofun⟩

/-- The accessor of an exported member has the accessibility that it had. -/
theorem accessibility?_exportedClause (inside : again.ownerIsInterface = scope.ownerIsInterface)
    (current : again.outdated? = none) (idAgain : MemberId) (clause : Clause) :
    ((decl.exported scope id).clauseSymbol again idAgain
      (decl.exportedClause scope id clause)).modifiers.accessibility? =
        (decl.clauseSymbol scope id clause).modifiers.accessibility? := by
  have face := decl.sameFace_exported scope id inside current
  have own := accessibility?_exportAccessor (decl.draft scope).modifiers
    (decl.clauseSymbol scope id clause)
  simp only [clauseSymbol, accessibility?_accessorModifiers, decl.container_exported scope id inside,
    face.access, exportedClause] at own ⊢
  split
  · rfl
  · rename_i implicit
    simp only [implicit, if_false] at own
    rw [own, Option.or_assoc, Option.or_self]

theorem outline_exportedClause (inside : again.ownerIsInterface = scope.ownerIsInterface)
    (current : again.outdated? = none) (idAgain : MemberId) (clause : Clause) :
    ((decl.exported scope id).clauseSymbol again idAgain
      (decl.exportedClause scope id clause)).outline scope.ownerIsInterface =
        (decl.clauseSymbol scope id clause).outline scope.ownerIsInterface := by
  have face := decl.sameFace_exported scope id inside current
  have access := decl.accessibility?_exportedClause scope id inside current idAgain clause
  refine MemberSymbol.outline_congr ?_ rfl (decl.exported_explicitInterface scope id) ?_ access
    fun isInterface implicit visible => ?_
  · show SignatureKey.mk _ _ _ = SignatureKey.mk _ _ _
    simp only [clauseSymbol, exported_name]
    rfl
  · rw [isStatic_clauseSymbol, isStatic_clauseSymbol]
    exact face.static
  · have visibleAgain : ((decl.exported scope id).clauseSymbol again idAgain
        (decl.exportedClause scope id clause)).isPrivate = false := by
      rw [MemberSymbol.isPrivate, MemberSymbol.accessibility, access]
      exact visible
    have container : scope.container decl = .interfaceType :=
      container_eq_interface.mpr ⟨isInterface, implicit⟩
    obtain ⟨abstract, virtual, sealed, external, _⟩ := face.dispatch container
    obtain ⟨isAbstract, isVirtual, isSealed⟩ := decl.dispatch_clauseSymbol scope id visible
    obtain ⟨isAbstractAgain, isVirtualAgain, isSealedAgain⟩ :=
      (decl.exported scope id).dispatch_clauseSymbol again idAgain visibleAgain
    refine ⟨?_, ?_, ?_, ?_⟩
    · rw [isAbstractAgain, isAbstract, abstract]
    · rw [isVirtualAgain, isVirtual, virtual]
    · rw [isSealedAgain, isSealed, sealed]
    · rw [MemberSymbol.hasImplementation, MemberSymbol.hasImplementation, isExternal_clauseSymbol,
        isExternal_clauseSymbol, external]
      simp only [clauseSymbol, abstract, external]

/-- A member that is exported and bound again has the outline that it had. -/
theorem outline_exported (inside : again.ownerIsInterface = scope.ownerIsInterface)
    (current : again.outdated? = none) (idAgain : MemberId) :
    ((decl.exported scope id).bind again idAgain).outline scope.ownerIsInterface =
      (decl.bind scope id).outline scope.ownerIsInterface := by
  have face := decl.sameFace_exported scope id inside current
  have interface (isInterface : scope.ownerIsInterface = true)
      (implicit : decl.explicitInterface = none) : scope.container decl = .interfaceType := by
    rw [MemberScope.container, implicit, isInterface]
    rfl
  have head : ((decl.exported scope id).bind again idAgain).head.outline scope.ownerIsInterface =
      (decl.bind scope id).head.outline scope.ownerIsInterface := by
    refine MemberSymbol.outline_congr ?_ (decl.exported_signature scope id) ?_ face.static
      face.access fun isInterface implicit _ => ?_
    · simp only [SignatureKey.ofMember, bind_head_kind, bind_head_name, bind_head_signature,
        exported_name, exported_signature]
      rw [exported_shape]
    · exact decl.exported_explicitInterface scope id
    · obtain ⟨abstract, virtual, sealed, external, body⟩ :=
        face.dispatch (interface isInterface implicit)
      refine ⟨abstract, virtual, sealed, ?_⟩
      have clauses : (decl.exported scope id).clauses.isEmpty = decl.clauses.isEmpty := by
        rw [exported_clauses, List.isEmpty_map]
      simp only [MemberSymbol.hasImplementation, bind_head_hasBody, bind_head_modifiers,
        exported_isMethod, clauses, abstract, external, body]
  unfold MemberBlock.outline
  rw [head, bind_accessors, bind_accessors, exported_clauses, List.map_map, List.map_map,
    List.map_map]
  congr 1
  exact List.map_congr_left fun clause _ =>
    decl.outline_exportedClause scope id inside current idAgain clause

theorem bind_head_accessors : (decl.bind scope id).head.accessors =
    (List.range' (id.index + 1) decl.clauses.length).map MemberId.mk := by
  unfold MemberSymbol.accessors
  rw [bind_head_kind]
  cases decl with
  | method m => rfl
  | property p =>
    obtain ⟨_, _, _, _, _, _, getter, setter, _⟩ := p
    cases getter <;> cases setter <;> rfl
  | indexer p =>
    obtain ⟨_, _, _, _, _, _, getter, setter, _⟩ := p
    cases getter <;> cases setter <;> rfl
  | event e => rfl

/-- The accessors of a member are those of its declaration, one after another. -/
theorem exists_clause_of_mem_accessors {target : Option ExplicitTarget} {accessorId : MemberId}
    (listed : accessorId ∈ ({ (decl.bind scope id).head with target } : MemberSymbol).accessors) :
    ∃ (position : Nat) (clause : Clause), decl.clauses[position]? = some clause ∧
      accessorId = ⟨id.index + 1 + position⟩ := by
  have ids : ({ (decl.bind scope id).head with target } : MemberSymbol).accessors =
      (List.range' (id.index + 1) decl.clauses.length).map MemberId.mk :=
    decl.bind_head_accessors scope id
  rw [ids] at listed
  rcases List.mem_map.mp listed with ⟨index, inside, rfl⟩
  rcases List.mem_range'.mp inside with ⟨position, below, rfl⟩
  exact ⟨position, decl.clauses[position], List.getElem?_eq_getElem below, by rw [Nat.one_mul]⟩

end MemberDecl

/-! ## Blocks in tables -/

namespace SymbolTable

variable {table : SymbolTable} {assembly : AssemblyId} {decl : MemberDecl} {scope : MemberScope}
  {id : MemberId}

/-- The symbol of a clause stands in the table, after that of its member. -/
theorem Carries.clause (carries : table.Carries assembly id (decl.bind scope id)) {position : Nat}
    {clause : Clause} (listed : decl.clauses[position]? = some clause) :
    table.member? ⟨id.index + 1 + position⟩ =
      some { decl.clauseSymbol scope id clause with
        target := table.expectedTarget? assembly (decl.clauseSymbol scope id clause) } := by
  have inside : (decl.bind scope id).symbols[position + 1]? =
      some (decl.clauseSymbol scope id clause) := by
    rw [MemberBlock.symbols, List.getElem?_cons_succ, MemberDecl.bind_accessors, List.getElem?_map,
      listed]
    rfl
  have found := carries (position + 1) _ inside
  rwa [← Nat.add_assoc, Nat.add_right_comm] at found

/-- The symbols of a block have its outline. -/
theorem Carries.blockOutline (carries : table.Carries assembly id (decl.bind scope id))
    (inside : Bool) (target : Option ExplicitTarget) :
    table.blockOutline inside { (decl.bind scope id).head with target } =
      (decl.bind scope id).outline inside := by
  have accessors : table.accessorsOf { (decl.bind scope id).head with target } =
      (List.range' (id.index + 1) decl.clauses.length).filterMap fun place =>
        (table.member? ⟨place⟩).map fun accessor => (⟨place⟩, accessor) := by
    have ids : ({ (decl.bind scope id).head with target } : MemberSymbol).accessors =
        (List.range' (id.index + 1) decl.clauses.length).map MemberId.mk :=
      decl.bind_head_accessors scope id
    rw [SymbolTable.accessorsOf, ids, List.filterMap_map]
    rfl
  have outlines : (table.accessorsOf { (decl.bind scope id).head with target }).map
      (·.2.outline inside) = decl.clauses.map fun clause =>
        (decl.clauseSymbol scope id clause).outline inside := by
    rw [accessors, List.map_filterMap]
    refine filterMap_consecutive fun position clause listed => ?_
    rw [carries.clause listed]
    rfl
  unfold SymbolTable.blockOutline MemberBlock.outline
  rw [outlines, MemberDecl.bind_accessors, List.map_map]
  rfl

theorem Carries.exportAccessor? (carries : table.Carries assembly id (decl.bind scope id))
    (target : Option ExplicitTarget) (position : Nat) (clause : Clause)
    (listed : decl.clauses[position]? = some clause) :
    table.exportAccessor? { (decl.bind scope id).head with target }
      (some ⟨id.index + 1 + position⟩) = some (decl.exportedClause scope id clause).decl := by
  rw [SymbolTable.exportAccessor?, Option.bind_some, carries.clause listed]
  rfl

/-- The export of a member that was bound. -/
theorem Carries.exportMember? (carries : table.Carries assembly id (decl.bind scope id))
    (target : Option ExplicitTarget) :
    table.exportMember? { (decl.bind scope id).head with target } =
      some (decl.exported scope id) := by
  have first := carries.exportAccessor? target 0
  have second := carries.exportAccessor? target 1
  cases decl with
  | method m => rfl
  | event e =>
    refine congrArg (fun event => some (MemberDecl.event event)) ?_
    congr 1
    · exact first _ rfl
    · exact second _ rfl
  | property p =>
    obtain ⟨_, _, _, _, _, _, getter, setter, _⟩ := p
    refine congrArg (fun property => some (MemberDecl.property property)) ?_
    unfold SymbolTable.exportProperty MemberDecl.exportedProperty
    cases getter <;> cases setter <;> congr 1 <;> first | exact first _ rfl | exact second _ rfl
  | indexer p =>
    obtain ⟨_, _, _, _, _, _, getter, setter, _⟩ := p
    refine congrArg (fun property => some (MemberDecl.indexer property)) ?_
    unfold SymbolTable.exportProperty MemberDecl.exportedProperty
    cases getter <;> cases setter <;> congr 1 <;> first | exact first _ rfl | exact second _ rfl

end SymbolTable

end Conformance
