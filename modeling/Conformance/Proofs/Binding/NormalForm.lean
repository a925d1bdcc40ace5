import Conformance.Proofs.Binding.Provenance
import Conformance.Proofs.Binding.Settled

/-!
Normal forms of members of interfaces.

Whatever a member of an interface is declared with, repairs leave a set of modifiers that
says how the member is dispatched: it is abstract, or it has an implementation that is
virtual unless it is sealed, private or static (`SymbolTable.Made.normalForm`).

The modifiers of accessors are checked and not repaired. An accessor is out of step with its
member just if it is declared private and the member is abstract, or if it is declared with
another accessibility and the member is sealed and private (`SymbolTable.Made.accessorForm`).
-/

namespace Conformance

/-! ## Repairs -/

namespace DraftFlags

/-- What repairs leave is virtual unless something else says how it is dispatched. -/
theorem virtual_repaired (f : DraftFlags) : f.repaired.virtual =
    (!f.repaired.abstract && !(f.repaired.sealed || f.repaired.hidden || f.repaired.static)) := by
  obtain ⟨abstract, external, sealed, virtual, hidden, static, body, excused⟩ := f
  revert abstract external sealed virtual hidden static body excused
  decide +kernel

/-- What repairs leave abstract is nothing else. -/
theorem abstract_repaired (f : DraftFlags) (abstract : f.repaired.abstract = true) :
    f.repaired.external = false ∧ f.repaired.sealed = false ∧ f.repaired.hidden = false ∧
      f.repaired.static = false := by
  obtain ⟨wasAbstract, external, sealed, virtual, hidden, static, body, excused⟩ := f
  revert wasAbstract external sealed virtual hidden static body excused
  decide +kernel

end DraftFlags

/-- The modifiers of a member of an interface after repairs. -/
structure Modifiers.IsNormal (modifiers : Modifiers) : Prop where
  /-- There is a keyword that gives an accessibility. -/
  accessible : ∃ access : Accessibility, modifiers.has access.modifier = true
  overridesNothing : modifiers.isOverride = false
  abstract : modifiers.isAbstract = true → modifiers.isVirtual = false ∧
    modifiers.isSealed = false ∧ modifiers.isExternal = false ∧ modifiers.isPrivate = false ∧
      modifiers.isStatic = false
  virtual : modifiers.isVirtual = true ↔ modifiers.isAbstract = false ∧
    modifiers.isSealed = false ∧ modifiers.isPrivate = false ∧ modifiers.isStatic = false

theorem MemberRules.isNormal_apply {rules : MemberRules}
    (inside : rules.container = .interfaceType) (declared : Modifiers) (hasBody : Bool) :
    (rules.apply declared hasBody).modifiers.IsNormal := by
  have implicit : rules.container ≠ .explicit := by
    rw [inside]
    nofun
  obtain ⟨access, gives⟩ :=
    Option.isSome_iff_exists.mp (apply_accessible implicit declared hasBody)
  obtain ⟨f, flags, _⟩ := flags_apply inside declared hasBody
  have dispatched := f.virtual_repaired
  have plain := f.abstract_repaired
  rw [← flags] at dispatched plain
  have virtual : (rules.apply declared hasBody).modifiers.isVirtual = true ↔
      (rules.apply declared hasBody).modifiers.isAbstract = false ∧
        (rules.apply declared hasBody).modifiers.isSealed = false ∧
        (rules.apply declared hasBody).modifiers.isPrivate = false ∧
        (rules.apply declared hasBody).modifiers.isStatic = false := by
    have same : (rules.apply declared hasBody).modifiers.isVirtual = _ := dispatched
    rw [same, Bool.and_eq_true, Bool.not_eq_true', Bool.not_eq_true', Bool.or_eq_false_iff,
      Bool.or_eq_false_iff, and_assoc]
    rfl
  refine ⟨⟨access, Modifiers.has_of_accessibility? gives⟩, isOverride_apply inside declared hasBody,
    fun abstract => ?_, virtual⟩
  obtain ⟨external, sealed, hidden, static⟩ := plain abstract
  refine ⟨Bool.eq_false_iff.mpr fun isVirtual => ?_, sealed, external, hidden, static⟩
  rw [(virtual.mp isVirtual).1] at abstract
  cases abstract

/-! ## Members -/

namespace MemberDecl

variable {decl : MemberDecl} {scope : MemberScope} {id : MemberId}

theorem isNormal_draft (inside : scope.container decl = .interfaceType) :
    (decl.draft scope).modifiers.IsNormal :=
  MemberRules.isNormal_apply inside decl.modifiers decl.declaresBody

/-- A member of an interface that has a body itself, or accessors that have, is implemented
just if it is not abstract. -/
theorem hasImplementation_head (inside : scope.container decl = .interfaceType)
    (bodied : decl.isMethod = true ∨ decl.clauses ≠ []) :
    (decl.bind scope id).head.hasImplementation = !(decl.draft scope).modifiers.isAbstract := by
  have someBody : (decl.isMethod || !decl.clauses.isEmpty) = true := by
    rwa [Bool.or_eq_true, Bool.not_eq_true', List.isEmpty_eq_false_iff]
  have plain := (isNormal_draft inside).abstract
  rw [MemberSymbol.hasImplementation, bind_head_hasBody_eq, someBody, Bool.and_true,
    bind_head_modifiers]
  cases abstract : (decl.draft scope).modifiers.isAbstract with
  | true => rw [(plain abstract).2.2.1]; rfl
  | false => cases (decl.draft scope).modifiers.isExternal <;> rfl

theorem isMethod_iff : decl.isMethod = true ↔ (decl.bind scope id).head.kind = .method := by
  rw [bind_head_kind]
  cases decl <;> simp [isMethod, kindAt]

theorem clauses_ne_nil (has : (decl.bind scope id).head.accessors ≠ []) : decl.clauses ≠ [] := by
  rintro none
  rw [bind_head_accessors, none] at has
  exact has rfl

/-! ## Accessors -/

/-- An accessor is abstract as its member is, unless it is declared private. -/
theorem isAbstract_clauseSymbol (implicit : scope.container decl ≠ .explicit) (clause : Clause) :
    (decl.clauseSymbol scope id clause).modifiers.isAbstract =
      ((decl.draft scope).modifiers.isAbstract &&
        decide (clause.decl.modifiers.accessibility? ≠ some .privateAccess)) := by
  have modifiers : (decl.clauseSymbol scope id clause).modifiers =
      accessorModifiers (decl.draft scope).modifiers clause.decl.modifiers.accessibility? := by
    rw [clauseSymbol, if_neg implicit]
  rw [modifiers]
  by_cases own : clause.decl.modifiers.accessibility? = some .privateAccess
  · rw [own, decide_eq_false (not_not_intro rfl), Bool.and_false]
    rfl
  · rw [decide_eq_true own, Bool.and_true]
    exact has_accessorModifiers _ (show Modifiers.accesses.has .abstract = false from rfl)
      fun hidden => absurd hidden own

/-- The accessibility of an accessor is its own, or that of its member. -/
theorem accessibility?_clauseSymbol (implicit : scope.container decl ≠ .explicit)
    (clause : Clause) : (decl.clauseSymbol scope id clause).modifiers.accessibility? =
      clause.decl.modifiers.accessibility?.or (decl.draft scope).modifiers.accessibility? := by
  rw [clauseSymbol, if_neg implicit, accessibility?_accessorModifiers]

end MemberDecl

namespace MemberSymbol

/-- A member is abstract, without a body and not extern, or it is not abstract and has an
implementation. -/
def IsConsistent (member : MemberSymbol) : Prop :=
  member.modifiers.isAbstract = true ∧ member.hasBody = false ∧
      member.modifiers.isExternal = false ∨
    member.modifiers.isAbstract = false ∧ member.hasImplementation = true

instance (member : MemberSymbol) : Decidable member.IsConsistent :=
  inferInstanceAs (Decidable (_ ∨ _))

theorem isConsistent_iff {member : MemberSymbol} :
    member.IsConsistent ↔ member.modifiers.isAbstract = !member.hasImplementation := by
  unfold IsConsistent hasImplementation
  cases member.modifiers.isAbstract <;> cases member.hasBody <;>
    cases member.modifiers.isExternal <;> decide

end MemberSymbol

namespace MemberDecl

variable {decl : MemberDecl} {scope : MemberScope} (id : MemberId)
  (inside : scope.container decl = .interfaceType) {clause : Clause}
  (listed : clause ∈ decl.clauses)

include inside

include listed in
/-- An accessor of a member of an interface is consistent unless it is declared private and its
member is abstract. -/
theorem isConsistent_clauseSymbol :
    (decl.clauseSymbol scope id clause).IsConsistent ↔
      ¬ ((decl.draft scope).modifiers.isAbstract = true ∧
        clause.decl.modifiers.accessibility? = some .privateAccess) := by
  have implicit : scope.container decl ≠ .explicit := by
    rw [inside]
    nofun
  rw [MemberSymbol.isConsistent_iff, hasImplementation_clauseSymbol decl scope id listed,
    hasImplementation_head inside (.inr (List.ne_nil_of_mem listed)), Bool.not_not,
    isAbstract_clauseSymbol implicit]
  cases (decl.draft scope).modifiers.isAbstract <;> simp

omit inside in
theorem isPrivate_head {access : Accessibility}
    (gives : (decl.draft scope).modifiers.accessibility? = some access) :
    (decl.bind scope id).head.isPrivate = decide (access = .privateAccess) := by
  show decide ((decl.draft scope).modifiers.accessibility?.getD .privateAccess = _) = _
  rw [gives]
  rfl

/-- An accessor is private by its own accessibility, or by that of its member. -/
theorem isPrivate_clauseSymbol {access : Accessibility}
    (gives : (decl.draft scope).modifiers.accessibility? = some access) (clause : Clause) :
    (decl.clauseSymbol scope id clause).isPrivate =
      decide (clause.decl.modifiers.accessibility?.getD access = .privateAccess) := by
  have implicit : scope.container decl ≠ .explicit := by
    rw [inside]
    nofun
  rw [MemberSymbol.isPrivate, MemberSymbol.accessibility, accessibility?_clauseSymbol implicit,
    gives]
  cases clause.decl.modifiers.accessibility? <;> rfl

/-- A private member is neither abstract nor virtual, so it is dispatched only when it is
sealed. -/
theorem isSealed_of_private
    (isPrivate : (decl.draft scope).modifiers.accessibility? = some .privateAccess)
    (dispatched : (decl.draft scope).modifiers.isAbstract = true ∨
      (decl.draft scope).modifiers.isVirtual = true ∨
      (decl.draft scope).modifiers.isSealed = true) :
    (decl.draft scope).modifiers.isSealed = true := by
  have normal := isNormal_draft inside
  have keyword : (decl.draft scope).modifiers.isPrivate = true :=
    Modifiers.has_of_accessibility? isPrivate
  rcases dispatched with isAbstract | isVirtual | isSealed
  · exact absurd ((normal.abstract isAbstract).2.2.2.1.symm.trans keyword) Bool.false_ne_true
  · exact absurd ((normal.virtual.mp isVirtual).2.2.1.symm.trans keyword) Bool.false_ne_true
  · exact isSealed

/-- An accessor that can be implemented belongs to a member that can be, unless the member is
sealed and private, and the accessor is declared with a wider accessibility. -/
theorem implementable_clauseSymbol :
    ((decl.clauseSymbol scope id clause).implementableIn true = true →
        (decl.bind scope id).head.implementableIn true = true) ↔
      ¬ ((decl.bind scope id).head.isPrivate = true ∧
        (decl.draft scope).modifiers.isSealed = true ∧
        (decl.draft scope).modifiers.isStatic = false ∧
        ∃ access, clause.decl.modifiers.accessibility? = some access ∧
          access ≠ .privateAccess) := by
  obtain ⟨_, noInterface⟩ := container_eq_interface.mp inside
  have implicit : scope.container decl ≠ .explicit := by
    rw [inside]
    nofun
  have accessible : (decl.draft scope).modifiers.accessibility?.isSome = true :=
    MemberRules.apply_accessible implicit decl.modifiers decl.declaresBody
  obtain ⟨access, gives⟩ := Option.isSome_iff_exists.mp accessible
  have headAccess := isPrivate_head id gives
  have ownAccess := isPrivate_clauseSymbol id inside gives clause
  constructor
  · rintro follows ⟨hidden, sealed, instanced, own, hasOwn, wider⟩
    rw [hasOwn] at ownAccess
    have visible : (decl.clauseSymbol scope id clause).isPrivate = false :=
      ownAccess.trans (decide_eq_false wider)
    have sealedToo := (decl.dispatch_clauseSymbol scope id visible).2.2
    have implementable := follows (implementableIn_iff.mpr ⟨rfl, noInterface,
      .inr (.inr (sealedToo.trans sealed)), (decl.isStatic_clauseSymbol scope id clause).trans
        instanced, visible⟩)
    rw [(implementableIn_iff.mp implementable).2.2.2.2] at hidden
    cases hidden
  · intro blocked implementable
    obtain ⟨_, _, dispatched, isInstance, visible⟩ := implementableIn_iff.mp implementable
    obtain ⟨abstract, virtual, sealed⟩ := decl.dispatch_clauseSymbol scope id visible
    rw [abstract, virtual, sealed] at dispatched
    rw [isStatic_clauseSymbol] at isInstance
    refine implementableIn_iff.mpr ⟨rfl, noInterface, dispatched, isInstance, ?_⟩
    by_contra hidden
    rw [Bool.not_eq_false] at hidden
    obtain rfl : access = .privateAccess := of_decide_eq_true (headAccess.symm.trans hidden)
    have isSealed := isSealed_of_private inside gives dispatched
    cases hasOwn : clause.decl.modifiers.accessibility? with
    | none =>
      rw [hasOwn] at ownAccess
      exact Bool.false_ne_true (visible.symm.trans ownAccess)
    | some own =>
      rw [hasOwn] at ownAccess
      exact blocked ⟨hidden, isSealed, isInstance, own, hasOwn,
        of_decide_eq_false (ownAccess.symm.trans visible)⟩

end MemberDecl

namespace SymbolTable

/-! ## Tables -/

/-- A member of an interface stands in a table in normal form: its modifiers are normal; a
method, or a member with accessors, is implemented just if it is not abstract, and virtual just
if it is implemented and neither sealed, private nor static; and a member with accessors is
implemented just if all of them are. -/
structure NormalForm (table : SymbolTable) (member : MemberSymbol) : Prop where
  modifiers : member.modifiers.IsNormal
  external : member.kind = .method → member.modifiers.isExternal = true → member.hasBody = false
  implemented : member.kind = .method ∨ member.accessors ≠ [] →
    (member.hasImplementation = true ↔ member.modifiers.isAbstract = false)
  dispatched : member.kind = .method ∨ member.accessors ≠ [] →
    (member.modifiers.isVirtual = true ↔ member.hasImplementation = true ∧
      member.modifiers.isSealed = false ∧ member.modifiers.isPrivate = false ∧
        member.modifiers.isStatic = false)
  accessors : member.accessors ≠ [] →
    (member.hasImplementation = true ↔ ∀ id ∈ member.accessors, ∃ accessor,
      table.member? id = some accessor ∧ accessor.hasImplementation = true)

/-- An accessor of a member of an interface stands in a table out of step with its member just
where nothing repairs what is declared: it is consistent unless it is private and the member is
abstract, and can be implemented only if the member can, unless the member is sealed and
private and the accessor is declared with a wider accessibility. -/
structure AccessorForm (table : SymbolTable) (member accessor : MemberSymbol) : Prop where
  consistent : accessor.IsConsistent ↔
    ¬ (member.modifiers.isAbstract = true ∧
      accessor.declared.accessibility? = some .privateAccess)
  implementable :
    (table.isImplementable accessor = true → table.isImplementable member = true) ↔
      ¬ (member.isPrivate = true ∧ member.modifiers.isSealed = true ∧
        member.modifiers.isStatic = false ∧
        ∃ access, accessor.declared.accessibility? = some access ∧ access ≠ .privateAccess)

/-- A property, an indexer or an event of an interface that names no interface, and one of its
accessors. -/
structure InterfaceClause (table : SymbolTable) (id accessorId : MemberId)
    (member accessor : MemberSymbol) : Prop where
  found : table.member? id = some member
  owner : ∃ type, table.type? member.owner = some type ∧ type.isInterface = true
  implicit : member.isExplicit = false
  foundAccessor : table.member? accessorId = some accessor
  clause : ∃ kind, accessor.clause? = some (kind, id)

variable {table : SymbolTable} {id : MemberId} {member : MemberSymbol} {type : TypeSymbol}

/-- A member of an interface that names no interface was bound with the rules for interfaces. -/
theorem MadeOf.container {decl : MemberDecl} {scope : MemberScope}
    (made : table.MadeOf id member decl scope) (found : table.member? id = some member)
    (foundType : table.type? member.owner = some type) (isInterface : type.isInterface = true)
    (implicit : member.isExplicit = false) : scope.container decl = .interfaceType := by
  obtain ⟨⟨_, foundOwner, inside⟩, presents⟩ := made
  cases foundType.symm.trans foundOwner
  obtain ⟨_, rfl⟩ := presents.head found
  refine MemberDecl.container_eq_interface.mpr ⟨inside.trans isInterface, ?_⟩
  exact Option.isNone_iff_eq_none.mp (Option.isSome_eq_false_iff.mp implicit)

/-- The members of interfaces are in normal form, whatever they were declared with. -/
theorem Made.normalForm (made : Made table) (found : table.member? id = some member)
    (noClause : member.clause? = none) (foundType : table.type? member.owner = some type)
    (isInterface : type.isInterface = true) (implicit : member.isExplicit = false) :
    table.NormalForm member := by
  have laid := made.wellFormed.laid
  obtain ⟨decl, scope, madeOf⟩ := made.derived.head found noClause
  have inside := madeOf.container found foundType isInterface implicit
  have normal := MemberDecl.isNormal_draft inside
  obtain ⟨_, rfl⟩ := madeOf.2.head found
  have implemented (bodied : (decl.bind scope id).head.kind = .method ∨
      (decl.bind scope id).head.accessors ≠ []) :
      (decl.bind scope id).head.hasImplementation = true ↔
        (decl.draft scope).modifiers.isAbstract = false := by
    rw [MemberDecl.hasImplementation_head inside
      (bodied.imp MemberDecl.isMethod_iff.mpr MemberDecl.clauses_ne_nil), Bool.not_eq_true']
  refine ⟨normal, fun _ isExternal => ?_, implemented, fun bodied => ?_, fun some => ?_⟩
  · have body := decl.bind_head_hasBody_eq scope id
    rwa [show (decl.draft scope).modifiers.isExternal = true from isExternal, Bool.not_true,
      Bool.and_false, Bool.false_and] at body
  · exact normal.virtual.trans (and_congr_left' (implemented bodied).symm)
  · constructor
    · intro bodied accessorId listed
      obtain ⟨kind, has⟩ := MemberSymbol.mem_accessors.mp listed
      obtain ⟨accessor, foundAccessor, isClause, _⟩ := laid.accessor found has
      refine ⟨accessor, foundAccessor, ?_⟩
      exact (made.derived.hasImplementation_clause laid foundAccessor isClause found).trans bodied
    · intro all
      obtain ⟨accessorId, listed⟩ := List.exists_mem_of_ne_nil _ some
      obtain ⟨kind, has⟩ := MemberSymbol.mem_accessors.mp listed
      obtain ⟨accessor, foundAccessor, bodied⟩ := all accessorId listed
      obtain ⟨isClause, _⟩ := laid.of_accessor found has foundAccessor
      exact (made.derived.hasImplementation_clause laid foundAccessor isClause found).symm.trans
        bodied

/-- An interface with an abstract property whose setter is private, and a sealed private
property whose getter is public. -/
def shelf : AssemblyDecl where
  name := "Shelves"
  types :=
    [{ name := "IShelf", kind := .interfaceType, members :=
        [.property { name := "Depth", type := "int", getter := some {},
                     setter := some { modifiers := { isPrivate := true } } },
         .property { name := "Width", type := "int",
                     modifiers := { isPrivate := true, isSealed := true },
                     getter := some { modifiers := { isPublic := true }, hasBody := true },
                     setter := some { hasBody := true } }] }]

/-- The table with the interface, bound from source. -/
def shelved : SymbolTable := ((∅ : SymbolTable).bind shelf [] (.source .v8_0)).table

/-- The abstract property is in normal form, with both of its accessors. -/
theorem shelved_normalForm : ∃ member, shelved.member? ⟨0⟩ = some member ∧
    shelved.NormalForm member ∧ member.accessors = [⟨1⟩, ⟨2⟩] := by
  obtain ⟨member, found, noClause, implicit, owner, accessors⟩ : ∃ member,
      shelved.member? ⟨0⟩ = some member ∧ member.clause? = none ∧ member.isExplicit = false ∧
        member.owner = ⟨0⟩ ∧ member.accessors = [⟨1⟩, ⟨2⟩] :=
    ⟨(shelved.member? ⟨0⟩).get (by decide +kernel), (Option.some_get _).symm, by decide +kernel,
      by decide +kernel, by decide +kernel, by decide +kernel⟩
  obtain ⟨type, foundType, isInterface⟩ : ∃ type,
      shelved.type? ⟨0⟩ = some type ∧ type.isInterface = true :=
    ⟨(shelved.type? ⟨0⟩).get (by decide +kernel), (Option.some_get _).symm, by decide +kernel⟩
  have made : Made shelved := .bind .empty shelf [] (.source .v8_0)
  exact ⟨member, found, made.normalForm found noClause (owner ▸ foundType) isInterface implicit,
    accessors⟩

/-- When an accessor of a member of an interface is out of step with the member. -/
theorem Made.accessorForm (made : Made table) {accessorId : MemberId} {accessor : MemberSymbol}
    (stands : table.InterfaceClause id accessorId member accessor) :
    table.AccessorForm member accessor := by
  have laid := made.wellFormed.laid
  obtain ⟨found, ⟨type, foundType, isInterface⟩, implicit, foundAccessor, kind, isClause⟩ := stands
  obtain ⟨_, owner, _⟩ := laid.of_clause foundAccessor isClause found
  obtain ⟨decl, scope, madeOf, ⟨_, rfl⟩, clause, listed, _, rfl⟩ :=
    made.derived.clause laid foundAccessor isClause found
  have inside := madeOf.container found foundType isInterface implicit
  constructor
  · exact MemberDecl.isConsistent_clauseSymbol id inside listed
  · rw [isImplementable_eq foundType, isImplementable_eq (owner ▸ foundType), isInterface]
    exact MemberDecl.implementable_clauseSymbol id inside

theorem shelved_setter : ∃ depth setter, shelved.InterfaceClause ⟨0⟩ ⟨2⟩ depth setter ∧
    ¬ setter.IsConsistent := by
  refine ⟨(shelved.member? ⟨0⟩).get (by decide +kernel), (shelved.member? ⟨2⟩).get
    (by decide +kernel), ⟨(Option.some_get _).symm, ?_, by decide +kernel,
      (Option.some_get _).symm, .set, by decide +kernel⟩, by decide +kernel⟩
  exact Option.any_eq_true _ _ |>.mp (by decide +kernel)

theorem shelved_getter : ∃ width getter, shelved.InterfaceClause ⟨3⟩ ⟨4⟩ width getter ∧
    shelved.isImplementable getter = true ∧ shelved.isImplementable width = false := by
  refine ⟨(shelved.member? ⟨3⟩).get (by decide +kernel), (shelved.member? ⟨4⟩).get
    (by decide +kernel), ⟨(Option.some_get _).symm, ?_, by decide +kernel,
      (Option.some_get _).symm, .get, by decide +kernel⟩, by decide +kernel, by decide +kernel⟩
  exact Option.any_eq_true _ _ |>.mp (by decide +kernel)

/-- The setter and the getter are out of step for the two reasons that there are. -/
theorem shelved_accessorForm :
    (∃ depth setter, shelved.InterfaceClause ⟨0⟩ ⟨2⟩ depth setter ∧
      shelved.AccessorForm depth setter ∧ depth.modifiers.isAbstract = true ∧
        setter.declared.accessibility? = some .privateAccess) ∧
    ∃ width getter, shelved.InterfaceClause ⟨3⟩ ⟨4⟩ width getter ∧
      shelved.AccessorForm width getter ∧ width.isPrivate = true ∧
        width.modifiers.isSealed = true := by
  have made : Made shelved := .bind .empty shelf [] (.source .v8_0)
  obtain ⟨depth, setter, standsSetter, inconsistent⟩ := shelved_setter
  obtain ⟨width, getter, standsGetter, implementable, hidden⟩ := shelved_getter
  have setterForm := made.accessorForm standsSetter
  have getterForm := made.accessorForm standsGetter
  have private_abstract := not_not.mp (mt setterForm.consistent.mpr inconsistent)
  have apart : ¬ (shelved.isImplementable getter = true →
      shelved.isImplementable width = true) := by
    rw [hidden]
    exact fun follows => Bool.false_ne_true (follows implementable)
  have wider := not_not.mp (mt getterForm.implementable.mpr apart)
  exact ⟨⟨depth, setter, standsSetter, setterForm, private_abstract⟩,
    width, getter, standsGetter, getterForm, wider.1, wider.2.1⟩

/-- What is rejected of an accessor is not always repaired: the setter is neither abstract nor
implemented, and the getter can be implemented although its property cannot. -/
theorem shelved_unrepaired :
    Made shelved ∧
    (∃ depth setter, shelved.InterfaceClause ⟨0⟩ ⟨2⟩ depth setter ∧ ¬ setter.IsConsistent) ∧
    (∃ width getter, shelved.InterfaceClause ⟨3⟩ ⟨4⟩ width getter ∧
      shelved.isImplementable getter = true ∧ shelved.isImplementable width = false) ∧
    ((∅ : SymbolTable).bind shelf [] (.source .v8_0)).diagnostics.map Diagnostic.code =
      [442, 273] :=
  ⟨.bind .empty shelf [] (.source .v8_0), shelved_setter, shelved_getter, by decide +kernel⟩

end SymbolTable

end Conformance
