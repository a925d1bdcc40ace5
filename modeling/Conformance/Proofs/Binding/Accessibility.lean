import Conformance.Proofs.Binding.Settled
import Conformance.Proofs.Binding.Unrepaired

/-!
Accessibility after silent binding.

A set of modifiers may have several that give an accessibility. The widest one counts then,
but the others stay in the set. Binding does not complain about that, neither for members of
classes and structs nor for those of interfaces in versions that have modifiers there, nor for
accessors of properties and indexers. These are the only ones that slip through
(`SymbolTable.Made.clearAccess_iff_of_silent`): of every other member that is bound silently it is
clear who may use it, and it has the modifier `private` just if it counts as private.
-/

namespace Conformance

/-! ## Sets that give one accessibility -/

/-- The modifiers that give an accessibility. -/
theorem Accessibility.has_accesses (access : Accessibility) :
    Modifiers.accesses.has access.modifier = true := by
  cases access <;> rfl

theorem Accessibility.modifier_injective : Function.Injective Accessibility.modifier := by
  intro first second same
  cases first <;> cases second <;> first | rfl | cases same

namespace Modifiers

/-- One modifier of a set gives an accessibility, and it gives this one. -/
def Settles (m : Modifiers) (access : Accessibility) : Prop :=
  ∀ other : Accessibility, m.has other.modifier = true ↔ other = access

/-- A set settles an accessibility, or leaves it to a default. -/
def Gives (m : Modifiers) (default access : Accessibility) : Prop :=
  m.Settles access ∨ (∀ other : Accessibility, m.has other.modifier = false) ∧ access = default

variable {m : Modifiers} {default access : Accessibility}

/-- A set that is given an accessibility settles it. -/
theorem settles_withAccessibility (m : Modifiers) (access : Accessibility) :
    (m.withAccessibility access).Settles access := by
  intro other
  rw [withAccessibility, has_union, has_sdiff, other.has_accesses, Bool.not_true, Bool.and_false,
    Bool.false_or, ofList, has_ofTest, decide_eq_true_iff, List.mem_singleton,
    Accessibility.modifier_injective.eq_iff]

theorem Settles.accessibility? (settles : m.Settles access) : m.accessibility? = some access := by
  cases gives : m.accessibility? with
  | none =>
    have present := (settles access).mpr rfl
    rw [accessibility?_eq_none_iff.mp gives access] at present
    cases present
  | some other => rw [(settles other).mp (has_of_accessibility? gives)]

/-- A set that settles an accessibility is not changed by giving it this one. -/
theorem Settles.withAccessibility (settles : m.Settles access) :
    m.withAccessibility access = m := by
  have given (other : Accessibility) :
      (m.withAccessibility access).has other.modifier = m.has other.modifier := by
    rw [Bool.eq_iff_iff, settles_withAccessibility m access other, settles other]
  refine ext_has fun modifier => ?_
  cases modifier with
  | publicAccess => exact given .publicAccess
  | protectedInternalAccess => exact given .protectedInternalAccess
  | protectedAccess => exact given .protectedAccess
  | internalAccess => exact given .internalAccess
  | privateAccess => exact given .privateAccess
  | _ => exact has_withAccessibility m access rfl

theorem not_hasSeveralAccesses_of_absent
    (absent : ∀ access : Accessibility, m.has access.modifier = false) :
    ¬ m.HasSeveralAccesses := by
  have known : (m ∩ accesses).accessibility? = none := by
    rw [accessibility?_inter_accesses]
    exact accessibility?_eq_none_iff.mpr absent
  have only : (m ∩ accesses) \ accesses = ∅ := by
    refine eq_empty_iff.mpr fun modifier => ?_
    rw [has_sdiff, has_inter, Bool.and_assoc, Bool.and_not_self, Bool.and_false]
  rw [HasSeveralAccesses, toList_eq_nil.mpr ((accessibility?_eq_none only).mp known)]
  exact Nat.not_lt_zero _

theorem Gives.not_hasSeveralAccesses (gives : m.Gives default access) :
    ¬ m.HasSeveralAccesses := by
  rcases gives with settles | ⟨absent, _⟩
  · exact (withAccessibility_eq_iff settles.accessibility?).mp settles.withAccessibility
  · exact not_hasSeveralAccesses_of_absent absent

/-- A set with one such modifier at most gives what counts, or the default. -/
theorem gives_of_not_hasSeveralAccesses (clear : ¬ m.HasSeveralAccesses)
    (default : Accessibility) : m.Gives default (m.accessibility?.getD default) := by
  cases known : m.accessibility? with
  | none => exact .inr ⟨accessibility?_eq_none_iff.mp known, rfl⟩
  | some access =>
    have settles := m.settles_withAccessibility access
    rw [(withAccessibility_eq_iff known).mpr clear] at settles
    exact .inl settles

end Modifiers

/-- The accessibility of an accessor is its own, or that of its member. -/
theorem settles_accessorModifiers {member own : Modifiers} {access clause : Accessibility}
    (settles : member.Settles access) (gives : own.Gives access clause) :
    (accessorModifiers member own.accessibility?).Settles clause := by
  rcases gives with settlesOwn | ⟨absent, rfl⟩
  · rw [settlesOwn.accessibility?]
    have given := member.settles_withAccessibility clause
    cases clause with
    | privateAccess =>
      intro other
      rw [← given other]
      cases other <;> rfl
    | _ => exact given
  · rw [Modifiers.accessibility?_eq_none_iff.mpr absent]
    exact settles

/-- The accessibility of members that are declared without one. -/
def Container.defaultAccess : Container → Accessibility
  | interfaceType => .publicAccess
  | classType => .privateAccess
  | explicit => .privateAccess

/-- What is implied of an accessibility is the default where none is declared. -/
theorem Container.has_implied {container : Container} (implicit : container ≠ .explicit)
    (declared : Modifiers) (hasBody : Bool) (access : Accessibility) :
    (container.implied declared hasBody).has access.modifier =
      (declared.accessibility?.isNone && decide (access = container.defaultAccess)) := by
  cases container with
  | explicit => exact absurd rfl implicit
  | interfaceType =>
    cases access with
    | publicAccess => exact (Bool.and_true _).symm
    | _ => exact (Bool.and_false _).symm
  | classType =>
    cases access with
    | privateAccess => exact (Bool.and_true _).symm
    | _ => exact (Bool.and_false _).symm

/-- With what is implied, a declaration that gives one accessibility, or none, settles it. -/
theorem Container.settles_implied {container : Container} (implicit : container ≠ .explicit)
    {declared : Modifiers} (hasBody : Bool) {access : Accessibility}
    (gives : declared.Gives container.defaultAccess access) :
    (declared ∪ container.implied declared hasBody).Settles access := by
  intro other
  rw [Modifiers.has_union, has_implied implicit]
  rcases gives with settles | ⟨absent, rfl⟩
  · rw [settles.accessibility?, Option.isNone_some, Bool.false_and, Bool.or_false]
    exact settles other
  · rw [absent other, Modifiers.accessibility?_eq_none_iff.mpr absent, Option.isNone_none,
      Bool.false_or, Bool.true_and, decide_eq_true_iff]

namespace MemberSymbol

variable {member : MemberSymbol} {access : Accessibility}

theorem accessibility_of_settles (settles : member.modifiers.Settles access) :
    member.accessibility = access := by
  rw [accessibility, settles.accessibility?, Option.getD_some]

/-- The modifier says who may use a member where it is the only one that does. -/
theorem isPrivate_of_settles (settles : member.modifiers.Settles access) :
    member.modifiers.isPrivate = member.isPrivate := by
  rw [Bool.eq_iff_iff, isPrivate, decide_eq_true_iff, accessibility_of_settles settles]
  exact (settles .privateAccess).trans eq_comm

end MemberSymbol

/-! ## Members -/

/-- The declarations that may give several accessibilities without a complaint: members of
classes and structs, and of interfaces in versions that have modifiers there, and the accessors of
properties and indexers. Explicit implementations are not among them. -/
inductive MemberDecl.SlipsAccess (decl : MemberDecl) (kind : TypeKind)
    (version : LanguageVersion) : Prop where
  | own (implicit : decl.explicitInterface = none)
    (current : ¬ (kind = .interfaceType ∧ version < .v8_0))
    (several : decl.modifiers.HasSeveralAccesses)
  | accessor (implicit : decl.explicitInterface = none) (isProperty : decl.isProperty = true)
    (clause : Clause) (listed : clause ∈ decl.clauses)
    (several : clause.decl.modifiers.HasSeveralAccesses)

namespace SymbolTable

/-- It is clear who may use a member and its accessors. The accessibility of a member is the only
one that is declared, or the default where none is; that of an accessor is the only one that it is
declared with, or that of its member. Explicit implementations aside, those that count as private
are those with this modifier. -/
structure ClearAccess (table : SymbolTable) (container : Container) (decl : MemberDecl)
    (member : MemberSymbol) : Prop where
  own : decl.modifiers.Gives container.defaultAccess member.accessibility
  isPrivate : container ≠ .explicit → member.modifiers.isPrivate = member.isPrivate
  accessors : ∀ clause ∈ decl.clauses, ∃ id accessor,
    member.accessor? clause.kind = some id ∧ table.member? id = some accessor ∧
      clause.decl.modifiers.Gives member.accessibility accessor.accessibility ∧
        (container ≠ .explicit → accessor.modifiers.isPrivate = accessor.isPrivate)

variable {table : SymbolTable} {container : Container} {decl : MemberDecl} {member : MemberSymbol}
  {kind : TypeKind} {version : LanguageVersion}

/-- What is clear does not slip through. -/
theorem ClearAccess.not_slipsAccess (clear : table.ClearAccess container decl member) :
    ¬ decl.SlipsAccess kind version := by
  rintro (⟨_, _, several⟩ | ⟨_, _, clause, listed, several⟩)
  · exact clear.own.not_hasSeveralAccesses several
  · obtain ⟨_, _, _, _, gives, _⟩ := clear.accessors clause listed
    exact gives.not_hasSeveralAccesses several

end SymbolTable

namespace MemberDecl

variable {decl : MemberDecl} {scope : MemberScope} {id : MemberId} {version : LanguageVersion}

/-- A member of an interface that uses no modern feature gives no accessibility. -/
theorem absent_of_not_isModern (old : decl.isModern = false) (access : Accessibility) :
    decl.modifiers.has access.modifier = false := by
  rw [isModern, Bool.or_eq_false_iff, decide_eq_false_iff_not, not_not] at old
  have absent := Modifiers.eq_empty_iff.mp old.2 access.modifier
  cases access <;> exact absent

/-- An explicit implementation of which nothing is said gives no accessibility. -/
theorem absent_of_silent_explicit (explicit : decl.explicitInterface.isSome = true)
    (silent : (decl.bind scope id).diagnostics = []) (access : Accessibility) :
    decl.modifiers.has access.modifier = false := by
  refine modifiers_of_silent_explicit explicit silent access.modifier ?_
  cases access <;> decide

/-- A member of which nothing is said gives several accessibilities only where it slips through. -/
theorem not_hasSeveralAccesses_of_silent {kind : TypeKind}
    (inside : scope.ownerIsInterface = decide (kind = .interfaceType))
    (outdated : scope.outdated? =
      (BindMode.source version).outdated? .defaultInterfaceImplementation)
    (silent : (decl.bind scope id).diagnostics = []) (blocked : ¬ decl.SlipsAccess kind version) :
    ¬ decl.modifiers.HasSeveralAccesses := by
  cases named : decl.explicitInterface with
  | some interface =>
    exact Modifiers.not_hasSeveralAccesses_of_absent
      (absent_of_silent_explicit (Option.isSome_of_eq_some named) silent)
  | none =>
    by_cases checked : kind = .interfaceType ∧ version < .v8_0
    · rw [SymbolTable.outdated?_source checked.2] at outdated
      have old :=
        isModern_of_silent (inside.trans (decide_eq_true checked.1)) named outdated silent
      exact Modifiers.not_hasSeveralAccesses_of_absent (absent_of_not_isModern old)
    · exact fun several => blocked (.own named checked several)

/-- So is an accessor. -/
theorem clause_not_hasSeveralAccesses_of_silent {kind : TypeKind}
    (silent : (decl.bind scope id).diagnostics = []) (blocked : ¬ decl.SlipsAccess kind version)
    {clause : Clause} (listed : clause ∈ decl.clauses) :
    ¬ clause.decl.modifiers.HasSeveralAccesses := by
  have modifiers := clause_of_silent silent listed
  split at modifiers
  · rename_i property
    exact fun several => blocked (.accessor property.2 property.1 clause listed several)
  · rw [modifiers]
    exact Modifiers.not_hasSeveralAccesses_of_absent fun access => Modifiers.eq_empty_iff.mp rfl _

end MemberDecl

namespace SymbolTable

variable {table : SymbolTable} {assembly : AssemblyId} {decl : MemberDecl} {scope : MemberScope}
  {id : MemberId} {member : MemberSymbol}

/-- An explicit implementation that is bound silently gives no accessibility, and neither do its
accessors. -/
theorem Carries.clearAccess_of_explicit
    (carries : table.Carries assembly id (decl.bind scope id))
    (found : table.member? id = some member) (silent : (decl.bind scope id).diagnostics = [])
    (explicit : scope.container decl = .explicit) :
    table.ClearAccess (scope.container decl) decl member := by
  have named := MemberDecl.container_eq_explicit.mp explicit
  have container : (scope.rules decl).container = .explicit := explicit
  have plain : (decl.draft scope).modifiers.accessibility? = none :=
    (MemberRules.apply_explicit container _ _).1
  have hidden : (decl.bind scope id).head.accessibility = .privateAccess := by
    rw [MemberSymbol.accessibility, MemberDecl.bind_head_modifiers, plain, Option.getD_none]
  have byDefault : (scope.container decl).defaultAccess = .privateAccess :=
    congrArg Container.defaultAccess explicit
  rw [carries.head] at found
  cases found
  refine ⟨.inr ⟨MemberDecl.absent_of_silent_explicit named silent, hidden.trans byDefault.symm⟩,
    fun implicit => absurd explicit implicit, fun clause listed => ?_⟩
  obtain ⟨accessorId, has, foundAccessor⟩ := carries.exists_accessor listed
  have empty := MemberDecl.clause_of_silent silent listed
  rw [if_neg fun both => by rw [both.2] at named; cases named] at empty
  refine ⟨accessorId, _, has, foundAccessor, .inr ⟨fun access => ?_, ?_⟩,
    fun implicit => absurd explicit implicit⟩
  · rw [empty]
    exact Modifiers.eq_empty_iff.mp rfl _
  · show (accessorModifiers (decl.draft scope).modifiers _).accessibility?.getD _ = _
    rw [if_pos explicit]
    rfl

/-- Another member has the accessibility that is declared or implied, and so have its accessors. -/
theorem Carries.clearAccess_of_implicit
    (carries : table.Carries assembly id (decl.bind scope id))
    (found : table.member? id = some member) (silent : (decl.bind scope id).diagnostics = [])
    (implicit : scope.container decl ≠ .explicit) (own : ¬ decl.modifiers.HasSeveralAccesses)
    (accessors : ∀ clause ∈ decl.clauses, ¬ clause.decl.modifiers.HasSeveralAccesses) :
    table.ClearAccess (scope.container decl) decl member := by
  have modifiers : (decl.draft scope).modifiers =
      decl.modifiers ∪ (scope.container decl).implied decl.modifiers decl.declaresBody :=
    (MemberRules.kept_of_silent (MemberDecl.complaints_of_silent silent)).1
  have gives := Modifiers.gives_of_not_hasSeveralAccesses own (scope.container decl).defaultAccess
  have settles : (decl.bind scope id).head.modifiers.Settles
      (decl.modifiers.accessibility?.getD (scope.container decl).defaultAccess) := by
    rw [MemberDecl.bind_head_modifiers, modifiers]
    exact Container.settles_implied implicit _ gives
  have access : (decl.bind scope id).head.accessibility = _ :=
    MemberSymbol.accessibility_of_settles settles
  rw [carries.head] at found
  cases found
  refine ⟨?_, fun _ => MemberSymbol.isPrivate_of_settles settles, fun clause listed => ?_⟩
  · show decl.modifiers.Gives _ (decl.bind scope id).head.accessibility
    rw [access]
    exact gives
  · obtain ⟨accessorId, has, foundAccessor⟩ := carries.exists_accessor listed
    have givesClause := Modifiers.gives_of_not_hasSeveralAccesses (accessors clause listed)
      (decl.bind scope id).head.accessibility
    have settlesClause : (decl.clauseSymbol scope id clause).modifiers.Settles
        (clause.decl.modifiers.accessibility?.getD (decl.bind scope id).head.accessibility) := by
      show (accessorModifiers (decl.draft scope).modifiers _).Settles _
      rw [if_neg implicit]
      exact settles_accessorModifiers (access ▸ settles) givesClause
    refine ⟨accessorId, _, has, foundAccessor, ?_,
      fun _ => MemberSymbol.isPrivate_of_settles settlesClause⟩
    show clause.decl.modifiers.Gives _ (decl.clauseSymbol scope id clause).accessibility
    rw [MemberSymbol.accessibility_of_settles settlesClause]
    exact givesClause

/-- If an assembly is bound from source without any diagnostic, it is clear of each of its members
who may use it and its accessors, all but those that slip through. -/
theorem Made.clearAccess_iff_of_silent (made : Made table) (decl : AssemblyDecl)
    (references : List AssemblyId) (version : LanguageVersion)
    (silent : (table.bind decl references (.source version)).diagnostics = [])
    {position : Nat} {typeDecl : TypeDecl} (declared : decl.types[position]? = some typeDecl) :
    ∃ type, (table.bind decl references (.source version)).table.type?
        ⟨table.types.size + position⟩ = some type ∧ type.kind = typeDecl.kind ∧
      List.Forall₂ (fun id memberDecl => ∃ member,
        let scope := memberScope (.source version) ⟨table.types.size + position⟩ type
        (table.bind decl references (.source version)).table.member? id = some member ∧
          ((table.bind decl references (.source version)).table.ClearAccess
            (scope.container memberDecl) memberDecl member ↔
              ¬ memberDecl.SlipsAccess typeDecl.kind version))
        type.members typeDecl.members := by
  have bound := bind_bound made.wellFormed decl references (.source version)
  obtain ⟨type, found, bindsType⟩ := bound.types declared
  have kind : type.kind = typeDecl.kind := by
    rw [bindsType.shell]
    rfl
  refine ⟨type, found, kind, bindsType.members.mp (fun id memberDecl carries reported => ?_)
    (bound.reported rfl declared found)⟩
  rw [silent] at reported
  have quiet := List.eq_nil_of_subset_nil reported
  refine ⟨_, carries.head, ClearAccess.not_slipsAccess, fun blocked => ?_⟩
  by_cases explicit : (memberScope (.source version) ⟨table.types.size + position⟩ type).container
      memberDecl = .explicit
  · exact carries.clearAccess_of_explicit carries.head quiet explicit
  refine carries.clearAccess_of_implicit carries.head quiet explicit ?_ fun clause listed => ?_
  · refine MemberDecl.not_hasSeveralAccesses_of_silent ?_ rfl quiet blocked
    show decide (type.kind = .interfaceType) = _
    rw [kind]
  · exact MemberDecl.clause_not_hasSeveralAccesses_of_silent quiet blocked listed

end SymbolTable

/-- A method that is declared public and private. -/
def opening : MemberDecl :=
  .method { name := "Open", modifiers := { isPublic := true, isPrivate := true }, hasBody := true }

/-- A public property with a setter that is declared private. -/
def total : MemberDecl :=
  .property {
    name := "Total", type := "int", modifiers := { isPublic := true }
    getter := some { hasBody := true }
    setter := some { modifiers := { isPrivate := true }, hasBody := true } }

/-- A class with both. -/
def tills : AssemblyDecl where
  name := "Tills"
  types := [{ name := "Till", kind := .classType, members := [opening, total] }]

namespace SymbolTable

theorem tills_silent : ((∅ : SymbolTable).bind tills [] (.source .v8_0)).diagnostics = [] := by
  decide +kernel

/-- The method slips through, and the property does not. -/
theorem tills_clearAccess_iff :
    let binding := (∅ : SymbolTable).bind tills [] (.source .v8_0)
    Made ∅ ∧ binding.diagnostics = [] ∧
      ∃ type, binding.table.type? ⟨0⟩ = some type ∧ List.Forall₂ (fun id memberDecl =>
        ∃ member, binding.table.member? id = some member ∧
          (binding.table.ClearAccess ((memberScope (.source .v8_0) ⟨0⟩ type).container memberDecl)
            memberDecl member ↔ ¬ memberDecl.SlipsAccess .classType .v8_0))
        type.members [opening, total] ∧
      opening.SlipsAccess .classType .v8_0 ∧ ¬ total.SlipsAccess .classType .v8_0 := by
  obtain ⟨type, found, _, members⟩ := Made.clearAccess_iff_of_silent .empty tills [] .v8_0
    tills_silent (show tills.types[0]? = some _ from rfl)
  refine ⟨.empty, tills_silent, type, found, members, ?_, ?_⟩
  · exact .own rfl (by decide) (by decide)
  · rintro (⟨_, _, several⟩ | ⟨_, _, clause, listed, several⟩)
    · exact absurd several (by decide)
    · rcases List.mem_pair.mp listed with rfl | rfl <;> exact absurd several (by decide)

/-- A silently bound method has the modifier `private` and does not count as private. -/
theorem tills_silent_several :
    ((∅ : SymbolTable).bind tills [] (.source .v8_0)).diagnostics = [] ∧
      ∃ type ∈ tills.types, ∃ memberDecl ∈ type.members, memberDecl.modifiers.HasSeveralAccesses ∧
        ∃ member,
          ((∅ : SymbolTable).bind tills [] (.source .v8_0)).table.member? ⟨0⟩ = some member ∧
            member.name = memberDecl.name ∧ member.modifiers.isPrivate = true ∧
              member.isPrivate = false := by
  refine ⟨tills_silent, _, List.mem_cons_self, opening, List.mem_cons_self,
    by decide, ?_⟩
  exact ⟨(((∅ : SymbolTable).bind tills [] (.source .v8_0)).table.member? ⟨0⟩).get
    (by decide +kernel), (Option.some_get _).symm, by decide +kernel, by decide +kernel,
    by decide +kernel⟩

end SymbolTable

end Conformance
