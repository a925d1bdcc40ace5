import Conformance.Proofs.Binding.Exported

/-!
Accessors that can be implemented without their members.

What implements an accessor is found through what implements its member. An
accessor that is wider than its member would have to be implemented although its
member need not be. Binding reports an error for it (`MemberDecl.regular`), so the
members of an assembly without errors are regular.
-/

namespace Conformance

/-- There is no error among some diagnostics. -/
def Silent (diagnostics : List Diagnostic) : Prop :=
  ∀ diagnostic ∈ diagnostics, diagnostic.isError = false

theorem Silent.subset {diagnostics more : List Diagnostic} (silent : Silent more)
    (listed : diagnostics ⊆ more) : Silent diagnostics :=
  fun diagnostic inside => silent diagnostic (listed inside)

/-- Accessors can be implemented only if their member can. -/
def BlockOutline.IsRegular (block : BlockOutline) : Prop :=
  ∀ accessor ∈ block.accessors, accessor.implementable = true → block.head.implementable = true

/-- All members of the types of an assembly are regular. -/
def AssemblyOutline.IsRegular (assembly : AssemblyOutline) : Prop :=
  ∀ type ∈ assembly.types, ∀ block ∈ type.members, block.IsRegular

namespace Modifiers

/-- A set that gives an accessibility is not empty. -/
theorem toList_ne_nil {modifiers : Modifiers} {access : Accessibility}
    (gives : modifiers.accessibility? = some access) : modifiers.toList ≠ [] := by
  intro empty
  have inside : access.modifier ∈ modifiers.toList := by
    refine List.mem_filter.mpr ⟨?_, has_of_accessibility? gives⟩
    cases access <;> decide
  rw [empty] at inside
  exact List.not_mem_nil inside

end Modifiers

namespace MemberDecl

variable (decl : MemberDecl) (scope : MemberScope) (id : MemberId)

/-- An accessor of the declaration with its location and name. -/
def place (clause : Clause) : PlacedClause where
  clause := clause
  span := clause.decl.span.orElse decl.span
  display := MemberSymbol.displayClause
    ((decl.bind scope id).head.displayIn scope.ownerName) clause.kind

/-- What is wrong with the modifiers of accessors: those of a property that is no explicit
implementation are compared with its own, others have none. -/
def modifierReports : List Diagnostic :=
  if decl.isProperty = true ∧ scope.container decl ≠ .explicit then
    checkAccessors (decl.clauses.map (decl.place scope id)) (decl.draft scope).modifiers
      ((decl.bind scope id).head.displayIn scope.ownerName) decl.span
  else (decl.clauses.map (decl.place scope id)).flatMap fun placed =>
    placed.reject placed.modifiers

theorem modifiers_reported :
    decl.modifierReports scope id ⊆ (decl.bind scope id).diagnostics := by
  intro diagnostic inside
  exact List.mem_append_left _ (List.mem_append_right _ inside)

/-- It is an error if an accessor has an accessibility of its own that is no
narrower than that of its member. -/
theorem wide_accessor_reported (implicit : scope.container decl ≠ .explicit) {clause : Clause}
    (listed : clause ∈ decl.clauses) {own access : Accessibility}
    (hasOwn : clause.decl.modifiers.accessibility? = some own)
    (hasAccess : (decl.draft scope).modifiers.accessibility? = some access)
    (wide : own.isNarrowerThan access = false) :
    ∃ diagnostic ∈ (decl.bind scope id).diagnostics, diagnostic.isError = true := by
  have reported := decl.modifiers_reported scope id
  have placed := List.mem_map_of_mem (f := decl.place scope id) listed
  by_cases isProperty : decl.isProperty = true
  · rw [modifierReports, if_pos ⟨isProperty, implicit⟩] at reported
    have narrowed : (decl.place scope id clause).modifiers.accessibility?.isSome = true :=
      Option.isSome_of_eq_some hasOwn
    have complaint : Diagnostic.breach .accessorNotNarrower (decl.place scope id clause).span
        [.member (decl.place scope id clause).display,
          .member ((decl.bind scope id).head.displayIn scope.ownerName)] ∈
        (decl.place scope id clause).checkAccess (decl.draft scope).modifiers
          ((decl.bind scope id).head.displayIn scope.ownerName) := by
      have access : (decl.place scope id clause).modifiers.accessibility? = some own := hasOwn
      rw [PlacedClause.checkAccess, access, hasAccess, Option.getD_some]
      simp only [wide, Bool.not_false, if_true, List.mem_singleton]
    exact ⟨_, reported (List.mem_append_right _ (List.mem_flatMap.mpr
      ⟨decl.place scope id clause, List.mem_filter.mpr ⟨placed, narrowed⟩, complaint⟩)), rfl⟩
  · rw [modifierReports, if_neg fun both => isProperty both.1] at reported
    obtain ⟨modifier, inside⟩ := List.exists_mem_of_ne_nil _ (Modifiers.toList_ne_nil hasOwn)
    refine ⟨_, reported (List.mem_flatMap.mpr ⟨decl.place scope id clause, placed,
      List.mem_map_of_mem inside⟩), ?_⟩
    rfl

/-- A member with accessors has a body just if they have. -/
theorem hasImplementation_clauseSymbol {clause : Clause} (listed : clause ∈ decl.clauses) :
    (decl.clauseSymbol scope id clause).hasImplementation =
      (decl.bind scope id).head.hasImplementation := by
  have isMethod : decl.isMethod = false := by
    cases decl with
    | method _ => cases listed
    | _ => rfl
  have someClause : decl.clauses.isEmpty = false := by
    rw [List.isEmpty_eq_false_iff]
    exact List.ne_nil_of_mem listed
  rw [MemberSymbol.hasImplementation, isExternal_clauseSymbol, MemberSymbol.hasImplementation,
    bind_head_modifiers, bind_head_hasBody, isMethod, someClause, Bool.not_false, Bool.and_true]
  rfl

variable {decl scope id}

theorem implementableIn_iff {member : MemberSymbol} {inside : Bool} :
    member.implementableIn inside = true ↔ inside = true ∧ member.explicitInterface = none ∧
      (member.modifiers.isAbstract = true ∨ member.modifiers.isVirtual = true ∨
        member.modifiers.isSealed = true) ∧
      member.modifiers.isStatic = false ∧ member.isPrivate = false := by
  simp only [MemberSymbol.implementableIn, MemberSymbol.isExplicit, Bool.and_eq_true,
    Bool.not_eq_true', Option.isSome_eq_false_iff, Option.isNone_iff_eq_none, Bool.or_eq_true,
    and_assoc, or_assoc]

/-- Members that are bound without errors are regular. -/
theorem regular (silent : Silent (decl.bind scope id).diagnostics) :
    ((decl.bind scope id).outline scope.ownerIsInterface).IsRegular := by
  intro outline listed implementable
  rw [MemberBlock.outline, bind_accessors, List.map_map] at listed
  obtain ⟨clause, isClause, rfl⟩ := List.mem_map.mp listed
  obtain ⟨inside, noInterface, dispatched, isInstance, visible⟩ :=
    implementableIn_iff.mp implementable
  obtain ⟨abstract, virtual, sealed⟩ := decl.dispatch_clauseSymbol scope id visible
  rw [abstract, virtual, sealed] at dispatched
  rw [isStatic_clauseSymbol] at isInstance
  refine implementableIn_iff.mpr ⟨inside, noInterface, dispatched, isInstance, ?_⟩
  by_contra hidden
  -- The member is private, and its accessor is not.
  have container : scope.container decl = .interfaceType :=
    container_eq_interface.mpr ⟨inside, noInterface⟩
  have implicit : scope.container decl ≠ .explicit := by
    rw [container]
    decide
  have accessible : (decl.draft scope).modifiers.accessibility?.isSome = true :=
    MemberRules.apply_accessible implicit decl.modifiers decl.declaresBody
  obtain ⟨access, hasAccess⟩ := Option.isSome_iff_exists.mp accessible
  have isPrivate : access = .privateAccess := by
    have known : (decl.bind scope id).head.isPrivate = true := Bool.not_eq_false _ ▸ hidden
    rw [MemberSymbol.isPrivate, MemberSymbol.accessibility, bind_head_modifiers,
      show (decl.draft scope).modifiers.accessibility? = some access from hasAccess] at known
    exact of_decide_eq_true known
  have accessor : (decl.clauseSymbol scope id clause).modifiers.accessibility? =
      clause.decl.modifiers.accessibility?.or (some access) := by
    rw [clauseSymbol, accessibility?_accessorModifiers, if_neg implicit]
    exact congrArg _ hasAccess
  rw [MemberSymbol.isPrivate, MemberSymbol.accessibility, accessor, isPrivate] at visible
  cases hasOwn : clause.decl.modifiers.accessibility? with
  | none =>
    rw [hasOwn] at visible
    cases visible
  | some own =>
    have wide : own.isNarrowerThan access = false := by
      rw [isPrivate]
      cases own <;> rfl
    obtain ⟨diagnostic, reported, isError⟩ :=
      decl.wide_accessor_reported scope id implicit isClause hasOwn hasAccess wide
    rw [silent diagnostic reported] at isError
    cases isError

end MemberDecl

namespace SymbolTable

/-- An assembly that is bound from source without errors is regular. -/
theorem Bound.regular {table : SymbolTable} {decl : AssemblyDecl} {references : List AssemblyId}
    {mode : BindMode} {binding : Binding} (bound : Bound table decl references mode binding)
    (source : mode.isMetadata = false) (silent : Silent binding.diagnostics)
    {assembly : AssemblySymbol}
    (found : binding.table.assembly? binding.assembly = some assembly) :
    (binding.table.assemblyOutline assembly).IsRegular := by
  intro typeOutline listed block inside
  obtain ⟨type, isType, rfl⟩ := List.mem_map.mp listed
  obtain ⟨typeId, ofAssembly, foundType⟩ := List.mem_filterMap.mp isType
  obtain ⟨⟨m, M⟩, isMember, rfl⟩ := List.mem_map.mp inside
  obtain ⟨ofType, foundMember⟩ := member?_of_mem_membersOf isMember
  cases found.symm.trans bound.symbol
  obtain ⟨above, below⟩ := mem_typeIds.mp ofAssembly
  have within : typeId.index - table.types.size < decl.types.length := by omega
  have declared := List.getElem?_eq_getElem within
  obtain ⟨type', foundAgain, bindsType⟩ := bound.types declared
  have reported := bound.reported source declared foundAgain
  rw [Nat.add_sub_cancel' above] at foundAgain bindsType reported
  cases foundType.symm.trans foundAgain
  obtain ⟨place, at'⟩ := List.getElem?_of_mem ofType
  have carried := forall₂_getElem? bindsType.members place
  have clean := forall₂_getElem? reported place
  rw [at'] at carried clean
  generalize (decl.types[typeId.index - table.types.size]).members[place]? = memberDecl
    at carried clean
  cases carried with
  | @some _ memberDecl carries =>
    cases clean with
    | some listedDiagnostics =>
      have same : M = _ := Option.some.inj (foundMember.symm.trans (carries 0 _ rfl))
      rw [same, carries.blockOutline]
      exact MemberDecl.regular (silent.subset listedDiagnostics)

end SymbolTable

end Conformance
