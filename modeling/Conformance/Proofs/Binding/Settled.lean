import Conformance.Proofs.Binding.Exported

/-!
Modifiers that stay what they are when they are repaired again.

Repairs of classes make a member private that is declared without an accessibility, and do so
last. A member that is abstract or virtual too is unsettled: repaired again, it is no longer
dispatched. All other members keep their modifiers (`MemberRules.modifiers_apply_again_iff`).

An accessor is exported with the accessibility only that differs from that of its member. So
what it loses are the keywords by which it differs although the accessibility is the same
(`MemberDecl.marks_exported_iff`).
-/

namespace Conformance

/-! ## Modifiers -/

namespace Modifiers

/-- A private member is abstract or virtual, although private members are not dispatched. -/
def IsUnsettled (m : Modifiers) : Prop :=
  m.isPrivate = true ∧ (m.isVirtual = true ∨ m.isAbstract = true)

instance (m : Modifiers) : Decidable m.IsUnsettled :=
  inferInstanceAs (Decidable (m.isPrivate = true ∧ (m.isVirtual = true ∨ m.isAbstract = true)))

/-- There is more than one keyword that gives an accessibility. -/
def HasSeveralAccesses (m : Modifiers) : Prop := 1 < (m ∩ accesses).toList.length

instance (m : Modifiers) : Decidable m.HasSeveralAccesses :=
  inferInstanceAs (Decidable (1 < (m ∩ accesses).toList.length))

/-- A member with these modifiers loses some when it is exported and bound again: it is private and
dispatched, or an accessor is declared with the very accessibility that it has among others. -/
def IsLossy (m : Modifiers) (accessors : List Modifiers) : Prop :=
  m.IsUnsettled ∨
    m.HasSeveralAccesses ∧ ∃ accessor ∈ accessors, accessor.accessibility? = m.accessibility?

instance (m : Modifiers) (accessors : List Modifiers) : Decidable (m.IsLossy accessors) :=
  inferInstanceAs (Decidable (m.IsUnsettled ∨
    m.HasSeveralAccesses ∧ ∃ accessor ∈ accessors, accessor.accessibility? = m.accessibility?))

/-- What no repair for members of interfaces or of classes looks at or changes, and `static`. -/
def core (m : Modifiers) : Modifiers where
  isNew := m.isNew
  isProtectedInternal := m.isProtectedInternal
  isProtected := m.isProtected
  isInternal := m.isInternal
  isStatic := m.isStatic
  isAsync := m.isAsync

theorem isPublic_iff (m : Modifiers) :
    m.isPublic = true ↔ m.accessibility? = some .publicAccess := by
  unfold accessibility?
  split_ifs <;> simp_all

/-- The accessibility and a few flags tell sets of modifiers with the same core apart. -/
theorem eq_of_core {first second : Modifiers} (core : second.core = first.core)
    (access : second.accessibility? = first.accessibility?)
    (isPrivate : second.isPrivate = first.isPrivate)
    (isExternal : second.isExternal = first.isExternal)
    (isAbstract : second.isAbstract = first.isAbstract)
    (isVirtual : second.isVirtual = first.isVirtual)
    (isSealed : second.isSealed = first.isSealed)
    (isOverride : second.isOverride = first.isOverride) : second = first := by
  have isPublic : second.isPublic = first.isPublic := by
    rw [Bool.eq_iff_iff, isPublic_iff, isPublic_iff, access]
  have same (modifier : Modifier) (reads : ∀ m : Modifiers, m.core.has modifier = m.has modifier) :
      second.has modifier = first.has modifier := by
    rw [← reads, ← reads first, core]
  refine ext_has fun modifier => ?_
  cases modifier with
  | publicAccess => exact isPublic
  | privateAccess => exact isPrivate
  | external => exact isExternal
  | abstract => exact isAbstract
  | virtual => exact isVirtual
  | sealed => exact isSealed
  | override => exact isOverride
  | _ => exact same _ fun _ => rfl

/-- A set keeps its modifiers if it is given the accessibility that it has, unless there are
several keywords for it. -/
theorem withAccessibility_eq_iff {m : Modifiers} {access : Accessibility}
    (known : m.accessibility? = some access) :
    m.withAccessibility access = m ↔ ¬ m.HasSeveralAccesses := by
  have single : m.withAccessibility access = m ↔ m ∩ accesses = ofList [access.modifier] := by
    have inside (modifier : Modifier) :
        decide (modifier = access.modifier) = true → accesses.has modifier = true := by
      intro same
      rw [of_decide_eq_true same]
      cases access <;> rfl
    have given (modifier : Modifier) : (m.withAccessibility access).has modifier =
        (m.has modifier && !accesses.has modifier || decide (modifier = access.modifier)) := by
      simp [withAccessibility, ofList]
    constructor <;> intro same <;> refine ext_has fun modifier => ?_
    · have kept := given modifier
      rw [same] at kept
      have known := inside modifier
      simp only [has_inter, ofList, has_ofTest, List.mem_singleton]
      revert kept known
      cases m.has modifier <;> cases accesses.has modifier <;>
        cases decide (modifier = access.modifier) <;> decide
    · have kept := congrArg (Modifiers.has · modifier) same
      have known := inside modifier
      rw [given]
      simp only [has_inter, ofList, has_ofTest, List.mem_singleton] at kept
      revert kept known
      cases m.has modifier <;> cases accesses.has modifier <;>
        cases decide (modifier = access.modifier) <;> decide
  have keywords : ∀ isPublic isProtectedInternal isProtected isInternal isPrivate : Bool,
      ∀ access ∈ Accessibility.all,
        ({ isPublic, isProtectedInternal, isProtected, isInternal, isPrivate } :
          Modifiers).accessibility? = some access →
        ((({ isPublic, isProtectedInternal, isProtected, isInternal, isPrivate } : Modifiers) =
          ofList [access.modifier]) ↔
        ¬ 1 < ({ isPublic, isProtectedInternal, isProtected, isInternal, isPrivate } :
          Modifiers).toList.length) := by
    decide +kernel
  have inter : m ∩ accesses = ⟨false, m.isPublic, m.isProtectedInternal, m.isProtected,
      m.isInternal, m.isPrivate, false, false, false, false, false, false, false⟩ := by
    refine ext_has fun modifier => ?_
    rw [has_inter]
    cases modifier <;> simp [has, accesses]
  rw [single, HasSeveralAccesses, inter]
  rw [← accessibility?_inter_accesses, inter] at known
  exact keywords _ _ _ _ _ access (by cases access <;> decide) known

end Modifiers

/-! ## Members of classes -/

/-- What the rules for members of classes look at. -/
structure ClassFlags where
  abstract : Bool
  external : Bool
  sealed : Bool
  virtual : Bool
  overriding : Bool
  static : Bool
  hidden : Bool
  accessible : Bool
  body : Bool
deriving DecidableEq

/-- What the rules for members of classes see of a draft. -/
def Draft.classFlags (draft : Draft) : ClassFlags where
  abstract := draft.modifiers.isAbstract
  external := draft.modifiers.isExternal
  sealed := draft.modifiers.isSealed
  virtual := draft.modifiers.isVirtual
  overriding := draft.modifiers.isOverride
  static := draft.modifiers.isStatic
  hidden := draft.modifiers.isPrivate
  accessible := draft.modifiers.accessibility?.isSome
  body := draft.hasBody

namespace ClassFlags

/-- The rules for members of classes, as far as flags show them. -/
def classRules (needsBody : Bool) : List (FlagRepair ClassFlags) :=
  [⟨fun f => f.abstract && f.body, fun f => { f with body := false }⟩,
    ⟨fun f => f.external && f.body, fun f => { f with body := false }⟩,
    ⟨fun f => f.abstract && f.external, fun f => { f with external := false }⟩,
    ⟨fun f => f.abstract && f.virtual, fun f => { f with virtual := false }⟩,
    ⟨fun f => f.static && (f.virtual || f.abstract || f.overriding),
      fun f => { f with virtual := false, abstract := false, overriding := false }⟩,
    ⟨fun f => f.hidden && (f.virtual || f.abstract),
      fun f => { f with virtual := false, abstract := false }⟩,
    ⟨fun f => f.sealed && !f.overriding, fun f => { f with sealed := false }⟩,
    ⟨fun f => f.abstract && f.sealed, fun f => { f with sealed := false }⟩,
    .idle,
    ⟨fun f => needsBody && !(f.body || f.external) && !f.abstract,
      fun f => { f with body := true }⟩,
    ⟨fun f => !f.accessible, fun f => { f with hidden := true, accessible := true }⟩]

/-- What the rules for members of classes make of a member. -/
def repaired (needsBody : Bool) (f : ClassFlags) : ClassFlags :=
  (classRules needsBody).foldl FlagRepair.run f

theorem shows_ofClass (ownerIsAbstract needsBody : Bool) :
    List.Forall₂ (FlagRepair.Shows Draft.classFlags) (classRules needsBody)
      (Repair.ofClass ownerIsAbstract needsBody) := by
  iterate 8 refine .cons (FlagRepair.shows (fun _ _ => rfl) (fun _ => rfl) fun _ => rfl) ?_
  refine .cons (FlagRepair.shows_idle (fun _ _ => rfl) fun _ => rfl) ?_
  refine .cons (FlagRepair.shows (fun _ _ => rfl) (fun _ => rfl) fun _ => rfl) ?_
  refine .cons (FlagRepair.shows (fun _ _ => rfl) (fun _ => (Option.not_isSome _).symm)
    fun draft => ?_) .nil
  have given : (Repair.impliedPrivate.change draft).modifiers.accessibility?.isSome = true := by
    simp only [Repair.impliedPrivate, Draft.mapModifiers, Modifiers.accessibility?]
    split_ifs <;> rfl
  show ClassFlags.mk _ _ _ _ _ _ _ _ _ = ClassFlags.mk _ _ _ _ _ _ _ _ _
  rw [given]
  rfl

/-- The flags without that of the body. -/
def bodiless (f : ClassFlags) : ClassFlags := { f with body := false }

/-- Bodies do not count for what becomes of modifiers. -/
theorem bodiless_repaired (f : ClassFlags) (needsBody : Bool) :
    (f.repaired needsBody).bodiless = (f.bodiless.repaired false).bodiless := by
  obtain ⟨abstract, external, sealed, virtual, overriding, static, hidden, accessible, body⟩ := f
  revert abstract external sealed virtual overriding static hidden accessible body needsBody
  decide +kernel

/-- Repairing members of classes again changes no modifier, unless they are unsettled. -/
theorem repaired_again (f : ClassFlags) (needsBody needed body : Bool) :
    ({ f.repaired needsBody with body }.repaired needed).bodiless =
        (f.repaired needsBody).bodiless ↔
      ¬ ((f.repaired needsBody).hidden = true ∧
        ((f.repaired needsBody).virtual = true ∨ (f.repaired needsBody).abstract = true)) := by
  have twice : ∀ abstract external sealed virtual overriding static hidden accessible : Bool,
      let once := (ClassFlags.repaired false ⟨abstract, external, sealed, virtual, overriding,
        static, hidden, accessible, false⟩).bodiless
      (once.repaired false).bodiless = once ↔
        ¬ (once.hidden = true ∧ (once.virtual = true ∨ once.abstract = true)) := by
    decide +kernel
  have once := f.bodiless_repaired needsBody
  have again : ({ f.repaired needsBody with body }.repaired needed).bodiless =
      ((f.repaired needsBody).bodiless.repaired false).bodiless :=
    bodiless_repaired _ needed
  rw [again]
  show _ ↔ ¬ ((f.repaired needsBody).bodiless.hidden = true ∧
    ((f.repaired needsBody).bodiless.virtual = true ∨
      (f.repaired needsBody).bodiless.abstract = true))
  rw [once]
  exact twice f.abstract f.external f.sealed f.virtual f.overriding f.static f.hidden f.accessible

/-- A method of a class has a body unless it is abstract or extern. -/
theorem body_repaired (f : ClassFlags) : (f.repaired true).body =
    (!(f.repaired true).abstract && !(f.repaired true).external) := by
  obtain ⟨abstract, external, sealed, virtual, overriding, static, hidden, accessible, given⟩ := f
  revert abstract external sealed virtual overriding static hidden accessible given
  decide +kernel

/-- A member that ends up private and dispatched was given no accessibility. -/
theorem dispatched_repaired (f : ClassFlags) (needsBody : Bool)
    (known : f.hidden = true → f.accessible = true) :
    ((f.repaired needsBody).hidden = true ∧
        ((f.repaired needsBody).virtual = true ∨ (f.repaired needsBody).abstract = true)) ↔
      f.accessible = false ∧ f.static = false ∧ (f.virtual = true ∨ f.abstract = true) := by
  obtain ⟨abstract, external, sealed, virtual, overriding, static, hidden, accessible, body⟩ := f
  revert abstract external sealed virtual overriding static hidden accessible body needsBody
  decide +kernel

end ClassFlags

/-! ## Drafts -/

namespace Repair

/-- What single repairs leave alone is left alone by all of them. -/
theorem read_repairAll {α : Type} {read : Modifiers → α} {repairs : List Repair}
    (leaves : ∀ r ∈ repairs, ∀ draft : Draft,
      read (r.change draft).modifiers = read draft.modifiers) (draft : Draft) :
    read (draft.repairAll repairs).modifiers = read draft.modifiers :=
  List.foldlRecOn repairs Draft.repair
    (motive := fun after : Draft => read after.modifiers = read draft.modifiers) rfl
    fun after same r listed => by
      unfold Draft.repair
      split
      · exact (leaves r listed after).trans same
      · exact same

theorem core_ofInterface (draft : Draft) :
    (draft.repairAll ofInterface).modifiers.core = draft.modifiers.core := by
  refine read_repairAll ?_ draft
  simp only [ofInterface, List.forall_mem_cons]
  iterate 15 refine ⟨fun _ => rfl, ?_⟩
  exact List.forall_mem_nil _

theorem isPrivate_ofInterface (draft : Draft) :
    (draft.repairAll ofInterface).modifiers.isPrivate = draft.modifiers.isPrivate := by
  refine read_repairAll ?_ draft
  simp only [ofInterface, List.forall_mem_cons]
  iterate 15 refine ⟨fun _ => rfl, ?_⟩
  exact List.forall_mem_nil _

/-- A member of an interface overrides nothing. -/
theorem isOverride_ofInterface (draft : Draft) :
    (draft.repairAll ofInterface).modifiers.isOverride = false := by
  have first : (draft.repair interfaceOverride).modifiers.isOverride = false := by
    unfold Draft.repair interfaceOverride
    simp only
    split
    · rfl
    · rename_i absent
      simpa using absent
  have leaves : ∀ r ∈ ofInterface.tail, ∀ draft : Draft,
      (r.change draft).modifiers.isOverride = draft.modifiers.isOverride := by
    simp only [ofInterface, List.tail_cons, List.forall_mem_cons]
    iterate 14 refine ⟨fun _ => rfl, ?_⟩
    exact List.forall_mem_nil _
  have split : draft.repairAll ofInterface =
      (draft.repair interfaceOverride).repairAll ofInterface.tail := rfl
  rw [split, read_repairAll leaves, first]

theorem core_ofClass (ownerIsAbstract needsBody : Bool) (draft : Draft) :
    (draft.repairAll (ofClass ownerIsAbstract needsBody)).modifiers.core =
      draft.modifiers.core := by
  refine read_repairAll ?_ draft
  simp only [ofClass, List.forall_mem_cons]
  iterate 11 refine ⟨fun _ => rfl, ?_⟩
  exact List.forall_mem_nil _

theorem classFlags_ofClass (ownerIsAbstract needsBody : Bool) (draft : Draft) :
    (draft.repairAll (ofClass ownerIsAbstract needsBody)).classFlags =
      draft.classFlags.repaired needsBody :=
  FlagRepair.view_repairAll (ClassFlags.shows_ofClass ownerIsAbstract needsBody) draft

/-- A method that is an explicit implementation has a body unless it is extern. -/
theorem hasBody_ofExplicit (draft : Draft) : (draft.repairAll (ofExplicit true)).hasBody =
    (!(draft.repairAll (ofExplicit true)).modifiers.isAbstract &&
      !(draft.repairAll (ofExplicit true)).modifiers.isExternal) := by
  have bodies (draft : Draft) (plain : draft.modifiers.isAbstract = false) :
      ((draft.repair externalWithBody).repair (missingBody true)).hasBody =
        (!((draft.repair externalWithBody).repair (missingBody true)).modifiers.isAbstract &&
          !((draft.repair externalWithBody).repair (missingBody true)).modifiers.isExternal) := by
    unfold Draft.repair externalWithBody missingBody Draft.withBody Draft.hasImplementation
    cases body : draft.hasBody <;> cases external : draft.modifiers.isExternal <;>
      simp [body, external, plain]
  have absent : (draft.repairAll (explicitInvalid.map invalidForExplicit)).modifiers.has .abstract =
      false := by
    rw [has_repairAll_invalidForExplicit, decide_eq_false (by decide), Bool.and_false]
  rw [repairAll_ofExplicit]
  exact bodies _ absent

end Repair

/-- A private member of an interface is not dispatched. -/
theorem DraftFlags.hidden_repaired (f : DraftFlags) :
    ¬ (f.repaired.hidden = true ∧ (f.repaired.virtual = true ∨ f.repaired.abstract = true)) := by
  obtain ⟨abstract, external, sealed, virtual, hidden, static, body, excused⟩ := f
  revert abstract external sealed virtual hidden static body excused
  decide +kernel

namespace MemberRules

variable {rules again : MemberRules}

theorem apply_of_class (isClass : rules.container = .classType) (declared : Modifiers)
    (hasBody : Bool) : rules.apply declared hasBody =
      ({ modifiers := declared, hasBody } : Draft).repairAll
        (Repair.ofClass rules.ownerIsAbstract rules.needsBody) := by
  have current : rules.tooOld? declared hasBody = none := by
    rw [tooOld?, isClass, if_neg (by simp)]
  unfold apply
  simp only [current, repairs, isClass]

/-- A member of a class is unsettled if it is declared abstract or virtual, but neither static nor
with an accessibility. -/
theorem isUnsettled_iff (isClass : rules.container = .classType) (declared : Modifiers)
    (hasBody : Bool) : (rules.apply declared hasBody).modifiers.IsUnsettled ↔
      declared.accessibility? = none ∧ declared.isStatic = false ∧
        (declared.isVirtual = true ∨ declared.isAbstract = true) := by
  have known : declared.isPrivate = true → declared.accessibility?.isSome = true := by
    intro isPrivate
    unfold Modifiers.accessibility?
    split_ifs <;> rfl
  have flags := ({ modifiers := declared, hasBody } : Draft).classFlags.dispatched_repaired
    rules.needsBody known
  rw [← Repair.classFlags_ofClass rules.ownerIsAbstract, ← apply_of_class isClass] at flags
  rw [← Option.isNone_iff_eq_none, ← Option.isSome_eq_false_iff]
  exact flags

/-- Only members of classes can be unsettled. -/
theorem settled_of_interface (inside : rules.container = .interfaceType) (declared : Modifiers)
    (hasBody : Bool) : ¬ (rules.apply declared hasBody).modifiers.IsUnsettled := by
  obtain ⟨f, flags, _⟩ := flags_apply inside declared hasBody
  have settled := f.hidden_repaired
  rw [← flags] at settled
  exact settled

theorem settled_of_explicit (explicit : rules.container = .explicit) (declared : Modifiers)
    (hasBody : Bool) : ¬ (rules.apply declared hasBody).modifiers.IsUnsettled := by
  intro unsettled
  have absent := has_apply_explicit explicit declared hasBody .privateAccess
  rw [decide_eq_false (by decide), Bool.and_false] at absent
  exact Bool.false_ne_true (absent.symm.trans unsettled.1)

theorem single_of_explicit (explicit : rules.container = .explicit) (declared : Modifiers)
    (hasBody : Bool) : ¬ (rules.apply declared hasBody).modifiers.HasSeveralAccesses := by
  have none : (rules.apply declared hasBody).modifiers ∩ .accesses = ∅ := by
    refine Modifiers.ext_has fun modifier => ?_
    have invalid : (decide (modifier ∉ Repair.explicitInvalid) && Modifiers.accesses.has modifier) =
        (∅ : Modifiers).has modifier := by
      cases modifier <;> decide
    rw [Modifiers.has_inter, has_apply_explicit explicit, Bool.and_assoc, invalid]
    cases modifier <;> exact Bool.and_false _
  rw [Modifiers.HasSeveralAccesses, none]
  decide

/-- A member of an interface overrides nothing, whatever the language version. -/
theorem isOverride_apply (inside : rules.container = .interfaceType) (declared : Modifiers)
    (hasBody : Bool) : (rules.apply declared hasBody).modifiers.isOverride = false := by
  unfold apply
  cases rules.tooOld? declared hasBody with
  | some version => rfl
  | none =>
    simp only [repairs, inside]
    exact Repair.isOverride_ofInterface _

variable (same : again.container = rules.container) (current : again.outdated? = none)

include same current

theorem modifiers_apply_again_interface (inside : rules.container = .interfaceType)
    (declared : Modifiers) {hasBody body : Bool}
    (bodies : body = (rules.apply declared hasBody).hasBody ∨ body = false ∧ hasBody = false) :
    (again.apply (rules.apply declared hasBody).modifiers body).modifiers =
      (rules.apply declared hasBody).modifiers := by
  have face := apply_again same current declared fun _ => bodies
  rcases face.dispatch inside with ⟨isAbstract, isVirtual, isSealed, isExternal, _⟩
  have repaired : again.apply (rules.apply declared hasBody).modifiers body =
      ({ modifiers := (rules.apply declared hasBody).modifiers, hasBody := body } : Draft).repairAll
        Repair.ofInterface := by
    rw [apply_current current, repairs, same, inside]
  refine Modifiers.eq_of_core ?_ face.access ?_ isExternal isAbstract isVirtual isSealed ?_
  · rw [repaired, Repair.core_ofInterface]
  · rw [repaired, Repair.isPrivate_ofInterface]
  · rw [isOverride_apply (same.trans inside), isOverride_apply inside]

omit current in
theorem modifiers_apply_again_explicit (explicit : rules.container = .explicit)
    (declared : Modifiers) (hasBody body : Bool) :
    (again.apply (rules.apply declared hasBody).modifiers body).modifiers =
      (rules.apply declared hasBody).modifiers := by
  refine Modifiers.ext_has fun modifier => ?_
  rw [has_apply_explicit (same.trans explicit), has_apply_explicit explicit, Bool.and_assoc,
    Bool.and_self]

theorem modifiers_apply_again_class (isClass : rules.container = .classType)
    (declared : Modifiers) (hasBody body : Bool) :
    (again.apply (rules.apply declared hasBody).modifiers body).modifiers =
        (rules.apply declared hasBody).modifiers ↔
      ¬ (rules.apply declared hasBody).modifiers.IsUnsettled := by
  let start : Draft := { modifiers := declared, hasBody }
  have first : (rules.apply declared hasBody).classFlags =
      start.classFlags.repaired rules.needsBody := by
    rw [apply_of_class isClass, Repair.classFlags_ofClass]
  have second : (again.apply (rules.apply declared hasBody).modifiers body).classFlags =
      { start.classFlags.repaired rules.needsBody with body }.repaired again.needsBody := by
    rw [apply_of_class (same.trans isClass), Repair.classFlags_ofClass, ← first]
    rfl
  have settled := start.classFlags.repaired_again rules.needsBody again.needsBody body
  rw [← second, ← first] at settled
  refine Iff.trans ⟨fun equal => ?_, fun flags => ?_⟩ settled
  · unfold Draft.classFlags ClassFlags.bodiless
    rw [equal]
  · have face : Draft.SameFace rules.container (rules.apply declared hasBody)
        (again.apply (rules.apply declared hasBody).modifiers body) :=
      apply_again same current declared fun inside => nomatch isClass.symm.trans inside
    refine Modifiers.eq_of_core ?_ face.access (congrArg ClassFlags.hidden flags)
      (congrArg ClassFlags.external flags) (congrArg ClassFlags.abstract flags)
      (congrArg ClassFlags.virtual flags) (congrArg ClassFlags.sealed flags)
      (congrArg ClassFlags.overriding flags)
    rw [apply_of_class (same.trans isClass), Repair.core_ofClass]

/-- Modifiers are repaired again to what they are just if they are settled. -/
theorem modifiers_apply_again_iff (declared : Modifiers) {hasBody body : Bool}
    (bodies : rules.container = .interfaceType →
      body = (rules.apply declared hasBody).hasBody ∨ body = false ∧ hasBody = false) :
    (again.apply (rules.apply declared hasBody).modifiers body).modifiers =
        (rules.apply declared hasBody).modifiers ↔
      ¬ (rules.apply declared hasBody).modifiers.IsUnsettled := by
  cases kind : rules.container with
  | interfaceType =>
    exact iff_of_true (modifiers_apply_again_interface same current kind declared (bodies kind))
      (settled_of_interface kind declared hasBody)
  | classType => exact modifiers_apply_again_class same current kind declared hasBody body
  | explicit =>
    exact iff_of_true (modifiers_apply_again_explicit same kind declared hasBody body)
      (settled_of_explicit kind declared hasBody)

omit same current in
/-- A method, and each member of an interface, has a body unless it is abstract or extern. -/
theorem hasBody_apply_iff (bodied : rules.container = .interfaceType ∨ rules.needsBody = true)
    (declared : Modifiers) (hasBody : Bool) : (rules.apply declared hasBody).hasBody =
      (!(rules.apply declared hasBody).modifiers.isAbstract &&
        !(rules.apply declared hasBody).modifiers.isExternal) := by
  cases kind : rules.container with
  | interfaceType => exact hasBody_apply kind declared hasBody
  | classType =>
    have needed : rules.needsBody = true := bodied.resolve_left (by rw [kind]; nofun)
    have body := ({ modifiers := declared, hasBody } : Draft).classFlags.body_repaired
    rw [← Repair.classFlags_ofClass rules.ownerIsAbstract, ← needed, ← apply_of_class kind] at body
    exact body
  | explicit =>
    have needed : rules.needsBody = true := bodied.resolve_left (by rw [kind]; nofun)
    rw [apply_of_explicit kind, needed]
    exact Repair.hasBody_ofExplicit _

end MemberRules

/-! ## Members -/

/-- What binding made of the modifiers of a member, and whether it has a body. -/
def MemberSymbol.marks (member : MemberSymbol) : Modifiers × Bool :=
  (member.modifiers, member.hasBody)

/-- An accessor whose accessibility is that of its member has the modifiers of its member, unless
there are several keywords for it. -/
theorem accessorModifiers_eq_iff {m : Modifiers} {access : Accessibility}
    (known : m.accessibility? = some access) (settled : ¬ m.IsUnsettled) :
    accessorModifiers m (some access) = m ↔ ¬ m.HasSeveralAccesses := by
  rw [← Modifiers.withAccessibility_eq_iff known]
  cases access with
  | privateAccess =>
    have isPrivate : m.isPrivate = true := Modifiers.has_of_accessibility? known
    have plain : m.isVirtual = false ∧ m.isAbstract = false := by
      rw [← Bool.not_eq_true, ← Bool.not_eq_true, ← not_or]
      exact fun dispatched => settled ⟨isPrivate, dispatched⟩
    have same : accessorModifiers m (some .privateAccess) = m.withAccessibility .privateAccess := by
      refine Modifiers.ext_has fun modifier => ?_
      cases modifier with
      | virtual =>
        exact ((has_withAccessibility m _
          (show Modifiers.accesses.has .virtual = false from rfl)).trans plain.1).symm
      | abstract =>
        exact ((has_withAccessibility m _
          (show Modifiers.accesses.has .abstract = false from rfl)).trans plain.2).symm
      | _ => rfl
    rw [same]
  | _ => rfl

namespace MemberDecl

variable (decl : MemberDecl) (scope : MemberScope) (id : MemberId)

theorem bind_head_hasBody_eq : (decl.bind scope id).head.hasBody =
    ((!(decl.draft scope).modifiers.isAbstract && !(decl.draft scope).modifiers.isExternal) &&
      (decl.isMethod || !decl.clauses.isEmpty)) := by
  rw [bind_head_hasBody]
  cases kind : decl.isMethod with
  | true =>
    rw [if_pos rfl, Bool.true_or, Bool.and_true]
    exact MemberRules.hasBody_apply_iff (.inr kind) _ _
  | false => rw [if_neg Bool.false_ne_true, Bool.false_or]

variable {again : MemberScope} (inside : again.ownerIsInterface = scope.ownerIsInterface)
  (current : again.outdated? = none)

include inside current

/-- A member keeps its modifiers when it is exported and bound again, unless it is private and
dispatched. -/
theorem modifiers_exported_iff :
    ((decl.exported scope id).draft again).modifiers = (decl.draft scope).modifiers ↔
      ¬ (decl.draft scope).modifiers.IsUnsettled := by
  have same : (again.rules (decl.exported scope id)).container = (scope.rules decl).container :=
    decl.container_exported scope id inside
  have outdated : (again.rules (decl.exported scope id)).outdated? = none := current
  unfold MemberDecl.draft
  rw [exported_modifiers]
  exact MemberRules.modifiers_apply_again_iff same outdated decl.modifiers
    fun kind => decl.declaresBody_exported scope id kind

omit inside current in
/-- An accessor is exported with the accessibility that it is declared with, unless that is the one
of its member. -/
theorem exportedClause_access (implicit : scope.container decl ≠ .explicit) (clause : Clause) :
    (decl.exportedClause scope id clause).decl.modifiers.accessibility? =
      if clause.decl.modifiers.accessibility? = (decl.draft scope).modifiers.accessibility?
        then none
      else clause.decl.modifiers.accessibility? := by
  have own : (decl.clauseSymbol scope id clause).modifiers.accessibility? =
      clause.decl.modifiers.accessibility?.or (decl.draft scope).modifiers.accessibility? := by
    simp only [clauseSymbol, implicit, if_false, accessibility?_accessorModifiers]
  simp only [exportedClause, exportAccessor, own]
  have nothing : (∅ : Modifiers).accessibility? = none := rfl
  cases given : clause.decl.modifiers.accessibility? with
  | none => rw [Option.none_or, if_neg fun plain => plain.2 rfl, nothing, ite_self]
  | some access =>
    rw [Option.some_or]
    by_cases same : some access = (decl.draft scope).modifiers.accessibility?
    · rw [if_neg fun apart => apart.2 same, if_pos same, nothing]
    · rw [if_pos ⟨rfl, same⟩, if_neg same, accessibility?_inter_accesses, own, given,
        Option.some_or]

/-- An accessor keeps its modifiers when it is exported and bound again, unless it is declared with
the accessibility of its member, and that has several keywords for it. -/
theorem modifiers_exportedClause_iff (settled : ¬ (decl.draft scope).modifiers.IsUnsettled)
    (idAgain : MemberId) (clause : Clause) :
    ((decl.exported scope id).clauseSymbol again idAgain
        (decl.exportedClause scope id clause)).modifiers =
          (decl.clauseSymbol scope id clause).modifiers ↔
      ¬ ((decl.draft scope).modifiers.HasSeveralAccesses ∧
        clause.decl.modifiers.accessibility? = (decl.draft scope).modifiers.accessibility?) := by
  have kept := (decl.modifiers_exported_iff scope id inside current).mpr settled
  simp only [clauseSymbol, kept, decl.container_exported scope id inside]
  by_cases explicit : scope.container decl = .explicit
  · rw [if_pos explicit, if_pos explicit]
    exact iff_of_true rfl fun several =>
      MemberRules.single_of_explicit explicit decl.modifiers decl.declaresBody several.1
  rw [if_neg explicit, if_neg explicit, decl.exportedClause_access scope id explicit]
  split
  · rename_i same
    have accessible : (decl.draft scope).modifiers.accessibility?.isSome = true :=
      MemberRules.apply_accessible explicit decl.modifiers decl.declaresBody
    obtain ⟨access, known⟩ := Option.isSome_iff_exists.mp accessible
    rw [same, and_iff_left rfl, ← accessorModifiers_eq_iff known settled, known]
    exact eq_comm
  · rename_i apart
    exact iff_of_true rfl fun several => apart several.2

/-- A member and its accessors keep their modifiers and bodies when they are exported and bound
again, unless its modifiers are lossy. -/
theorem marks_exported_iff (idAgain : MemberId) :
    ((decl.exported scope id).bind again idAgain).symbols.map MemberSymbol.marks =
        (decl.bind scope id).symbols.map MemberSymbol.marks ↔
      ¬ (decl.draft scope).modifiers.IsLossy
        (decl.clauses.map fun clause => clause.decl.modifiers) := by
  have accessors : ((decl.exported scope id).bind again idAgain).accessors.map
      MemberSymbol.marks = (decl.bind scope id).accessors.map MemberSymbol.marks ↔
        ∀ clause ∈ decl.clauses, ((decl.exported scope id).clauseSymbol again idAgain
          (decl.exportedClause scope id clause)).marks =
            (decl.clauseSymbol scope id clause).marks := by
    rw [bind_accessors, bind_accessors, exported_clauses, List.map_map, List.map_map, List.map_map,
      List.map_inj_left]
    rfl
  unfold MemberBlock.symbols Modifiers.IsLossy
  rw [List.map_cons, List.map_cons, List.cons.injEq, accessors]
  by_cases settled : (decl.draft scope).modifiers.IsUnsettled
  · have lost := mt (decl.modifiers_exported_iff scope id inside current).mp
      (not_not_intro settled)
    exact iff_of_false (fun same => lost (congrArg Prod.fst same.1)) (not_not_intro (.inl settled))
  have kept := (decl.modifiers_exported_iff scope id inside current).mpr settled
  have head : ((decl.exported scope id).bind again idAgain).head.marks =
      (decl.bind scope id).head.marks := by
    refine Prod.ext kept ?_
    show MemberSymbol.hasBody _ = MemberSymbol.hasBody _
    rw [bind_head_hasBody_eq, bind_head_hasBody_eq, kept, exported_isMethod, exported_clauses,
      List.isEmpty_map]
  have clause (clause : Clause) : ((decl.exported scope id).clauseSymbol again idAgain
      (decl.exportedClause scope id clause)).marks = (decl.clauseSymbol scope id clause).marks ↔
      ¬ ((decl.draft scope).modifiers.HasSeveralAccesses ∧
        clause.decl.modifiers.accessibility? = (decl.draft scope).modifiers.accessibility?) := by
    rw [← decl.modifiers_exportedClause_iff scope id inside current settled idAgain]
    refine ⟨congrArg Prod.fst, fun same => Prod.ext same ?_⟩
    simp only [MemberSymbol.marks, clauseSymbol, kept]
  simp only [head, true_and, clause, settled, false_or, List.mem_map, exists_exists_and_eq_and]
  grind

end MemberDecl

end Conformance
