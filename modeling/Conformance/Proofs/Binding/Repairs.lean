import Conformance.Binding.Repair
import Mathlib.Data.List.Forall2

/-!
What repairs make of members that were repaired before.

The export of an assembly carries the modifiers that repairs made, and importing
it repairs them again. Resolution sees no difference (`Draft.SameFace`):
accessibility and `static` are kept once they are settled, and in interfaces,
where a member can be implemented, so are the modifiers of dispatch and the body
(`MemberRules.apply_again`). The rules for interfaces look at a few flags of a
draft only, so there is a finite number of cases to go through.
-/

namespace Conformance

/-! ## Flags -/

/-- What the rules for members of interfaces look at, accessibility aside. -/
structure DraftFlags where
  abstract : Bool
  external : Bool
  sealed : Bool
  virtual : Bool
  hidden : Bool
  static : Bool
  body : Bool
  excused : Bool
deriving DecidableEq

/-- The flags of a draft. -/
def Draft.flags (draft : Draft) : DraftFlags where
  abstract := draft.modifiers.isAbstract
  external := draft.modifiers.isExternal
  sealed := draft.modifiers.isSealed
  virtual := draft.modifiers.isVirtual
  hidden := draft.modifiers.isPrivate
  static := draft.modifiers.isStatic
  body := draft.hasBody
  excused := draft.bodyExcused

/-- A repair, as far as flags show it. -/
structure FlagRepair (F : Type) where
  test : F → Bool
  change : F → F

namespace FlagRepair

variable {F : Type} {view : Draft → F}

/-- Tries a repair. -/
def run (flags : F) (r : FlagRepair F) : F :=
  if r.test flags then r.change flags else flags

/-- What a repair does to the flags that are seen of a draft. -/
def Shows (view : Draft → F) (shown : FlagRepair F) (r : Repair) : Prop :=
  ∀ draft : Draft, view (draft.repair r) = shown.run (view draft)

theorem shows {shown : FlagRepair F} {r : Repair}
    (complaints : ∀ (draft : Draft) complaints, view { draft with complaints } = view draft)
    (test : ∀ draft : Draft, r.applies draft = shown.test (view draft))
    (change : ∀ draft : Draft, view (r.change draft) = shown.change (view draft)) :
    shown.Shows view r := by
  intro draft
  unfold Draft.repair FlagRepair.run
  rw [test]
  split
  · exact (complaints _ _).trans (change draft)
  · rfl

/-- The repair that changes nothing. -/
def idle : FlagRepair F := ⟨fun _ => false, id⟩

theorem shows_idle {r : Repair}
    (complaints : ∀ (draft : Draft) complaints, view { draft with complaints } = view draft)
    (change : ∀ draft : Draft, view (r.change draft) = view draft) :
    idle.Shows view r := by
  intro draft
  unfold Draft.repair
  split
  · exact (complaints _ _).trans (change draft)
  · rfl

theorem view_repairAll {shown : List (FlagRepair F)} {repairs : List Repair}
    (shows : List.Forall₂ (Shows view) shown repairs) (draft : Draft) :
    view (draft.repairAll repairs) = shown.foldl FlagRepair.run (view draft) := by
  unfold Draft.repairAll
  induction shows generalizing draft with
  | nil => rfl
  | cons head _ ih => rw [List.foldl_cons, List.foldl_cons, ih, head]

end FlagRepair

namespace DraftFlags

/-- Has a body, or is extern. -/
def implemented (f : DraftFlags) : Bool := f.body || f.external

/-- Needs a body, and has none. -/
def lacksBody (f : DraftFlags) : Bool :=
  !f.implemented && !f.abstract && (f.virtual || f.hidden || f.static)

/-- The rules for members of interfaces, as far as flags show them. -/
def interfaceRules : List (FlagRepair DraftFlags) :=
  [.idle,
    ⟨fun f => f.abstract && f.body, fun f => { f with body := false }⟩,
    ⟨fun f => f.external && f.body, fun f => { f with body := false }⟩,
    ⟨fun f => f.abstract && f.external, fun f => { f with external := false }⟩,
    ⟨fun f => f.abstract && f.sealed, fun f => { f with sealed := false }⟩,
    ⟨fun f => f.abstract && f.virtual, fun f => { f with virtual := false }⟩,
    ⟨fun f => f.sealed && !f.implemented, fun f => { f with sealed := false }⟩,
    ⟨fun f => f.sealed && f.virtual, fun f => { f with sealed := false }⟩,
    ⟨fun f => f.hidden && (f.virtual || f.abstract),
      fun f => { f with virtual := false, abstract := false, excused := true }⟩,
    ⟨fun f => f.static && (f.virtual || f.abstract),
      fun f => { f with virtual := false, abstract := false, excused := true }⟩,
    ⟨fun f => f.lacksBody && !f.excused, fun f => { f with body := true }⟩,
    ⟨fun f => f.lacksBody && f.excused, fun f => { f with body := true }⟩,
    ⟨fun f => !f.implemented, fun f => { f with abstract := true }⟩,
    ⟨fun f => f.implemented && !(f.sealed || f.hidden || f.static),
      fun f => { f with virtual := true }⟩,
    .idle]

/-- What the rules for members of interfaces make of a member. -/
def repaired (f : DraftFlags) : DraftFlags := interfaceRules.foldl FlagRepair.run f

theorem shows_ofInterface :
    List.Forall₂ (FlagRepair.Shows Draft.flags) interfaceRules Repair.ofInterface := by
  refine .cons (FlagRepair.shows_idle (fun _ _ => rfl) fun _ => rfl) ?_
  iterate 13 refine .cons (FlagRepair.shows (fun _ _ => rfl) (fun _ => rfl) fun _ => rfl) ?_
  exact .cons (FlagRepair.shows_idle (fun _ _ => rfl) fun _ => rfl) .nil

/-- Repairing members of interfaces again changes nothing, also if the body that
a member was given is left out. -/
theorem repaired_again (f : DraftFlags) (again : Bool)
    (bodies : again = f.repaired.body ∨ again = false ∧ f.body = false) :
    { { f.repaired with body := again, excused := false }.repaired with excused := false } =
      { f.repaired with excused := false } := by
  obtain ⟨abstract, external, sealed, virtual, hidden, static, body, excused⟩ := f
  revert abstract external sealed virtual hidden static body excused again
  decide +kernel

/-- A member of an interface has a body unless it is abstract or extern. -/
theorem body_repaired (f : DraftFlags) :
    f.repaired.body = (!f.repaired.abstract && !f.repaired.external) := by
  obtain ⟨abstract, external, sealed, virtual, hidden, static, body, excused⟩ := f
  revert abstract external sealed virtual hidden static body excused
  decide +kernel

end DraftFlags

/-! ## Accessibility and static members -/

namespace Modifiers

variable {m : Modifiers} {access : Accessibility}

/-- A set has the keyword of the accessibility that it gives. -/
theorem has_of_accessibility? (gives : m.accessibility? = some access) :
    m.has access.modifier = true := by
  unfold accessibility? at gives
  split_ifs at gives <;> cases gives <;> assumption

theorem accessibility?_eq_none_iff :
    m.accessibility? = none ↔ ∀ access : Accessibility, m.has access.modifier = false := by
  constructor
  · intro none access
    unfold accessibility? at none
    split_ifs at none with isPublic isProtectedInternal isInternal isProtected isPrivate
    cases access with
    | privateAccess => exact Bool.eq_false_iff.mpr isPrivate
    | protectedAccess => exact Bool.eq_false_iff.mpr isProtected
    | internalAccess => exact Bool.eq_false_iff.mpr isInternal
    | protectedInternalAccess => exact Bool.eq_false_iff.mpr isProtectedInternal
    | publicAccess => exact Bool.eq_false_iff.mpr isPublic
  · intro absent
    cases gives : m.accessibility? with
    | none => rfl
    | some access =>
      have present := has_of_accessibility? gives
      rw [absent access] at present
      cases present

end Modifiers

namespace Repair

/-- A repair leaves alone what gives an accessibility, unless nothing does, and
whether a member is static. -/
structure Keeps (r : Repair) : Prop where
  static : ∀ draft : Draft, (r.change draft).modifiers.isStatic = draft.modifiers.isStatic
  access : ∀ draft : Draft, r.applies draft = true →
    draft.modifiers.accessibility?.isSome = true →
      (r.change draft).modifiers.accessibility? = draft.modifiers.accessibility?

theorem not_isNone {α : Type} {value : Option α} (none : value.isNone = true)
    (some : value.isSome = true) : False := by
  cases value <;> contradiction

theorem keeps_ofInterface : ∀ r ∈ ofInterface, r.Keeps := by
  simp only [ofInterface, List.forall_mem_cons]
  iterate 14 refine ⟨⟨fun _ => rfl, fun _ _ _ => rfl⟩, ?_⟩
  exact ⟨⟨fun _ => rfl, fun _ none some => (not_isNone none some).elim⟩, nofun⟩

theorem keeps_ofClass (ownerIsAbstract needsBody : Bool) :
    ∀ r ∈ ofClass ownerIsAbstract needsBody, r.Keeps := by
  simp only [ofClass, List.forall_mem_cons]
  iterate 10 refine ⟨⟨fun _ => rfl, fun _ _ _ => rfl⟩, ?_⟩
  exact ⟨⟨fun _ => rfl, fun _ none some => (not_isNone none some).elim⟩, nofun⟩

theorem Keeps.repair {r : Repair} (keeps : r.Keeps) (draft : Draft) :
    (draft.repair r).modifiers.isStatic = draft.modifiers.isStatic ∧
      (draft.modifiers.accessibility?.isSome = true →
        (draft.repair r).modifiers.accessibility? = draft.modifiers.accessibility?) := by
  unfold Draft.repair
  split
  · rename_i applies
    exact ⟨keeps.static draft, keeps.access draft applies⟩
  · exact ⟨rfl, fun _ => rfl⟩

theorem keeps_repairAll {repairs : List Repair} (keeps : ∀ r ∈ repairs, r.Keeps) (draft : Draft) :
    (draft.repairAll repairs).modifiers.isStatic = draft.modifiers.isStatic ∧
      (draft.modifiers.accessibility?.isSome = true →
        (draft.repairAll repairs).modifiers.accessibility? = draft.modifiers.accessibility?) := by
  unfold Draft.repairAll
  induction repairs generalizing draft with
  | nil => exact ⟨rfl, fun _ => rfl⟩
  | cons r repairs ih =>
    obtain ⟨static, access⟩ := (keeps r List.mem_cons_self).repair draft
    obtain ⟨staticRest, accessRest⟩ :=
      ih (fun other listed => keeps other (List.mem_cons_of_mem _ listed)) (draft.repair r)
    refine ⟨staticRest.trans static, fun known => ?_⟩
    rw [List.foldl_cons, accessRest (access known ▸ known), access known]

theorem impliedPublic_accessible (draft : Draft) :
    (draft.repair impliedPublic).modifiers.accessibility?.isSome = true := by
  unfold Draft.repair impliedPublic
  simp only
  split
  · rfl
  · rename_i accessible
    rwa [Bool.not_eq_true, Option.isNone_eq_false_iff] at accessible

theorem impliedPrivate_accessible (draft : Draft) :
    (draft.repair impliedPrivate).modifiers.accessibility?.isSome = true := by
  unfold Draft.repair impliedPrivate
  simp only
  split
  · simp only [Draft.mapModifiers, Modifiers.accessibility?]
    split_ifs <;> rfl
  · rename_i accessible
    rwa [Bool.not_eq_true, Option.isNone_eq_false_iff] at accessible

/-! ## Explicit implementations -/

theorem has_repair_invalidForExplicit (draft : Draft) (invalid modifier : Modifier) :
    (draft.repair (invalidForExplicit invalid)).modifiers.has modifier =
      (draft.modifiers.has modifier && decide (modifier ≠ invalid)) := by
  unfold Draft.repair invalidForExplicit
  simp only [Draft.mapModifiers]
  by_cases same : modifier = invalid
  · subst same
    split
    · simp [Modifiers.ofList]
    · rename_i absent
      simpa using absent
  · split <;> simp [Modifiers.ofList, same]

theorem has_repairAll_invalidForExplicit (draft : Draft) (invalid : List Modifier)
    (modifier : Modifier) :
    (draft.repairAll (invalid.map invalidForExplicit)).modifiers.has modifier =
      (draft.modifiers.has modifier && decide (modifier ∉ invalid)) := by
  unfold Draft.repairAll
  induction invalid generalizing draft with
  | nil => simp
  | cons head rest ih =>
    rw [List.map_cons, List.foldl_cons, ih, has_repair_invalidForExplicit]
    simp [Bool.and_assoc]

theorem repairAll_ofExplicit (needsBody : Bool) (draft : Draft) :
    draft.repairAll (ofExplicit needsBody) =
      ((draft.repairAll (explicitInvalid.map invalidForExplicit)).repair externalWithBody).repair
        (missingBody needsBody) := by
  unfold Draft.repairAll ofExplicit
  rw [List.foldl_append]
  rfl

/-- Explicit implementations keep the modifiers only that they may have. -/
theorem has_ofExplicit (needsBody : Bool) (draft : Draft) (modifier : Modifier) :
    (draft.repairAll (ofExplicit needsBody)).modifiers.has modifier =
      (draft.modifiers.has modifier && decide (modifier ∉ explicitInvalid)) := by
  have bodies (draft : Draft) : ((draft.repair externalWithBody).repair
      (missingBody needsBody)).modifiers = draft.modifiers := by
    have keeps (draft : Draft) (r : Repair)
        (change : ∀ draft, (r.change draft).modifiers = draft.modifiers) :
        (draft.repair r).modifiers = draft.modifiers := by
      unfold Draft.repair
      split
      · exact change draft
      · rfl
    rw [keeps _ _ fun _ => rfl, keeps _ _ fun _ => rfl]
  rw [repairAll_ofExplicit, bodies, has_repairAll_invalidForExplicit]

end Repair

/-! ## Rule sets -/

/-- Resolution sees no difference between two drafts. How a member is dispatched
counts in interfaces only, where it can be implemented. -/
structure Draft.SameFace (container : Container) (first second : Draft) : Prop where
  access : second.modifiers.accessibility? = first.modifiers.accessibility?
  static : second.modifiers.isStatic = first.modifiers.isStatic
  dispatch : container = .interfaceType →
    second.modifiers.isAbstract = first.modifiers.isAbstract ∧
      second.modifiers.isVirtual = first.modifiers.isVirtual ∧
      second.modifiers.isSealed = first.modifiers.isSealed ∧
      second.modifiers.isExternal = first.modifiers.isExternal ∧ second.hasBody = first.hasBody

namespace MemberRules

variable {rules : MemberRules}

/-- Rules of a version that has all features are its repairs. -/
theorem apply_current (current : rules.outdated? = none) (declared : Modifiers) (hasBody : Bool) :
    rules.apply declared hasBody =
      ({ modifiers := declared, hasBody } : Draft).repairAll rules.repairs := by
  unfold apply tooOld?
  rw [current, ite_self]

/-- The flags that a member of an interface has are flags after repairs. -/
theorem flags_apply (inside : rules.container = .interfaceType) (declared : Modifiers)
    (hasBody : Bool) : ∃ f : DraftFlags, (rules.apply declared hasBody).flags = f.repaired ∧
      (hasBody = false → f.body = false) := by
  unfold apply
  cases rules.tooOld? declared hasBody with
  | none =>
    refine ⟨({ modifiers := declared, hasBody } : Draft).flags, ?_, id⟩
    simp only [repairs, inside]
    exact FlagRepair.view_repairAll DraftFlags.shows_ofInterface _
  | some version =>
    exact ⟨⟨true, false, false, false, false, false, false, false⟩, rfl, fun _ => rfl⟩

theorem hasBody_apply (inside : rules.container = .interfaceType) (declared : Modifiers)
    (hasBody : Bool) : (rules.apply declared hasBody).hasBody =
      (!(rules.apply declared hasBody).modifiers.isAbstract &&
        !(rules.apply declared hasBody).modifiers.isExternal) := by
  obtain ⟨f, flags, _⟩ := flags_apply inside declared hasBody
  have body := f.body_repaired
  rw [← flags] at body
  exact body

/-- A member that is no explicit implementation has an accessibility. -/
theorem apply_accessible (implicit : rules.container ≠ .explicit) (declared : Modifiers)
    (hasBody : Bool) : (rules.apply declared hasBody).modifiers.accessibility?.isSome = true := by
  unfold apply
  cases rules.tooOld? declared hasBody with
  | some version => rfl
  | none =>
    simp only [repairs]
    cases kind : rules.container with
    | explicit => exact absurd kind implicit
    | interfaceType => exact Repair.impliedPublic_accessible _
    | classType => exact Repair.impliedPrivate_accessible _

/-- Explicit implementations are checked alike by all versions. -/
theorem apply_of_explicit (explicit : rules.container = .explicit) (declared : Modifiers)
    (hasBody : Bool) : rules.apply declared hasBody =
      ({ modifiers := declared, hasBody } : Draft).repairAll
        (Repair.ofExplicit rules.needsBody) := by
  have current : rules.tooOld? declared hasBody = none := by
    rw [tooOld?, explicit, if_neg (by simp)]
  unfold apply
  simp only [current, repairs, explicit]

theorem has_apply_explicit (explicit : rules.container = .explicit) (declared : Modifiers)
    (hasBody : Bool) (modifier : Modifier) :
    (rules.apply declared hasBody).modifiers.has modifier =
      (declared.has modifier && decide (modifier ∉ Repair.explicitInvalid)) := by
  rw [apply_of_explicit explicit, Repair.has_ofExplicit]

/-- Explicit implementations have no accessibility and are not static. -/
theorem apply_explicit (explicit : rules.container = .explicit) (declared : Modifiers)
    (hasBody : Bool) : (rules.apply declared hasBody).modifiers.accessibility? = none ∧
      (rules.apply declared hasBody).modifiers.isStatic = false := by
  have absent {modifier : Modifier} (invalid : modifier ∈ Repair.explicitInvalid) :
      (rules.apply declared hasBody).modifiers.has modifier = false := by
    rw [has_apply_explicit explicit, decide_eq_false (not_not_intro invalid), Bool.and_false]
  constructor
  · refine Modifiers.accessibility?_eq_none_iff.mpr fun access => absent ?_
    cases access <;> decide
  · exact absent (show Modifier.static ∈ _ by decide)

/-- To resolution it makes no difference that the modifiers of a member are
repaired again when they come from metadata, with the body that the member was
given or with that of its declaration. -/
theorem apply_again {again : MemberRules} (same : again.container = rules.container)
    (current : again.outdated? = none) (declared : Modifiers) {hasBody body : Bool}
    (bodies : rules.container = .interfaceType →
      body = (rules.apply declared hasBody).hasBody ∨ body = false ∧ hasBody = false) :
    Draft.SameFace rules.container (rules.apply declared hasBody)
      (again.apply (rules.apply declared hasBody).modifiers body) := by
  cases kind : rules.container with
  | explicit =>
    obtain ⟨access, static⟩ := apply_explicit kind declared hasBody
    obtain ⟨accessAgain, staticAgain⟩ := apply_explicit (same.trans kind)
      (rules.apply declared hasBody).modifiers body
    exact ⟨accessAgain.trans access.symm, staticAgain.trans static.symm, nofun⟩
  | classType =>
    have accessible := apply_accessible (by rw [kind]; nofun) declared hasBody
    rw [apply_current current, repairs, same, kind]
    obtain ⟨static, access⟩ := Repair.keeps_repairAll (Repair.keeps_ofClass _ _)
      { modifiers := (rules.apply declared hasBody).modifiers, hasBody := body }
    exact ⟨access accessible, static, nofun⟩
  | interfaceType =>
    have accessible := apply_accessible (by rw [kind]; nofun) declared hasBody
    obtain ⟨f, flags, undeclared⟩ := flags_apply kind declared hasBody
    rw [apply_current current, repairs, same, kind]
    obtain ⟨static, access⟩ := Repair.keeps_repairAll Repair.keeps_ofInterface
      { modifiers := (rules.apply declared hasBody).modifiers, hasBody := body }
    have twice : ({ modifiers := (rules.apply declared hasBody).modifiers, hasBody := body } :
        Draft).flags = { f.repaired with body, excused := false } := by
      rw [← flags]
      rfl
    have again := DraftFlags.repaired_again f body ?_
    · rw [← twice, DraftFlags.repaired, ← FlagRepair.view_repairAll DraftFlags.shows_ofInterface,
        ← flags] at again
      refine ⟨access accessible, static, fun _ => ⟨?_, ?_, ?_, ?_, ?_⟩⟩
      · exact congrArg DraftFlags.abstract again
      · exact congrArg DraftFlags.virtual again
      · exact congrArg DraftFlags.sealed again
      · exact congrArg DraftFlags.external again
      · exact congrArg DraftFlags.body again
    · rcases bodies kind with given | ⟨absent, none⟩
      · exact .inl (given.trans (congrArg DraftFlags.body flags))
      · exact .inr ⟨absent, undeclared none⟩

end MemberRules

end Conformance
