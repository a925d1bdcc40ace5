import Conformance.Proofs.Binding.Gate

/-!
Members of which nothing is reported.

A repair that changes what was declared leaves a complaint, and bodies that are added to
accessors or taken away from them are reported as well. So if nothing is reported of a
member, it stands in the table as it was declared: with the modifiers of the declaration and
those that go without saying (`Container.implied`), and with the bodies of the declaration
(`SymbolTable.Made.accounts`).
-/

namespace Conformance

/-! ## Repairs -/

namespace Repair

/-- If nothing is complained about, only repairs without a complaint change a draft. -/
theorem repairAll_of_silent {draft : Draft} {repairs : List Repair}
    (silent : (draft.repairAll repairs).complaints = []) :
    draft.repairAll repairs =
      draft.repairAll (repairs.filter fun r => r.complaint?.isNone) := by
  induction repairs generalizing draft with
  | nil => rfl
  | cons r repairs ih =>
    have after : ((draft.repair r).repairAll repairs).complaints = [] := silent
    have rest : (draft.repair r).repairAll repairs = (draft.repair r).repairAll _ := ih after
    cases complains : r.complaint? with
    | none =>
      rw [List.filter_cons_of_pos (by rw [complains]; rfl)]
      exact rest
    | some complaint =>
      have idle := applies_head_of_silent (Option.isSome_of_eq_some complains) after
      rw [List.filter_cons_of_neg (by rw [complains]; exact Bool.false_ne_true)]
      rw [repair_idle idle] at rest
      show (draft.repair r).repairAll repairs = _
      rw [repair_idle idle, rest]

/-- A repair without a complaint that sets a modifier. -/
theorem repair_setting {r : Repair} (quiet : r.complaint? = none)
    (set : Bool → Modifiers → Modifiers) (unset : ∀ m, set false m = m)
    (change : ∀ draft : Draft, r.change draft = draft.mapModifiers (set true)) (draft : Draft) :
    draft.repair r = draft.mapModifiers (set (r.applies draft)) := by
  cases applies : r.applies draft with
  | false => rw [repair_idle applies, Draft.mapModifiers, unset]
  | true =>
    rw [Draft.repair, if_pos applies, change, quiet]
    exact congrArg (fun complaints => { draft.mapModifiers _ with complaints })
      (List.append_nil _)

theorem repair_impliedAbstract (draft : Draft) : draft.repair impliedAbstract =
    draft.mapModifiers fun m =>
      { m with isAbstract := m.isAbstract || impliedAbstract.applies draft } :=
  repair_setting rfl (fun flag m => { m with isAbstract := m.isAbstract || flag })
    (fun m => by rw [Bool.or_false]) (fun draft => by simp only [Bool.or_true]; rfl) draft

theorem repair_impliedVirtual (draft : Draft) : draft.repair impliedVirtual =
    draft.mapModifiers fun m =>
      { m with isVirtual := m.isVirtual || impliedVirtual.applies draft } :=
  repair_setting rfl (fun flag m => { m with isVirtual := m.isVirtual || flag })
    (fun m => by rw [Bool.or_false]) (fun draft => by simp only [Bool.or_true]; rfl) draft

theorem repair_impliedPublic (draft : Draft) : draft.repair impliedPublic =
    draft.mapModifiers fun m =>
      { m with isPublic := m.isPublic || impliedPublic.applies draft } :=
  repair_setting rfl (fun flag m => { m with isPublic := m.isPublic || flag })
    (fun m => by rw [Bool.or_false]) (fun draft => by simp only [Bool.or_true]; rfl) draft

theorem repair_impliedPrivate (draft : Draft) : draft.repair impliedPrivate =
    draft.mapModifiers fun m =>
      { m with isPrivate := m.isPrivate || impliedPrivate.applies draft } :=
  repair_setting rfl (fun flag m => { m with isPrivate := m.isPrivate || flag })
    (fun m => by rw [Bool.or_false]) (fun draft => by simp only [Bool.or_true]; rfl) draft

end Repair

/-- The modifiers that a member has although it is not declared with them. A member of an
interface is public unless it is declared with an accessibility, and abstract without an
implementation; with one it is virtual, unless it is declared sealed, private or static. A
member of a class is private unless it is declared with an accessibility. -/
def Container.implied (container : Container) (declared : Modifiers) (hasBody : Bool) :
    Modifiers :=
  let implemented := hasBody || declared.isExternal
  match container with
  | .interfaceType =>
    { isPublic := declared.accessibility?.isNone
      isAbstract := !implemented
      isVirtual := implemented &&
        !(declared.isSealed || declared.isPrivate || declared.isStatic) }
  | .classType => { isPrivate := declared.accessibility?.isNone }
  | .explicit => ∅

namespace MemberRules

variable {rules : MemberRules} {declared : Modifiers} {hasBody : Bool}

/-- If nothing is complained about, no repair with a complaint has changed a member. -/
theorem apply_of_silent (silent : (rules.apply declared hasBody).complaints = []) :
    rules.apply declared hasBody = ({ modifiers := declared, hasBody } : Draft).repairAll
      (rules.repairs.filter fun r => r.complaint?.isNone) := by
  unfold apply at silent ⊢
  cases old : rules.tooOld? declared hasBody with
  | some version =>
    rw [old] at silent
    cases silent
  | none =>
    rw [old] at silent
    exact Repair.repairAll_of_silent silent

/-- If nothing is complained about, a member has the modifiers that it is declared with and
those that are implied, and its body is the one declared. -/
theorem kept_of_silent (silent : (rules.apply declared hasBody).complaints = []) :
    (rules.apply declared hasBody).modifiers =
        declared ∪ rules.container.implied declared hasBody ∧
      (rules.apply declared hasBody).hasBody = hasBody := by
  let start : Draft := { modifiers := declared, hasBody }
  rw [apply_of_silent silent, repairs]
  cases rules.container with
  | interfaceType =>
    -- No repair was there to excuse a body that is missing.
    have excused : start.repair Repair.interfaceExcusedBody = start :=
      Repair.repair_idle (Bool.and_false _)
    have drafted : start.repairAll (Repair.ofInterface.filter fun r => r.complaint?.isNone) =
        ((start.repair Repair.impliedAbstract).repair Repair.impliedVirtual).repair
          Repair.impliedPublic :=
      congrArg (fun draft : Draft => draft.repairAll [.impliedAbstract, .impliedVirtual,
        .impliedPublic]) excused
    simp only
    rw [drafted, Repair.repair_impliedAbstract, Repair.repair_impliedVirtual,
      Repair.repair_impliedPublic]
    refine ⟨Modifiers.ext_has fun modifier => ?_, rfl⟩
    rw [Modifiers.has_union]
    cases modifier with
    | publicAccess => rfl
    | abstract => rfl
    | virtual => rfl
    | _ => exact (Bool.or_false _).symm
  | classType =>
    have drafted : start.repairAll
        ((Repair.ofClass rules.ownerIsAbstract rules.needsBody).filter fun r =>
          r.complaint?.isNone) = start.repair Repair.impliedPrivate := rfl
    simp only
    rw [drafted, Repair.repair_impliedPrivate]
    refine ⟨Modifiers.ext_has fun modifier => ?_, rfl⟩
    rw [Modifiers.has_union]
    cases modifier with
    | privateAccess => rfl
    | _ => exact (Bool.or_false _).symm
  | explicit =>
    refine ⟨Modifiers.ext_has fun modifier => ?_, rfl⟩
    rw [Modifiers.has_union, Container.implied, Modifiers.eq_empty_iff.mp rfl, Bool.or_false]
    rfl

end MemberRules

/-! ## Members -/

namespace MemberDecl

variable {decl : MemberDecl} {scope : MemberScope} {id : MemberId}

/-- Where nothing is reported of a member of an interface, its accessors have bodies just if
they are declared with them. -/
theorem hasBody_clauseSymbol_of_silent (inside : scope.container decl = .interfaceType)
    (silent : (decl.bind scope id).diagnostics = []) {clause : Clause}
    (listed : clause ∈ decl.clauses) :
    (decl.clauseSymbol scope id clause).hasBody = clause.decl.hasBody := by
  have body : (decl.draft scope).hasBody = decl.declaresBody :=
    (MemberRules.kept_of_silent (complaints_of_silent silent)).2
  have implemented : (decl.clauseSymbol scope id clause).hasBody = decl.declaresBody :=
    (MemberRules.hasBody_apply inside decl.modifiers decl.declaresBody).symm.trans body
  rw [implemented]
  cases declares : decl.declaresBody with
  | false => exact (hasBody_clause declares clause listed).symm
  | true =>
    -- A body that is missing beside another one is reported.
    rw [declares] at implemented
    rw [bind_diagnostics] at silent
    have bodies := List.map_eq_nil_iff.mp (List.append_eq_nil_iff.mp silent).2
    have bodied := List.filter_eq_nil_iff.mp bodies (decl.place scope id clause)
      (List.mem_map_of_mem listed)
    have drafted : (!(decl.draft scope).modifiers.isAbstract &&
        !(decl.draft scope).modifiers.isExternal) = true := implemented
    have missing : decl.missesBody .interfaceType clause = !clause.decl.hasBody := by
      rw [missesBody, declares, Bool.and_true]
    rw [drafted, Bool.true_and, inside] at bodied
    rw [show (decl.place scope id clause).clause = clause from rfl, missing, Bool.not_eq_true',
      Bool.not_eq_false] at bodied
    exact bodied.symm

end MemberDecl

namespace SymbolTable

/-- A member stands in a table as it is declared: its modifiers are those of the declaration
and the implied ones; a method has the body that is declared, and so have the accessors of a
member of an interface. -/
structure Keeps (table : SymbolTable) (container : Container) (decl : MemberDecl)
    (member : MemberSymbol) : Prop where
  modifiers : member.modifiers =
    decl.modifiers ∪ container.implied decl.modifiers decl.declaresBody
  body : decl.isMethod = true → member.hasBody = decl.declaresBody
  accessors : container = .interfaceType → ∀ clause ∈ decl.clauses, ∃ id accessor,
    member.accessor? clause.kind = some id ∧ table.member? id = some accessor ∧
      accessor.hasBody = clause.decl.hasBody

/-- A member is bound openly: it stands in the table as it is declared, or something is
reported of it. -/
structure Accounts (binding : Binding) (scope : MemberScope) (id : MemberId) (decl : MemberDecl)
    (member : MemberSymbol) : Prop where
  found : binding.table.member? id = some member
  reported : (decl.bind scope id).diagnostics ⊆ binding.diagnostics
  kept : (decl.bind scope id).diagnostics = [] →
    binding.table.Keeps (scope.container decl) decl member
  repaired : ¬ binding.table.Keeps (scope.container decl) decl member →
    ∃ diagnostic ∈ (decl.bind scope id).diagnostics, diagnostic ∈ binding.diagnostics

variable {table : SymbolTable}

/-- Each accessor of a declaration is that of the member, and stands in the table. -/
theorem Carries.exists_accessor {assembly : AssemblyId} {id : MemberId} {decl : MemberDecl}
    {scope : MemberScope} (carries : table.Carries assembly id (decl.bind scope id))
    {clause : Clause} (listed : clause ∈ decl.clauses) :
    ∃ accessorId, (decl.bind scope id).head.accessor? clause.kind = some accessorId ∧
      table.member? accessorId = some { decl.clauseSymbol scope id clause with
        target := table.expectedTarget? assembly (decl.clauseSymbol scope id clause) } := by
  obtain ⟨position, declared⟩ := List.getElem?_of_mem listed
  have has := (decl.bind_head_accessor?_eq_some scope id).mpr
    ⟨position, clause, declared, rfl, rfl⟩
  exact ⟨_, has, carries.clause declared⟩

/-- A member of which nothing is reported is carried as it is declared. -/
theorem Carries.keeps {assembly : AssemblyId} {id : MemberId} {decl : MemberDecl}
    {scope : MemberScope} (carries : table.Carries assembly id (decl.bind scope id))
    {member : MemberSymbol} (found : table.member? id = some member)
    (silent : (decl.bind scope id).diagnostics = []) :
    table.Keeps (scope.container decl) decl member := by
  obtain ⟨modifiers, body⟩ :=
    MemberRules.kept_of_silent (MemberDecl.complaints_of_silent silent)
  rw [carries.head] at found
  cases found
  refine ⟨modifiers, fun isMethod => ?_, fun inside clause listed => ?_⟩
  · show (decl.bind scope id).head.hasBody = _
    rw [MemberDecl.bind_head_hasBody, if_pos isMethod]
    exact body
  · obtain ⟨accessorId, has, foundAccessor⟩ := carries.exists_accessor listed
    exact ⟨accessorId, _, has, foundAccessor,
      MemberDecl.hasBody_clauseSymbol_of_silent inside silent listed⟩

/-- Binding from source repairs no member without a report: each member of a type stands in
the table as it is declared, or something is reported of it. -/
theorem Made.accounts (made : Made table) (decl : AssemblyDecl) (references : List AssemblyId)
    (version : LanguageVersion) {position : Nat} {typeDecl : TypeDecl}
    (declared : decl.types[position]? = some typeDecl) :
    ∃ type, (table.bind decl references (.source version)).table.type?
        ⟨table.types.size + position⟩ = some type ∧ type.kind = typeDecl.kind ∧
      List.Forall₂ (fun id memberDecl => ∃ member,
        Accounts (table.bind decl references (.source version))
          (memberScope (.source version) ⟨table.types.size + position⟩ type) id memberDecl member)
        type.members typeDecl.members := by
  have bound := bind_bound made.wellFormed decl references (.source version)
  obtain ⟨type, found, bindsType⟩ := bound.types declared
  have kind : type.kind = typeDecl.kind := by
    rw [bindsType.shell]
    rfl
  refine ⟨type, found, kind, bindsType.members.mp (fun id memberDecl carries reported => ?_)
    (bound.reported rfl declared found)⟩
  refine ⟨_, carries.head, reported, carries.keeps carries.head, fun changed => ?_⟩
  obtain ⟨diagnostic, inside⟩ := List.exists_mem_of_ne_nil _
    (mt (carries.keeps carries.head) changed)
  exact ⟨diagnostic, inside, reported inside⟩

/-- An interface with a method that is declared as it stands, and one that is declared abstract
and with a body. -/
def tally : AssemblyDecl where
  name := "Tally"
  types :=
    [{ name := "ITally", kind := .interfaceType, members :=
        [.method { name := "Count", modifiers := { isSealed := true }, hasBody := true },
         .method { name := "Reset", modifiers := { isAbstract := true }, hasBody := true }] }]

/-- The first method is kept, and the second is reported, as its body is dropped. -/
theorem tally_accounts :
    (∃ type, ((∅ : SymbolTable).bind tally [] (.source .v8_0)).table.type? ⟨0⟩ = some type ∧
      List.Forall₂ (fun id memberDecl => ∃ member,
        Accounts ((∅ : SymbolTable).bind tally [] (.source .v8_0))
          (memberScope (.source .v8_0) ⟨0⟩ type) id memberDecl member) type.members
        [.method { name := "Count", modifiers := { isSealed := true }, hasBody := true },
         .method { name := "Reset", modifiers := { isAbstract := true }, hasBody := true }]) ∧
    ((∅ : SymbolTable).bind tally [] (.source .v8_0)).diagnostics.map Diagnostic.code = [500] ∧
    (((∅ : SymbolTable).bind tally [] (.source .v8_0)).table.member? ⟨0⟩).map
      MemberSymbol.modifiers = some { isSealed := true, isPublic := true } := by
  obtain ⟨type, found, _, accounts⟩ := Made.accounts .empty tally [] .v8_0
    (show tally.types[0]? = some _ from rfl)
  exact ⟨⟨type, found, accounts⟩, by decide +kernel, by decide +kernel⟩

end SymbolTable

end Conformance
