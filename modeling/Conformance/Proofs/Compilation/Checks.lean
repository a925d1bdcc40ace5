import Conformance.Compilation.Check
import Conformance.Proofs.Binding.Reports
import Conformance.Proofs.Resolution.Direct

/-!
What the checks answer and report where lookups are pure.

Each check reports the breach of rules of its own, none of which binding reports.
-/

namespace Conformance

namespace Lookups

variable (lookups : Lookups Id) {table : SymbolTable} {assembly : AssemblyId} {typeId : TypeId}
  {type : TypeSymbol}

/-! ## Answers -/

theorem checkMember_run (entry : MemberId × MemberSymbol) :
    (lookups.checkMember table assembly typeId type entry).run =
      match (lookups.resolve table typeId entry.1).run.implementation with
      | none => [notImplemented table typeId type entry.1
          (lookups.resolve table typeId entry.1).run.closeMismatch]
      | some ⟨_, .default⟩ => (lookups.checkDefaultUse table assembly type entry.1 entry.2).run
      | some ⟨found, source⟩ =>
        (if source = .implicit then checkReturnType table typeId type entry.1 entry.2 found
          else []) ++
          ((table.accessorsOf entry.2).map fun accessor =>
            (lookups.checkClause table assembly typeId type accessor).run).flatten := by
  rw [← List.idRun_mapM]
  unfold checkMember
  simp only [Id.run_bind]
  generalize (lookups.resolve table typeId entry.1).run = resolution
  cases resolution.implementation with
  | none => rfl
  | some found =>
    obtain ⟨found, source⟩ := found
    cases source <;> rfl

theorem checkClause_run (entry : MemberId × MemberSymbol) :
    (lookups.checkClause table assembly typeId type entry).run =
      if table.isImplementable entry.2 then
        match (lookups.resolve table typeId entry.1).run.source? with
        | none => [notImplemented table typeId type entry.1
            (lookups.resolve table typeId entry.1).run.closeMismatch]
        | some .default => (lookups.checkDefaultUse table assembly type entry.1 entry.2).run
        | some _ => []
      else [] := by
  unfold checkClause
  split
  · simp only [Id.run_bind]
    cases (lookups.resolve table typeId entry.1).run.source? with
    | none => rfl
    | some source => cases source <;> rfl
  · rfl

theorem checkImplementations_run :
    (lookups.checkImplementations table assembly typeId type).run =
      ((((lookups.interfaces typeId).run.filterMap table.type?).flatMap fun interface =>
        (table.membersOf interface).filter fun member => table.isImplementable member.2).map
          fun entry => (lookups.checkMember table assembly typeId type entry).run).flatten := by
  rw [← List.idRun_mapM]
  rfl

theorem checkBodies_run :
    (lookups.checkBodies table assembly type).run =
      if ((table.membersOf type).filter fun entry => entry.2.hasImplementation ||
          (table.accessorsOf entry.2).any fun accessor => accessor.2.hasImplementation).isEmpty
        then []
      else if (lookups.runtime assembly).run then []
      else ((table.membersOf type).filter fun entry => entry.2.hasImplementation ||
        (table.accessorsOf entry.2).any fun accessor => accessor.2.hasImplementation).map
          fun entry => entry.2.declarationSite := by
  unfold checkBodies
  extract_lets bodied
  split
  · rfl
  · simp only [Id.run_bind]
    cases (lookups.runtime assembly).run <;> rfl

/-- A body is reported where a type of another assembly than that of its interface uses it,
and the runtime cannot call it. -/
theorem checkDefaultUse_run {id : MemberId} {member : MemberSymbol}
    (found : table.member? id = some member) (bodied : member.hasImplementation = true) :
    (lookups.checkDefaultUse table assembly type id member).run =
      if (table.type? member.owner).map TypeSymbol.assembly = some assembly ∨
          (lookups.runtime assembly).run = true then []
      else [table.useSite type member] := by
  unfold checkDefaultUse
  by_cases own : (table.type? member.owner).map TypeSymbol.assembly = some assembly
  · rw [if_pos own, if_pos (.inl own)]
    rfl
  · rw [if_neg own, Id.run_bind, defaultBody_run, found, Option.any_some, if_pos bodied]
    cases (lookups.runtime assembly).run with
    | true => simp [DefaultBody.isUnsupported]
    | false => simp [DefaultBody.isUnsupported, own]

/-- What is reported of a member that is bound to a member of an interface which its type
does not implement. -/
def unlisted? (table : SymbolTable) (typeId : TypeId) (entry : MemberId × MemberSymbol) :
    Option Diagnostic :=
  match entry.2.target with
  | none => none
  | some target =>
    if target.interface ∈ (lookups.interfaces typeId).run then none
    else some (.breach .explicitNotListed entry.2.span
      [table.memberArgument entry.1, table.typeArgument target.interface])

theorem checkExplicit_run :
    (lookups.checkExplicit table typeId type).run =
      (table.membersOf type).filterMap (lookups.unlisted? table typeId) :=
  rfl

theorem checkType_run (foundType : table.type? typeId = some type) :
    (lookups.checkType table assembly typeId).run =
      if type.isInterface then (lookups.checkBodies table assembly type).run
      else (lookups.checkExplicit table typeId type).run ++
        (lookups.checkImplementations table assembly typeId type).run ++
        checkHiding table type := by
  unfold checkType
  rw [foundType]
  simp only
  split <;> rfl

end Lookups

theorem Compilation.check_run (lookups : Lookups Id) (compilation : Compilation) :
    (compilation.check lookups {}).run = .ok (compilation.bindingDiagnostics ++
      compilation.types.flatMap fun typeId =>
        (lookups.checkType compilation.table compilation.assembly typeId).run) := by
  have types : (compilation.checkTypes lookups {}).run = .ok (compilation.types.map fun typeId =>
      (lookups.checkType compilation.table compilation.assembly typeId).run).flatten := by
    rw [← List.idRun_mapM]
    unfold checkTypes
    cases compilation.types <;> rfl
  have unfolded : (compilation.check lookups {}).run =
      (compilation.checkTypes lookups {}).run.map (compilation.bindingDiagnostics ++ ·) := rfl
  rw [unfolded, types, List.flatMap_def]
  rfl

/-! ## Rules -/

namespace Rule

/-- What is reported of members that a type does not implement as it has to. -/
def ofImplementations : List Rule :=
  [notImplemented, candidateStatic, candidateNotPublic, candidateReturnType,
    runtimeLacksDefaultFor]

/-- What is reported of members that hide others. -/
def ofHiding : List Rule := [hidesInheritedMember, hidesNothing]

end Rule

namespace Lookups

variable (lookups : Lookups Id) {table : SymbolTable} {assembly : AssemblyId} {typeId : TypeId}
  {type : TypeSymbol}

theorem notImplemented_breaks (id : MemberId) (close : Option CloseMismatch) :
    (notImplemented table typeId type id close).Breaks
      [.notImplemented, .candidateStatic, .candidateNotPublic] := by
  unfold notImplemented
  rcases close with _ | ⟨candidate, reason⟩
  · exact Diagnostic.breaks_breach (by decide) _ _
  · cases reason <;> exact Diagnostic.breaks_breach (by decide) _ _

theorem useSite_breaks (member : MemberSymbol) :
    (table.useSite type member).Breaks [.runtimeLacksDefaultFor] := by
  unfold SymbolTable.useSite
  extract_lets display diagnostic
  split <;> exact ⟨.runtimeLacksDefaultFor, List.mem_singleton_self _, rfl⟩

theorem checkReturnType_report (id : MemberId) (member : MemberSymbol) (found : MemberId) :
    Reports [.candidateReturnType] (checkReturnType table typeId type id member found) := by
  unfold checkReturnType
  split
  · exact .nil
  · exact .breach (by decide) _ _

theorem checkHiding_report : Reports Rule.ofHiding (checkHiding table type) := by
  intro diagnostic inside
  unfold checkHiding at inside
  rcases List.mem_filterMap.mp inside with ⟨entry, _, reported⟩
  simp only [Option.ite_none_left_eq_some] at reported
  rcases reported with ⟨_, reported⟩
  split at reported
  · cases reported
    exact Diagnostic.breaks_breach (by decide) _ _
  · cases reported
    exact Diagnostic.breaks_breach (by decide) _ _
  · cases reported

theorem checkBodies_report :
    Reports [.runtimeLacksDefaults] (lookups.checkBodies table assembly type).run := by
  rw [checkBodies_run]
  split
  · exact .nil
  · split
    · exact .nil
    · exact .map fun entry _ => Diagnostic.breaks_breach (by decide) _ _

theorem checkExplicit_report :
    Reports [.explicitNotListed] (lookups.checkExplicit table typeId type).run := by
  rw [checkExplicit_run]
  intro diagnostic inside
  rcases List.mem_filterMap.mp inside with ⟨entry, _, reported⟩
  unfold unlisted? at reported
  split at reported
  · cases reported
  · split at reported
    · cases reported
    · cases reported
      exact Diagnostic.breaks_breach (by decide) _ _

theorem checkDefaultUse_report (id : MemberId) (member : MemberSymbol) :
    Reports [.runtimeLacksDefaultFor]
      (lookups.checkDefaultUse table assembly type id member).run := by
  unfold checkDefaultUse
  split
  · exact .nil
  · simp only [Id.run_bind]
    split
    · intro diagnostic inside
      obtain rfl := List.mem_singleton.mp inside
      exact useSite_breaks member
    · exact .nil

theorem checkClause_report (entry : MemberId × MemberSymbol) :
    Reports Rule.ofImplementations (lookups.checkClause table assembly typeId type entry).run := by
  rw [checkClause_run]
  split
  · split
    · intro diagnostic inside
      obtain rfl := List.mem_singleton.mp inside
      exact (notImplemented_breaks _ _).mono (by decide)
    · exact (lookups.checkDefaultUse_report _ _).mono (by decide)
    · exact .nil
  · exact .nil

theorem checkMember_report (entry : MemberId × MemberSymbol) :
    Reports Rule.ofImplementations (lookups.checkMember table assembly typeId type entry).run := by
  rw [checkMember_run]
  split
  · intro diagnostic inside
    obtain rfl := List.mem_singleton.mp inside
    exact (notImplemented_breaks _ _).mono (by decide)
  · exact (lookups.checkDefaultUse_report _ _).mono (by decide)
  · refine .append ?_ ?_
    · split
      · exact (checkReturnType_report _ _ _).mono (by decide)
      · exact .nil
    · rw [← List.flatMap_def]
      exact .flatMap fun accessor _ => lookups.checkClause_report accessor

theorem checkImplementations_report :
    Reports Rule.ofImplementations
      (lookups.checkImplementations table assembly typeId type).run := by
  rw [checkImplementations_run, ← List.flatMap_def]
  exact .flatMap fun entry _ => lookups.checkMember_report entry

end Lookups

end Conformance
