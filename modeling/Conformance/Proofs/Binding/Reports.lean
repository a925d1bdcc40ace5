import Conformance.Proofs.Binding.Assembly

/-!
Which rules the phases of binding report.

Each phase reports the breach of rules of its own: heritages, cycles, members, and
targets. So the diagnostics of a phase can be found among those of binding by their
codes, and no phase reports what only the checks of a compilation do.
-/

namespace Conformance

namespace Rule

/-- What is reported of base types and interface lists. -/
def ofHeritage : List Rule := [nameNotFound, sealedBase, listedNotInterface]

/-- What is reported while cycles are broken. -/
def ofCycles : List Rule := [circularBase, circularInterface]

/-- What is reported of members. -/
def ofMembers : List Rule :=
  [modifierNotValid, featureNotAvailable, abstractWithBody, externalWithBody, externalAndAbstract,
    abstractAndSealed, abstractAndVirtual, sealedNotOverride, privateAndDispatched,
    staticAndDispatched, abstractInConcreteType, missingBody, accessorNotNarrower,
    privateAccessorOfAbstract, bothAccessorsNarrowed, loneAccessorNarrowed]

/-- What is reported of the modifiers of accessors. -/
def ofAccessors : List Rule :=
  [modifierNotValid, accessorNotNarrower, privateAccessorOfAbstract, bothAccessorsNarrowed,
    loneAccessorNarrowed]

/-- What is reported of the targets of explicit implementations. -/
def ofTargets : List Rule :=
  [nameNotFound, explicitNotInterface, explicitNotFound, accessorNotInInterface]

end Rule

/-- A diagnostic has the code of one of some rules. -/
def Diagnostic.Breaks (rules : List Rule) (diagnostic : Diagnostic) : Prop :=
  ∃ rule ∈ rules, diagnostic.code = rule.code

instance (rules : List Rule) (diagnostic : Diagnostic) : Decidable (diagnostic.Breaks rules) :=
  inferInstanceAs (Decidable (∃ rule ∈ rules, diagnostic.code = rule.code))

theorem Diagnostic.breaks_breach {rules : List Rule} {rule : Rule} (listed : rule ∈ rules)
    (span : Span) (arguments : List Argument) : (breach rule span arguments).Breaks rules :=
  ⟨rule, listed, rfl⟩

theorem Diagnostic.Breaks.mono {rules more : List Rule} {diagnostic : Diagnostic}
    (breaks : diagnostic.Breaks rules) (listed : rules ⊆ more) : diagnostic.Breaks more := by
  rcases breaks with ⟨rule, known, same⟩
  exact ⟨rule, listed known, same⟩

theorem Diagnostic.Breaks.absurd {rules others : List Rule} {diagnostic : Diagnostic}
    (breaks : diagnostic.Breaks rules) (again : diagnostic.Breaks others)
    (apart : ∀ rule ∈ rules, ∀ other ∈ others, rule.code ≠ other.code) : False := by
  rcases breaks with ⟨rule, listed, same⟩
  rcases again with ⟨other, wanted, sameAgain⟩
  exact apart rule listed other wanted (same.symm.trans sameAgain)

/-- All of some diagnostics have codes of some rules. -/
def Reports (rules : List Rule) (diagnostics : List Diagnostic) : Prop :=
  ∀ diagnostic ∈ diagnostics, diagnostic.Breaks rules

namespace Reports

variable {rules : List Rule} {first second : List Diagnostic}

theorem nil : Reports rules [] := nofun

theorem breach {rule : Rule} (listed : rule ∈ rules) (span : Span) (arguments : List Argument) :
    Reports rules [.breach rule span arguments] := by
  intro diagnostic inside
  obtain rfl := List.mem_singleton.mp inside
  exact Diagnostic.breaks_breach listed _ _

theorem append (left : Reports rules first) (right : Reports rules second) :
    Reports rules (first ++ second) := by
  intro diagnostic inside
  rcases List.mem_append.mp inside with earlier | later
  · exact left diagnostic earlier
  · exact right diagnostic later

theorem flatMap {α : Type} {items : List α} {f : α → List Diagnostic}
    (reports : ∀ item ∈ items, Reports rules (f item)) : Reports rules (items.flatMap f) := by
  intro diagnostic inside
  rcases List.mem_flatMap.mp inside with ⟨item, listed, reported⟩
  exact reports item listed diagnostic reported

theorem map {α : Type} {items : List α} {f : α → Diagnostic}
    (breaks : ∀ item ∈ items, (f item).Breaks rules) : Reports rules (items.map f) := by
  intro diagnostic inside
  rcases List.mem_map.mp inside with ⟨item, listed, rfl⟩
  exact breaks item listed

theorem mono {more : List Rule} (report : Reports rules first) (listed : rules ⊆ more) :
    Reports more first :=
  fun diagnostic inside => (report diagnostic inside).mono listed

/-- A report on rules is no report on others. -/
theorem filter_others (report : Reports rules first) {others : List Rule}
    (apart : ∀ rule ∈ rules, ∀ other ∈ others, rule.code ≠ other.code) :
    first.filter (fun diagnostic => diagnostic.Breaks others) = [] :=
  List.filter_eq_nil_iff.mpr fun diagnostic inside breaks =>
    (report diagnostic inside).absurd (of_decide_eq_true breaks) apart

theorem filter_self (report : Reports rules first) :
    first.filter (fun diagnostic => diagnostic.Breaks rules) = first :=
  List.filter_eq_self.mpr fun diagnostic inside => decide_eq_true (report diagnostic inside)

end Reports

/-! ## Heritages -/

namespace TypeDecl

variable (decl : TypeDecl)

theorem bindBase_report (name : String) (id : TypeId) (type : TypeSymbol) :
    Reports Rule.ofHeritage (decl.bindBase name id type).diagnostics := by
  have sealedBase : Reports Rule.ofHeritage
      [.breach .sealedBase decl.heritageSpan [.type decl.name, .type type.name]] :=
    .breach (by decide) _ _
  have noInterface : Reports Rule.ofHeritage
      [.breach .listedNotInterface decl.heritageSpan [.type name]] := .breach (by decide) _ _
  unfold bindBase
  split
  · exact .nil
  · simp only
    split
    · exact sealedBase
    · exact .nil
  · exact sealedBase
  · exact noInterface

theorem bindInterface_report {resolve? : String → Option (TypeId × TypeSymbol)}
    {heritage : Heritage} (report : Reports Rule.ofHeritage heritage.diagnostics) (name : String) :
    Reports Rule.ofHeritage (decl.bindInterface resolve? heritage name).diagnostics := by
  unfold bindInterface
  cases resolve? name with
  | none => exact report.append (.breach (by decide) _ _)
  | some found =>
    simp only
    split
    · unfold Heritage.list
      split <;> exact report
    · exact report.append (.breach (by decide) _ _)

theorem bindHeritage_report (resolve? : String → Option (TypeId × TypeSymbol)) :
    Reports Rule.ofHeritage (decl.bindHeritage resolve?).diagnostics := by
  refine List.foldlRecOn decl.interfaces (decl.bindInterface resolve?)
    (motive := fun heritage : Heritage => Reports Rule.ofHeritage heritage.diagnostics) ?_
    fun heritage report name _ => decl.bindInterface_report report name
  cases decl.base with
  | none => exact .nil
  | some name =>
    cases resolved : resolve? name with
    | none =>
      simp only [resolved]
      exact .breach (by decide) _ _
    | some found =>
      simp only [resolved]
      exact decl.bindBase_report name found.1 found.2

end TypeDecl

theorem SymbolTable.heritages_report (table : SymbolTable) (decl : AssemblyDecl)
    (references : List AssemblyId) (mode : BindMode) :
    Reports Rule.ofHeritage
      ((table.heritages decl references mode).flatMap fun entry => entry.2.diagnostics) := by
  refine .flatMap fun entry listed => ?_
  rcases List.mem_map.mp listed with ⟨declared, _, rfl⟩
  exact declared.2.bindHeritage_report _

/-! ## Cycles -/

namespace Untangling

variable {state : Untangling}

theorem cutIf_report (report : Reports Rule.ofCycles state.diagnostics)
    {closes : Except Fault Bool} {rule : Rule} (listed : rule ∈ Rule.ofCycles) (id other : TypeId)
    (cut : TypeSymbol → TypeSymbol) :
    Reports Rule.ofCycles (state.cutIf closes rule id other cut).diagnostics := by
  unfold cutIf
  split
  · exact report
  · exact report
  · exact report.append (.breach listed _ _)

theorem cutBase_report (report : Reports Rule.ofCycles state.diagnostics) (id : TypeId) :
    Reports Rule.ofCycles (state.cutBase id).diagnostics := by
  unfold cutBase
  split
  · exact report
  · split
    · exact report
    · exact cutIf_report report (by decide) _ _ _

theorem cutInterfaces_report (report : Reports Rule.ofCycles state.diagnostics) (id : TypeId) :
    Reports Rule.ofCycles (state.cutInterfaces id).diagnostics := by
  unfold cutInterfaces
  split
  · exact report
  · split
    · refine List.foldlRecOn _ (cutInterface id)
        (motive := fun state : Untangling => Reports Rule.ofCycles state.diagnostics) report
        fun state report other _ => ?_
      unfold cutInterface
      split
      · exact report
      · exact cutIf_report report (by decide) _ _ _
    · exact report

end Untangling

theorem SymbolTable.breakCycles_report (table : SymbolTable) (types : List TypeId) :
    Reports Rule.ofCycles (table.breakCycles types).diagnostics := by
  have bases : Reports Rule.ofCycles
      (types.foldl Untangling.cutBase { table := table }).diagnostics :=
    List.foldlRecOn types Untangling.cutBase
      (motive := fun state : Untangling => Reports Rule.ofCycles state.diagnostics) .nil
      fun state report id _ => Untangling.cutBase_report report id
  exact List.foldlRecOn types Untangling.cutInterfaces
    (motive := fun state : Untangling => Reports Rule.ofCycles state.diagnostics) bases
    fun state report id _ => Untangling.cutInterfaces_report report id

theorem SymbolTable.untangling_report (table : SymbolTable) (decl : AssemblyDecl)
    (references : List AssemblyId) (mode : BindMode) :
    Reports Rule.ofCycles (table.untangling decl references mode).diagnostics :=
  breakCycles_report _ _

/-! ## Members -/

theorem Complaint.breaks_toDiagnostic (complaint : Complaint) (span : Span)
    (display owner : String) :
    (complaint.toDiagnostic span display owner).Breaks Rule.ofMembers := by
  cases complaint <;> exact Diagnostic.breaks_breach (by decide) _ _

namespace PlacedClause

variable (placed : PlacedClause)

theorem reject_report (modifiers : Modifiers) :
    Reports Rule.ofAccessors (placed.reject modifiers) :=
  .map fun _ _ => Diagnostic.breaks_breach (by decide) _ _

theorem checkAccess_report (property : Modifiers) (display : String) :
    Reports Rule.ofAccessors (placed.checkAccess property display) := by
  unfold checkAccess
  cases placed.modifiers.accessibility? with
  | none => exact .nil
  | some access =>
    simp only
    split
    · exact .breach (by decide) _ _
    · split
      · exact .breach (by decide) _ _
      · exact .nil

end PlacedClause

theorem checkAccessors_report (clauses : List PlacedClause) (property : Modifiers)
    (display : String) (span : Span) :
    Reports Rule.ofAccessors (checkAccessors clauses property display span) := by
  refine .append (.append (.flatMap fun placed _ => placed.reject_report _) ?_)
    (.flatMap fun placed _ => placed.checkAccess_report _ _)
  split
  · exact .nil
  · split
    · exact .breach (by decide) _ _
    · split
      · exact .breach (by decide) _ _
      · exact .nil

theorem MemberDecl.bind_report (decl : MemberDecl) (scope : MemberScope) (id : MemberId) :
    Reports Rule.ofMembers (decl.bind scope id).diagnostics := by
  refine .append (.append (.map fun complaint _ => complaint.breaks_toDiagnostic _ _ _) ?_)
    (.map fun placed _ => Complaint.breaks_toDiagnostic _ _ _ _)
  split
  · exact (checkAccessors_report _ _ _ _).mono (by decide)
  · exact .flatMap fun placed _ => (placed.reject_report _).mono (by decide)

namespace SymbolTable

theorem foldl_bindMembers_report (mode : BindMode) (entries : List (TypeId × TypeDecl))
    {state : SymbolTable × List Diagnostic} (report : Reports Rule.ofMembers state.2) :
    Reports Rule.ofMembers (entries.foldl (bindMembers mode) state).2 := by
  refine List.foldlRecOn entries (bindMembers mode)
    (motive := fun state : SymbolTable × List Diagnostic => Reports Rule.ofMembers state.2) report
    fun state report entry _ => ?_
  unfold bindMembers
  cases state.1.type? entry.1 with
  | none => exact report
  | some type =>
    exact List.foldlRecOn entry.2.members (bindMember (memberScope mode entry.1 type))
      (motive := fun state : SymbolTable × List Diagnostic => Reports Rule.ofMembers state.2) report
      fun state report decl _ => report.append (decl.bind_report _ _)

theorem populating_report (table : SymbolTable) (decl : AssemblyDecl)
    (references : List AssemblyId) (mode : BindMode) :
    Reports Rule.ofMembers (table.populating decl references mode).2 :=
  foldl_bindMembers_report mode _ .nil

/-! ## Targets -/

variable (table : SymbolTable)

theorem bindAccessorTarget_report (interface : TypeId) (target : MemberSymbol)
    (accessor : MemberId × MemberSymbol) :
    Reports [.accessorNotInInterface]
      (table.bindAccessorTarget interface target accessor).diagnostics := by
  unfold bindAccessorTarget
  extract_lets found
  cases found with
  | none => exact .breach (by decide) _ _
  | some id => exact .nil

theorem bindTarget_report (assembly : AssemblyId) (id : MemberId) (member : MemberSymbol)
    (interface : String) :
    Reports Rule.ofTargets (table.bindTarget assembly id member interface).diagnostics := by
  unfold bindTarget
  cases table.resolve? assembly interface with
  | none => exact .breach (by decide) _ _
  | some found =>
    simp only
    split
    · exact .breach (by decide) _ _
    · cases table.explicitTarget? found.2 member with
      | none => exact .breach (by decide) _ _
      | some target =>
        refine .flatMap fun binding listed => ?_
        rcases List.mem_map.mp listed with ⟨accessor, _, rfl⟩
        intro diagnostic inside
        rcases table.bindAccessorTarget_report _ _ _ diagnostic inside with ⟨rule, only, same⟩
        exact ⟨rule, List.mem_singleton.mp only ▸ (by decide), same⟩

theorem targetsOf_report (assembly : AssemblyId) (id : TypeId) :
    Reports Rule.ofTargets ((table.targetsOf assembly id).flatMap TargetBinding.diagnostics) := by
  refine .flatMap fun binding listed => ?_
  unfold targetsOf at listed
  cases found : table.type? id with
  | none =>
    rw [found] at listed
    cases listed
  | some type =>
    rw [found] at listed
    rcases List.mem_filterMap.mp listed with ⟨entry, _, named⟩
    rcases Option.map_eq_some_iff.mp named with ⟨name, _, rfl⟩
    exact table.bindTarget_report assembly entry.1 entry.2 name

theorem targets_report (assembly : AssemblyId) (types : List TypeId) :
    Reports Rule.ofTargets
      ((types.flatMap (table.targetsOf assembly)).flatMap TargetBinding.diagnostics) := by
  rw [List.flatMap_assoc]
  exact .flatMap fun id _ => table.targetsOf_report assembly id

/-! ## Binding -/

/-- What binding reports. -/
theorem bind_report (wellFormed : table.WellFormed) (decl : AssemblyDecl)
    (references : List AssemblyId) (mode : BindMode) :
    Reports (Rule.ofHeritage ++ Rule.ofCycles ++ Rule.ofMembers ++ Rule.ofTargets)
      (table.bind decl references mode).diagnostics := by
  rw [bind_eq wellFormed.untangling_keeps.fault]
  cases mode with
  | metadata => exact .nil
  | source version =>
    refine .append (.append (.append ?_ ?_) ?_) ?_
    · exact (table.heritages_report decl references _).mono (by decide)
    · exact (table.untangling_report decl references _).mono (by decide)
    · exact (table.populating_report decl references _).mono (by decide)
    · exact (targets_report _ _ _).mono (by decide)

end SymbolTable

end Conformance
