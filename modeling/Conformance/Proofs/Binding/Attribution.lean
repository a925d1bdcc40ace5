import Conformance.Proofs.Binding.Blocks
import Conformance.Proofs.Binding.Reports
import Conformance.Symbol.Display

/-!
Which explicit implementation a diagnostic is about.

Diagnostics do not carry the ids of members. Here those about explicit implementations
are put next to the members that they are about (`Attributes`), and no diagnostic of their
rules is left over. In what binding reports, each explicit implementation that is bound to
nothing is named (`SymbolTable.bind_attributed`).
-/

namespace Conformance

/-- What is reported of explicit implementations only. -/
def Rule.ofExplicit : List Rule :=
  [explicitNotInterface, explicitNotFound, explicitNotListed, accessorNotInInterface]

/-- Some of the diagnostics of a list, each with the member that it is about, in the order of
the list. All diagnostics of some rules are among them. -/
structure Attributes (about : MemberId → Diagnostic → Prop) (rules : List Rule)
    (reports : List (MemberId × Diagnostic)) (diagnostics : List Diagnostic) : Prop where
  about : ∀ report ∈ reports, about report.1 report.2
  sublist : (reports.map Prod.snd).Sublist diagnostics
  complete : (reports.map Prod.snd).filter (fun diagnostic => diagnostic.Breaks rules) =
    diagnostics.filter fun diagnostic => diagnostic.Breaks rules

/-- The breach of one of some rules by a member is reported. -/
def Reported (rules : List Rule) (reports : List (MemberId × Diagnostic)) (id : MemberId) : Prop :=
  ∃ diagnostic, (id, diagnostic) ∈ reports ∧ diagnostic.Breaks rules

theorem Reported.subset {rules : List Rule} {reports more : List (MemberId × Diagnostic)}
    {id : MemberId} (reported : Reported rules reports id) (inside : reports ⊆ more) :
    Reported rules more id := by
  rcases reported with ⟨diagnostic, listed, breaks⟩
  exact ⟨diagnostic, inside listed, breaks⟩

theorem Reported.mono {rules more : List Rule} {reports : List (MemberId × Diagnostic)}
    {id : MemberId} (reported : Reported rules reports id) (listed : rules ⊆ more) :
    Reported more reports id := by
  rcases reported with ⟨diagnostic, inside, breaks⟩
  exact ⟨diagnostic, inside, breaks.mono listed⟩

theorem Reported.breach {rules : List Rule} {rule : Rule} (listed : rule ∈ rules) (id : MemberId)
    (span : Span) (arguments : List Argument) :
    Reported rules [(id, .breach rule span arguments)] id :=
  ⟨_, List.mem_singleton_self _, Diagnostic.breaks_breach listed _ _⟩

namespace Attributes

variable {about : MemberId → Diagnostic → Prop} {rules : List Rule}
  {reports more : List (MemberId × Diagnostic)} {first second : List Diagnostic}

/-- Every diagnostic is about a member. -/
theorem map (known : ∀ report ∈ reports, about report.1 report.2) :
    Attributes about rules reports (reports.map Prod.snd) :=
  ⟨known, .refl _, rfl⟩

theorem singleton {id : MemberId} {diagnostic : Diagnostic} (known : about id diagnostic) :
    Attributes about rules [(id, diagnostic)] [diagnostic] := by
  refine map fun report inside => ?_
  obtain rfl := List.mem_singleton.mp inside
  exact known

theorem nil : Attributes about rules [] [] := map nofun

/-- Diagnostics of other rules are about something else. -/
theorem others {others : List Rule} (report : Reports others first)
    (apart : ∀ rule ∈ others, ∀ other ∈ rules, rule.code ≠ other.code) :
    Attributes about rules [] first :=
  ⟨nofun, List.nil_sublist _, (report.filter_others apart).symm⟩

theorem append (left : Attributes about rules reports first)
    (right : Attributes about rules more second) :
    Attributes about rules (reports ++ more) (first ++ second) where
  about report inside := by
    rcases List.mem_append.mp inside with earlier | later
    · exact left.about report earlier
    · exact right.about report later
  sublist := by
    rw [List.map_append]
    exact left.sublist.append right.sublist
  complete := by
    rw [List.map_append, List.filter_append, List.filter_append, left.complete, right.complete]

theorem imp {other : MemberId → Diagnostic → Prop}
    (attributes : Attributes about rules reports first)
    (implies : ∀ id diagnostic, about id diagnostic → other id diagnostic) :
    Attributes other rules reports first :=
  ⟨fun report inside => implies _ _ (attributes.about report inside), attributes.sublist,
    attributes.complete⟩

/-- The diagnostics of a list of items, given those of each. -/
theorem flatMap {α : Type} {items : List α} {f : α → List Diagnostic}
    {covers : α → List (MemberId × Diagnostic) → Prop}
    (parts : ∀ item ∈ items, ∃ part, Attributes about rules part (f item) ∧ covers item part) :
    ∃ reports, Attributes about rules reports (items.flatMap f) ∧
      ∀ item ∈ items, ∃ part, part ⊆ reports ∧ covers item part := by
  induction items with
  | nil => exact ⟨[], nil, nofun⟩
  | cons item items ih =>
    rcases parts item List.mem_cons_self with ⟨part, attributes, covered⟩
    rcases ih fun other listed => parts other (List.mem_cons_of_mem _ listed) with
      ⟨reports, rest, coveredRest⟩
    refine ⟨part ++ reports, attributes.append rest, fun other listed => ?_⟩
    rcases List.mem_cons.mp listed with rfl | later
    · exact ⟨part, List.subset_append_left _ _, covered⟩
    · rcases coveredRest other later with ⟨share, inside, holds⟩
      exact ⟨share, List.subset_append_of_subset_right _ inside, holds⟩

end Attributes

namespace SymbolTable

/-- A diagnostic is about an explicit implementation: it is placed where the member is,
and first names the member, or the interface that the member names. -/
def Concerns (table : SymbolTable) (id : MemberId) (diagnostic : Diagnostic) : Prop :=
  ∃ member, table.member? id = some member ∧ diagnostic.span = member.span ∧
    (diagnostic.arguments.head? = some (.member (table.display id)) ∨
      ∃ name, member.explicitInterface = some name ∧
        diagnostic.arguments.head? = some (.type name))

/-- What a diagnostic of binding says of an explicit implementation. -/
def BindingConcerns (table : SymbolTable) (id : MemberId) (diagnostic : Diagnostic) : Prop :=
  table.Concerns id diagnostic ∧ diagnostic.Breaks Rule.ofTargets

/-- It is reported that an explicit implementation is bound to nothing; and if it is bound,
which of its accessors are not. -/
structure ReportsUnbound (table : SymbolTable) (assembly : AssemblyId)
    (reports : List (MemberId × Diagnostic)) (id : MemberId) (member : MemberSymbol) : Prop where
  head : table.boundTarget? assembly member = none →
    Reported [.nameNotFound, .explicitNotInterface, .explicitNotFound] reports id
  clause : ∀ {target}, table.boundTarget? assembly member = some target →
    ∀ accessor ∈ table.accessorsOf member, ∀ {kind parent},
      accessor.2.clause? = some (kind, parent) → table.clauseTarget? kind target = none →
        Reported [.accessorNotInInterface] reports accessor.1

variable {table : SymbolTable} {assembly : AssemblyId}

theorem ReportsUnbound.subset {reports more : List (MemberId × Diagnostic)}
    {id : MemberId} {member : MemberSymbol}
    (unbound : table.ReportsUnbound assembly reports id member) (inside : reports ⊆ more) :
    table.ReportsUnbound assembly more id member where
  head none := (unbound.head none).subset inside
  clause bound accessor listed _ _ isClause none :=
    (unbound.clause bound accessor listed isClause none).subset inside

theorem display_of_found {id : MemberId} {member : MemberSymbol}
    (found : table.member? id = some member) : table.display id = table.displayMember member := by
  rw [display, found]
  rfl

/-! ## One member -/

theorem bindAccessorTarget_diagnostics {accessor : MemberId × MemberSymbol} {kind : AccessorKind}
    {parent : MemberId} (isClause : accessor.2.clause? = some (kind, parent))
    {target : ExplicitTarget} {symbol : MemberSymbol}
    (found : table.member? target.member = some symbol) :
    (table.bindAccessorTarget target.interface symbol accessor).diagnostics =
      if (table.clauseTarget? kind target).isSome then []
      else [.breach .accessorNotInInterface accessor.2.span
        [.member (table.displayMember accessor.2), .member (table.displayMember symbol)]] := by
  unfold bindAccessorTarget clauseTarget?
  rw [isClause, found]
  cases has : symbol.accessor? kind with
  | none => simp [has]
  | some id =>
    cases foundMember : table.member? id with
    | none => simp [has, foundMember]
    | some member =>
      by_cases candidate : table.isExplicitCandidate member = true
      · simp [has, foundMember, candidate]
      · simp [has, foundMember, candidate]

/-- Of a member that is bound to nothing, one diagnostic says so. -/
theorem bindTarget_unbound (id : MemberId) {member : MemberSymbol} {name : String}
    (named : member.explicitInterface = some name)
    (unbound : table.boundTarget? assembly member = none) :
    ∃ rule ∈ [Rule.nameNotFound, .explicitNotInterface, .explicitNotFound], ∃ argument,
      (table.bindTarget assembly id member name).diagnostics =
        [.breach rule member.span [argument]] ∧
      (argument = .member (table.displayMember member) ∨ argument = .type name) := by
  unfold boundTarget? at unbound
  unfold bindTarget
  rw [named] at unbound
  simp only [Option.bind_eq_bind, Option.bind_some] at unbound
  cases resolved : table.resolve? assembly name with
  | none => exact ⟨.nameNotFound, by decide, _, rfl, .inr rfl⟩
  | some interface =>
    obtain ⟨typeId, type⟩ := interface
    simp only [resolved, Option.bind_some] at unbound
    cases isInterface : type.isInterface with
    | false => exact ⟨.explicitNotInterface, by decide, .type name, by simp [isInterface], .inr rfl⟩
    | true =>
      rw [if_pos isInterface, Option.map_eq_none_iff] at unbound
      exact ⟨.explicitNotFound, by decide, .member (table.displayMember member),
        by simp [isInterface, unbound], .inl rfl⟩

/-- Of a member that is bound, only its accessors are reported. -/
theorem bindTarget_bound (id : MemberId) {member : MemberSymbol} {name : String}
    (named : member.explicitInterface = some name) {target : ExplicitTarget}
    (bound : table.boundTarget? assembly member = some target) :
    ∃ symbol, table.member? target.member = some symbol ∧
      (table.bindTarget assembly id member name).diagnostics =
        (table.accessorsOf member).flatMap fun accessor =>
          (table.bindAccessorTarget target.interface symbol accessor).diagnostics := by
  rcases boundTarget?_some bound with ⟨_, type, symbol, namedAgain, resolved, isInterface, explicit⟩
  cases named.symm.trans namedAgain
  rcases explicitTarget?_some explicit with ⟨_, found, _⟩
  refine ⟨symbol, found, ?_⟩
  unfold bindTarget
  simp only [resolved, isInterface, Bool.not_true, Bool.false_eq_true, if_false, explicit]
  exact List.flatMap_map ..

/-- What is reported of an accessor of a member that is bound to a target. -/
def clauseReport (table : SymbolTable) (target : ExplicitTarget)
    (accessor : MemberId × MemberSymbol) : List Diagnostic :=
  if (accessor.2.clause?.bind fun clause => table.clauseTarget? clause.1 target).isSome then []
  else [.breach .accessorNotInInterface accessor.2.span
    [.member (table.display accessor.1), .member (table.display target.member)]]

/-- What is reported of a member that names an interface. -/
def targetReport (table : SymbolTable) (assembly : AssemblyId) (id : MemberId)
    (member : MemberSymbol) (name : String) : List Diagnostic :=
  match table.resolve? assembly name with
  | none => [nameNotFound name member.span]
  | some (_, type) =>
    if type.isInterface then
      match table.boundTarget? assembly member with
      | none => [.breach .explicitNotFound member.span [.member (table.display id)]]
      | some target => (table.accessorsOf member).flatMap (table.clauseReport target)
    else [.breach .explicitNotInterface member.span [.type name]]

theorem bindTarget_diagnostics (laid : table.Laid) {id : MemberId} {member : MemberSymbol}
    (found : table.member? id = some member) {name : String}
    (named : member.explicitInterface = some name) :
    (table.bindTarget assembly id member name).diagnostics =
      table.targetReport assembly id member name := by
  cases bound : table.boundTarget? assembly member with
  | some target =>
    obtain ⟨symbol, foundTarget, same⟩ := bindTarget_bound id named bound
    obtain ⟨_, type, _, namedAgain, resolved, isInterface, _⟩ := boundTarget?_some bound
    cases named.symm.trans namedAgain
    unfold targetReport
    simp only [same, resolved, isInterface, if_true, bound]
    refine List.flatMap_congr fun accessor listed => ?_
    obtain ⟨kind, foundAccessor, isClause, _⟩ := laid.of_mem_accessorsOf found listed
    rw [bindAccessorTarget_diagnostics isClause foundTarget, clauseReport, isClause,
      Option.bind_some, display_of_found foundAccessor, display_of_found foundTarget]
  | none =>
    unfold boundTarget? at bound
    rw [named] at bound
    simp only [Option.bind_eq_bind, Option.bind_some] at bound
    unfold bindTarget targetReport boundTarget?
    rw [named]
    cases resolved : table.resolve? assembly name with
    | none => rfl
    | some interface =>
      obtain ⟨typeId, type⟩ := interface
      simp only [resolved, Option.bind_some] at bound
      cases isInterface : type.isInterface with
      | false => simp [isInterface]
      | true =>
        rw [if_pos isInterface, Option.map_eq_none_iff] at bound
        simp [resolved, isInterface, bound, display_of_found found]

/-- What is reported of the members of a type that name interfaces. -/
theorem targetsOf_diagnostics (laid : table.Laid) {id : TypeId} {type : TypeSymbol}
    (found : table.type? id = some type) :
    (table.targetsOf assembly id).flatMap TargetBinding.diagnostics =
      (table.membersOf type).flatMap fun entry =>
        entry.2.explicitInterface.elim [] (table.targetReport assembly entry.1 entry.2) := by
  unfold targetsOf
  simp only [found]
  have members : ∀ entry ∈ table.membersOf type, table.member? entry.1 = some entry.2 :=
    fun entry listed => (laid.of_mem_membersOf found listed).1
  generalize table.membersOf type = entries at members ⊢
  induction entries with
  | nil => rfl
  | cons entry entries ih =>
    have own := members entry List.mem_cons_self
    have rest := ih fun other listed => members other (List.mem_cons_of_mem _ listed)
    rw [List.flatMap_cons, ← rest, List.filterMap_cons]
    cases named : entry.2.explicitInterface with
    | none => simp
    | some name => simp [bindTarget_diagnostics laid own named]

/-- What is reported when a member that names an interface is bound. -/
theorem bindTarget_attributed (laid : table.Laid) {head : MemberId × MemberSymbol}
    (found : table.member? head.1 = some head.2) {name : String}
    (named : head.2.explicitInterface = some name) (rules : List Rule) :
    ∃ reports, Attributes table.BindingConcerns rules reports
        (table.bindTarget assembly head.1 head.2 name).diagnostics ∧
      table.ReportsUnbound assembly reports head.1 head.2 := by
  cases bound : table.boundTarget? assembly head.2 with
  | none =>
    rcases bindTarget_unbound head.1 named bound with ⟨rule, listed, argument, same, names⟩
    have ofTargets : rule ∈ Rule.ofTargets :=
      (by decide : [Rule.nameNotFound, .explicitNotInterface, .explicitNotFound] ⊆ Rule.ofTargets)
        listed
    rw [same]
    refine ⟨_, .singleton ⟨⟨head.2, found, rfl, ?_⟩, Diagnostic.breaks_breach ofTargets _ _⟩,
      fun _ => .breach listed _ _ _, fun known => ?_⟩
    · rcases names with rfl | rfl
      · exact .inl (congrArg (some ∘ Argument.member) (display_of_found found).symm)
      · exact .inr ⟨name, named, rfl⟩
    · rw [bound] at known
      cases known
  | some target =>
    rcases bindTarget_bound head.1 named bound with ⟨symbol, foundTarget, same⟩
    have parts : ∀ accessor ∈ table.accessorsOf head.2, ∃ part,
        Attributes table.BindingConcerns rules part
          (table.bindAccessorTarget target.interface symbol accessor).diagnostics ∧
        ∀ {kind : AccessorKind} {parent : MemberId}, accessor.2.clause? = some (kind, parent) →
          table.clauseTarget? kind target = none →
            Reported [.accessorNotInInterface] part accessor.1 := by
      intro accessor listed
      rcases laid.of_mem_accessorsOf found listed with ⟨kind, foundAccessor, isClause, _⟩
      rw [bindAccessorTarget_diagnostics isClause foundTarget]
      cases clause : table.clauseTarget? kind target with
      | some image =>
        refine ⟨[], .nil, fun again none => ?_⟩
        cases isClause.symm.trans again
        rw [clause] at none
        cases none
      | none =>
        exact ⟨_, .singleton ⟨⟨accessor.2, foundAccessor, rfl,
          .inl (congrArg (some ∘ Argument.member) (display_of_found foundAccessor).symm)⟩,
          Diagnostic.breaks_breach (by decide) _ _⟩, fun _ _ => .breach (by decide) _ _ _⟩
    rcases Attributes.flatMap parts with ⟨reports, attributes, covered⟩
    rw [same]
    refine ⟨reports, attributes, fun none => ?_, fun known accessor listed _ _ isClause none => ?_⟩
    · rw [bound] at none
      cases none
    · cases bound.symm.trans known
      rcases covered accessor listed with ⟨part, inside, reported⟩
      exact (reported isClause none).subset inside

/-! ## The targets of some types -/

/-- What is reported when the members of some types are bound. -/
theorem targets_attributed (laid : table.Laid) (assembly : AssemblyId) (types : List TypeId)
    (rules : List Rule) :
    ∃ reports, Attributes table.BindingConcerns rules reports
        ((types.flatMap (table.targetsOf assembly)).flatMap TargetBinding.diagnostics) ∧
      ∀ typeId ∈ types, ∀ {type}, table.type? typeId = some type → ∀ head ∈ table.membersOf type,
        head.2.isExplicit = true → table.ReportsUnbound assembly reports head.1 head.2 := by
  have members (type : TypeSymbol) : ∀ head ∈ table.membersOf type, ∃ part,
      Attributes table.BindingConcerns rules part ((head.2.explicitInterface.map
        (table.bindTarget assembly head.1 head.2)).toList.flatMap TargetBinding.diagnostics) ∧
      (head.2.isExplicit = true → table.ReportsUnbound assembly part head.1 head.2) := by
    intro head listed
    rcases member?_of_mem_membersOf listed with ⟨_, found⟩
    unfold MemberSymbol.isExplicit
    cases named : head.2.explicitInterface with
    | none => exact ⟨[], .nil, nofun⟩
    | some name =>
      rcases bindTarget_attributed laid found named rules with ⟨part, attributes, unbound⟩
      rw [Option.map_some, Option.toList_some, List.flatMap_singleton]
      exact ⟨part, attributes, fun _ => unbound⟩
  have parts : ∀ typeId ∈ types, ∃ part,
      Attributes table.BindingConcerns rules part
        ((table.targetsOf assembly typeId).flatMap TargetBinding.diagnostics) ∧
      ∀ {type}, table.type? typeId = some type → ∀ head ∈ table.membersOf type,
        head.2.isExplicit = true → table.ReportsUnbound assembly part head.1 head.2 := by
    intro typeId _
    unfold targetsOf
    cases found : table.type? typeId with
    | none => exact ⟨[], .nil, nofun⟩
    | some type =>
      rcases Attributes.flatMap (members type) with ⟨part, attributes, covered⟩
      rw [← List.flatMap_assoc, ← List.filterMap_eq_flatMap_toList] at attributes
      refine ⟨part, attributes, fun same head listed explicit => ?_⟩
      cases same
      rcases covered head listed with ⟨share, inside, unbound⟩
      exact (unbound explicit).subset inside
  rcases Attributes.flatMap parts with ⟨reports, attributes, covered⟩
  rw [List.flatMap_assoc]
  refine ⟨reports, attributes, fun typeId listed {type} found head inside explicit => ?_⟩
  rcases covered typeId listed with ⟨part, subset, unbound⟩
  exact (unbound found head inside explicit).subset subset

/-! ## Targets take no part in what is said -/

namespace SameButTargets

variable {before after : SymbolTable} (same : before.SameButTargets after)

include same

theorem displayMember (member : MemberSymbol) (target : Option ExplicitTarget) :
    after.displayMember { member with target } = before.displayMember member := by
  have type (id : TypeId) : after.displayType id = before.displayType id := by
    rw [displayType, displayType, same.type?]
  have clause : { member with target }.clause? = member.clause? := rfl
  unfold SymbolTable.displayMember
  rw [clause]
  cases member.clause? with
  | none =>
    simp only [type]
    rfl
  | some entry =>
    obtain ⟨kind, parentId⟩ := entry
    have related := same.members parentId
    simp only [type]
    generalize before.member? parentId = start at related ⊢
    generalize after.member? parentId = stop at related ⊢
    cases related with
    | none => rfl
    | @some a b rest =>
      rw [rest]
      rfl

theorem display (id : MemberId) : after.display id = before.display id := by
  unfold SymbolTable.display
  rw [map_eq_map_of_rel (same.members id) fun a b rest => by rw [rest, same.displayMember]]

theorem clauseReport (target : ExplicitTarget) {a b : MemberId × MemberSymbol} (pair : Pairs a b) :
    after.clauseReport target b = before.clauseReport target a := by
  unfold SymbolTable.clauseReport
  have clause : b.2.clause? = a.2.clause? := by
    rw [pair.2]
    rfl
  have span : b.2.span = a.2.span := by rw [pair.2]
  simp only [clause, span, pair.1, same.clauseTarget?, same.display]

theorem targetReport (assembly : AssemblyId) (id : MemberId) (member : MemberSymbol)
    (target : Option ExplicitTarget) (name : String) :
    after.targetReport assembly id { member with target } name =
      before.targetReport assembly id member name := by
  have clauses (bound : ExplicitTarget) :
      (after.accessorsOf { member with target }).flatMap (after.clauseReport bound) =
        (before.accessorsOf member).flatMap (before.clauseReport bound) :=
    flatMap_eq_of_forall₂ (same.accessorsOf member target) fun _ _ pair =>
      same.clauseReport bound pair
  unfold SymbolTable.targetReport
  rw [same.resolve?, same.boundTarget?]
  simp only [same.display, clauses]

/-- What is reported when members are bound does not depend on targets. -/
theorem targetsOf_diagnostics (laid : before.Laid) (assembly : AssemblyId) {id : TypeId}
    {type : TypeSymbol} (found : before.type? id = some type) :
    (after.targetsOf assembly id).flatMap TargetBinding.diagnostics =
      (before.targetsOf assembly id).flatMap TargetBinding.diagnostics := by
  rw [SymbolTable.targetsOf_diagnostics laid found,
    SymbolTable.targetsOf_diagnostics (same.laid laid) ((same.type? id).trans found)]
  refine flatMap_eq_of_forall₂ (same.membersOf type) ?_
  intro a b pair
  have named : b.2.explicitInterface = a.2.explicitInterface := by rw [pair.2]
  rw [named, pair.1, pair.2]
  cases a.2.explicitInterface with
  | none => rfl
  | some name => exact same.targetReport assembly a.1 a.2 _ name

theorem concerns {id : MemberId} {diagnostic : Diagnostic}
    (concerns : before.Concerns id diagnostic) : after.Concerns id diagnostic := by
  rcases concerns with ⟨member, found, span, names⟩
  rcases same.member? found with ⟨image, foundImage, rest⟩
  refine ⟨image, foundImage, by rw [rest]; exact span, ?_⟩
  rw [same.display, rest]
  exact names

end SameButTargets

/-- Targets are searched before any is entered, but the same is said afterwards. -/
theorem WellFormed.targetsOf_populating_diagnostics {table : SymbolTable}
    (wellFormed : table.WellFormed) {decl : AssemblyDecl} {references : List AssemblyId}
    {mode : BindMode} {id : TypeId} {type : TypeSymbol}
    (found : (table.targeting decl references mode).type? id = some type)
    (assembly : AssemblyId) :
    ((table.populating decl references mode).1.targetsOf assembly id).flatMap
        TargetBinding.diagnostics =
      ((table.targeting decl references mode).targetsOf assembly id).flatMap
        TargetBinding.diagnostics := by
  have same : (table.populating decl references mode).1.SameButTargets
      (table.targeting decl references mode) := sameButTargets_targeting
  exact (same.targetsOf_diagnostics wellFormed.populating.laid assembly
    ((same.type? id).symm.trans found)).symm

/-! ## Binding -/

/-- It is reported that an explicit implementation has no target; and if it has one, which of
its accessors have none. -/
structure ReportsUntargeted (table : SymbolTable) (reports : List (MemberId × Diagnostic))
    (id : MemberId) (member : MemberSymbol) : Prop where
  head : member.target = none →
    Reported [.nameNotFound, .explicitNotInterface, .explicitNotFound] reports id
  clause : ∀ {target}, member.target = some target → ∀ {accessor symbol},
    accessor ∈ member.accessors → table.member? accessor = some symbol → symbol.target = none →
      Reported [.accessorNotInInterface] reports accessor

/-- What was found before targets were entered holds of what has no target afterwards. -/
theorem ReportsUnbound.untargeted {after : SymbolTable} (same : table.SameButTargets after)
    (traced : after.Traced) (laid : after.Laid) {reports : List (MemberId × Diagnostic)}
    {id : MemberId} {original member : MemberSymbol}
    (found : after.member? id = some member)
    (rest : member = { original with target := member.target }) (noClause : member.clause? = none)
    {type : TypeSymbol} (foundType : after.type? member.owner = some type)
    (unbound : table.ReportsUnbound type.assembly reports id original) :
    after.ReportsUntargeted reports id member := by
  have targets : member.target = table.boundTarget? type.assembly original := by
    rw [traced.target laid found noClause foundType, rest, same.boundTarget?]
  refine ⟨fun free => unbound.head (targets.symm.trans free), ?_⟩
  intro target known accessor symbol inside foundAccessor free
  rcases MemberSymbol.mem_accessors.mp inside with ⟨kind, has⟩
  rcases laid.of_accessor found has foundAccessor with ⟨isClause, _⟩
  have clause := traced.clauseTarget laid foundAccessor isClause found
  rw [known, free, Option.bind_some, same.clauseTarget?] at clause
  rcases same.member?_of_after foundAccessor with ⟨before, foundBefore, restBefore⟩
  rw [rest] at inside
  rw [restBefore] at isClause
  exact unbound.clause (targets.symm.trans known) (accessor, before)
    (mem_accessorsOf inside foundBefore)
    isClause clause.symm

end SymbolTable

/-- Reports account for what binding says of explicit implementations: each that has no
target is among them, and so is each accessor without target of one that has. -/
structure Binding.Attributed (binding : Binding) (reports : List (MemberId × Diagnostic)) :
    Prop where
  attributes : Attributes binding.table.BindingConcerns Rule.ofExplicit reports
    binding.diagnostics
  untargeted : ∀ {id member type}, binding.table.member? id = some member →
    member.clause? = none → member.isExplicit = true →
    binding.table.type? member.owner = some type → type.assembly = binding.assembly →
      binding.table.ReportsUntargeted reports id member

namespace SymbolTable

variable {table : SymbolTable}

/-- What binding source reports is accounted for. -/
theorem bind_attributed (wellFormed : table.WellFormed) (decl : AssemblyDecl)
    (references : List AssemblyId) (version : LanguageVersion)
    (traced : (table.bind decl references (.source version)).table.Traced) :
    ∃ reports, (table.bind decl references (.source version)).Attributed reports := by
  have bound := bind_bound wellFormed decl references (.source version)
  have laid := bound.wellFormed.laid
  have same : (table.populating decl references (.source version)).1.SameButTargets
    (table.targeting decl references (.source version)) := sameButTargets_targeting
  have before : (table.populating decl references (.source version)).1.WellFormed :=
    wellFormed.populating
  rcases targets_attributed before.laid table.nextAssembly
    (typeIds table.types.size decl.types.length) Rule.ofExplicit with ⟨reports, targets, unbound⟩
  have heritages := table.heritages_report decl references (.source version)
  have cycles := table.untangling_report decl references (.source version)
  have members := table.populating_report decl references (.source version)
  rw [bind_eq wellFormed.untangling_keeps.fault] at bound traced laid ⊢
  refine ⟨reports, ?_, fun {id member type} found noClause explicit foundType own => ?_⟩
  · have others : Attributes
        (table.targeting decl references (.source version)).BindingConcerns Rule.ofExplicit [] _ :=
      .others heritages (by decide)
    exact ((others.append (.others cycles (by decide))).append
      (.others members (by decide))).append (targets.imp fun id diagnostic concerns =>
      ⟨same.concerns concerns.1, concerns.2⟩)
  · rcases laid.listed found noClause with ⟨_, foundAgain, listed⟩
    cases foundType.symm.trans foundAgain
    rcases laid.assembly foundType with ⟨symbol, foundAssembly, isType⟩
    rw [own] at foundAssembly
    cases bound.symbol.symm.trans foundAssembly
    rcases same.member?_of_after found with ⟨original, foundBefore, rest⟩
    have foundTypeBefore := (same.type? member.owner).symm.trans foundType
    rw [rest] at explicit
    have reported := unbound member.owner isType foundTypeBefore (id, original)
      (mem_membersOf listed foundBefore) explicit
    exact ReportsUnbound.untargeted same traced laid found rest noClause foundType
      (own ▸ reported)

end SymbolTable

end Conformance
