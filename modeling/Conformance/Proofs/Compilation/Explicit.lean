import Conformance.Proofs.Binding.Attribution
import Conformance.Proofs.Compilation.Built
import Conformance.Proofs.Compilation.Run
import Conformance.Proofs.Resolution.Explicit

/-!
No explicit implementation is dead without notice.

In a compilation whose types were checked, an explicit implementation that no diagnostic
reports is bound to an interface member, and is the answer for it; so are its accessors
(`Compilation.Built.explicit_takesEffect`). Binding, the tables of levels and the checks
each decide a part of this.
-/

namespace Conformance

namespace Lookups

variable (lookups : Lookups Id) {table : SymbolTable} {assembly : AssemblyId} {typeId : TypeId}
  {type : TypeSymbol}

/-- An explicit implementation in a class or struct of an assembly is bound to a member of an
interface that its type does not implement. -/
structure Unlisted (table : SymbolTable) (assembly : AssemblyId) (id : MemberId)
    (member : MemberSymbol) (type : TypeSymbol) (target : ExplicitTarget) : Prop where
  found : table.member? id = some member
  noClause : member.clause? = none
  foundType : table.type? member.owner = some type
  isClass : type.isInterface = false
  own : type.assembly = assembly
  bound : member.target = some target
  absent : target.interface ∉ (lookups.interfaces member.owner).run

/-- What a diagnostic says of an explicit implementation. -/
def SaysOfExplicit (table : SymbolTable) (assembly : AssemblyId) (id : MemberId)
    (diagnostic : Diagnostic) : Prop :=
  table.Concerns id diagnostic ∧ (diagnostic.Breaks [.explicitNotListed] →
    ∃ member type target, lookups.Unlisted table assembly id member type target)

theorem checkExplicit_attributed (laid : table.Laid) (foundType : table.type? typeId = some type)
    (isClass : type.isInterface = false) (own : type.assembly = assembly) :
    ∃ reports, Attributes (lookups.SaysOfExplicit table assembly) Rule.ofExplicit reports
        (lookups.checkExplicit table typeId type).run ∧
      ∀ entry ∈ table.membersOf type, ∀ {target}, entry.2.target = some target →
        target.interface ∉ (lookups.interfaces typeId).run →
          Reported [.explicitNotListed] reports entry.1 := by
  have parts : ∀ entry ∈ table.membersOf type, ∃ part,
      Attributes (lookups.SaysOfExplicit table assembly) Rule.ofExplicit part
        (lookups.unlisted? table typeId entry).toList ∧
      ∀ {target}, entry.2.target = some target →
        target.interface ∉ (lookups.interfaces typeId).run →
          Reported [.explicitNotListed] part entry.1 := by
    intro entry listed
    rcases laid.of_mem_membersOf foundType listed with ⟨found, owner, noClause⟩
    unfold unlisted?
    cases bound : entry.2.target with
    | none => exact ⟨[], .nil, nofun⟩
    | some target =>
      by_cases implemented : target.interface ∈ (lookups.interfaces typeId).run
      · simp only [if_pos implemented]
        refine ⟨[], .nil, fun same absent => ?_⟩
        cases same
        exact absurd implemented absent
      · simp only [if_neg implemented]
        refine ⟨_, .singleton ⟨⟨entry.2, found, rfl, .inl rfl⟩, fun _ => ?_⟩,
          fun _ _ => .breach (by decide) _ _ _⟩
        exact ⟨entry.2, type, target, found, noClause, owner ▸ foundType, isClass, own, bound,
          owner ▸ implemented⟩
  rcases Attributes.flatMap parts with ⟨reports, attributes, covered⟩
  rw [checkExplicit_run, List.filterMap_eq_flatMap_toList]
  refine ⟨reports, attributes, fun entry listed _ bound absent => ?_⟩
  rcases covered entry listed with ⟨part, inside, reported⟩
  exact (reported bound absent).subset inside

/-- In what is reported of a type, explicit implementations are named that belong to an
interface that the type does not implement. -/
theorem checkType_attributed (laid : table.Laid) (foundType : table.type? typeId = some type)
    (own : type.assembly = assembly) :
    ∃ reports, Attributes (lookups.SaysOfExplicit table assembly) Rule.ofExplicit reports
        (lookups.checkType table assembly typeId).run ∧
      (type.isInterface = false → ∀ entry ∈ table.membersOf type, ∀ {target},
        entry.2.target = some target → target.interface ∉ (lookups.interfaces typeId).run →
          Reported [.explicitNotListed] reports entry.1) := by
  rw [lookups.checkType_run foundType]
  cases isClass : type.isInterface with
  | true => exact ⟨[], .others (lookups.checkBodies_report) (by decide), nofun⟩
  | false =>
    rcases lookups.checkExplicit_attributed laid foundType isClass own with
      ⟨reports, attributes, unlisted⟩
    have implementations : Reports Rule.ofImplementations
        (lookups.checkImplementations table assembly typeId type).run :=
      lookups.checkImplementations_report
    refine ⟨reports ++ [] ++ [], ?_, fun _ entry listed _ bound absent => ?_⟩
    · exact (attributes.append (.others implementations (by decide))).append
        (.others checkHiding_report (by decide))
    · rw [List.append_nil, List.append_nil]
      exact unlisted entry listed bound absent

end Lookups

namespace Compilation

variable {compilation : Compilation}

/-! ## Reports -/

/-- It is reported that an explicit implementation of a class or struct has no target, or
that its type does not implement the interface of its target. -/
def ReportsIdle (compilation : Compilation) (final : Memory)
    (reports : List (MemberId × Diagnostic)) : Prop :=
  ∀ {typeId type}, typeId ∈ compilation.types → compilation.table.type? typeId = some type →
    type.isInterface = false → ∀ {id member}, id ∈ type.members →
      compilation.table.member? id = some member → member.isExplicit = true →
        compilation.table.ReportsUntargeted reports id member ∧
        ∀ {target}, member.target = some target →
          target.interface ∉ ((compilation.lookups final).interfaces typeId).run →
            Reported [.explicitNotListed] reports id

/-- What the diagnostics of a compilation say of explicit implementations. -/
theorem Built.attributed (built : compilation.Built) {final : Memory}
    {diagnostics : List Diagnostic}
    (checked : compilation.Answered final .diagnostics (.ok diagnostics)) :
    ∃ reports, Attributes
      ((compilation.lookups final).SaysOfExplicit compilation.table compilation.assembly)
      Rule.ofExplicit reports diagnostics ∧ compilation.ReportsIdle final reports := by
  have laid := built.wellFormed.laid
  have traced : compilation.table.Traced := built.traced
  cases checked.diagnostics built.closed
  have parts : ∀ typeId ∈ compilation.types, ∃ part,
      Attributes
        ((compilation.lookups final).SaysOfExplicit compilation.table compilation.assembly)
        Rule.ofExplicit part
        ((compilation.lookups final).checkType compilation.table compilation.assembly typeId).run ∧
      ∀ {type}, compilation.table.type? typeId = some type → type.isInterface = false →
        ∀ entry ∈ compilation.table.membersOf type, ∀ {target}, entry.2.target = some target →
          target.interface ∉ ((compilation.lookups final).interfaces typeId).run →
            Reported [.explicitNotListed] part entry.1 := by
    intro typeId listed
    rcases (mem_types laid).mp listed with ⟨type, foundType, own⟩
    rcases (compilation.lookups final).checkType_attributed laid foundType own with
      ⟨part, attributes, unlisted⟩
    refine ⟨part, attributes, fun found => ?_⟩
    cases foundType.symm.trans found
    exact unlisted
  rcases Attributes.flatMap parts with ⟨checks, ofChecks, covered⟩
  rcases built.bound with ⟨table, decl, references, binds, _, same, assembly, reported⟩
  rw [same] at traced
  rcases SymbolTable.bind_attributed (binds.made .empty).wellFormed decl references
    compilation.options.version traced with ⟨bindings, ofBinding, untargeted⟩
  rw [← same, ← reported] at ofBinding
  rw [← same, ← assembly] at untargeted
  refine ⟨bindings ++ checks, (ofBinding.imp fun id diagnostic concerns => ?_).append ofChecks, ?_⟩
  · exact ⟨concerns.1, fun breaks => (concerns.2.absurd breaks (by decide)).elim⟩
  · intro typeId type listed foundType isClass id member inside found explicit
    rcases (mem_types laid).mp listed with ⟨_, foundAgain, own⟩
    cases foundType.symm.trans foundAgain
    rcases laid.of_head foundType inside found with ⟨owner, noClause⟩
    have unbound := untargeted found noClause explicit (owner ▸ foundType) own
    rcases covered typeId listed with ⟨part, subset, unlisted⟩
    refine ⟨⟨fun free => (unbound.head free).subset (List.subset_append_left _ _), ?_⟩, ?_⟩
    · intro target bound accessor symbol isAccessor foundAccessor free
      exact (unbound.clause bound isAccessor foundAccessor free).subset
        (List.subset_append_left _ _)
    · intro target bound absent
      exact ((unlisted foundType isClass (id, member) (SymbolTable.mem_membersOf inside found)
        bound absent).subset subset).subset (List.subset_append_right _ _)

/-! ## Answers -/

/-- An explicit implementation takes effect at the end of a run. It is the answer for what it
is bound to, unless a later member of its type is bound to the same; and if it is, its
accessors are the answers for what they are bound to, unless it is reported that they are
bound to nothing. -/
structure TakesEffect (compilation : Compilation) (final : Memory)
    (reports : List (MemberId × Diagnostic)) (typeId : TypeId) (type : TypeSymbol)
    (id : MemberId) (member : MemberSymbol) (target : ExplicitTarget) : Prop where
  answer :
    (∃ later symbol, [id, later].Sublist type.members ∧
      compilation.table.member? later = some symbol ∧ symbol.target = some target) ∨
    compilation.Replies final (.implementation typeId target.member) fun resolution =>
      resolution.implementation = some ⟨id, .explicit⟩
  accessors : ∀ {resolution},
    compilation.Answered final (.implementation typeId target.member) resolution →
    resolution.implementation = some ⟨id, .explicit⟩ → ∀ {accessor symbol},
      accessor ∈ member.accessors → compilation.table.member? accessor = some symbol →
        Reported [.accessorNotInInterface] reports accessor ∨
        ∃ clause image kind, symbol.target = some clause ∧
          compilation.table.member? clause.member = some image ∧
          image.clause? = some (kind, target.member) ∧
          compilation.Replies final (.implementation typeId clause.member) fun resolution =>
            resolution.implementation = some ⟨accessor, .explicit⟩

section

variable (wellFormed : compilation.table.WellFormed) (traced : compilation.table.Traced)
  {memory : Memory} {typeId : TypeId} {type : TypeSymbol} {id : MemberId} {member : MemberSymbol}
  {target : ExplicitTarget} (foundType : compilation.table.type? typeId = some type)
  (isClass : type.isInterface = false) (inside : id ∈ type.members)
  (found : compilation.table.member? id = some member) (bound : member.target = some target)
  (implemented : target.interface ∈ ((compilation.lookups memory).interfaces typeId).run)

include wellFormed traced foundType isClass inside found bound implemented

/-- The last member of a type that is bound to an interface member is the answer for it. -/
theorem resolve_target {answer : MemberId}
    (isLast : compilation.table.boundMember? typeId target.interface target.member = some answer) :
    ((compilation.lookups memory).resolve compilation.table typeId target.member).run =
      { implementation := some ⟨answer, .explicit⟩ } := by
  rcases wellFormed.laid.of_head foundType inside found with ⟨_, noClause⟩
  rcases traced.image wellFormed.laid found noClause bound with
    ⟨image, foundImage, owner, imageNoClause, implementable⟩
  rw [← owner] at implemented isLast
  exact Lookups.resolve_of_bound foundType foundImage implementable implemented wellFormed
    (level_lookups memory) isClass imageNoClause isLast

/-- Where a member is the answer, its accessors are the answers for what they are bound
to. -/
theorem resolve_clauseTarget
    (isLast : compilation.table.boundMember? typeId target.interface target.member = some id)
    {accessor : MemberId} {symbol : MemberSymbol} {kind : AccessorKind}
    (has : member.accessor? kind = some accessor)
    (foundAccessor : compilation.table.member? accessor = some symbol) {clause : ExplicitTarget}
    (clauseBound : symbol.target = some clause) :
    ((compilation.lookups memory).resolve compilation.table typeId clause.member).run.implementation
      = some ⟨accessor, .explicit⟩ := by
  have laid := wellFormed.laid
  rcases laid.of_head foundType inside found with ⟨_, noClause⟩
  rcases laid.of_accessor found has foundAccessor with ⟨isClause, _⟩
  have answer := resolve_target wellFormed traced foundType isClass inside found bound implemented
    isLast
  rcases traced.image laid found noClause bound with ⟨above, foundAbove, _, aboveNoClause, _⟩
  rcases traced.clauseImage laid foundAccessor isClause found bound clauseBound with
    ⟨interface, image, foundImage, owner, imageClause, implementable⟩
  have isBound : symbol.isBoundTo image.owner clause.member = true := by
    rw [MemberSymbol.isBoundTo, clauseBound, owner, ← interface]
    exact decide_eq_true rfl
  rw [← owner] at implemented
  exact Lookups.resolve_of_boundClause foundType foundImage implementable implemented imageClause
    foundAbove aboveNoClause (congrArg Resolution.implementation answer) found has foundAccessor
    isBound

end

/-- The interface list of a class or struct does not change after it was checked. -/
theorem Answered.interfaces_settled (closed : compilation.table.Closed) {final last : Memory}
    {diagnostics : List Diagnostic}
    (checked : compilation.Answered final .diagnostics (.ok diagnostics))
    (run : compilation.Run final last) {typeId : TypeId} {type : TypeSymbol}
    (listed : typeId ∈ compilation.types)
    (foundType : compilation.table.type? typeId = some type) (isClass : type.isInterface = false) :
    (compilation.lookups last).interfaces typeId =
      (compilation.lookups final).interfaces typeId := by
  rcases checked.remembers closed listed foundType isClass with ⟨list, remembered⟩
  rw [interfaces_lookups remembered,
    interfaces_lookups ((run.grows closed).interfaces _ _ remembered)]

/-- A bound member of a class or struct that implements the interface takes effect. -/
theorem takesEffect_of_listed (wellFormed : compilation.table.WellFormed)
    (traced : compilation.table.Traced) {last : Memory}
    (run : compilation.Run compilation.memory last) {reports : List (MemberId × Diagnostic)}
    {typeId : TypeId} {type : TypeSymbol}
    (foundType : compilation.table.type? typeId = some type) (isClass : type.isInterface = false)
    {id : MemberId} {member : MemberSymbol} (inside : id ∈ type.members)
    (found : compilation.table.member? id = some member) {target : ExplicitTarget}
    (bound : member.target = some target)
    (implemented : ∀ {later}, compilation.Run last later →
      target.interface ∈ ((compilation.lookups later).interfaces typeId).run)
    (untargeted : compilation.table.ReportsUntargeted reports id member) :
    compilation.TakesEffect last reports typeId type id member target := by
  have laid := wellFormed.laid
  have closed := wellFormed.closed
  have isBound : member.isBoundTo target.interface target.member = true := decide_eq_true bound
  rcases SymbolTable.exists_boundMember? foundType inside found isBound with ⟨answer, isLast, place⟩
  have resolved {later : Memory} (run : compilation.Run last later) :=
    resolve_target wellFormed traced foundType isClass inside found bound (implemented run) isLast
  have known (id : MemberId) : (Request.implementation typeId id).Known compilation.table := trivial
  constructor
  · rcases place with rfl | ⟨later, symbol, foundLater, laterBound⟩
    · right
      apply Replies.of_answered closed (known target.member) run
      intro later resolution further answered
      rw [answered.eq closed]
      exact congrArg Resolution.implementation (resolved further)
    · exact .inl ⟨answer, symbol, later, foundLater, of_decide_eq_true laterBound⟩
  · intro resolution answered isAnswer accessor symbol isAccessor foundAccessor
    -- The answer in the run is the last bound member, so that is this one.
    have same :=
      (congrArg Resolution.implementation ((answered.eq closed).trans (resolved .refl))).symm
    rw [isAnswer] at same
    cases same
    cases clauseBound : symbol.target with
    | none => exact .inl (untargeted.clause bound isAccessor foundAccessor clauseBound)
    | some clause =>
      right
      rcases MemberSymbol.mem_accessors.mp isAccessor with ⟨kind, has⟩
      rcases laid.of_accessor found has foundAccessor with ⟨isClause, _⟩
      rcases traced.clauseImage laid foundAccessor isClause found bound clauseBound with
        ⟨_, image, foundImage, _, imageClause, _⟩
      refine ⟨clause, image, kind, rfl, foundImage, imageClause, ?_⟩
      apply Replies.of_answered closed (known clause.member) run
      intro later resolution further answered
      rw [answered.eq closed]
      exact resolve_clauseTarget wellFormed traced foundType isClass inside found bound
        (implemented further) isLast has foundAccessor clauseBound

end Compilation

/-- An assembly of an interface with a property and a class that implements it explicitly. -/
def parcels : AssemblyDecl where
  name := "Parcels"
  types :=
    [ { name := "Sized"
        kind := .interfaceType
        members := [.property { name := "Size", type := "int", getter := some {} }] },
      { name := "Box"
        kind := .classType
        interfaces := ["Sized"]
        members := [.property
          { name := "Size"
            explicitInterface := some "Sized"
            type := "int"
            getter := some { hasBody := true } }] } ]

namespace Compilation

/-- The compilation of `parcels`. -/
def boxed : Compilation := .ofDecl parcels [] {}

/-- What is remembered after `boxed` was checked, and asked for the property. -/
def boxedMemory : Memory :=
  (boxed.reply (.implementation ⟨1⟩ ⟨0⟩) (boxed.reply .diagnostics boxed.memory).2).2

end Compilation

end Conformance
