import Conformance.Proofs.Binding.Provenance
import Conformance.Proofs.Resolution.Explicit

/-!
Answers for accessors.

The answer for an accessor follows from that for its member (`SymbolTable.Follows`), if both
can be implemented: an accessor of the member that implements its member implements it, where
there is one that counts, or else its own body does. Two facts about binding carry this. An
accessor has a body just if its member has, and the accessors of an explicit implementation
are bound to those of what it is bound to.

The answers may be asked for in any order, and anything else with them, as long as one memory
is used (`SymbolTable.Resolves`). It does not matter what the memory held at the start
(`SymbolTable.Made.accessors_follow_members`).
-/

namespace Conformance

namespace SymbolTable

/-! ## Queries through one memory -/

/-- What is remembered before a query and after it. -/
inductive Queried (table : SymbolTable) (memory : Memory) : Memory → Prop
  | flatten (id : TypeId) : Queried table memory ((table.flatten id).answer memory).2
  | level (id : TypeId) : Queried table memory ((table.levelOf id).answer memory).2
  | resolve (typeId : TypeId) (id : MemberId) :
    Queried table memory ((table.resolve typeId id).answer memory).2
  | readRuntime (id : AssemblyId) : Queried table memory ((table.readRuntime id).answer memory).2
  | setRuntime (id : AssemblyId) (value : Bool) :
    Queried table memory ((table.setRuntime id value).answer memory).2

/-- What is remembered before some queries and after them. -/
abbrev Queries (table : SymbolTable) : Memory → Memory → Prop :=
  Relation.ReflTransGen table.Queried

/-- Among some queries, there is one for what implements a member, with this answer. -/
def Resolves (table : SymbolTable) (start final : Memory) (typeId : TypeId) (id : MemberId)
    (resolution : Resolution) : Prop :=
  ∃ before after, table.Queries start before ∧
    (table.resolve typeId id).answer before = (.ok resolution, after) ∧ table.Queries after final

variable {table : SymbolTable} {typeId : TypeId} {id : MemberId}

theorem resolve_settled (closed : table.Closed) (typeId : TypeId) (id : MemberId) :
    Memory.settled.rel Eq (table.resolve typeId id) (Memory.eventual.resolve table typeId id) :=
  (remembering_settled closed).resolve closed typeId id

/-- No query forgets anything. -/
theorem Queried.grows (closed : table.Closed) {memory after : Memory}
    (queried : table.Queried memory after) : memory.Extends after := by
  have grows {α β : Type} {query : QueryM α} {value : ReaderT Memory Option β} {r : α → β → Prop}
      (settled : Memory.settled.rel r query value) : memory.Extends (query.answer memory).2 := by
    obtain ⟨_, after, answered, grown, _⟩ := settled memory
    rw [answered]
    exact grown
  cases queried with
  | flatten id =>
    cases found : table.type? id with
    | some type => exact grows (flatten_settled closed found)
    | none =>
      rw [flatten_missing found]
      exact .refl memory
  | level id =>
    cases found : table.type? id with
    | some type => exact grows (levelOf_settled found)
    | none =>
      rw [levelOf_missing found]
      exact .refl memory
  | resolve typeId id => exact grows (resolve_settled closed typeId id)
  | readRuntime id => exact grows (readRuntime_settled id)
  | setRuntime id value =>
    unfold SymbolTable.setRuntime
    rw [QueryM.answer_get]
    cases known : memory.runtime.find? id.index with
    | some flag =>
      rw [if_pos (show memory.isFrozen id = true by rw [Memory.isFrozen, known]; rfl)]
      exact .refl memory
    | none =>
      rw [if_neg (show ¬ memory.isFrozen id = true by rw [Memory.isFrozen, known]; nofun)]
      exact ⟨.refl _, .refl _, Memo.extends_insert known value⟩

theorem Queries.grows (closed : table.Closed) {start final : Memory}
    (queries : table.Queries start final) : start.Extends final := by
  induction queries with
  | refl => exact .refl start
  | tail _ queried ih => exact ih.trans (queried.grows closed)

/-- Every query for what implements a member is answered. -/
theorem exists_resolution (closed : table.Closed) (typeId : TypeId) (id : MemberId)
    (memory : Memory) :
    ∃ resolution after, (table.resolve typeId id).answer memory = (.ok resolution, after) := by
  obtain ⟨resolution, after, answered, _⟩ := resolve_settled closed typeId id memory
  exact ⟨resolution, after, answered⟩

/-- Answers are those of look-ups in what is remembered at the end. -/
theorem Resolves.eq (closed : table.Closed) {start final : Memory} {resolution : Resolution}
    (resolves : table.Resolves start final typeId id resolution) :
    resolution = (final.lookups.resolve table typeId id).run := by
  obtain ⟨before, after, _, answered, later⟩ := resolves
  obtain ⟨_, _, again, _, settles⟩ := resolve_settled closed typeId id before
  cases answered.symm.trans again
  obtain ⟨_, recalled, rfl⟩ := settles final (later.grows closed)
  exact ((Memory.recalled_lookups table final).agree.resolve closed typeId id) _ recalled

/-! ## What follows for accessors -/

/-- An implementing member has an accessor that counts. One that is found by signature has to
be public. -/
def Offers (table : SymbolTable) (kind : AccessorKind) (found : Implementation)
    (clause : MemberId) : Prop :=
  ((table.member? found.member).bind (·.accessor? kind)) = some clause ∧
    (found.source = .implicit →
      ∃ symbol, table.member? clause = some symbol ∧ symbol.isPublic = true)

/-- The answer for an accessor follows from that for its member. -/
structure Follows (table : SymbolTable) (kind : AccessorKind) (id : MemberId)
    (accessor : MemberSymbol) (parent answer : Resolution) : Prop where
  missing : parent.implementation = none → answer.implementation = none
  default : parent.source? = some .default → answer.implementation = some ⟨id, .default⟩
  /-- An accessor of the implementing member is the answer just if it counts. -/
  offered : ∀ {found clause}, parent.implementation = some found → found.source ≠ .default →
    (answer.implementation = some ⟨clause, found.source⟩ ↔ table.Offers kind found clause)
  /-- If there is none, the body of the accessor itself is the answer. -/
  alone : ∀ {found}, parent.implementation = some found → found.source ≠ .default →
    (∀ clause, ¬ table.Offers kind found clause) →
      answer.implementation = if accessor.hasImplementation then some ⟨id, .default⟩ else none
  /-- Another answer than the accessor itself belongs to the implementing member. -/
  belongs : ∀ {clause}, answer.member? = some clause → clause ≠ id →
    ∃ found symbol, parent.implementation = some found ∧ table.member? clause = some symbol ∧
      symbol.clause? = some (kind, found.member)

/-- It is enough to say what the answer is in each case. -/
theorem Follows.of_cases (laid : table.Laid) {kind : AccessorKind} {accessor : MemberSymbol}
    {parent answer : Resolution}
    (missing : parent.implementation = none → answer.implementation = none)
    (default : parent.source? = some .default → answer.implementation = some ⟨id, .default⟩)
    (offered : ∀ {found clause}, parent.implementation = some found → found.source ≠ .default →
      table.Offers kind found clause → answer.implementation = some ⟨clause, found.source⟩)
    (alone : ∀ {found}, parent.implementation = some found → found.source ≠ .default →
      (∀ clause, ¬ table.Offers kind found clause) →
        answer.implementation = if accessor.hasImplementation then some ⟨id, .default⟩ else none) :
    table.Follows kind id accessor parent answer where
  missing := missing
  default := default
  offered {found clause} implementation other := by
    refine ⟨fun answered => ?_, offered implementation other⟩
    by_cases offers : ∃ clause, table.Offers kind found clause
    · obtain ⟨clause, offers⟩ := offers
      cases answered.symm.trans (offered implementation other offers)
      exact offers
    · rw [alone implementation other (not_exists.mp offers)] at answered
      split at answered
      · exact absurd (congrArg Implementation.source (Option.some.inj answered)).symm other
      · cases answered
  alone := alone
  belongs {clause} answered apart := by
    obtain ⟨answering, isAnswer, rfl⟩ := Option.map_eq_some_iff.mp answered
    cases implementation : parent.implementation with
    | none => cases isAnswer.symm.trans (missing implementation)
    | some found =>
      by_cases source : found.source = .default
      · have isDefault : parent.source? = some .default := by
          rw [Resolution.source?, implementation, Option.map_some, source]
        cases isAnswer.symm.trans (default isDefault)
        exact absurd rfl apart
      by_cases offers : ∃ clause, table.Offers kind found clause
      · obtain ⟨clause, offers⟩ := offers
        cases isAnswer.symm.trans (offered implementation source offers)
        obtain ⟨implementing, foundMember, has⟩ := Option.bind_eq_some_iff.mp offers.1
        obtain ⟨symbol, foundClause, isClause, _⟩ := laid.accessor foundMember has
        exact ⟨found, symbol, rfl, foundClause, isClause⟩
      · rw [alone implementation source (not_exists.mp offers)] at isAnswer
        split at isAnswer
        · cases isAnswer
          exact absurd rfl apart
        · cases isAnswer

end SymbolTable

namespace Lookups

open SymbolTable

variable {table : SymbolTable} {lookups : Lookups Id} {typeId : TypeId} {id : MemberId}
  {member : MemberSymbol}

/-! ## Explicit implementations -/

theorem isBoundTo_of_findExplicit {interface : TypeId} {chain : List TypeId} {bound : MemberId}
    (found : (lookups.findExplicit table interface id chain).run = some bound) :
    (table.member? bound).any (fun symbol => symbol.isBoundTo interface id) = true := by
  induction chain with
  | nil => cases found
  | cons level rest ih =>
    rw [findExplicit_run] at found
    split at found
    · cases candidate : (lookups.level level).run.explicit? id with
      | none =>
        rw [candidate] at found
        exact ih found
      | some other =>
        simp only [candidate] at found
        split at found
        · rename_i isBound
          cases found
          exact isBound
        · exact ih found
    · exact ih found

/-- An explicit answer for a member is bound to it. -/
theorem isBoundTo_of_explicit {type : TypeSymbol} (foundType : table.type? typeId = some type)
    (found : table.member? id = some member) (noClause : member.clause? = none) {bound : MemberId}
    (answered : (lookups.resolve table typeId id).run.implementation = some ⟨bound, .explicit⟩)
    {symbol : MemberSymbol} (foundBound : table.member? bound = some symbol) :
    symbol.target = some ⟨member.owner, id⟩ := by
  rw [resolve_head foundType found noClause, whenImplemented_run] at answered
  split at answered
  · rw [resolveMember_run] at answered
    split at answered
    · rcases orDefault_cases found answered with missing | ⟨_, isDefault⟩
      · cases missing
      · cases isDefault
    · cases explicit :
          (lookups.findExplicit table member.owner id (table.baseChain typeId)).run with
      | none =>
        rw [explicit] at answered
        rcases orDefault_cases found answered with bySignature | ⟨_, isDefault⟩
        · have source := congrArg (Option.map Implementation.source) bySignature
          have other : ImplementationSource.explicit ≠ .implicit := by decide
          exact absurd source (lookups.findImplicit_source other _ _ _)
        · cases isDefault
      | some other =>
        rw [explicit] at answered
        cases answered
        have isBound := isBoundTo_of_findExplicit explicit
        rw [foundBound, Option.any_some, MemberSymbol.isBoundTo, decide_eq_true_eq] at isBound
        exact isBound
  · cases answered

/-! ## Accessors of the implementing member -/

section

variable {kind : AccessorKind} {parent : Resolution} {found : Implementation}
  (implementation : parent.implementation = some found)

include implementation

theorem resolveClause_of_alone (other : found.source ≠ .default)
    (alone : ∀ clause, ¬ table.Offers kind found clause) :
    (resolveClause table id member kind parent).implementation = none := by
  obtain ⟨implementing, source⟩ := found
  unfold resolveClause
  cases has : (table.member? implementing).bind (·.accessor? kind) with
  | none => cases source <;> simp [implementation, has, Resolution.missing]
  | some clause =>
    cases foundClause : table.member? clause with
    | none =>
      cases source <;> simp [implementation, has, foundClause, Resolution.missing]
    | some symbol =>
      cases source with
      | default => exact absurd rfl other
      | explicit => exact absurd ⟨has, nofun⟩ (alone clause)
      | implicit =>
        have hidden : ¬ symbol.isPublic = true := fun isPublic =>
          alone clause ⟨has, fun _ => ⟨symbol, foundClause, isPublic⟩⟩
        simp only [implementation, has, Option.bind_some, foundClause, Option.map_some, hidden]
        rfl

theorem resolveClause_of_implicit (source : found.source = .implicit) {clause : MemberId}
    (offers : table.Offers kind found clause) :
    (resolveClause table id member kind parent).implementation = some ⟨clause, .implicit⟩ := by
  obtain ⟨implementing, _⟩ := found
  cases source
  obtain ⟨has, visible⟩ := offers
  obtain ⟨symbol, foundClause, isPublic⟩ := visible rfl
  unfold resolveClause
  simp only [implementation, has, Option.bind_some, foundClause, Option.map_some, isPublic, if_true]

end

end Lookups

namespace SymbolTable

variable {table : SymbolTable} {kind : AccessorKind} {parentId id : MemberId}
  {parent accessor : MemberSymbol}

/-! ## Binding -/

/-- An accessor that can be implemented may be bound to if its member may be. -/
theorem Derived.isExplicitCandidate_clause (derived : table.Derived) (laid : table.Laid)
    (found : table.member? id = some accessor) (isClause : accessor.clause? = some (kind, parentId))
    (foundParent : table.member? parentId = some parent)
    (implementable : table.isImplementable accessor = true)
    (candidate : table.isExplicitCandidate parent = true) :
    table.isExplicitCandidate accessor = true := by
  obtain ⟨decl, scope, _, ⟨_, rfl⟩, declared, _, _, rfl⟩ :=
    derived.clause laid found isClause foundParent
  have visible : (decl.clauseSymbol scope parentId declared).isPrivate = false := by
    unfold isImplementable at implementable
    simp only [Bool.and_eq_true, Bool.not_eq_true'] at implementable
    exact implementable.2
  obtain ⟨_, _, sealed⟩ := decl.dispatch_clauseSymbol scope parentId visible
  rw [isExplicitCandidate, Bool.and_eq_true, Bool.not_eq_true'] at candidate ⊢
  exact ⟨implementable, sealed.trans candidate.2⟩

/-- The accessors of an explicit implementation are bound to those of what it is bound to. -/
theorem Derived.target_clause (derived : table.Derived) (laid : table.Laid)
    (foundParent : table.member? parentId = some parent) (has : parent.accessor? kind = some id)
    (found : table.member? id = some accessor)
    (implementable : table.isImplementable accessor = true) {bound clause : MemberId}
    {implementing symbol : MemberSymbol} (foundBound : table.member? bound = some implementing)
    (isBound : implementing.target = some ⟨parent.owner, parentId⟩)
    (hasClause : implementing.accessor? kind = some clause)
    (foundClause : table.member? clause = some symbol) :
    symbol.target = some ⟨parent.owner, id⟩ := by
  obtain ⟨isClause, _⟩ := laid.of_accessor foundParent has found
  obtain ⟨boundClause, _⟩ := laid.of_accessor foundBound hasClause foundClause
  obtain ⟨noClause, _, _⟩ := laid.of_clause foundClause boundClause foundBound
  obtain ⟨image, foundImage, candidate⟩ := derived.candidate foundBound noClause isBound
  cases foundParent.symm.trans foundImage
  have accessorCandidate :=
    derived.isExplicitCandidate_clause laid found isClause foundParent implementable candidate
  rw [derived.clauseTarget foundClause boundClause foundBound, isBound, Option.bind_some]
  simp only [clauseTarget?, foundParent, Option.bind_eq_bind, Option.bind_some, has, found,
    accessorCandidate, if_true]

/-! ## Members and their accessors -/

section

variable (derived : table.Derived) (laid : table.Laid)
  (foundParent : table.member? parentId = some parent)
  (implementableParent : table.isImplementable parent = true)
  (has : parent.accessor? kind = some id) (found : table.member? id = some accessor)
  (implementable : table.isImplementable accessor = true)
  {lookups : Lookups Id} {typeId : TypeId}

/-- Members are implemented for types that implement their interface, which is that of their
accessors. -/
theorem Laid.inside_of_implementation (laid : table.Laid)
    (foundParent : table.member? parentId = some parent) (has : parent.accessor? kind = some id)
    (found : table.member? id = some accessor) {implementation : Implementation}
    (answered : (lookups.resolve table typeId parentId).run.implementation =
      some implementation) :
    ∃ type, table.type? typeId = some type ∧ accessor.owner ∈ (lookups.interfaces typeId).run := by
  obtain ⟨type, _, foundType, again, _, inside⟩ :=
    Lookups.implements_of_answer (congrArg (Option.map Implementation.member) answered)
  cases foundParent.symm.trans again
  obtain ⟨_, owner⟩ := laid.of_accessor foundParent has found
  exact ⟨type, foundType, owner ▸ inside⟩

include derived laid foundParent has found

include implementableParent in
/-- Where a member is not implemented, neither is an accessor of it. -/
theorem Derived.missing_clause
    (missing : (lookups.resolve table typeId parentId).run.source? = none) :
    (lookups.resolve table typeId id).run.source? = none := by
  obtain ⟨isClause, owner⟩ := laid.of_accessor foundParent has found
  obtain ⟨noClause, _, _⟩ := laid.of_clause found isClause foundParent
  cases foundType : table.type? typeId with
  | none =>
    unfold Lookups.resolve
    rw [foundType]
    rfl
  | some type =>
    by_cases inside : accessor.owner ∈ (lookups.interfaces typeId).run
    · have bodiless : accessor.hasImplementation = false := by
        rw [derived.hasImplementation_clause laid found isClause foundParent, Bool.eq_false_iff]
        exact fun bodied => Lookups.implemented_of_body foundType foundParent noClause
          implementableParent (owner ▸ inside) bodied missing
      exact Lookups.resolve_clause_of_missing foundType found isClause foundParent noClause
        bodiless missing
    · rw [Lookups.resolve_clause foundType found isClause foundParent noClause,
        Lookups.whenImplemented_run, if_neg fun both => inside both.2]
      rfl

include implementable

/-- An accessor of the implementing member that counts is the answer. -/
theorem Derived.offered_clause {implementation : Implementation}
    (answered : (lookups.resolve table typeId parentId).run.implementation = some implementation)
    (other : implementation.source ≠ .default) {clause : MemberId}
    (offers : table.Offers kind implementation clause) :
    (lookups.resolve table typeId id).run.implementation =
      some ⟨clause, implementation.source⟩ := by
  obtain ⟨isClause, owner⟩ := laid.of_accessor foundParent has found
  obtain ⟨noClause, _, _⟩ := laid.of_clause found isClause foundParent
  obtain ⟨type, foundType, inside⟩ :=
    laid.inside_of_implementation foundParent has found answered
  obtain ⟨implementing, source⟩ := implementation
  cases source with
  | default => exact absurd rfl other
  | explicit =>
    obtain ⟨symbol, foundBound, hasClause⟩ := Option.bind_eq_some_iff.mp offers.1
    obtain ⟨clauseSymbol, foundClause, _⟩ := laid.accessor foundBound hasClause
    have isBound := Lookups.isBoundTo_of_explicit foundType foundParent noClause answered foundBound
    have clauseBound := derived.target_clause laid foundParent has found implementable foundBound
      isBound hasClause foundClause
    exact Lookups.resolve_of_boundClause foundType found implementable inside isClause foundParent
      noClause answered foundBound hasClause foundClause (decide_eq_true (owner ▸ clauseBound))
  | implicit =>
    rw [Lookups.implementation_clause foundType found isClause foundParent noClause
      implementable inside, Lookups.resolveClause_of_implicit answered rfl offers]
    rfl

include implementableParent

/-- Look-ups answer for an accessor as follows from their answer for its member. -/
theorem Derived.follows : table.Follows kind id accessor
    (lookups.resolve table typeId parentId).run (lookups.resolve table typeId id).run := by
  obtain ⟨isClause, owner⟩ := laid.of_accessor foundParent has found
  obtain ⟨noClause, _, _⟩ := laid.of_clause found isClause foundParent
  refine Follows.of_cases laid (fun missing => ?_) (fun isDefault => ?_)
    (fun answered other offers => derived.offered_clause laid foundParent has found implementable
      answered other offers)
    (fun answered other alone => ?_)
  · have above : (lookups.resolve table typeId parentId).run.source? = none :=
      Option.map_eq_none_iff.mpr missing
    exact Option.map_eq_none_iff.mp
      (derived.missing_clause laid foundParent implementableParent has found above)
  · obtain ⟨_, answered, _⟩ := Option.map_eq_some_iff.mp isDefault
    obtain ⟨type, foundType, inside⟩ :=
      laid.inside_of_implementation foundParent has found answered
    have bodied : accessor.hasImplementation = true :=
      (derived.hasImplementation_clause laid found isClause foundParent).trans
        (Lookups.hasImplementation_of_default laid foundType foundParent isDefault)
    exact Lookups.resolve_clause_of_default foundType found isClause foundParent noClause
      implementable inside bodied isDefault
  · obtain ⟨type, foundType, inside⟩ :=
      laid.inside_of_implementation foundParent has found answered
    rw [Lookups.implementation_clause foundType found isClause foundParent noClause
      implementable inside, Lookups.resolveClause_of_alone answered other alone]
    rfl

end

/-- In a table that is made by binding, the answer for an accessor follows from that for its
member: both are given from every memory, and it makes no difference what else is asked for. -/
theorem Made.accessors_follow_members (made : Made table)
    (foundParent : table.member? parentId = some parent)
    (implementableParent : table.isImplementable parent = true)
    (has : parent.accessor? kind = some id) (found : table.member? id = some accessor)
    (implementable : table.isImplementable accessor = true) (typeId : TypeId) :
    (∀ memory, ∃ resolution answer before after,
      (table.resolve typeId parentId).answer memory = (.ok resolution, before) ∧
        (table.resolve typeId id).answer before = (.ok answer, after)) ∧
    ∀ {start final resolution answer}, table.Resolves start final typeId parentId resolution →
      table.Resolves start final typeId id answer →
        table.Follows kind id accessor resolution answer := by
  have wellFormed := made.wellFormed
  have closed := wellFormed.closed
  constructor
  · intro memory
    obtain ⟨resolution, before, answered⟩ := exists_resolution closed typeId parentId memory
    obtain ⟨answer, after, answeredNext⟩ := exists_resolution closed typeId id before
    exact ⟨resolution, answer, before, after, answered, answeredNext⟩
  · intro start final resolution answer resolves answers
    rw [resolves.eq closed, answers.eq closed]
    exact made.derived.follows wellFormed.laid foundParent implementableParent has found
      implementable

/-- An interface with a property, and a class whose property has a private setter. -/
def clock : AssemblyDecl where
  name := "Clocks"
  types :=
    [{ name := "IClock", kind := .interfaceType, members :=
        [.property { name := "Time", type := "int", getter := some {}, setter := some {} }] },
     { name := "Clock", kind := .classType, interfaces := ["IClock"], members :=
        [.property { name := "Time", type := "int", modifiers := { isPublic := true },
                     getter := some { hasBody := true },
                     setter := some { modifiers := { isPrivate := true }, hasBody := true } }] }]

/-- The table with both types, bound from source. -/
def clocked : SymbolTable := ((∅ : SymbolTable).bind clock [] (.source .v8_0)).table

/-- The property of the class implements that of the interface, but its setter does not count,
and the setter of the interface has no body. -/
theorem clocked_setter : ∃ setter, clocked.member? ⟨2⟩ = some setter ∧
    (∃ before after,
      (clocked.resolve ⟨1⟩ ⟨0⟩).answer ∅ =
        (.ok { implementation := some ⟨⟨3⟩, .implicit⟩ }, before) ∧
      (clocked.resolve ⟨1⟩ ⟨2⟩).answer before =
        (.ok { closeMismatch := some ⟨⟨5⟩, .notPublic⟩ }, after)) ∧
    clocked.Follows .set ⟨2⟩ setter { implementation := some ⟨⟨3⟩, .implicit⟩ }
      { closeMismatch := some ⟨⟨5⟩, .notPublic⟩ } := by
  have made : Made clocked := .bind .empty clock [] (.source .v8_0)
  have time := (Option.some_get (show (clocked.member? ⟨0⟩).isSome = true by decide +kernel)).symm
  have setter := (Option.some_get (show (clocked.member? ⟨2⟩).isSome = true by decide +kernel)).symm
  obtain ⟨answers, follows⟩ := made.accessors_follow_members time (by decide +kernel)
    (show MemberSymbol.accessor? _ .set = some ⟨2⟩ by decide +kernel) setter (by decide +kernel) ⟨1⟩
  obtain ⟨resolution, answer, before, after, first, second⟩ := answers ∅
  have isFirst : ((clocked.resolve ⟨1⟩ ⟨0⟩).answer ∅).1.toOption =
      some { implementation := some ⟨⟨3⟩, .implicit⟩ } := by decide +kernel
  have isSecond : ((clocked.resolve ⟨1⟩ ⟨2⟩).answer
      ((clocked.resolve ⟨1⟩ ⟨0⟩).answer ∅).2).1.toOption =
      some { closeMismatch := some ⟨⟨5⟩, .notPublic⟩ } := by decide +kernel
  rw [first] at isFirst isSecond
  rw [second] at isSecond
  cases isFirst
  cases isSecond
  refine ⟨_, setter, ⟨before, after, first, second⟩, follows ⟨∅, before, .refl, first, ?_⟩
    ⟨before, after, ?_, second, .refl⟩⟩
  · have asked : clocked.Queried before _ := .resolve ⟨1⟩ ⟨2⟩
    rw [second] at asked
    exact .single asked
  · have asked : clocked.Queried ∅ _ := .resolve ⟨1⟩ ⟨0⟩
    rw [first] at asked
    exact .single asked

end SymbolTable

end Conformance
