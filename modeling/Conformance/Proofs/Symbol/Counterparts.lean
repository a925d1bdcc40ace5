import Conformance.Proofs.Binding.Exported
import Conformance.Proofs.Symbol.Correspondence

/-!
Members of tables whose assemblies have the same outlines.

Types at the same place list members at the same places
(`SymbolTable.TypeCounterparts.head`), with accessors of the same kinds, and
explicit implementations among them are bound to targets at the same place
(`SymbolTable.HeadCounterparts.boundTarget?`).
-/

namespace Conformance

theorem MemberSymbol.kind_of_clause? (member : MemberSymbol) {kind : AccessorKind}
    {parent : MemberId} (clause : member.clause? = some (kind, parent)) :
    member.kind = .accessor kind parent := by
  unfold clause? at clause
  cases known : member.kind <;> rw [known] at clause <;> cases clause
  rfl

/-- The shape of an accessor says which clause it is. -/
theorem MemberSymbol.ofKind_of_clause? (member : MemberSymbol) {kind : AccessorKind}
    {parent : MemberId} (clause : member.clause? = some (kind, parent)) :
    MemberShape.ofKind member.kind = .accessor kind := by
  rw [member.kind_of_clause? clause]
  rfl

namespace SymbolTable

/-- Two members at the same place have the same outline. -/
structure MemberCounterparts (s t : SymbolTable) (m n : MemberId) (M N : MemberSymbol) : Prop where
  first : s.member? m = some M
  second : t.member? n = some N
  place : ∃ place, s.HasMember place m ∧ t.HasMember place n
  owner : ∃ X Y, TypeCounterparts s t M.owner N.owner X Y ∧
    N.outline X.isInterface = M.outline X.isInterface

/-- Two members that are no accessors stand at the same place, and so do their
accessors. -/
structure HeadCounterparts (s t : SymbolTable) (m n : MemberId) (M N : MemberSymbol) : Prop
    extends MemberCounterparts s t m n M N where
  noClause : M.clause? = none ∧ N.clause? = none
  accessor : ∀ kind, Option.Rel (fun a c => ∃ A C, MemberCounterparts s t a c A C ∧
    A.clause? = some (kind, m) ∧ C.clause? = some (kind, n)) (M.accessor? kind) (N.accessor? kind)

variable {s t : SymbolTable}

/-! ## Accessors -/

/-- An accessor is told from the others of its member by its outline. -/
theorem accessor?_of_outlines (first : s.Laid) (second : t.Laid) {m n : MemberId}
    {M N : MemberSymbol} (foundFirst : s.member? m = some M) (foundSecond : t.member? n = some N)
    {inside : Bool} (outlines : (t.accessorsOf N).map (·.2.outline inside) =
      (s.accessorsOf M).map (·.2.outline inside)) {kind : AccessorKind} {a : MemberId}
    (has : M.accessor? kind = some a) :
    ∃ c A C, N.accessor? kind = some c ∧ s.member? a = some A ∧ t.member? c = some C ∧
      A.clause? = some (kind, m) ∧ C.clause? = some (kind, n) ∧ A.owner = M.owner ∧
      C.owner = N.owner ∧ C.outline inside = A.outline inside := by
  obtain ⟨A, foundA, clauseA, ownA⟩ := first.accessor foundFirst has
  have listed : (a, A) ∈ s.accessorsOf M :=
    mem_accessorsOf (MemberSymbol.mem_accessors.mpr ⟨kind, has⟩) foundA
  have outlined : A.outline inside ∈ (t.accessorsOf N).map (·.2.outline inside) := by
    rw [outlines]
    exact List.mem_map_of_mem listed
  obtain ⟨⟨c, C⟩, listedC, same⟩ := List.mem_map.mp outlined
  obtain ⟨accessor, foundC⟩ := member?_of_mem_accessorsOf listedC
  obtain ⟨kindC, hasC⟩ := MemberSymbol.mem_accessors.mp accessor
  obtain ⟨C', foundC', clauseC, ownC⟩ := second.accessor foundSecond hasC
  cases foundC.symm.trans foundC'
  have shape : MemberShape.ofKind C.kind = MemberShape.ofKind A.kind :=
    congrArg (fun outline => outline.key.shape) same
  rw [A.ofKind_of_clause? clauseA, C.ofKind_of_clause? clauseC] at shape
  cases shape
  exact ⟨c, A, C, hasC, foundA, foundC, clauseA, clauseC, ownA, ownC, same⟩

/-! ## Members of types -/

section

variable (first : s.Orderly) (second : t.Orderly) {x y : TypeId} {X Y : TypeSymbol}
  (types : TypeCounterparts s t x y X Y)

include first second types

/-- The members of types at the same place have the same outlines, one by one. -/
theorem TypeCounterparts.blocks : List.Forall₂ (fun m n => ∃ M N, s.member? m = some M ∧
    t.member? n = some N ∧ t.blockOutline X.isInterface N = s.blockOutline X.isInterface M)
    X.members Y.members := by
  have exists_first : ∀ m ∈ X.members, ∃ entry,
      ((s.member? m).map fun member => (m, member)) = some entry := fun m listed => by
    obtain ⟨M, found⟩ := first.wellFormed.closed.member types.first listed
    exact ⟨(m, M), by rw [found]; rfl⟩
  have exists_second : ∀ n ∈ Y.members, ∃ entry,
      ((t.member? n).map fun member => (n, member)) = some entry := fun n listed => by
    obtain ⟨N, found⟩ := second.wellFormed.closed.member types.second listed
    exact ⟨(n, N), by rw [found]; rfl⟩
  have outlines : (t.membersOf Y).map (fun entry => t.blockOutline X.isInterface entry.2) =
      (s.membersOf X).map fun entry => s.blockOutline X.isInterface entry.2 := by
    have members := congrArg TypeOutline.members types.outline
    simp only [typeOutline, types.isInterface] at members
    exact members
  refine ((map_filterMap_eq_iff exists_first exists_second).mp outlines).imp ?_
  rintro m n ⟨entry, other, isEntry, isOther, outline⟩
  obtain ⟨M, foundFirst, rfl⟩ := Option.map_eq_some_iff.mp isEntry
  obtain ⟨N, foundSecond, rfl⟩ := Option.map_eq_some_iff.mp isOther
  exact ⟨M, N, foundFirst, foundSecond, outline⟩

omit first second in
/-- Members, or accessors of one kind, at one position of types at the same place. -/
theorem TypeCounterparts.counterparts {position : Nat} {m n a c : MemberId} {A C : MemberSymbol}
    (inFirst : X.members[position]? = some m) (inSecond : Y.members[position]? = some n)
    (clause : Option AccessorKind) (clauseA : s.clauseAt? m clause = some a)
    (clauseC : t.clauseAt? n clause = some c) (foundA : s.member? a = some A)
    (foundC : t.member? c = some C) (ownA : A.owner = x) (ownC : C.owner = y)
    (same : C.outline X.isInterface = A.outline X.isInterface) :
    MemberCounterparts s t a c A C where
  first := foundA
  second := foundC
  place := by
    obtain ⟨place, hasFirst, hasSecond⟩ := types.twins.place
    exact ⟨⟨place, position, clause⟩, ⟨x, X, m, hasFirst, types.first, inFirst, clauseA⟩,
      ⟨y, Y, n, hasSecond, types.second, inSecond, clauseC⟩⟩
  owner := ⟨X, Y, by rw [ownA, ownC]; exact types, same⟩

/-- Members at one position of types at the same place. -/
theorem TypeCounterparts.head (position : Nat) :
    Option.Rel (fun m n => ∃ M N, HeadCounterparts s t m n M N ∧ M.owner = x ∧ N.owner = y)
      X.members[position]? Y.members[position]? := by
  have related := forall₂_getElem? (types.blocks first second) position
  generalize inFirst : X.members[position]? = m at related ⊢
  generalize inSecond : Y.members[position]? = n at related ⊢
  cases related with
  | none => exact .none
  | @some m n related =>
    obtain ⟨M, N, foundFirst, foundSecond, outline⟩ := related
    have firstLaid := first.wellFormed.laid
    have secondLaid := second.wellFormed.laid
    obtain ⟨ownFirst, noClauseFirst⟩ :=
      firstLaid.of_head types.first (List.mem_of_getElem? inFirst) foundFirst
    obtain ⟨ownSecond, noClauseSecond⟩ :=
      secondLaid.of_head types.second (List.mem_of_getElem? inSecond) foundSecond
    have heads := types.counterparts inFirst inSecond none rfl rfl foundFirst foundSecond
      ownFirst ownSecond (congrArg BlockOutline.head outline)
    have accessors := congrArg BlockOutline.accessors outline
    refine .some ⟨M, N, ⟨heads, ⟨noClauseFirst, noClauseSecond⟩, fun kind => ?_⟩,
      ownFirst, ownSecond⟩
    cases has : M.accessor? kind with
    | some a =>
      obtain ⟨c, A, C, hasC, foundA, foundC, clauseA, clauseC, ownA, ownC, same⟩ :=
        accessor?_of_outlines firstLaid secondLaid foundFirst foundSecond accessors has
      rw [hasC]
      have reached := (clauseAt?_accessor foundFirst kind).trans has
      have reachedImage := (clauseAt?_accessor foundSecond kind).trans hasC
      exact .some ⟨A, C, types.counterparts inFirst inSecond (some kind) reached reachedImage
        foundA foundC (ownA.trans ownFirst) (ownC.trans ownSecond) same, clauseA, clauseC⟩
    | none =>
      cases hasC : N.accessor? kind with
      | none => exact .none
      | some c =>
        obtain ⟨a, _, _, hasA, _⟩ :=
          accessor?_of_outlines secondLaid firstLaid foundSecond foundFirst accessors.symm hasC
        rw [has] at hasA
        cases hasA

theorem TypeCounterparts.membersOf :
    List.Forall₂ (fun e f : MemberId × MemberSymbol => HeadCounterparts s t e.1 f.1 e.2 f.2)
      (s.membersOf X) (t.membersOf Y) := by
  unfold SymbolTable.membersOf
  refine List.rel_filterMap ?_ (forall₂_of_getElem? (types.head first second))
  rintro m n ⟨M, N, heads, _⟩
  simp only [heads.first, heads.second]
  exact .some heads

end

/-! ## Targets -/

/-- Two targets stand at the same place. -/
structure TargetTwins (s t : SymbolTable) (first second : ExplicitTarget) : Prop where
  interface : s.Twins t first.interface second.interface
  member : ∃ M N, MemberCounterparts s t first.member second.member M N

section

variable (first : s.Orderly) (second : t.Orderly) (corresponds : s.Corresponds t)

include first second corresponds

/-- Members that name an interface are bound to members of it at the same place. -/
theorem HeadCounterparts.boundTarget? {m n : MemberId} {M N : MemberSymbol}
    (heads : HeadCounterparts s t m n M N) {X Y : TypeSymbol}
    (types : TypeCounterparts s t M.owner N.owner X Y) :
    Option.Rel (fun a b => s.Twins t a.interface b.interface ∧
        ∃ A B, HeadCounterparts s t a.member b.member A B)
      (s.boundTarget? X.assembly M) (t.boundTarget? Y.assembly N) := by
  obtain ⟨X', Y', types', outline⟩ := heads.owner
  have explicit : N.explicitInterface = M.explicitInterface :=
    congrArg MemberOutline.explicitInterface outline
  have key : SignatureKey.ofMember N = SignatureKey.ofMember M :=
    congrArg MemberOutline.key outline
  unfold SymbolTable.boundTarget?
  rw [explicit]
  cases M.explicitInterface with
  | none => exact .none
  | some name =>
    refine rel_bind (types.names.resolve? name) ?_
    rintro a b ⟨twins, foundA, foundB, _⟩
    obtain ⟨A, B, interfaces⟩ := corresponds.type_of_twins first second twins
    cases foundA.symm.trans interfaces.first
    cases foundB.symm.trans interfaces.second
    simp only [interfaces.isInterface]
    split
    · have found := forall₂_find?_related (interfaces.membersOf first second)
        (p := fun candidate => s.isExplicitCandidate candidate.2 && M.matchesSignature candidate.2)
        (q := fun candidate => t.isExplicitCandidate candidate.2 && N.matchesSignature candidate.2)
        ?_
      · exact rel_map found fun c d members => ⟨twins, c.2, d.2, members⟩
      · intro e f members
        obtain ⟨C, D, owners, same⟩ := members.owner
        have candidate : t.isExplicitCandidate f.2 = s.isExplicitCandidate e.2 := by
          rw [isExplicitCandidate_eq owners.first, isExplicitCandidate_eq owners.second,
            owners.isInterface, same]
        have keys : SignatureKey.ofMember f.2 = SignatureKey.ofMember e.2 :=
          congrArg MemberOutline.key same
        rw [candidate, MemberSymbol.matchesSignature, MemberSymbol.matchesSignature, key, keys]
    · exact .none

end

/-- So are their accessors. -/
theorem HeadCounterparts.clauseTarget? (kind : AccessorKind) {a b : ExplicitTarget}
    (interfaces : s.Twins t a.interface b.interface) {A B : MemberSymbol}
    (heads : HeadCounterparts s t a.member b.member A B) :
    Option.Rel (TargetTwins s t) (s.clauseTarget? kind a) (t.clauseTarget? kind b) := by
  unfold SymbolTable.clauseTarget?
  rw [heads.first, heads.second]
  refine rel_bind (heads.accessor kind) ?_
  rintro c d ⟨C, D, members, _⟩
  obtain ⟨X, Y, owners, same⟩ := members.owner
  have candidate : t.isExplicitCandidate D = s.isExplicitCandidate C := by
    rw [isExplicitCandidate_eq owners.first, isExplicitCandidate_eq owners.second,
      owners.isInterface, same]
  simp only [Option.bind_eq_bind, Option.bind_some, members.first, members.second, candidate]
  split
  · exact .some ⟨interfaces, C, D, members⟩
  · exact .none

/-! ## Targets of declared members -/

/-- A member is bound to what it names. -/
theorem Orderly.target_head (orderly : s.Orderly) {m : MemberId} {M : MemberSymbol}
    {X : TypeSymbol} (found : s.member? m = some M) (noClause : M.clause? = none)
    (owner : s.type? M.owner = some X) :
    ∃ (decl : MemberDecl) (scope : MemberScope), s.Carries X.assembly m (decl.bind scope m) ∧
      M = { (decl.bind scope m).head with target := M.target } ∧
      M.target = s.boundTarget? X.assembly M := by
  obtain ⟨X', foundOwner, listed⟩ := orderly.wellFormed.laid.listed found noClause
  cases owner.symm.trans foundOwner
  obtain ⟨A, foundAssembly, inside⟩ := orderly.wellFormed.laid.assembly owner
  obtain ⟨decl, scope, _, _, carries⟩ := (orderly.traced foundAssembly).members inside owner listed
  have head : s.member? m = some { (decl.bind scope m).head with
      target := s.expectedTarget? X.assembly (decl.bind scope m).head } := carries 0 _ rfl
  cases found.symm.trans head
  refine ⟨decl, scope, carries, rfl, ?_⟩
  show s.expectedTarget? X.assembly (decl.bind scope m).head = _
  rw [expectedTarget?_head (decl.bind_head_clause scope m)]
  rfl

/-- An accessor is bound to the clause of what its member is bound to. -/
theorem Orderly.target_clause (orderly : s.Orderly) {a m : MemberId} {A M : MemberSymbol}
    {X : TypeSymbol} {kind : AccessorKind} (foundAccessor : s.member? a = some A)
    (clause : A.clause? = some (kind, m)) (found : s.member? m = some M)
    (owner : s.type? M.owner = some X) :
    A.target = (s.boundTarget? X.assembly M).bind (s.clauseTarget? kind) := by
  obtain ⟨noClause, _, has⟩ := orderly.wellFormed.laid.of_clause foundAccessor clause found
  obtain ⟨decl, scope, carries, made, _⟩ := orderly.target_head found noClause owner
  have hasHead : (decl.bind scope m).head.accessor? kind = some a := by
    rw [made] at has
    exact has
  obtain ⟨position, declared, listed, rfl, rfl⟩ :=
    (decl.bind_head_accessor?_eq_some scope m).mp hasHead
  cases foundAccessor.symm.trans (carries.clause listed)
  show s.expectedTarget? X.assembly (decl.clauseSymbol scope m declared) = _
  exact expectedTarget?_clause rfl found

end SymbolTable

end Conformance
