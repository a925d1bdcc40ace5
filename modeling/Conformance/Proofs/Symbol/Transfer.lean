import Conformance.Proofs.Symbol.Counterparts
import Conformance.Proofs.Symbol.Embedding

/-!
The embedding of a table in one whose assemblies have the same outlines.

A symbol is sent to the symbol at its place (`SymbolTable.typeImage?`,
`SymbolTable.memberImage?`). Ids without a symbol are sent to ids without one.
-/

namespace Conformance

namespace SymbolTable

section

variable (s t : SymbolTable)

/-- The type at the same place in another table. -/
def typeImage? (id : TypeId) : Option TypeId := (s.typePlace? id).bind t.typeAt?

/-- The member at the same place in another table. -/
def memberImage? (id : MemberId) : Option MemberId := (s.memberPlace? id).bind t.memberAt?

/-- The map of types by their places. -/
def typeMap (id : TypeId) : TypeId := (s.typeImage? t id).getD ⟨t.types.size + id.index⟩

/-- The map of members by their places. -/
def memberMap (id : MemberId) : MemberId := (s.memberImage? t id).getD ⟨t.members.size + id.index⟩

end

variable {s t : SymbolTable} (first : s.Orderly) (second : t.Orderly)

/-! ## Images -/

section images

include first second

theorem typeImage?_iff {x y : TypeId} : s.typeImage? t x = some y ↔
    ∃ place, s.HasType place x ∧ t.HasType place y := by
  simp only [typeImage?, Option.bind_eq_some_iff, typePlace?_iff first.wellFormed.laid,
    typeAt?_iff second.distinct]

theorem memberImage?_iff {m n : MemberId} : s.memberImage? t m = some n ↔
    ∃ place, s.HasMember place m ∧ t.HasMember place n := by
  simp only [memberImage?, Option.bind_eq_some_iff, memberPlace?_iff first.wellFormed.laid,
    memberAt?_iff second.distinct]

theorem Twins.typeMap {x y : TypeId} (twins : s.Twins t x y) : s.typeMap t x = y := by
  rw [SymbolTable.typeMap, (typeImage?_iff first second).mpr twins.place]
  rfl

theorem MemberCounterparts.memberMap {m n : MemberId} {M N : MemberSymbol}
    (members : MemberCounterparts s t m n M N) : s.memberMap t m = n := by
  rw [SymbolTable.memberMap, (memberImage?_iff first second).mpr members.place]
  rfl

theorem typeMap_injective : Function.Injective (s.typeMap t) := by
  refine injective_getD (fun {x y z} imageX imageY => ?_) (fun x y same => ?_)
    fun {x y z} image same => ?_
  · obtain ⟨place, hasX, hasZ⟩ := (typeImage?_iff first second).mp imageX
    obtain ⟨other, hasY, again⟩ := (typeImage?_iff first second).mp imageY
    cases hasZ.place_unique second.wellFormed.laid again
    exact hasX.unique first.distinct hasY
  · obtain ⟨i⟩ := x
    obtain ⟨j⟩ := y
    have indices : t.types.size + i = t.types.size + j := congrArg TypeId.index same
    rw [show i = j by omega]
  · obtain ⟨_, _, has⟩ := (typeImage?_iff first second).mp image
    obtain ⟨_, found⟩ := has.type? second.wellFormed.laid
    have inside := lt_of_type? found
    rw [same] at inside
    simp only at inside
    omega

theorem memberMap_injective : Function.Injective (s.memberMap t) := by
  refine injective_getD (fun {x y z} imageX imageY => ?_) (fun x y same => ?_)
    fun {x y z} image same => ?_
  · obtain ⟨place, hasX, hasZ⟩ := (memberImage?_iff first second).mp imageX
    obtain ⟨other, hasY, again⟩ := (memberImage?_iff first second).mp imageY
    cases hasZ.place_unique second.wellFormed.laid again
    exact hasX.unique first.distinct hasY
  · obtain ⟨i⟩ := x
    obtain ⟨j⟩ := y
    have indices : t.members.size + i = t.members.size + j := congrArg MemberId.index same
    rw [show i = j by omega]
  · obtain ⟨_, _, has⟩ := (memberImage?_iff first second).mp image
    obtain ⟨_, found⟩ := has.member? second.wellFormed.laid
    have inside := lt_of_member? found
    rw [same] at inside
    simp only at inside
    omega

end images

/-! ## Symbols look like their images -/

section alike

variable (corresponds : s.Corresponds t)

include first second

/-- Links to types at the same place, as links to images. -/
theorem map_eq_of_twins {x y : Option TypeId} (twins : Option.Rel (s.Twins t) x y) :
    y = x.map (s.typeMap t) := by
  cases twins with
  | none => rfl
  | some twins => rw [Option.map_some, twins.typeMap first second]

theorem TypeCounterparts.alike {x y : TypeId} {X Y : TypeSymbol}
    (types : TypeCounterparts s t x y X Y) :
    TypeSymbol.Alike (s.typeMap t) (s.memberMap t) X Y where
  isInterface := types.isInterface
  base := map_eq_of_twins first second (types.base first second)
  interfaces := map_eq_of_forall₂ <|
    (types.interfaces first second).imp fun _ _ twins => twins.typeMap first second
  members := map_eq_of_forall₂ <|
    (forall₂_of_getElem? (types.head first second)).imp fun _ _ ⟨_, _, heads, _⟩ =>
      heads.memberMap first second

/-- What is common to members and accessors at the same place. -/
theorem MemberCounterparts.alike {m n : MemberId} {M N : MemberSymbol}
    (members : MemberCounterparts s t m n M N) (kind : N.kind = M.kind.map (s.memberMap t))
    (target : Option.Rel (TargetTwins s t) M.target N.target) :
    MemberSymbol.Alike s t (s.typeMap t) (s.memberMap t) M N := by
  obtain ⟨X, Y, owners, same⟩ := members.owner
  have key : SignatureKey.ofMember N = SignatureKey.ofMember M := congrArg MemberOutline.key same
  have implementable : t.isImplementable N = s.isImplementable M := by
    rw [isImplementable_eq owners.second, isImplementable_eq owners.first, owners.isInterface]
    exact congrArg MemberOutline.implementable same
  refine ⟨congrArg SignatureKey.name key, kind, congrArg SignatureKey.parameters key, ?_, ?_,
    congrArg MemberOutline.isStatic same, congrArg MemberOutline.isPublic same, ?_,
    implementable, fun reached => ?_⟩
  · exact (owners.twins.typeMap first second).symm
  · rw [MemberSymbol.isExplicit, MemberSymbol.isExplicit,
      show N.explicitInterface = M.explicitInterface from
        congrArg MemberOutline.explicitInterface same]
  · refine eq_map_of_rel target fun a b twins => ?_
    obtain ⟨A, B, bound⟩ := twins.member
    rw [ExplicitTarget.map, twins.interface.typeMap first second, bound.memberMap first second]
  · have implemented := congrArg MemberOutline.implemented same
    rw [isImplementable_eq owners.first] at reached
    have reachedImage : N.implementableIn X.isInterface = true :=
      (congrArg MemberOutline.implementable same).trans reached
    simpa only [MemberSymbol.outline, reached, reachedImage, Bool.true_and] using implemented

/-- A member that is no accessor has the kind of its counterpart, with the
accessors at the same places. -/
theorem HeadCounterparts.kind {m n : MemberId} {M N : MemberSymbol}
    (heads : HeadCounterparts s t m n M N) : N.kind = M.kind.map (s.memberMap t) := by
  obtain ⟨X, Y, owners, same⟩ := heads.owner
  have shape : MemberShape.ofKind N.kind = MemberShape.ofKind M.kind :=
    congrArg (fun outline => outline.key.shape) same
  have accessor (kind : AccessorKind) :
      N.accessor? kind = (M.accessor? kind).map (s.memberMap t) :=
    eq_map_of_rel (heads.accessor kind) fun _ _ ⟨_, _, members, _⟩ =>
      (members.memberMap first second).symm
  refine MemberSymbol.kind_eq_map shape accessor ?_
  rw [heads.noClause.1, heads.noClause.2]
  rfl

include corresponds

/-- A member that is no accessor has a counterpart. -/
theorem Corresponds.head {m : MemberId} {M : MemberSymbol} (found : s.member? m = some M)
    (noClause : M.clause? = none) : ∃ n N X Y, HeadCounterparts s t m n M N ∧
      TypeCounterparts s t M.owner N.owner X Y := by
  obtain ⟨X, foundOwner, listed⟩ := first.wellFormed.laid.listed found noClause
  obtain ⟨y, Y, types⟩ := corresponds.type first second foundOwner
  obtain ⟨position, inside⟩ := List.getElem?_of_mem listed
  obtain ⟨n, _, M', N, heads, _, own⟩ :=
    exists_of_rel_some (types.head first second position) inside
  cases found.symm.trans heads.first
  exact ⟨n, N, X, Y, heads, own ▸ types⟩

/-- Every member looks like its counterpart. -/
theorem Corresponds.member {m : MemberId} {M : MemberSymbol} (found : s.member? m = some M) :
    ∃ n N, MemberCounterparts s t m n M N ∧
      MemberSymbol.Alike s t (s.typeMap t) (s.memberMap t) M N := by
  cases clause : M.clause? with
  | none =>
    obtain ⟨n, N, X, Y, heads, types⟩ := corresponds.head first second found clause
    refine ⟨n, N, heads.toMemberCounterparts,
      heads.alike first second (heads.kind first second) ?_⟩
    obtain ⟨_, _, _, _, target⟩ := first.target_head found clause types.first
    obtain ⟨_, _, _, _, image⟩ := second.target_head heads.second heads.noClause.2 types.second
    have bound := heads.boundTarget? first second corresponds types
    rw [← target, ← image] at bound
    exact rel_imp bound fun _ _ ⟨interfaces, A, B, bound⟩ =>
      ⟨interfaces, A, B, bound.toMemberCounterparts⟩
  | some entry =>
    obtain ⟨kind, p⟩ := entry
    obtain ⟨P, foundParent, noClause, _, has⟩ := first.wellFormed.laid.clause found clause
    obtain ⟨q, Q, X, Y, heads, types⟩ := corresponds.head first second foundParent noClause
    obtain ⟨n, _, M', N, members, _, clauseImage⟩ := exists_of_rel_some (heads.accessor kind) has
    cases found.symm.trans members.first
    refine ⟨n, N, members, members.alike first second ?_ ?_⟩
    · rw [M.kind_of_clause? clause, N.kind_of_clause? clauseImage, MemberKind.map,
        heads.memberMap first second]
    · rw [first.target_clause found clause foundParent types.first,
        second.target_clause members.second clauseImage heads.second types.second]
      exact rel_bind (heads.boundTarget? first second corresponds types)
        fun _ _ ⟨interfaces, _, _, bound⟩ => bound.clauseTarget? kind interfaces

end alike

/-- The embedding of a table in one whose assemblies have the same outlines. -/
def Corresponds.embedding (first : s.Orderly) (second : t.Orderly)
    (corresponds : s.Corresponds t) : Embedding s t where
  type := s.typeMap t
  member := s.memberMap t
  type_injective := typeMap_injective first second
  member_injective := memberMap_injective first second
  types id := by
    cases found : s.type? id with
    | some X =>
      obtain ⟨y, Y, types⟩ := corresponds.type first second found
      rw [types.twins.typeMap first second, types.second]
      exact .some (types.alike first second)
    | none =>
      have fresh : s.typeMap t id = ⟨t.types.size + id.index⟩ := by
        rw [typeMap, typeImage?, typePlace?, found]
        rfl
      rw [fresh, type?_eq_none.mpr (Nat.le_add_right ..)]
      exact .none
  members id := by
    cases found : s.member? id with
    | some M =>
      obtain ⟨n, N, members, alike⟩ := corresponds.member first second found
      rw [members.memberMap first second, members.second]
      exact .some alike
    | none =>
      have fresh : s.memberMap t id = ⟨t.members.size + id.index⟩ := by
        rw [memberMap, memberImage?, memberPlace?, found]
        rfl
      rw [fresh, member?_eq_none.mpr (Nat.le_add_right ..)]
      exact .none

end SymbolTable

end Conformance
