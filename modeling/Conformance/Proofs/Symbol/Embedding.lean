import Conformance.Proofs.Options
import Conformance.Resolution.Level
import Mathlib.Data.List.Basic
import Mathlib.Data.List.Forall2
import Mathlib.Data.Option.Basic

/-!
Embeddings of symbol tables.

An embedding sends the ids of one table to ids of another, so that the symbols
at both ends look the same to resolution: they have the same shape, stand in
the same lists and are linked in the same way. Names of types, locations and
whatever else resolution does not look at may differ.

What a table says about itself without memory commutes with an embedding: base
chains (`Embedding.baseChain`) and level tables (`Embedding.ofType`).
-/

namespace Conformance

namespace MemberKind

/-- The kind with its ids replaced. -/
def map (f : MemberId → MemberId) : MemberKind → MemberKind
  | method => method
  | property isIndexer getter setter => property isIndexer (getter.map f) (setter.map f)
  | event adder remover => event (adder.map f) (remover.map f)
  | accessor kind parent => accessor kind (f parent)

@[simp] theorem ofKind_map (f : MemberId → MemberId) (kind : MemberKind) :
    MemberShape.ofKind (kind.map f) = MemberShape.ofKind kind := by
  cases kind with
  | property isIndexer getter setter => cases isIndexer <;> rfl
  | _ => rfl

end MemberKind

namespace MemberShape

theorem ofKind_eq_method {kind : MemberKind} (shape : ofKind kind = method) : kind = .method := by
  cases kind with
  | method => rfl
  | property isIndexer getter setter => cases isIndexer <;> cases shape
  | _ => cases shape

theorem ofKind_eq_property {kind : MemberKind} {isIndexer : Bool} {getter setter : Option MemberId}
    (shape : ofKind kind = ofKind (.property isIndexer getter setter)) :
    ∃ getter' setter', kind = .property isIndexer getter' setter' := by
  cases kind with
  | property isIndexer' getter' setter' =>
    cases isIndexer <;> cases isIndexer' <;> first | exact ⟨_, _, rfl⟩ | cases shape
  | _ => cases isIndexer <;> cases shape

theorem ofKind_eq_event {kind : MemberKind} (shape : ofKind kind = event) :
    ∃ adder remover, kind = .event adder remover := by
  cases kind with
  | event adder remover => exact ⟨_, _, rfl⟩
  | property isIndexer getter setter => cases isIndexer <;> cases shape
  | _ => cases shape

end MemberShape

/-- The kind of a member is known by its shape, by its accessors and by the member
that it is an accessor of. -/
theorem MemberSymbol.kind_eq_map {member image : MemberSymbol} {f : MemberId → MemberId}
    (shape : MemberShape.ofKind image.kind = MemberShape.ofKind member.kind)
    (accessor : ∀ kind, image.accessor? kind = (member.accessor? kind).map f)
    (clause : image.clause? = member.clause?.map (Prod.map id f)) :
    image.kind = member.kind.map f := by
  unfold accessor? at accessor
  cases known : member.kind with
  | method =>
    rw [known] at shape
    exact MemberShape.ofKind_eq_method shape
  | property isIndexer getter setter =>
    rw [known] at shape
    obtain ⟨getter', setter', found⟩ := MemberShape.ofKind_eq_property shape
    simp only [known, found] at accessor
    rw [found, show getter' = _ from accessor .get, show setter' = _ from accessor .set]
    rfl
  | event adder remover =>
    rw [known] at shape
    obtain ⟨adder', remover', found⟩ := MemberShape.ofKind_eq_event shape
    simp only [known, found] at accessor
    rw [found, show adder' = _ from accessor .add, show remover' = _ from accessor .remove]
    rfl
  | accessor kind parent =>
    unfold clause? at clause
    rw [known] at clause
    cases found : image.kind <;> rw [found] at clause <;> cases clause
    rfl

/-- The target with its ids replaced. -/
def ExplicitTarget.map (type : TypeId → TypeId) (member : MemberId → MemberId)
    (target : ExplicitTarget) : ExplicitTarget :=
  ⟨type target.interface, member target.member⟩

/-- A type looks the same to resolution as its image. -/
structure TypeSymbol.Alike (type : TypeId → TypeId) (member : MemberId → MemberId)
    (source image : TypeSymbol) : Prop where
  isInterface : image.isInterface = source.isInterface
  base : image.base = source.base.map type
  interfaces : image.interfaces = source.interfaces.map type
  members : image.members = source.members.map member

/-- A member looks the same to resolution as its image. Whether it has an
implementation counts only for members that types can implement. -/
structure MemberSymbol.Alike (s t : SymbolTable) (type : TypeId → TypeId)
    (member : MemberId → MemberId) (source image : MemberSymbol) : Prop where
  name : image.name = source.name
  kind : image.kind = source.kind.map member
  parameters : image.signature.parameters = source.signature.parameters
  owner : image.owner = type source.owner
  isExplicit : image.isExplicit = source.isExplicit
  isStatic : image.modifiers.isStatic = source.modifiers.isStatic
  isPublic : image.isPublic = source.isPublic
  target : image.target = source.target.map (ExplicitTarget.map type member)
  implementable : t.isImplementable image = s.isImplementable source
  body : s.isImplementable source = true → image.hasImplementation = source.hasImplementation

/-- A map of ids under which the symbols of one table look like those of
another. Ids without a symbol are sent to ids without a symbol. -/
structure Embedding (s t : SymbolTable) where
  type : TypeId → TypeId
  member : MemberId → MemberId
  type_injective : Function.Injective type
  member_injective : Function.Injective member
  types : ∀ id, Option.Rel (TypeSymbol.Alike type member) (s.type? id) (t.type? (type id))
  members : ∀ id,
    Option.Rel (MemberSymbol.Alike s t type member) (s.member? id) (t.member? (member id))

namespace MemberSymbol.Alike

variable {s t : SymbolTable} {type : TypeId → TypeId} {member : MemberId → MemberId}
  {source image : MemberSymbol}

theorem key (alike : Alike s t type member source image) :
    SignatureKey.ofMember image = SignatureKey.ofMember source := by
  simp [SignatureKey.ofMember, alike.kind, alike.name, alike.parameters]

theorem clause (alike : Alike s t type member source image) :
    image.clause? = source.clause?.map fun clause => (clause.1, member clause.2) := by
  unfold clause?
  rw [alike.kind]
  cases source.kind <;> rfl

theorem accessor (alike : Alike s t type member source image) (kind : AccessorKind) :
    image.accessor? kind = (source.accessor? kind).map member := by
  unfold accessor?
  rw [alike.kind]
  cases source.kind <;> cases kind <;> rfl

theorem accessors (alike : Alike s t type member source image) :
    image.accessors = source.accessors.map member := by
  unfold MemberSymbol.accessors
  rw [alike.kind]
  cases source.kind with
  | property isIndexer getter setter => cases getter <;> cases setter <;> rfl
  | event adder remover => cases adder <;> cases remover <;> rfl
  | _ => rfl

end MemberSymbol.Alike

namespace Embedding

/-- The map of ids that changes nothing. -/
def refl (s : SymbolTable) : Embedding s s where
  type := id
  member := id
  type_injective := Function.injective_id
  member_injective := Function.injective_id
  types place := by
    show Option.Rel _ (s.type? place) (s.type? place)
    cases s.type? place with
    | none => exact .none
    | some symbol => exact .some ⟨rfl, by simp, by simp, by simp⟩
  members place := by
    show Option.Rel _ (s.member? place) (s.member? place)
    cases s.member? place with
    | none => exact .none
    | some symbol =>
      refine .some ⟨rfl, ?_, rfl, rfl, rfl, rfl, rfl, ?_, rfl, fun _ => rfl⟩
      · cases symbol.kind <;> simp [MemberKind.map]
      · cases symbol.target <;> rfl

@[simp] theorem refl_type (s : SymbolTable) : (refl s).type = id := rfl

@[simp] theorem refl_member (s : SymbolTable) : (refl s).member = id := rfl

variable {s t : SymbolTable} (e : Embedding s t)

theorem mem_map_type {id : TypeId} {ids : List TypeId} :
    e.type id ∈ ids.map e.type ↔ id ∈ ids :=
  List.mem_map_of_injective e.type_injective

/-- The image of a type that exists. -/
theorem type?_some {id : TypeId} {symbol : TypeSymbol} (found : s.type? id = some symbol) :
    ∃ image, t.type? (e.type id) = some image ∧
      TypeSymbol.Alike e.type e.member symbol image := by
  exact exists_of_rel_some (e.types id) found

/-- The image of a member that exists. -/
theorem member?_some {id : MemberId} {symbol : MemberSymbol} (found : s.member? id = some symbol) :
    ∃ image, t.member? (e.member id) = some image ∧
      MemberSymbol.Alike s t e.type e.member symbol image := by
  exact exists_of_rel_some (e.members id) found

/-- The image of an id without a type has none. -/
theorem type?_none {id : TypeId} (missing : s.type? id = none) : t.type? (e.type id) = none := by
  have related := e.types id
  rw [missing] at related
  generalize t.type? (e.type id) = other at related ⊢
  cases related
  rfl

/-- The image of an id without a member has none. -/
theorem member?_none {id : MemberId} (missing : s.member? id = none) :
    t.member? (e.member id) = none := by
  have related := e.members id
  rw [missing] at related
  generalize t.member? (e.member id) = other at related ⊢
  cases related
  rfl

/-! ## Base chains -/

theorem base_map (id : TypeId) :
    (t.type? (e.type id)).bind TypeSymbol.base =
      ((s.type? id).bind TypeSymbol.base).map e.type := by
  cases found : s.type? id with
  | none => rw [e.type?_none found]; rfl
  | some symbol =>
    obtain ⟨image, foundImage, alike⟩ := e.type?_some found
    rw [foundImage]
    exact alike.base

theorem walkBases (steps : Nat) (visited : List TypeId) (id : TypeId) :
    t.walkBases steps (visited.map e.type) (e.type id) =
      (s.walkBases steps visited id).map e.type := by
  induction steps generalizing visited id with
  | zero => rfl
  | succ steps ih =>
    simp only [SymbolTable.walkBases, e.mem_map_type, e.base_map]
    split
    · rfl
    · cases (s.type? id).bind TypeSymbol.base with
      | none => rfl
      | some base =>
        have below := ih (id :: visited) base
        simp only [List.map_cons] at below
        simp only [Option.map_some, List.map_cons, below]

/-- The base chain of the image of a type is the image of its base chain. -/
theorem baseChain (id : TypeId) : t.baseChain (e.type id) = (s.baseChain id).map e.type :=
  e.walkBases SymbolTable.maxDepth [] id

/-! ## Members of types and members -/

/-- A member with its id, and its image with the image of the id. -/
def Pairs (source image : MemberId × MemberSymbol) : Prop :=
  image.1 = e.member source.1 ∧ MemberSymbol.Alike s t e.type e.member source.2 image.2

theorem lookup_pairs (ids : List MemberId) :
    List.Forall₂ e.Pairs
      (ids.filterMap fun id => (s.member? id).map fun member => (id, member))
      ((ids.map e.member).filterMap fun id => (t.member? id).map fun member => (id, member)) := by
  induction ids with
  | nil => exact .nil
  | cons id ids ih =>
    cases found : s.member? id with
    | none =>
      simp only [List.map_cons, List.filterMap_cons, found, e.member?_none found, Option.map_none]
      exact ih
    | some symbol =>
      obtain ⟨image, foundImage, alike⟩ := e.member?_some found
      simp only [List.map_cons, List.filterMap_cons, found, foundImage, Option.map_some]
      exact .cons ⟨rfl, alike⟩ ih

theorem membersOf {symbol image : TypeSymbol}
    (alike : TypeSymbol.Alike e.type e.member symbol image) :
    List.Forall₂ e.Pairs (s.membersOf symbol) (t.membersOf image) := by
  unfold SymbolTable.membersOf
  rw [alike.members]
  exact e.lookup_pairs symbol.members

theorem accessorsOf {symbol image : MemberSymbol}
    (alike : MemberSymbol.Alike s t e.type e.member symbol image) :
    List.Forall₂ e.Pairs (s.accessorsOf symbol) (t.accessorsOf image) := by
  unfold SymbolTable.accessorsOf
  rw [alike.accessors]
  exact e.lookup_pairs symbol.accessors

end Embedding

/-! ## Level tables -/

/-- The table of a level with its ids replaced. -/
def LevelTable.map (f : MemberId → MemberId) (level : LevelTable) : LevelTable where
  implicit := level.implicit.map fun entry => (entry.1, f entry.2)
  explicit := level.explicit.map fun entry => (f entry.1, f entry.2)

namespace LevelTable

@[simp] theorem map_id (level : LevelTable) : level.map id = level := by
  simp [map]

theorem candidates_map (f : MemberId → MemberId) (level : LevelTable) (key : SignatureKey) :
    (level.map f).candidates key = (level.candidates key).map f := by
  simp only [candidates, map, List.filter_map, List.map_map]
  rfl

theorem hides_map (f : MemberId → MemberId) (level : LevelTable) (key : SignatureKey) :
    (level.map f).hides key = level.hides key := by
  have declared (name : String) (shape : MemberShape) :
      (level.map f).declares name shape = level.declares name shape := by
    simp only [declares, map, List.any_map]
    rfl
  simp only [hides, LevelTable.shape, declared]

theorem explicit?_map {f : MemberId → MemberId} (injective : Function.Injective f)
    (level : LevelTable) (target : MemberId) :
    (level.map f).explicit? (f target) = (level.explicit? target).map f := by
  have same : ((fun entry : MemberId × MemberId => decide (entry.1 = f target)) ∘
      fun entry : MemberId × MemberId => (f entry.1, f entry.2)) =
        fun entry => decide (entry.1 = target) := by
    funext entry
    simp [injective.eq_iff]
  simp only [explicit?, map, ← List.map_reverse, List.find?_map, Option.map_map, same]
  rfl

end LevelTable

namespace Embedding

variable {s t : SymbolTable} (e : Embedding s t)

theorem boundEntries {source image : MemberId × MemberSymbol} (pair : e.Pairs source image) :
    LevelTable.boundEntries t image.1 image.2 =
      (LevelTable.boundEntries s source.1 source.2).map fun entry =>
        (e.member entry.1, e.member entry.2) := by
  have pairs : List.Forall₂ e.Pairs (source :: s.accessorsOf source.2)
      (image :: t.accessorsOf image.2) := .cons pair (e.accessorsOf pair.2)
  have targets {xs ys : List (MemberId × MemberSymbol)} (pairs : List.Forall₂ e.Pairs xs ys) :
      (ys.filterMap fun entry => entry.2.target.map fun target => (target.member, entry.1)) =
        (xs.filterMap fun entry =>
          entry.2.target.map fun target => (target.member, entry.1)).map fun entry =>
            (e.member entry.1, e.member entry.2) := by
    induction pairs with
    | nil => rfl
    | @cons x y xs ys head _ ih =>
      rw [List.filterMap_cons, List.filterMap_cons, ih, head.1, head.2.target]
      cases x.2.target <;> rfl
  exact targets pairs

theorem implicitEntries {xs ys : List (MemberId × MemberSymbol)}
    (pairs : List.Forall₂ e.Pairs xs ys) :
    (ys.filterMap fun entry =>
      if entry.2.target.isNone && !entry.2.isExplicit then
        some (SignatureKey.ofMember entry.2, entry.1) else none) =
      (xs.filterMap fun entry =>
        if entry.2.target.isNone && !entry.2.isExplicit then
          some (SignatureKey.ofMember entry.2, entry.1) else none).map fun entry =>
            (entry.1, e.member entry.2) := by
  induction pairs with
  | nil => rfl
  | @cons x y xs ys head _ ih =>
    rw [List.filterMap_cons, List.filterMap_cons, ih, head.1, head.2.key, head.2.isExplicit,
      head.2.target, Option.isNone_map]
    cases x.2.target.isNone && !x.2.isExplicit <;> rfl

theorem explicitEntries {xs ys : List (MemberId × MemberSymbol)}
    (pairs : List.Forall₂ e.Pairs xs ys) :
    (ys.flatMap fun entry =>
      if entry.2.target.isSome then LevelTable.boundEntries t entry.1 entry.2 else []) =
      (xs.flatMap fun entry =>
        if entry.2.target.isSome then LevelTable.boundEntries s entry.1 entry.2 else []).map
          fun entry => (e.member entry.1, e.member entry.2) := by
  induction pairs with
  | nil => rfl
  | @cons x y xs ys head _ ih =>
    rw [List.flatMap_cons, List.flatMap_cons, List.map_append, ih, e.boundEntries head,
      head.2.target, Option.isSome_map]
    split <;> rfl

/-- The level table of the image of a type is the image of its level table. -/
theorem ofType {symbol image : TypeSymbol}
    (alike : TypeSymbol.Alike e.type e.member symbol image) :
    LevelTable.ofType t image = (LevelTable.ofType s symbol).map e.member := by
  have pairs := e.membersOf alike
  have implicit := e.implicitEntries pairs
  have explicit := e.explicitEntries pairs
  unfold LevelTable.ofType LevelTable.map
  congr 1

end Embedding

end Conformance
