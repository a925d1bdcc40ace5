import Conformance.Proofs.Binding.Aligned
import Conformance.Proofs.Binding.Attribution
import Conformance.Proofs.Binding.Gate
import Conformance.Proofs.Binding.Unplaced
import Conformance.Proofs.Symbol.Faithful
import Conformance.Proofs.Symbol.Transfer

/-!
One declaration bound in two tables.

Two tables are interchangeable for a declaration if they have the same assemblies,
possibly in other places, and if the names of types mean the same in the assemblies that
the declaration references (`SymbolTable.Interchangeable`). Binding the declaration then
leads to types with the same outlines (`Interchangeable.corresponds`).
-/

namespace Conformance

namespace SymbolTable

/-- The type that a name means in the first of some assemblies that have it. -/
def referencedType? (table : SymbolTable) (references : List AssemblyId) (name : String) :
    Option TypeId :=
  references.findSome? fun reference => table.typeIn? reference name

/-- Two tables with the same assemblies, all of them imported. Among what is referenced in
them, names mean the same. -/
structure Interchangeable (s t : SymbolTable) (references images : List AssemblyId) : Prop where
  first : s.Orderly
  second : t.Orderly
  outlines : s.SameOutlines t
  known : ∀ reference ∈ references, ∃ symbol, s.assembly? reference = some symbol
  knownSecond : ∀ image ∈ images, ∃ symbol, t.assembly? image = some symbol
  names : ∀ name,
    Option.Rel (s.Twins t) (s.referencedType? references name) (t.referencedType? images name)
  unplaced : s.Unplaced
  unplacedSecond : t.Unplaced

/-! ## Types at the same place -/

/-- Types at the same place of two tables, to which a number of types was added. -/
def Matched (s t : SymbolTable) (count : Nat) (x y : TypeId) : Prop :=
  s.Twins t x y ∨
    ∃ position < count, x = ⟨s.types.size + position⟩ ∧ y = ⟨t.types.size + position⟩

variable {s t : SymbolTable}

theorem Twins.flip {x y : TypeId} (twins : s.Twins t x y) : t.Twins s y x where
  place := by
    obtain ⟨place, first, second⟩ := twins.place
    exact ⟨place, second, first⟩
  heads := by
    obtain ⟨X, Y, foundFirst, foundSecond, name, kind⟩ := twins.heads
    exact ⟨Y, X, foundSecond, foundFirst, name.symm, kind.symm⟩

/-- Types that were there keep their place. -/
theorem Twins.extend {x y : TypeId} (twins : s.Twins t x y) {sAfter tAfter : SymbolTable}
    (grown : s.Extends sAfter) (grownSecond : t.Extends tAfter) : sAfter.Twins tAfter x y where
  place := by
    obtain ⟨place, ⟨a, A, foundFirst, first⟩, ⟨b, B, foundSecond, second⟩⟩ := twins.place
    exact ⟨place, ⟨a, A, grown.assembly foundFirst, first⟩,
      ⟨b, B, grownSecond.assembly foundSecond, second⟩⟩
  heads := by
    obtain ⟨X, Y, foundFirst, foundSecond, same⟩ := twins.heads
    exact ⟨X, Y, grown.type foundFirst, grownSecond.type foundSecond, same⟩

theorem Twins.below {x y : TypeId} (twins : s.Twins t x y) :
    x.index < s.types.size ∧ y.index < t.types.size := by
  obtain ⟨X, Y, foundFirst, foundSecond, _⟩ := twins.heads
  exact ⟨lt_of_type? foundFirst, lt_of_type? foundSecond⟩

theorem Matched.flip {count : Nat} {x y : TypeId} (matched : s.Matched t count x y) :
    t.Matched s count y x := by
  rcases matched with old | ⟨position, inside, first, second⟩
  · exact .inl old.flip
  · exact .inr ⟨position, inside, second, first⟩

/-- No type is matched with two. -/
theorem Matched.right_unique (laid : s.Laid) (distinct : t.DistinctNames) {count : Nat}
    {x y z : TypeId} (one : s.Matched t count x y) (two : s.Matched t count x z) : y = z := by
  rcases one with old | ⟨position, _, rfl, rfl⟩
  · have below := old.below.1
    rcases two with again | ⟨position, _, rfl, rfl⟩
    · exact old.right_unique laid distinct again
    · exact absurd below (Nat.not_lt.mpr (Nat.le_add_right _ _))
  · rcases two with again | ⟨other, _, same, rfl⟩
    · exact absurd again.below.1 (Nat.not_lt.mpr (Nat.le_add_right _ _))
    · rw [TypeId.mk.injEq, Nat.add_left_cancel_iff] at same
      rw [same]

namespace Interchangeable

variable {references images : List AssemblyId}
  (alike : Interchangeable s t references images) (decl : AssemblyDecl) (mode : BindMode)

include alike

theorem matched_unique (count : Nat) : Relator.BiUnique (s.Matched t count) :=
  ⟨fun _ _ _ one two => one.flip.right_unique alike.second.wellFormed.laid alike.first.distinct
      two.flip,
    fun _ _ _ one two => one.right_unique alike.first.wellFormed.laid alike.second.distinct two⟩

theorem counterparts {x y : TypeId} (twins : s.Twins t x y) :
    ∃ X Y, TypeCounterparts s t x y X Y := by
  have corresponds : s.Corresponds t :=
    SameOutlines.corresponds alike.first alike.second alike.outlines
  exact corresponds.type_of_twins alike.first alike.second twins

end Interchangeable

/-- Types that are added are matched in their order. -/
theorem forall₂_typeIds (s t : SymbolTable) (count : Nat) :
    List.Forall₂ (fun x y => ∃ position < count,
      x = ⟨s.types.size + position⟩ ∧ y = ⟨t.types.size + position⟩)
      (typeIds s.types.size count) (typeIds t.types.size count) := by
  refine forall₂_of_getElem? fun position => ?_
  by_cases inside : position < count
  · rw [getElem?_typeIds inside, getElem?_typeIds inside]
    exact .some ⟨position, inside, rfl, rfl⟩
  · have beyond (first : Nat) : (typeIds first count)[position]? = none :=
      List.getElem?_eq_none (by rw [length_typeIds]; omega)
    rw [beyond, beyond]
    exact .none

/-! ## Declared types -/

section declaring

variable {decl : AssemblyDecl} {references images : List AssemblyId} {mode : BindMode}

theorem extends_declaring : s.Extends (s.declaring decl references mode) where
  assembly found := assembly?_declaring_of_some found
  type found := type?_declaring_of_some found
  member found := (member?_declaring _).trans found

theorem typeSeenFrom?_declaring (laid : s.Laid)
    (known : ∀ reference ∈ references, ∃ symbol, s.assembly? reference = some symbol)
    (name : String) :
    (s.declaring decl references mode).typeSeenFrom? s.nextAssembly name =
      ((typeIds s.types.size decl.types.length).find? fun id =>
        ((s.declaring decl references mode).type? id).any fun type => type.name = name).or
        (s.referencedType? references name) := by
  have grown : s.Extends (s.declaring decl references mode) := extends_declaring
  rw [typeSeenFrom?, typeIn?, typesOf_declaring, assembly?_declaring, if_pos rfl]
  congr 1
  refine findSome?_congr fun reference listed => ?_
  obtain ⟨symbol, found⟩ := known reference listed
  exact grown.typeIn? laid found name

end declaring

namespace Interchangeable

variable {references images : List AssemblyId}
  (alike : Interchangeable s t references images) (decl : AssemblyDecl) (mode : BindMode)

include alike

/-- The types that are declared are matched, and names mean types that are. -/
theorem typeSeenFrom? (name : String) : Option.Rel (s.Matched t decl.types.length)
    ((s.declaring decl references mode).typeSeenFrom? s.nextAssembly name)
    ((t.declaring decl images mode).typeSeenFrom? t.nextAssembly name) := by
  rw [typeSeenFrom?_declaring alike.first.wellFormed.laid alike.known,
    typeSeenFrom?_declaring alike.second.wellFormed.laid alike.knownSecond]
  have own := forall₂_find?_related (forall₂_typeIds s t decl.types.length)
    (p := fun id =>
      ((s.declaring decl references mode).type? id).any fun type => type.name = name)
    (q := fun id =>
      ((t.declaring decl images mode).type? id).any fun type => type.name = name) <| by
      intro x y matched
      obtain ⟨position, inside, rfl, rfl⟩ := matched
      rw [type?_declaring_new (List.getElem?_eq_getElem inside),
        type?_declaring_new (List.getElem?_eq_getElem inside)]
      rfl
  exact rel_or (rel_imp own fun _ _ => .inr) (rel_imp (alike.names name) fun _ _ => .inl)

/-- Names mean types that look the same to declarations. -/
theorem resolve? (name : String) : Option.Rel (SameMeaning (s.Matched t decl.types.length))
    ((s.declaring decl references mode).resolve? s.nextAssembly name)
    ((t.declaring decl images mode).resolve? t.nextAssembly name) := by
  unfold SymbolTable.resolve?
  refine rel_bind (alike.typeSeenFrom? decl mode name) ?_
  rintro x y (twins | ⟨position, inside, rfl, rfl⟩)
  · obtain ⟨X, Y, types⟩ := alike.counterparts twins
    simp only [type?_declaring_of_some types.first, type?_declaring_of_some types.second]
    exact .some ⟨.inl twins, congrArg TypeOutline.name types.outline,
      congrArg TypeOutline.kind types.outline, congrArg TypeOutline.isSealed types.outline⟩
  · simp only [type?_declaring_new (List.getElem?_eq_getElem inside)]
    refine .some ⟨.inr ⟨position, inside, rfl, rfl⟩, rfl, rfl, ?_⟩
    rw [isSealed_shell, isSealed_shell]

/-- Declarations get matching heritages. -/
theorem bindHeritage (typeDecl : TypeDecl) :
    Heritage.Related (s.Matched t decl.types.length)
      (typeDecl.bindHeritage ((s.declaring decl references mode).resolve? s.nextAssembly))
      (typeDecl.bindHeritage ((t.declaring decl images mode).resolve? t.nextAssembly)) :=
  typeDecl.bindHeritage_related (alike.matched_unique _) (alike.resolve? decl mode)

/-- The types have matching links when their heritages are entered. -/
theorem inheriting : Aligned (s.Matched t decl.types.length) (s.inheriting decl references mode)
    (t.inheriting decl images mode) where
  unique := alike.matched_unique _
  types {x y} matched := by
    rcases matched with twins | ⟨position, inside, rfl, rfl⟩
    · obtain ⟨X, Y, types⟩ := alike.counterparts twins
      refine ⟨X, Y, type?_inheriting_of_some types.first, type?_inheriting_of_some types.second,
        congrArg TypeOutline.name types.outline, congrArg TypeOutline.kind types.outline,
        ?_, ?_, ?_⟩
      · rw [alike.unplaced.type types.first, alike.unplacedSecond.type types.second]
      · exact rel_imp (types.base alike.first alike.second) fun _ _ => .inl
      · exact (types.interfaces alike.first alike.second).imp fun _ _ link => .inl link
    · have related := alike.bindHeritage decl mode decl.types[position]
      exact ⟨_, _, type?_inheriting_new (List.getElem?_eq_getElem inside),
        type?_inheriting_new (List.getElem?_eq_getElem inside), rfl, rfl, rfl, related.base,
        related.interfaces⟩

/-- Cycles are broken alike. -/
theorem untangling : Untangling.Aligned (s.Matched t decl.types.length)
    (s.untangling decl references mode) (t.untangling decl images mode) :=
  (alike.inheriting decl mode).breakCycles alike.first.wellFormed.inheriting.closed
    alike.second.wellFormed.inheriting.closed
    ((forall₂_typeIds s t decl.types.length).imp fun _ _ => .inr)

end Interchangeable

/-! ## Bound types -/

section

variable {assembly : AssemblyId} {mode : BindMode} {decl : TypeDecl} {id : TypeId}
  {type : TypeSymbol} (bindsType : BoundType s assembly mode decl id type)

include bindsType

theorem BoundType.scope : memberScope mode id type = declaredScope mode decl id := by
  rw [bindsType.shell]
  rfl

theorem BoundType.isSealed :
    type.isSealed = (decl.modifiers.isSealed || decide (decl.kind = .structType)) := by
  rw [← isSealed_shell assembly decl, bindsType.shell]
  rfl

/-- The members of a type have the outlines of the blocks that are declared. -/
theorem BoundType.memberOutlines :
    (s.membersOf type).map (fun entry => s.blockOutline type.isInterface entry.2) =
      decl.members.map fun member =>
        (member.bind (declaredScope mode decl ⟨0⟩) ⟨0⟩).outline type.isInterface := by
  refine map_eq_of_forall₂ (List.Forall₂.flip (forall₂_map_filterMap (bindsType.members.imp ?_)))
  intro memberId member carries
  refine ⟨(memberId, _), by rw [carries.head]; rfl, ?_⟩
  rw [carries.blockOutline, bindsType.scope]
  exact (member.bind_outline_elsewhere _ _ _ _ _).symm

end

namespace Interchangeable

variable {references images : List AssemblyId}
  (alike : Interchangeable s t references images) (decl : AssemblyDecl) (mode : BindMode)

include alike

/-- The types that are bound have matching links. -/
theorem targeting : Aligned (s.Matched t decl.types.length) (s.targeting decl references mode)
    (t.targeting decl images mode) where
  unique := alike.matched_unique _
  types matched := by
    obtain ⟨X, Y, foundFirst, foundSecond, aligned⟩ :=
      (alike.untangling decl mode).tables.types matched
    obtain ⟨Z, found, same⟩ := alike.first.wellFormed.sameButMembers_targeting.type? foundFirst
    obtain ⟨W, foundImage, sameImage⟩ :=
      alike.second.wellFormed.sameButMembers_targeting.type? foundSecond
    refine ⟨Z, W, found, foundImage, ?_⟩
    rw [same, sameImage]
    exact ⟨aligned.name, aligned.kind, aligned.interfaceListSpan, aligned.base, aligned.interfaces⟩

/-- The types of an assembly, bound in either table. -/
theorem bindsTypes {position : Nat} {typeDecl : TypeDecl}
    (declared : decl.types[position]? = some typeDecl) : ∃ X Y,
      (s.targeting decl references mode).type? ⟨s.types.size + position⟩ = some X ∧
      (t.targeting decl images mode).type? ⟨t.types.size + position⟩ = some Y ∧
      BoundType (s.targeting decl references mode) s.nextAssembly mode typeDecl
        ⟨s.types.size + position⟩ X ∧
      BoundType (t.targeting decl images mode) t.nextAssembly mode typeDecl
        ⟨t.types.size + position⟩ Y := by
  obtain ⟨X, found, bindsType⟩ :=
    (alike.first.wellFormed.bound_targeting decl references mode).types declared
  obtain ⟨Y, foundImage, bindsImage⟩ :=
    (alike.second.wellFormed.bound_targeting decl images mode).types declared
  exact ⟨X, Y, found, foundImage, bindsType, bindsImage⟩

/-- Types that are matched stand at the same place. -/
theorem twins {x y : TypeId} (matched : s.Matched t decl.types.length x y) :
    (s.targeting decl references mode).Twins (t.targeting decl images mode) x y := by
  have own := alike.first.wellFormed.bound_targeting decl references mode
  have ownImage := alike.second.wellFormed.bound_targeting decl images mode
  rcases matched with old | ⟨position, inside, rfl, rfl⟩
  · exact old.extend own.grown ownImage.grown
  · obtain ⟨X, Y, found, foundImage, aligned⟩ :=
      (alike.targeting decl mode).types (.inr ⟨position, inside, rfl, rfl⟩)
    exact ⟨⟨⟨decl.name, position⟩, ⟨_, _, own.symbol, rfl, getElem?_typeIds inside⟩,
      ⟨_, _, ownImage.symbol, rfl, getElem?_typeIds inside⟩⟩,
      X, Y, found, foundImage, aligned.name, aligned.kind⟩

/-- Types that are bound from one declaration have one outline. -/
theorem typeOutline {position : Nat} {typeDecl : TypeDecl}
    (declared : decl.types[position]? = some typeDecl) {X Y : TypeSymbol}
    (found : (s.targeting decl references mode).type? ⟨s.types.size + position⟩ = some X)
    (foundImage : (t.targeting decl images mode).type? ⟨t.types.size + position⟩ = some Y) :
    (t.targeting decl images mode).typeOutline Y =
      (s.targeting decl references mode).typeOutline X := by
  obtain ⟨X', Y', again, againImage, bindsType, bindsImage⟩ := alike.bindsTypes decl mode declared
  cases found.symm.trans again
  cases foundImage.symm.trans againImage
  obtain ⟨inside, _⟩ := List.getElem?_eq_some_iff.mp declared
  have after := alike.targeting decl mode
  obtain ⟨X', Y', again, againImage, aligned⟩ := after.types (.inr ⟨position, inside, rfl, rfl⟩)
  cases found.symm.trans again
  cases foundImage.symm.trans againImage
  have isSealed : Y.isSealed = X.isSealed := by rw [bindsType.isSealed, bindsImage.isSealed]
  unfold SymbolTable.typeOutline
  rw [bindsType.memberOutlines, bindsImage.memberOutlines, after.baseName aligned,
    after.interfaceNames aligned, aligned.name, aligned.kind, isSealed, aligned.isInterface]

/-- The tables that binding leads to have the same outlines. -/
theorem corresponds (first : (s.targeting decl references mode).Orderly)
    (second : (t.targeting decl images mode).Orderly) :
    (s.targeting decl references mode).Corresponds (t.targeting decl images mode) := by
  have grown : s.Extends (s.targeting decl references mode) :=
    alike.first.wellFormed.extends_targeting
  have grownSecond : t.Extends (t.targeting decl images mode) :=
    alike.second.wellFormed.extends_targeting
  have own := alike.first.wellFormed.bound_targeting decl references mode
  have ownImage := alike.second.wellFormed.bound_targeting decl images mode
  intro a A found
  by_cases new : a = s.nextAssembly
  · subst new
    cases own.symbol.symm.trans found
    refine ⟨t.nextAssembly, _, ownImage.symbol, rfl, ?_, fun name => ?_⟩
    · refine (map_filterMap_eq_iff (first.exists_type own.symbol)
        (second.exists_type ownImage.symbol)).mpr ?_
      refine (forall₂_typeIds s t decl.types.length).imp fun x y matched => ?_
      obtain ⟨position, inside, rfl, rfl⟩ := matched
      have declared := List.getElem?_eq_getElem inside
      obtain ⟨X, Y, foundX, foundY, _⟩ := alike.bindsTypes decl mode declared
      exact ⟨X, Y, foundX, foundY, alike.typeOutline decl mode declared foundX foundY⟩
    · rw [alike.first.wellFormed.typeSeenFrom?_targeting,
        alike.second.wellFormed.typeSeenFrom?_targeting]
      exact rel_imp (alike.typeSeenFrom? decl mode name) fun _ _ => alike.twins decl mode
  · have known := own.others found new
    obtain ⟨b, B, foundSecond, name, outline⟩ := alike.outlines known
    refine ⟨b, B, grownSecond.assembly foundSecond, name, ?_, fun name => ?_⟩
    · rw [grown.assemblyOutline alike.first known,
        grownSecond.assemblyOutline alike.second foundSecond, outline]
    · rw [grown.typeSeenFrom? alike.first.wellFormed.laid known
          (alike.first.exists_reference known),
        grownSecond.typeSeenFrom? alike.second.wellFormed.laid foundSecond
          (alike.second.exists_reference foundSecond)]
      have names : s.SameNames t a b := (SameOutlines.view alike.first alike.second alike.outlines
        known foundSecond ‹_› outline).names
      exact rel_imp (names name) fun _ _ twins => twins.extend grown grownSecond

/-- Every type is matched. -/
theorem exists_matched {x : TypeId} {X : TypeSymbol}
    (found : (s.targeting decl references mode).type? x = some X) :
    ∃ y, s.Matched t decl.types.length x y := by
  obtain ⟨original, declared⟩ := alike.first.wellFormed.type?_targeting_of_after found
  rcases type?_declaring_cases declared with old | ⟨position, typeDecl, listed, rfl, _⟩
  · have corresponds : s.Corresponds t :=
      SameOutlines.corresponds alike.first alike.second alike.outlines
    obtain ⟨y, _, types⟩ := corresponds.type alike.first alike.second old
    exact ⟨y, .inl types.twins⟩
  · obtain ⟨inside, _⟩ := List.getElem?_eq_some_iff.mp listed
    exact ⟨_, .inr ⟨position, inside, rfl, rfl⟩⟩

end Interchangeable

/-! ## Faithfulness -/

/-- Members at one place of types that are bound from one declaration have one text. -/
theorem BoundType.sameText {a b : AssemblyId} {mode : BindMode} {decl : TypeDecl} {x y : TypeId}
    {X Y : TypeSymbol} (first : BoundType s a mode decl x X) (second : BoundType t b mode decl y Y)
    {position : Nat} {head image : MemberId} (inFirst : X.members[position]? = some head)
    (inSecond : Y.members[position]? = some image) {clause : Option AccessorKind} {m n : MemberId}
    (isClause : s.clauseAt? head clause = some m) (isImage : t.clauseAt? image clause = some n)
    {M N : MemberSymbol} (found : s.member? m = some M) (foundImage : t.member? n = some N) :
    M.SameText N := by
  obtain ⟨memberDecl, declared, carries⟩ := exists_getElem?_of_forall₂ first.members inFirst
  obtain ⟨_, again, carriesImage⟩ := exists_getElem?_of_forall₂ second.members inSecond
  cases declared.symm.trans again
  rw [first.scope] at carries
  rw [second.scope] at carriesImage
  cases clause with
  | none =>
    cases isClause
    cases isImage
    cases found.symm.trans carries.head
    cases foundImage.symm.trans carriesImage.head
    exact ⟨rfl, rfl, rfl, rfl⟩
  | some kind =>
    rw [clauseAt?_accessor carries.head] at isClause
    rw [clauseAt?_accessor carriesImage.head] at isImage
    obtain ⟨place, declared, listed, same, rfl⟩ :=
      (memberDecl.bind_head_accessor?_eq_some (declaredScope mode decl x) head).mp isClause
    obtain ⟨other, declaredImage, listedImage, sameImage, rfl⟩ :=
      (memberDecl.bind_head_accessor?_eq_some (declaredScope mode decl y) image).mp isImage
    have one : declared = declaredImage := List.inj_on_of_nodup_map
      memberDecl.nodup_clauseKinds (List.mem_of_getElem? listed)
      (List.mem_of_getElem? listedImage) (same.trans sameImage.symm)
    subst one
    cases found.symm.trans (carries.clause listed)
    cases foundImage.symm.trans (carriesImage.clause listedImage)
    exact ⟨rfl, rfl, rfl, rfl⟩

namespace Interchangeable

variable {references images : List AssemblyId}
  (alike : Interchangeable s t references images) (decl : AssemblyDecl) (mode : BindMode)

include alike

/-- A type that is matched was there, or is bound from one of the declarations. -/
theorem matched_cases {x y : TypeId} (matched : s.Matched t decl.types.length x y)
    {X Y : TypeSymbol} (found : (s.targeting decl references mode).type? x = some X)
    (foundImage : (t.targeting decl images mode).type? y = some Y) :
    s.type? x = some X ∧ t.type? y = some Y ∨
      ∃ typeDecl, BoundType (s.targeting decl references mode) s.nextAssembly mode typeDecl x X ∧
        BoundType (t.targeting decl images mode) t.nextAssembly mode typeDecl y Y := by
  rcases matched with old | ⟨position, inside, rfl, rfl⟩
  · obtain ⟨X', known⟩ := exists_type? old.below.1
    obtain ⟨Y', knownImage⟩ := exists_type? old.below.2
    cases found.symm.trans (alike.first.wellFormed.type?_targeting_of_some known)
    cases foundImage.symm.trans (alike.second.wellFormed.type?_targeting_of_some knownImage)
    exact .inl ⟨known, knownImage⟩
  · obtain ⟨X', Y', again, againImage, bindsType, bindsImage⟩ :=
      alike.bindsTypes decl mode (List.getElem?_eq_getElem inside)
    cases found.symm.trans again
    cases foundImage.symm.trans againImage
    exact .inr ⟨_, bindsType, bindsImage⟩

section

variable (first : (s.targeting decl references mode).Orderly)
  (second : (t.targeting decl images mode).Orderly)

include first second

/-- A type is matched with its counterpart. -/
theorem matched_of_twins {x y : TypeId}
    (twins : (s.targeting decl references mode).Twins (t.targeting decl images mode) x y) :
    s.Matched t decl.types.length x y := by
  obtain ⟨X, _, found, _⟩ := twins.heads
  obtain ⟨z, matched⟩ := alike.exists_matched decl mode found
  obtain rfl : z = y :=
    (alike.twins decl mode matched).right_unique first.wellFormed.laid second.distinct twins
  exact matched

/-- Members at the same place were there, or have one text. -/
theorem member_cases {m n : MemberId} {M N : MemberSymbol}
    (members : MemberCounterparts (s.targeting decl references mode) (t.targeting decl images mode)
      m n M N) :
    s.member? m = some M ∧ t.member? n = some N ∨ M.SameText N := by
  obtain ⟨X, Y, owners, _⟩ := members.owner
  have matched := alike.matched_of_twins decl mode first second owners.twins
  rcases alike.matched_cases decl mode matched owners.first owners.second with
    ⟨old, oldImage⟩ | ⟨typeDecl, bindsType, bindsImage⟩
  · exact .inl ⟨alike.first.wellFormed.extends_targeting.member_of_owner alike.first.wellFormed
      first.wellFormed.laid members.first old,
      alike.second.wellFormed.extends_targeting.member_of_owner alike.second.wellFormed
        second.wellFormed.laid members.second oldImage⟩
  · refine .inr ?_
    obtain ⟨place, ⟨x, X', head, hasType, foundType, inside, isClause⟩,
      ⟨y, Y', image, hasTypeImage, foundImage, insideImage, isImage⟩⟩ := members.place
    have own {table : SymbolTable} (orderly : table.Orderly) {x : TypeId} {X : TypeSymbol}
        (foundType : table.type? x = some X) {head m : MemberId} (listed : head ∈ X.members)
        {clause : Option AccessorKind} (isClause : table.clauseAt? head clause = some m)
        {M : MemberSymbol} (found : table.member? m = some M) : M.owner = x := by
      obtain ⟨H, foundHead, owner, noClause⟩ := orderly.wellFormed.laid.head foundType listed
      cases clause with
      | none =>
        cases isClause
        cases found.symm.trans foundHead
        exact owner
      | some kind =>
        rw [clauseAt?_accessor foundHead] at isClause
        exact (orderly.wellFormed.laid.of_accessor foundHead isClause found).2.trans owner
    obtain rfl := own first foundType (List.mem_of_getElem? inside) isClause members.first
    obtain rfl := own second foundImage (List.mem_of_getElem? insideImage) isImage members.second
    cases foundType.symm.trans owners.first
    cases foundImage.symm.trans owners.second
    exact bindsType.sameText bindsImage inside insideImage isClause isImage members.first
      members.second

/-- Reports do not notice which of the tables they are about. -/
theorem faithful : (Corresponds.embedding first second
    (alike.corresponds decl mode first second)).Faithful s.nextAssembly t.nextAssembly := by
  have apart {table : SymbolTable} (laid : table.Laid) {x : TypeId} {X : TypeSymbol}
      (found : table.type? x = some X) : X.assembly ≠ table.nextAssembly := by
    obtain ⟨A, foundAssembly, _⟩ := laid.assembly found
    intro same
    rw [same] at foundAssembly
    exact absurd (lt_of_assembly? foundAssembly) (Nat.lt_irrefl _)
  refine Corresponds.faithful first second _ (fun {x y X Y} types => ?_)
    fun {m n M N} members => ?_
  · have matched := alike.matched_of_twins decl mode first second types.twins
    rcases alike.matched_cases decl mode matched types.first types.second with
      ⟨old, oldImage⟩ | ⟨typeDecl, bindsType, bindsImage⟩
    · refine ⟨?_, iff_of_false (apart alike.second.wellFormed.laid oldImage)
        (apart alike.first.wellFormed.laid old)⟩
      rw [alike.unplaced.type old, alike.unplacedSecond.type oldImage]
    · rw [bindsType.shell, bindsImage.shell]
      exact ⟨rfl, iff_of_true rfl rfl⟩
  · rcases alike.member_cases decl mode first second members with ⟨old, oldImage⟩ | same
    · refine ⟨?_, fun X foundOwner own => ?_⟩
      · rw [alike.unplaced.member old, alike.unplacedSecond.member oldImage]
      · obtain ⟨X', known⟩ := alike.first.wellFormed.closed.owner old
        cases foundOwner.symm.trans (alike.first.wellFormed.type?_targeting_of_some known)
        exact absurd own (apart alike.first.wellFormed.laid known)
    · exact ⟨same.span, fun _ _ _ => same⟩

end

end Interchangeable

/-! ## What binding reports -/

section

variable {assembly : AssemblyId} {id : MemberId} {member : MemberSymbol} {type : TypeSymbol}

/-- The accessors without target are those that the target of their member has no clause for. -/
theorem Orderly.clauseReport (orderly : s.Orderly) (found : s.member? id = some member)
    (noClause : member.clause? = none) (owner : s.type? member.owner = some type)
    {target : ExplicitTarget} (known : member.target = some target)
    {accessor : MemberId × MemberSymbol} (listed : accessor ∈ s.accessorsOf member) :
    s.clauseReport target accessor =
      if accessor.2.target.isSome then []
      else [.breach .accessorNotInInterface accessor.2.span
        [.member (s.display accessor.1), .member (s.display target.member)]] := by
  obtain ⟨kind, foundAccessor, clause, _⟩ := orderly.wellFormed.laid.of_mem_accessorsOf found listed
  obtain ⟨_, _, _, _, bound⟩ := orderly.target_head found noClause owner
  have recorded := orderly.target_clause foundAccessor clause found owner
  rw [← bound, known, Option.bind_some] at recorded
  rw [SymbolTable.clauseReport, clause, Option.bind_some, recorded]

end

/-- The same is reported of members at the same place. -/
theorem HeadCounterparts.targetReport (first : s.Orderly) (second : t.Orderly)
    (corresponds : s.Corresponds t) {own image : AssemblyId}
    (faithful : (Corresponds.embedding first second corresponds).Faithful own image)
    {m n : MemberId} {M N : MemberSymbol} (heads : HeadCounterparts s t m n M N)
    {X Y : TypeSymbol} (types : TypeCounterparts s t M.owner N.owner X Y) (name : String) :
    t.targetReport Y.assembly n N name = s.targetReport X.assembly m M name := by
  let e := Corresponds.embedding first second corresponds
  have sent : e.member m = n := heads.memberMap first second
  obtain ⟨N', again, alike⟩ := e.member?_some heads.first
  rw [sent] at again
  cases heads.second.symm.trans again
  have span : N.span = M.span := faithful.span heads.first (sent.symm ▸ heads.second)
  obtain ⟨_, _, _, _, bound⟩ := first.target_head heads.first heads.noClause.1 types.first
  obtain ⟨_, _, _, _, boundImage⟩ := second.target_head heads.second heads.noClause.2 types.second
  unfold SymbolTable.targetReport
  rw [← bound, ← boundImage, alike.target, span, ← sent, faithful.display]
  have resolved := types.names.resolve? name
  generalize s.resolve? X.assembly name = a at resolved ⊢
  generalize t.resolve? Y.assembly name = b at resolved ⊢
  cases resolved with
  | none => rfl
  | @some a b related =>
    obtain ⟨_, _, _, _, kind⟩ := related
    have isInterface : b.2.isInterface = a.2.isInterface := by
      rw [TypeSymbol.isInterface, TypeSymbol.isInterface, kind]
    simp only [isInterface]
    split
    · cases known : M.target with
      | none => rfl
      | some target =>
        have knownImage := alike.target
        rw [known] at knownImage
        refine flatMap_eq_of_forall₂ (forall₂_imp_mem (e.accessorsOf alike) ?_) fun _ _ same => same
        intro entry listed entryImage listedImage pair
        obtain ⟨_, foundAccessor, _⟩ :=
          first.wellFormed.laid.of_mem_accessorsOf heads.first listed
        rw [first.clauseReport heads.first heads.noClause.1 types.first known listed,
          second.clauseReport heads.second heads.noClause.2 types.second knownImage listedImage,
          pair.2.target, Option.isSome_map, pair.1, ExplicitTarget.map, faithful.display,
          faithful.display]
        obtain ⟨_, foundImage⟩ := member?_of_mem_accessorsOf listedImage
        rw [pair.1] at foundImage
        rw [faithful.span foundAccessor foundImage]
    · rfl

namespace Interchangeable

variable {references images : List AssemblyId}
  (alike : Interchangeable s t references images) (decl : AssemblyDecl) (mode : BindMode)

include alike

/-- Heritages are reported alike. -/
theorem heritages_diagnostics :
    (t.heritages decl images mode).flatMap (fun entry => entry.2.diagnostics) =
      (s.heritages decl references mode).flatMap fun entry => entry.2.diagnostics := by
  have closed (table : SymbolTable) (references : List AssemblyId) :
      (table.heritages decl references mode).flatMap (fun entry => entry.2.diagnostics) =
        decl.types.flatMap fun typeDecl => (typeDecl.bindHeritage
          ((table.declaring decl references mode).resolve? table.nextAssembly)).diagnostics := by
    rw [← map_snd_typeEntries table decl, List.flatMap_map, heritages, List.flatMap_map]
  rw [closed, closed]
  exact List.flatMap_congr fun typeDecl _ => (alike.bindHeritage decl mode typeDecl).diagnostics

variable (first : (s.targeting decl references mode).Orderly)
  (second : (t.targeting decl images mode).Orderly)

include first second

/-- Members that name interfaces are reported alike. -/
theorem targets_diagnostics :
    ((typeIds t.types.size decl.types.length).flatMap
        ((t.populating decl images mode).1.targetsOf t.nextAssembly)).flatMap
          TargetBinding.diagnostics =
      ((typeIds s.types.size decl.types.length).flatMap
        ((s.populating decl references mode).1.targetsOf s.nextAssembly)).flatMap
          TargetBinding.diagnostics := by
  have corresponds :
      (s.targeting decl references mode).Corresponds (t.targeting decl images mode) :=
    alike.corresponds decl mode first second
  rw [List.flatMap_assoc, List.flatMap_assoc]
  refine flatMap_eq_of_forall₂ (forall₂_typeIds s t decl.types.length) ?_
  intro x y matched
  obtain ⟨position, inside, rfl, rfl⟩ := matched
  obtain ⟨X, Y, found, foundImage, bindsType, bindsImage⟩ :=
    alike.bindsTypes decl mode (List.getElem?_eq_getElem inside)
  rw [alike.first.wellFormed.targetsOf_populating_diagnostics found,
    alike.second.wellFormed.targetsOf_populating_diagnostics foundImage,
    targetsOf_diagnostics first.wellFormed.laid found,
    targetsOf_diagnostics second.wellFormed.laid foundImage]
  obtain ⟨X', Y', types⟩ := corresponds.type_of_twins first second
    (alike.twins decl mode (.inr ⟨position, inside, rfl, rfl⟩))
  cases found.symm.trans types.first
  cases foundImage.symm.trans types.second
  refine flatMap_eq_of_forall₂ (forall₂_imp_mem (types.membersOf first second) ?_)
    fun _ _ same => same
  intro entry listed image listedImage heads
  obtain ⟨_, own, _⟩ := first.wellFormed.laid.of_mem_membersOf found listed
  obtain ⟨_, ownImage, _⟩ := second.wellFormed.laid.of_mem_membersOf foundImage listedImage
  obtain ⟨_, _, _, outline⟩ := heads.owner
  rw [show image.2.explicitInterface = entry.2.explicitInterface from
    congrArg MemberOutline.explicitInterface outline]
  cases entry.2.explicitInterface with
  | none => rfl
  | some name =>
    have report := heads.targetReport first second corresponds
      (alike.faithful decl mode first second) (own.symm ▸ ownImage.symm ▸ types) name
    rw [show X.assembly = s.nextAssembly by rw [bindsType.shell]; rfl,
      show Y.assembly = t.nextAssembly by rw [bindsImage.shell]; rfl] at report
    exact report

/-- Binding reports the same in either table. -/
theorem bind_diagnostics : (t.bind decl images mode).diagnostics =
    (s.bind decl references mode).diagnostics := by
  rw [bind_eq alike.first.wellFormed.untangling_keeps.fault,
    bind_eq alike.second.wellFormed.untangling_keeps.fault]
  simp only [alike.heritages_diagnostics, (alike.untangling decl mode).diagnostics,
    alike.first.wellFormed.closed.populating_diagnostics,
    alike.second.wellFormed.closed.populating_diagnostics,
    alike.targets_diagnostics decl mode first second]

end Interchangeable

end SymbolTable

end Conformance
