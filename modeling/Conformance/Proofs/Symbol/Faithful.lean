import Conformance.Proofs.Symbol.Transfer
import Conformance.Symbol.Display

/-!
Embeddings that reports do not notice.

An embedding is faithful if symbols and their images also have the same names, signatures
and locations, and if those of one assembly are declared alike (`Embedding.Faithful`).
Symbols are then displayed like their images (`Embedding.Faithful.display`). Where tables
have the same outlines, only locations and the text of declarations have to be compared
(`SymbolTable.Corresponds.faithful`).
-/

namespace Conformance

variable {s t : SymbolTable}

/-- Two members have what stands in their declarations in common. -/
structure MemberSymbol.SameText (first second : MemberSymbol) : Prop where
  span : second.span = first.span
  declared : second.declared = first.declared
  modifiers : second.modifiers = first.modifiers
  hasBody : second.hasBody = first.hasBody

namespace MemberSymbol.SameText

variable {first second : MemberSymbol} (same : SameText first second)

include same

theorem isNew : second.isNew = first.isNew := by
  rw [MemberSymbol.isNew, MemberSymbol.isNew, same.declared]

theorem hasImplementation : second.hasImplementation = first.hasImplementation := by
  rw [MemberSymbol.hasImplementation, MemberSymbol.hasImplementation, same.hasBody, same.modifiers]

end MemberSymbol.SameText

/-- Symbols look to the checks of one assembly like their images to those of another. -/
structure Embedding.Faithful (e : Embedding s t) (own image : AssemblyId) : Prop where
  typeName : ∀ {id X Y}, s.type? id = some X → t.type? (e.type id) = some Y → Y.name = X.name
  interfaceListSpan : ∀ {id X Y}, s.type? id = some X → t.type? (e.type id) = some Y →
    Y.interfaceListSpan = X.interfaceListSpan
  /-- The types of one assembly are sent to those of the other. -/
  assembly : ∀ {id X Y}, s.type? id = some X → t.type? (e.type id) = some Y →
    (Y.assembly = image ↔ X.assembly = own)
  signature : ∀ {id M N}, s.member? id = some M → t.member? (e.member id) = some N →
    N.signature = M.signature
  explicitInterface : ∀ {id M N}, s.member? id = some M → t.member? (e.member id) = some N →
    N.explicitInterface = M.explicitInterface
  isPrivate : ∀ {id M N}, s.member? id = some M → t.member? (e.member id) = some N →
    N.isPrivate = M.isPrivate
  span : ∀ {id M N}, s.member? id = some M → t.member? (e.member id) = some N → N.span = M.span
  /-- The members of the assembly are declared as their images are. -/
  text : ∀ {id M N X}, s.member? id = some M → t.member? (e.member id) = some N →
    s.type? M.owner = some X → X.assembly = own → M.SameText N

/-- How a member is displayed depends on its signature and on what it is. -/
theorem MemberSymbol.displayIn_congr {first second : MemberSymbol} {f : MemberId → MemberId}
    (name : second.name = first.name) (kind : second.kind = first.kind.map f)
    (signature : second.signature = first.signature)
    (explicitInterface : second.explicitInterface = first.explicitInterface) (owner : String) :
    second.displayIn owner = first.displayIn owner := by
  unfold displayIn
  rw [name, kind, signature, explicitInterface]
  cases first.kind with
  | property isIndexer => cases isIndexer <;> rfl
  | _ => rfl

namespace Embedding.Faithful

variable {e : Embedding s t} {own image : AssemblyId} (faithful : e.Faithful own image)

include faithful

theorem displayType (id : TypeId) : t.displayType (e.type id) = s.displayType id := by
  unfold SymbolTable.displayType
  cases found : s.type? id with
  | none => rw [e.type?_none found]
  | some X =>
    obtain ⟨Y, foundImage, _⟩ := e.type?_some found
    rw [foundImage, Option.map_some, Option.map_some, faithful.typeName found foundImage]

theorem displayIn {id : MemberId} {M N : MemberSymbol} (found : s.member? id = some M)
    (foundImage : t.member? (e.member id) = some N) :
    N.displayIn (t.displayType N.owner) = M.displayIn (s.displayType M.owner) := by
  obtain ⟨N', again, alike⟩ := e.member?_some found
  cases foundImage.symm.trans again
  rw [alike.owner, faithful.displayType]
  exact MemberSymbol.displayIn_congr alike.name alike.kind (faithful.signature found foundImage)
    (faithful.explicitInterface found foundImage) _

/-- Members are displayed like their images. -/
theorem displayMember {id : MemberId} {M N : MemberSymbol} (found : s.member? id = some M)
    (foundImage : t.member? (e.member id) = some N) : t.displayMember N = s.displayMember M := by
  obtain ⟨N', again, alike⟩ := e.member?_some found
  cases foundImage.symm.trans again
  unfold SymbolTable.displayMember
  rw [alike.clause]
  cases M.clause? with
  | none => exact faithful.displayIn found foundImage
  | some clause =>
    obtain ⟨kind, parent⟩ := clause
    simp only [Option.map_some]
    cases foundParent : s.member? parent with
    | none =>
      rw [e.member?_none foundParent]
      exact faithful.displayIn found foundImage
    | some P =>
      obtain ⟨Q, foundQ, _⟩ := e.member?_some foundParent
      simp only [foundQ, faithful.displayIn foundParent foundQ]

theorem display (id : MemberId) : t.display (e.member id) = s.display id := by
  unfold SymbolTable.display
  cases found : s.member? id with
  | none =>
    rw [e.member?_none found]
    rfl
  | some M =>
    obtain ⟨N, foundImage, _⟩ := e.member?_some found
    rw [foundImage, Option.map_some, Option.map_some, faithful.displayMember found foundImage]

end Embedding.Faithful

/-! ## Tables with the same outlines -/

namespace SymbolTable

/-- Embeddings along outlines are faithful, if types are listed for the same assembly and
members at the same place have the same location. -/
theorem Corresponds.faithful (first : s.Orderly) (second : t.Orderly)
    (corresponds : s.Corresponds t) {own image : AssemblyId}
    (types : ∀ {x y X Y}, TypeCounterparts s t x y X Y →
      Y.interfaceListSpan = X.interfaceListSpan ∧ (Y.assembly = image ↔ X.assembly = own))
    (members : ∀ {m n M N}, MemberCounterparts s t m n M N → N.span = M.span ∧
      ∀ X, s.type? M.owner = some X → X.assembly = own → M.SameText N) :
    (Corresponds.embedding first second corresponds).Faithful own image := by
  have typePair {x : TypeId} {X Y : TypeSymbol} (found : s.type? x = some X)
      (foundImage : t.type? (s.typeMap t x) = some Y) : ∃ y, TypeCounterparts s t x y X Y := by
    obtain ⟨y, Y', counterparts⟩ := corresponds.type first second found
    rw [counterparts.twins.typeMap first second] at foundImage
    cases foundImage.symm.trans counterparts.second
    exact ⟨y, counterparts⟩
  have memberPair {m : MemberId} {M N : MemberSymbol} (found : s.member? m = some M)
      (foundImage : t.member? (s.memberMap t m) = some N) :
      ∃ n, MemberCounterparts s t m n M N := by
    obtain ⟨n, N', counterparts, _⟩ := corresponds.member first second found
    rw [counterparts.memberMap first second] at foundImage
    cases foundImage.symm.trans counterparts.second
    exact ⟨n, counterparts⟩
  have outline {m : MemberId} {M N : MemberSymbol} (found : s.member? m = some M)
      (foundImage : t.member? (s.memberMap t m) = some N) :
      ∃ inside, N.outline inside = M.outline inside := by
    obtain ⟨n, counterparts⟩ := memberPair found foundImage
    obtain ⟨_, _, _, same⟩ := counterparts.owner
    exact ⟨_, same⟩
  refine ⟨fun found foundImage => ?_, fun found foundImage => ?_, fun found foundImage => ?_,
    fun found foundImage => ?_, fun found foundImage => ?_, fun found foundImage => ?_,
    fun found foundImage => ?_, fun found foundImage => ?_⟩
  · obtain ⟨y, counterparts⟩ := typePair found foundImage
    exact congrArg TypeOutline.name counterparts.outline
  · obtain ⟨y, counterparts⟩ := typePair found foundImage
    exact (types counterparts).1
  · obtain ⟨y, counterparts⟩ := typePair found foundImage
    exact (types counterparts).2
  · obtain ⟨_, same⟩ := outline found foundImage
    exact congrArg MemberOutline.signature same
  · obtain ⟨_, same⟩ := outline found foundImage
    exact congrArg MemberOutline.explicitInterface same
  · obtain ⟨_, same⟩ := outline found foundImage
    exact congrArg MemberOutline.isPrivate same
  · obtain ⟨n, counterparts⟩ := memberPair found foundImage
    exact (members counterparts).1
  · obtain ⟨n, counterparts⟩ := memberPair found foundImage
    exact (members counterparts).2 _

end SymbolTable

end Conformance
