import Conformance.Proofs.Binding.Sourced
import Conformance.Proofs.Symbol.Outline
import Conformance.Proofs.Symbol.Twins

/-!
Tables whose assemblies have the same outlines.

If every assembly of a table has an assembly of the same name and outline in
another, names mean types at the same places there, whichever assembly they are seen
from (`SymbolTable.SameOutlines.corresponds`). So the symbols of the table have
counterparts at the same places, linked in the same way: what an outline names is found
at the same place, and explicit implementations are bound to targets at the same place.
This is an embedding of the first table in the second
(`SymbolTable.Corresponds.embedding`).
-/

namespace Conformance

namespace SymbolTable

/-- A table whose symbols come from declarations, and whose assemblies have
different names. -/
structure Orderly (table : SymbolTable) : Prop where
  wellFormed : table.WellFormed
  traced : table.Traced
  distinct : table.DistinctNames

/-- Every assembly of a table has one of the same name and outline in another. -/
def SameOutlines (s t : SymbolTable) : Prop :=
  ∀ {a first}, s.assembly? a = some first → ∃ b second, t.assembly? b = some second ∧
    second.name = first.name ∧ t.assemblyOutline second = s.assemblyOutline first

/-- Every assembly of a table has one of the same name in another, with types of the
same outlines, from which names mean types at the same places. -/
def Corresponds (s t : SymbolTable) : Prop :=
  ∀ {a first}, s.assembly? a = some first → ∃ b second, t.assembly? b = some second ∧
    second.name = first.name ∧
    (t.assemblyOutline second).types = (s.assemblyOutline first).types ∧ s.SameNames t a b

variable {s t : SymbolTable}

/-! ## Assemblies -/

theorem Orderly.exists_type (orderly : s.Orderly) {a : AssemblyId} {assembly : AssemblySymbol}
    (found : s.assembly? a = some assembly) :
    ∀ id ∈ assembly.types, ∃ type, s.type? id = some type := by
  intro id listed
  obtain ⟨type, foundType, _⟩ := orderly.wellFormed.laid.type found listed
  exact ⟨type, foundType⟩

theorem Orderly.exists_reference (orderly : s.Orderly) {a : AssemblyId} {assembly : AssemblySymbol}
    (found : s.assembly? a = some assembly) :
    ∀ id ∈ assembly.references, ∃ reference, s.assembly? id = some reference :=
  fun _ listed => ((orderly.traced found).references listed).1

/-- Names mean the links of types that come from declarations. -/
theorem Orderly.seen (orderly : s.Orderly)
    {link : TypeId} {x : TypeId} {X : TypeSymbol} (found : s.type? x = some X)
    (linked : X.base = some link ∨ link ∈ X.interfaces) :
    ∃ symbol, s.type? link = some symbol ∧ s.typeSeenFrom? X.assembly symbol.name = some link := by
  obtain ⟨A, foundAssembly, listed⟩ := orderly.wellFormed.laid.assembly found
  exact (orderly.traced foundAssembly).links listed found linked

/-! ## Extensions -/

section

variable (grown : s.Extends t)

include grown

theorem Extends.blockOutline (closed : s.Closed) {id : MemberId} {member : MemberSymbol}
    (found : s.member? id = some member) (inside : Bool) :
    t.blockOutline inside member = s.blockOutline inside member := by
  rw [SymbolTable.blockOutline, SymbolTable.blockOutline, grown.accessorsOf closed found]

theorem Extends.typeOutline (closed : s.Closed) {id : TypeId} {type : TypeSymbol}
    (found : s.type? id = some type) : t.typeOutline type = s.typeOutline type := by
  have base : type.base.bind t.type? = type.base.bind s.type? := by
    cases known : type.base with
    | none => rfl
    | some base =>
      obtain ⟨symbol, foundBase⟩ := closed.base found known
      rw [Option.bind_some, Option.bind_some, foundBase, grown.type foundBase]
  have interfaces : type.interfaces.filterMap t.type? = type.interfaces.filterMap s.type? := by
    refine List.filterMap_congr fun interface listed => ?_
    obtain ⟨symbol, foundInterface⟩ := closed.interface found listed
    rw [foundInterface, grown.type foundInterface]
  have members : (t.membersOf type).map (fun entry => t.blockOutline type.isInterface entry.2) =
      (s.membersOf type).map fun entry => s.blockOutline type.isInterface entry.2 := by
    rw [grown.membersOf closed found]
    refine List.map_congr_left fun entry listed => ?_
    exact grown.blockOutline closed (member?_of_mem_membersOf listed).2 _
  rw [SymbolTable.typeOutline, SymbolTable.typeOutline, base, interfaces, members]

/-- Adding assemblies does not change the outlines of those that are there. -/
theorem Extends.assemblyOutline (orderly : s.Orderly) {id : AssemblyId}
    {assembly : AssemblySymbol} (found : s.assembly? id = some assembly) :
    t.assemblyOutline assembly = s.assemblyOutline assembly := by
  have references : assembly.references.filterMap t.assembly? =
      assembly.references.filterMap s.assembly? := by
    refine List.filterMap_congr fun reference listed => ?_
    obtain ⟨symbol, foundReference⟩ := orderly.exists_reference found reference listed
    rw [foundReference, grown.assembly foundReference]
  have types : (assembly.types.filterMap t.type?).map t.typeOutline =
      (assembly.types.filterMap s.type?).map s.typeOutline := by
    rw [List.map_filterMap, List.map_filterMap]
    refine List.filterMap_congr fun typeId listed => ?_
    obtain ⟨type, foundType⟩ := orderly.exists_type found typeId listed
    rw [foundType, grown.type foundType, Option.map_some, Option.map_some,
      grown.typeOutline orderly.wellFormed.closed foundType]
  rw [SymbolTable.assemblyOutline, SymbolTable.assemblyOutline, references, types]

end

/-! ## Heads of types -/

section

variable (first : s.Orderly) (second : t.Orderly)

include first second

/-- Types at one position of two assemblies with types of the same outlines. -/
theorem types_of_outlines {a b : AssemblyId} {A B : AssemblySymbol}
    (foundFirst : s.assembly? a = some A) (foundSecond : t.assembly? b = some B)
    (outlines : (t.assemblyOutline B).types = (s.assemblyOutline A).types) :
    List.Forall₂ (fun x y => ∃ X Y, s.type? x = some X ∧ t.type? y = some Y ∧
      t.typeOutline Y = s.typeOutline X) A.types B.types :=
  (map_filterMap_eq_iff (first.exists_type foundFirst) (second.exists_type foundSecond)).mp outlines

theorem sameHeads_of_outlines {a b : AssemblyId} {A B : AssemblySymbol}
    (foundFirst : s.assembly? a = some A) (foundSecond : t.assembly? b = some B)
    (name : B.name = A.name)
    (outlines : (t.assemblyOutline B).types = (s.assemblyOutline A).types) :
    s.SameHeads t A B where
  name := name
  types := by
    refine (types_of_outlines first second foundFirst foundSecond outlines).imp ?_
    rintro x y ⟨X, Y, foundX, foundY, same⟩
    exact ⟨X, Y, foundX, foundY, congrArg TypeOutline.name same, congrArg TypeOutline.kind same⟩

/-- Assemblies with the same outline see types of the same names. -/
theorem SameOutlines.view (same : s.SameOutlines t) {a b : AssemblyId}
    {A B : AssemblySymbol} (foundFirst : s.assembly? a = some A)
    (foundSecond : t.assembly? b = some B) (name : B.name = A.name)
    (outline : t.assemblyOutline B = s.assemblyOutline A) : s.SameView t a b where
  own := ⟨A, B, foundFirst, foundSecond, sameHeads_of_outlines first second foundFirst foundSecond
    name (congrArg AssemblyOutline.types outline)⟩
  references {A' B'} again againSecond := by
    cases foundFirst.symm.trans again
    cases foundSecond.symm.trans againSecond
    have names := (map_filterMap_eq_iff (first.exists_reference foundFirst)
      (second.exists_reference foundSecond)).mp (congrArg AssemblyOutline.references outline)
    refine names.imp ?_
    rintro c d ⟨C, D, foundC, foundD, called⟩
    obtain ⟨d', D', foundOther, sameName, sameOutline⟩ := same foundC
    cases second.distinct foundOther foundD (sameName.trans called.symm)
    cases foundOther.symm.trans foundD
    exact ⟨C, D, foundC, foundD, sameHeads_of_outlines first second foundC foundD called
      (congrArg AssemblyOutline.types sameOutline)⟩

/-- Names mean types at the same places in assemblies of one name. -/
theorem SameOutlines.typeIn? (same : s.SameOutlines t) {a b : AssemblyId} {A B : AssemblySymbol}
    (foundFirst : s.assembly? a = some A) (foundSecond : t.assembly? b = some B)
    (called : B.name = A.name) (name : String) :
    Option.Rel (s.Twins t) (s.typeIn? a name) (t.typeIn? b name) := by
  obtain ⟨c, C, foundOther, sameName, outline⟩ := same foundFirst
  cases second.distinct foundOther foundSecond (sameName.trans called.symm)
  cases foundOther.symm.trans foundSecond
  have heads : s.SameHeads t A B := sameHeads_of_outlines first second foundFirst foundSecond called
    (congrArg AssemblyOutline.types outline)
  exact heads.typeIn? foundFirst foundSecond name

theorem SameOutlines.corresponds (same : s.SameOutlines t) : s.Corresponds t := by
  intro a A found
  obtain ⟨b, B, foundSecond, name, outline⟩ := same found
  exact ⟨b, B, foundSecond, name, congrArg AssemblyOutline.types outline,
    (same.view first second found foundSecond name outline).names⟩

end

/-! ## Types -/

/-- Two types at the same place have the same outline, and names mean types at the same
places in their assemblies. -/
structure TypeCounterparts (s t : SymbolTable) (x y : TypeId) (X Y : TypeSymbol) : Prop where
  first : s.type? x = some X
  second : t.type? y = some Y
  twins : s.Twins t x y
  outline : t.typeOutline Y = s.typeOutline X
  names : s.SameNames t X.assembly Y.assembly

section

variable (first : s.Orderly) (second : t.Orderly) (corresponds : s.Corresponds t)

include first second corresponds

theorem Corresponds.type {x : TypeId} {X : TypeSymbol} (found : s.type? x = some X) :
    ∃ y Y, TypeCounterparts s t x y X Y := by
  obtain ⟨A, foundAssembly, listed⟩ := first.wellFormed.laid.assembly found
  obtain ⟨b, B, foundSecond, name, outlines, names⟩ := corresponds foundAssembly
  obtain ⟨position, inside⟩ := List.getElem?_of_mem listed
  obtain ⟨y, known, X', Y, foundX, foundY, same⟩ := exists_getElem?_of_forall₂
    (types_of_outlines first second foundAssembly foundSecond outlines) inside
  cases found.symm.trans foundX
  obtain ⟨Y', foundY', own⟩ :=
    second.wellFormed.laid.type foundSecond (List.mem_of_getElem? known)
  cases foundY.symm.trans foundY'
  refine ⟨y, Y, found, foundY, ?_, same, own ▸ names⟩
  exact (sameHeads_of_outlines first second foundAssembly foundSecond name outlines).twins
    foundAssembly foundSecond inside known

theorem Corresponds.type_of_twins {x y : TypeId} (twins : s.Twins t x y) :
    ∃ X Y, TypeCounterparts s t x y X Y := by
  obtain ⟨X, _, found, _⟩ := twins.heads
  obtain ⟨y', Y, counterparts⟩ := corresponds.type first second found
  cases counterparts.twins.right_unique first.wellFormed.laid second.distinct twins
  exact ⟨X, Y, counterparts⟩

end

section

variable {x y : TypeId} {X Y : TypeSymbol} (types : TypeCounterparts s t x y X Y)
  (first : s.Orderly) (second : t.Orderly)

include types

theorem TypeCounterparts.isInterface : Y.isInterface = X.isInterface := by
  have kind : Y.kind = X.kind := congrArg TypeOutline.kind types.outline
  rw [TypeSymbol.isInterface, TypeSymbol.isInterface, kind]

include first second

/-- Links of the same name lead to types at the same place. -/
theorem TypeCounterparts.link {link other : TypeId}
    (linked : X.base = some link ∨ link ∈ X.interfaces)
    (linkedOther : Y.base = some other ∨ other ∈ Y.interfaces) {symbol image : TypeSymbol}
    (found : s.type? link = some symbol) (foundOther : t.type? other = some image)
    (name : image.name = symbol.name) : s.Twins t link other := by
  obtain ⟨symbol', found', seen⟩ := first.seen types.first linked
  obtain ⟨image', foundOther', seenOther⟩ := second.seen types.second linkedOther
  cases found.symm.trans found'
  cases foundOther.symm.trans foundOther'
  have means := types.names symbol.name
  rw [name] at seenOther
  rw [seen, seenOther] at means
  cases means with
  | some twins => exact twins

theorem TypeCounterparts.base : Option.Rel (s.Twins t) X.base Y.base := by
  have names :
    (Y.base.bind t.type?).map TypeSymbol.name = (X.base.bind s.type?).map TypeSymbol.name :=
    congrArg TypeOutline.base types.outline
  cases base : X.base with
  | none =>
    cases other : Y.base with
    | none => exact .none
    | some link =>
      obtain ⟨symbol, found⟩ := second.wellFormed.closed.base types.second other
      rw [base, other, Option.bind_some, found] at names
      cases names
  | some link =>
    obtain ⟨symbol, found⟩ := first.wellFormed.closed.base types.first base
    cases other : Y.base with
    | none =>
      rw [base, other, Option.bind_some, found] at names
      cases names
    | some linkOther =>
      obtain ⟨image, foundOther⟩ := second.wellFormed.closed.base types.second other
      rw [base, other, Option.bind_some, Option.bind_some, found, foundOther] at names
      exact .some (types.link first second (.inl base) (.inl other) found foundOther
        (Option.some.inj names))

theorem TypeCounterparts.interfaces : List.Forall₂ (s.Twins t) X.interfaces Y.interfaces := by
  have names := (map_filterMap_eq_iff
    (fun _ listed => first.wellFormed.closed.interface types.first listed)
    (fun _ listed => second.wellFormed.closed.interface types.second listed)).mp
      (congrArg TypeOutline.interfaces types.outline)
  refine forall₂_imp_mem names ?_
  rintro link listed other listedOther ⟨symbol, image, found, foundOther, name⟩
  exact types.link first second (.inr listed) (.inr listedOther) found foundOther name

end

end SymbolTable

end Conformance
