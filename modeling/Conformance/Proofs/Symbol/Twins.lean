import Conformance.Proofs.Binding.Heritage
import Conformance.Proofs.Symbol.Places

/-!
Types of two tables that stand at the same place.

Names mean types at the same places in assemblies of two tables, if these and
the assemblies that they reference list types of the same names
(`SymbolTable.SameView.names`).
-/

namespace Conformance

namespace SymbolTable

/-- Two types stand at the same place, and have the same name and kind. -/
structure Twins (s t : SymbolTable) (x y : TypeId) : Prop where
  place : ∃ place, s.HasType place x ∧ t.HasType place y
  heads : ∃ first second, s.type? x = some first ∧ t.type? y = some second ∧
    second.name = first.name ∧ second.kind = first.kind

/-- Two assemblies have the same name, and list types of the same names and kinds. -/
structure SameHeads (s t : SymbolTable) (first second : AssemblySymbol) : Prop where
  name : second.name = first.name
  types : List.Forall₂ (fun x y => ∃ a b, s.type? x = some a ∧ t.type? y = some b ∧
    b.name = a.name ∧ b.kind = a.kind) first.types second.types

/-- Two assemblies see types of the same names: their own, and those of the
assemblies that they reference. -/
structure SameView (s t : SymbolTable) (a b : AssemblyId) : Prop where
  own : ∃ first second, s.assembly? a = some first ∧ t.assembly? b = some second ∧
    s.SameHeads t first second
  references : ∀ {first second}, s.assembly? a = some first → t.assembly? b = some second →
    List.Forall₂ (fun c d => ∃ third fourth, s.assembly? c = some third ∧
      t.assembly? d = some fourth ∧ s.SameHeads t third fourth) first.references second.references

/-- Seen from assemblies of two tables, names mean types at the same places. -/
def SameNames (s t : SymbolTable) (a b : AssemblyId) : Prop :=
  ∀ name, Option.Rel (s.Twins t) (s.typeSeenFrom? a name) (t.typeSeenFrom? b name)

variable {s t : SymbolTable}

/-! ## Types at the same place -/

theorem SameHeads.twins {first second : AssemblySymbol} (same : s.SameHeads t first second)
    {a b : AssemblyId} (foundFirst : s.assembly? a = some first)
    (foundSecond : t.assembly? b = some second) {position : Nat} {x y : TypeId}
    (inFirst : first.types[position]? = some x) (inSecond : second.types[position]? = some y) :
    s.Twins t x y := by
  have heads := forall₂_getElem? same.types position
  rw [inFirst, inSecond] at heads
  cases heads with
  | some heads =>
    refine ⟨⟨⟨first.name, position⟩, ⟨a, first, foundFirst, rfl, inFirst⟩,
      ⟨b, second, foundSecond, same.name, inSecond⟩⟩, heads⟩

theorem Twins.right_unique (laid : s.Laid) (distinct : t.DistinctNames) {x y z : TypeId}
    (one : s.Twins t x y) (two : s.Twins t x z) : y = z := by
  obtain ⟨place, inFirst, inSecond⟩ := one.place
  obtain ⟨other, again, inThird⟩ := two.place
  cases inFirst.place_unique laid again
  exact inSecond.unique distinct inThird

theorem Twins.left_unique (laid : t.Laid) (distinct : s.DistinctNames) {x y z : TypeId}
    (one : s.Twins t x z) (two : s.Twins t y z) : x = y := by
  obtain ⟨place, inFirst, inSecond⟩ := one.place
  obtain ⟨other, inThird, again⟩ := two.place
  cases inSecond.place_unique laid again
  exact inFirst.unique distinct inThird

/-! ## Names -/

theorem SameHeads.typeIn? {first second : AssemblySymbol} (same : s.SameHeads t first second)
    {a b : AssemblyId} (foundFirst : s.assembly? a = some first)
    (foundSecond : t.assembly? b = some second) (name : String) :
    Option.Rel (s.Twins t) (s.typeIn? a name) (t.typeIn? b name) := by
  have found := forall₂_find? same.types
    (p := fun id => (s.type? id).any fun type => type.name = name)
    (q := fun id => (t.type? id).any fun type => type.name = name) <| by
      rintro x y ⟨type, other, foundType, foundOther, sameName, _⟩
      rw [foundType, foundOther, Option.any_some, Option.any_some, sameName]
  rw [SymbolTable.typeIn?, SymbolTable.typeIn?, typesOf, typesOf, foundFirst, foundSecond]
  simp only [Option.map_some, Option.getD_some]
  refine rel_imp found ?_
  rintro x y ⟨position, inFirst, inSecond⟩
  exact same.twins foundFirst foundSecond inFirst inSecond

theorem SameView.names {a b : AssemblyId} (view : s.SameView t a b) : s.SameNames t a b := by
  intro name
  obtain ⟨first, second, foundFirst, foundSecond, same⟩ := view.own
  have own := same.typeIn? foundFirst foundSecond name
  have referenced := forall₂_findSome? (view.references foundFirst foundSecond)
    (f := fun reference => s.typeIn? reference name)
    (g := fun reference => t.typeIn? reference name) <| by
      rintro c d ⟨third, fourth, foundThird, foundFourth, sameHeads⟩
      exact sameHeads.typeIn? foundThird foundFourth name
  rw [SymbolTable.typeSeenFrom?, SymbolTable.typeSeenFrom?, foundFirst, foundSecond]
  simp only [Option.map_some, Option.getD_some]
  exact rel_or own referenced

theorem SameNames.resolve? {a b : AssemblyId} (names : s.SameNames t a b) (name : String) :
    Option.Rel (fun x y => s.Twins t x.1 y.1 ∧ s.type? x.1 = some x.2 ∧ t.type? y.1 = some y.2 ∧
      y.2.name = x.2.name ∧ y.2.kind = x.2.kind) (s.resolve? a name) (t.resolve? b name) := by
  unfold SymbolTable.resolve?
  refine rel_bind (names name) fun x y twins => ?_
  obtain ⟨first, second, foundFirst, foundSecond, same⟩ := twins.heads
  simp only [foundFirst, foundSecond]
  exact .some ⟨twins, foundFirst, foundSecond, same⟩

end SymbolTable

end Conformance
