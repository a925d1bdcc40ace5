import Conformance.Proofs.Binding.BaseCycles

/-!
Rings of classes, each of which has the next one as its base.

A ring with more classes than the limited walk passes is bound as it was declared:
from no class does the walk come back. So the limit of the walk is the longest cycle
for which binding is right (`SymbolTable.basesBroken_iff`).
-/

namespace Conformance

/-- The name of a class of a ring. -/
def ringName (position : Nat) : String := String.ofList (List.replicate (position + 1) 'C')

/-- A class of a ring, with the next one as its base. -/
def ringType (count position : Nat) : TypeDecl where
  name := ringName position
  kind := .classType
  base := some (ringName ((position + 1) % count))

/-- An assembly of classes, each of which has the next one as its base. -/
def ring (count : Nat) : AssemblyDecl where
  name := "Ring"
  types := (List.range count).map (ringType count)

namespace SymbolTable

variable {count position : Nat} {mode : BindMode} {id other : TypeId}

theorem ring_type (inside : position < count) :
    (ring count).types[position]? = some (ringType count position) := by
  simp [ring, inside]

theorem nodup_ring_names (count : Nat) : ((ring count).types.map TypeDecl.name).Nodup := by
  have names : (ring count).types.map TypeDecl.name = (List.range count).map ringName := by
    rw [ring, List.map_map]
    rfl
  rw [names]
  exact List.nodup_range.map (injective_ofList_replicate 'C')

/-- A class of a ring before cycles are broken. -/
theorem type?_inheriting_ring (inside : position < count) :
    ((∅ : SymbolTable).inheriting (ring count) [] mode).type? ⟨position⟩ =
      some { shell ⟨0⟩ (ringType count position) with base := some ⟨(position + 1) % count⟩ } := by
  have next : (position + 1) % count < count := Nat.mod_lt _ (by omega)
  have meant : ((∅ : SymbolTable).declaring (ring count) [] mode).resolve? _ _ = _ :=
    resolve?_declaring_new (nodup_ring_names count) (ring_type next)
  have entered : ((∅ : SymbolTable).inheriting (ring count) [] mode).type? _ = _ :=
    type?_inheriting_new (ring_type inside)
  rw [show (∅ : SymbolTable).types.size + position = position from Nat.zero_add position] at entered
  rw [entered, TypeDecl.bindHeritage]
  simp only [ringType] at meant ⊢
  rw [meant, show (∅ : SymbolTable).types.size + (position + 1) % count = (position + 1) % count
    from Nat.zero_add _]
  rfl

/-- The base types of a ring before cycles are broken. -/
theorem bases_inheriting_ring :
    ((∅ : SymbolTable).inheriting (ring count) [] mode).Bases id other ↔
      id.index < count ∧ other = ⟨(id.index + 1) % count⟩ := by
  constructor
  · intro ⟨type, found, known⟩
    rcases type?_inheriting_cases found with old | ⟨position, typeDecl, listed, same, _⟩
    · cases old
    · have place : id.index = 0 + position := congrArg TypeId.index same
      have inside : id.index < count := by
        have := (List.getElem?_eq_some_iff.mp listed).1
        rw [ring, List.length_map, List.length_range] at this
        omega
      rw [show id = ⟨id.index⟩ from rfl, type?_inheriting_ring inside] at found
      cases found
      exact ⟨inside, (Option.some.inj known).symm⟩
  · intro ⟨inside, same⟩
    exact ⟨_, type?_inheriting_ring inside, congrArg some same.symm⟩

theorem baseAfter_inheriting_ring (steps : Nat) (inside : position < count) :
    ((∅ : SymbolTable).inheriting (ring count) [] mode).baseAfter steps ⟨position⟩ =
      some ⟨(position + steps) % count⟩ := by
  induction steps generalizing position with
  | zero => rw [Nat.add_zero, Nat.mod_eq_of_lt inside]; rfl
  | succ steps ih =>
    refine baseAfter_succ.mpr
      ⟨⟨(position + 1) % count⟩, bases_inheriting_ring.mpr ⟨inside, rfl⟩, ?_⟩
    rw [ih (Nat.mod_lt _ (by omega)), Nat.mod_add_mod]
    congr 3
    omega

/-- All cycles of a ring are as long as the ring. -/
theorem baseCyclesWithin_ring (positive : 0 < count) :
    ((∅ : SymbolTable).inheriting (ring count) [] mode).BaseCyclesWithin count := by
  intro id path
  rcases Relation.TransGen.head'_iff.mp path with ⟨_, link, _⟩
  have inside := (bases_inheriting_ring.mp link).1
  refine ⟨count, positive, Nat.le_refl _, ?_⟩
  rw [show id = ⟨id.index⟩ from rfl, baseAfter_inheriting_ring count inside, Nat.add_mod_right,
    Nat.mod_eq_of_lt inside]

/-- The limited walk does not come back in a long ring. -/
theorem untangled_inheriting_ring (long : maxDepth + 1 < count) (id : TypeId) :
    ((∅ : SymbolTable).inheriting (ring count) [] mode).Untangled id where
  base type base found known := by
    rcases bases_inheriting_ring.mp ⟨type, found, known⟩ with ⟨inside, rfl⟩
    have next : (id.index + 1) % count < count := Nat.mod_lt _ (by omega)
    have closed : ((∅ : SymbolTable).inheriting (ring count) [] mode).Closed :=
      wellFormed_empty.closed.inheriting
    rcases basesReach_total closed id maxDepth ⟨_, type?_inheriting_ring next⟩ with
      ⟨result, answered⟩
    cases result with
    | false => exact answered
    | true =>
      rcases basesReach_iff.mp answered with ⟨steps, bound, walk⟩
      rw [baseAfter_inheriting_ring steps next, Nat.mod_add_mod] at walk
      have back : (id.index + 1 + steps) % count = id.index :=
        congrArg TypeId.index (Option.some.inj walk)
      by_cases wraps : id.index + 1 + steps < count
      · rw [Nat.mod_eq_of_lt wraps] at back
        omega
      · rw [Nat.mod_eq_sub_mod (by omega), Nat.mod_eq_of_lt (by omega)] at back
        omega
  interfaces type found isInterface other listed := by
    rcases type?_inheriting_cases found with old | ⟨position, typeDecl, declared, rfl, rfl⟩
    · cases old
    · have inside := (List.getElem?_eq_some_iff.mp declared).1
      rw [ring, List.length_map, List.length_range] at inside
      cases declared.symm.trans (ring_type inside)
      cases isInterface

/-- A long ring is bound to a ring. -/
theorem transGen_bases_ring (long : maxDepth + 1 < count) (mode : BindMode) :
    Relation.TransGen ((∅ : SymbolTable).bind (ring count) [] mode).table.Bases ⟨0⟩ ⟨0⟩ := by
  have closed : (∅ : SymbolTable).Closed := wellFormed_empty.closed
  have idle : (∅ : SymbolTable).untangling (ring count) [] mode =
      { table := (∅ : SymbolTable).inheriting (ring count) [] mode } :=
    breakCycles_idle closed.inheriting fun id _ => untangled_inheriting_ring long id
  have same : ((∅ : SymbolTable).untangling (ring count) [] mode).table.SameButMembers
      ((∅ : SymbolTable).targeting (ring count) [] mode) := closed.sameButMembers_targeting
  rw [idle] at same
  obtain ⟨rest, rfl⟩ : ∃ rest, count = rest + 1 := ⟨count - 1, by omega⟩
  have round : ((∅ : SymbolTable).inheriting (ring (rest + 1)) [] mode).baseAfter (rest + 1) ⟨0⟩ =
      some ⟨0⟩ := by
    rw [baseAfter_inheriting_ring _ (Nat.succ_pos rest), Nat.zero_add, Nat.mod_self]
  have noFault : ((∅ : SymbolTable).untangling (ring (rest + 1)) [] mode).fault? = none := by
    rw [idle]
  rw [bind_eq noFault]
  exact Relation.TransGen.mono (fun _ _ link => same.bases_iff.mpr link) _ _
    (transGen_of_baseAfter round)

theorem acyclicBases_empty : (∅ : SymbolTable).AcyclicBases := by
  intro id path
  rcases Relation.TransGen.head'_iff.mp path with ⟨_, ⟨_, found, _⟩, _⟩
  cases found

/-- A ring of 258 classes is left as it is. -/
theorem ring_not_broken : (∅ : SymbolTable).Closed ∧ (∅ : SymbolTable).AcyclicBases ∧
    ¬ ((∅ : SymbolTable).bind (ring 258) [] (.source .latest)).table.AcyclicBases :=
  ⟨wellFormed_empty.closed, acyclicBases_empty,
    fun acyclic => acyclic ⟨0⟩ (transGen_bases_ring (by decide) _)⟩

/-- Binding takes out links to base types that are on cycles only. It leaves no cycle of
all declarations whose cycles have at most `bound` types just if `bound` is at most one
more than the limit of the walk. -/
theorem basesBroken_iff (bound : Nat) :
    (∀ (table : SymbolTable) (decl : AssemblyDecl) (references : List AssemblyId) (mode : BindMode),
      table.Closed → CutBases (table.inheriting decl references mode) mode
        (table.bind decl references mode)) ∧
    ((∀ (table : SymbolTable) (decl : AssemblyDecl) (references : List AssemblyId)
        (mode : BindMode), table.Closed → table.AcyclicBases →
          (table.inheriting decl references mode).BaseCyclesWithin bound →
            (table.bind decl references mode).table.AcyclicBases) ↔ bound ≤ maxDepth + 1) := by
  refine ⟨fun table decl references mode closed => closed.cutBases decl references mode, ?_, ?_⟩
  · intro acyclic
    by_contra long
    have cycles : ((∅ : SymbolTable).inheriting (ring bound) [] .metadata).BaseCyclesWithin bound :=
      baseCyclesWithin_ring (by omega)
    exact acyclic ∅ (ring bound) [] .metadata wellFormed_empty.closed acyclicBases_empty cycles ⟨0⟩
      (transGen_bases_ring (by omega) _)
  · intro short table decl references mode closed acyclic within
    refine closed.acyclicBases_bind acyclic fun id path => ?_
    rcases within id path with ⟨count, positive, bounded, walk⟩
    exact ⟨count, positive, Nat.le_trans bounded short, walk⟩

end SymbolTable

end Conformance
