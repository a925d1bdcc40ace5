import Conformance.Binding.Assembly
import Conformance.Proofs.Lists
import Conformance.Proofs.Symbol.Updates

/-!
The first phase of binding: all types of an assembly are declared.

The new types stand after the old ones, in the order of their declarations, and
the assembly lists them in this order.
-/

namespace Conformance

namespace SymbolTable

/-- Consecutive ids of types. -/
def typeIds (first count : Nat) : List TypeId := (List.range' first count).map TypeId.mk

@[simp] theorem length_typeIds (first count : Nat) : (typeIds first count).length = count := by
  simp [typeIds]

theorem typeIds_succ (first count : Nat) :
    typeIds first (count + 1) = ⟨first⟩ :: typeIds (first + 1) count := rfl

theorem mem_typeIds {first count : Nat} {id : TypeId} :
    id ∈ typeIds first count ↔ first ≤ id.index ∧ id.index < first + count := by
  obtain ⟨index⟩ := id
  simp [typeIds, List.mem_range'_1]

theorem add_mem_typeIds {first count position : Nat} (inside : position < count) :
    (⟨first + position⟩ : TypeId) ∈ typeIds first count :=
  mem_typeIds.mpr ⟨Nat.le_add_right .., Nat.add_lt_add_left inside _⟩

theorem nodup_typeIds (first count : Nat) : (typeIds first count).Nodup :=
  (List.nodup_map_iff fun _ _ same => TypeId.mk.inj same).mpr List.nodup_range'

theorem getElem?_typeIds {first count position : Nat} (inside : position < count) :
    (typeIds first count)[position]? = some ⟨first + position⟩ := by
  simp [typeIds, inside]

/-- Items are related to consecutive ids if each is related to the id at its position. -/
theorem forall₂_typeIds_of_getElem? {α : Type} {r : α → TypeId → Prop} {items : List α}
    {first : Nat}
    (each : ∀ {position item}, items[position]? = some item → r item ⟨first + position⟩) :
    List.Forall₂ r items (typeIds first items.length) := by
  refine forall₂_of_getElem? fun position => ?_
  cases found : items[position]? with
  | none =>
    rw [List.getElem?_eq_none]
    · exact .none
    · rw [length_typeIds]
      exact List.getElem?_eq_none_iff.mp found
  | some item =>
    rw [getElem?_typeIds (List.getElem?_eq_some_iff.mp found).1]
    exact .some (each found)

/-! ## Declared types -/

/-- Whether a type is sealed is a matter of its declaration alone. -/
theorem isSealed_shell (assembly : AssemblyId) (decl : TypeDecl) :
    (shell assembly decl).isSealed =
      (decl.modifiers.isSealed || decide (decl.kind = .structType)) := by
  unfold TypeSymbol.isSealed shell
  split <;> rfl

section declareTypes

variable (table : SymbolTable) (assembly : AssemblyId) (decls : List TypeDecl)

theorem members_declareTypes : (table.declareTypes assembly decls).members = table.members := by
  unfold declareTypes
  induction decls generalizing table with
  | nil => rfl
  | cons decl decls ih => exact ih _

theorem types_declareTypes_size :
    (table.declareTypes assembly decls).types.size = table.types.size + decls.length := by
  unfold declareTypes
  induction decls generalizing table with
  | nil => rfl
  | cons decl decls ih =>
    rw [List.foldl_cons, ih, List.length_cons]
    simp only [addType, Array.size_push]
    omega

theorem type?_declareTypes (id : TypeId) :
    (table.declareTypes assembly decls).type? id =
      if id.index < table.types.size then table.type? id
      else (decls[id.index - table.types.size]?).map (shell assembly) := by
  unfold declareTypes
  induction decls generalizing table with
  | nil =>
    split
    · rfl
    · rename_i outside
      exact type?_eq_none.mpr (Nat.le_of_not_lt outside)
  | cons decl decls ih =>
    have size : (table.addType (shell assembly decl)).types.size = table.types.size + 1 := by
      simp [addType]
    rw [List.foldl_cons, ih, size, type?_addType]
    obtain ⟨index⟩ := id
    simp only [nextType, TypeId.mk.injEq]
    rcases Nat.lt_trichotomy index table.types.size with before | rfl | after
    · rw [if_pos (by omega), if_neg (by omega), if_pos before]
    · simp
    · rw [if_neg (by omega), if_neg (by omega),
        show index - table.types.size = index - (table.types.size + 1) + 1 by omega,
        List.getElem?_cons_succ]

theorem assembly?_declareTypes (id : AssemblyId) :
    (table.declareTypes assembly decls).assembly? id =
      if assembly = id then (table.assembly? id).map fun symbol =>
        { symbol with types := symbol.types ++ typeIds table.types.size decls.length }
      else table.assembly? id := by
  unfold declareTypes
  induction decls generalizing table with
  | nil =>
    have same : (fun symbol : AssemblySymbol =>
        { symbol with types := symbol.types ++ typeIds table.types.size 0 }) =
          fun symbol => symbol :=
      funext fun symbol => by rw [show typeIds table.types.size 0 = [] from rfl, List.append_nil]
    rw [List.foldl_nil, List.length_nil, same, Option.map_id', ite_self]
  | cons decl decls ih =>
    have size : (table.addType (shell assembly decl)).types.size = table.types.size + 1 := by
      simp [addType]
    have listed : (shell assembly decl).assembly = assembly := rfl
    rw [List.foldl_cons, ih, size, assembly?_addType, listed]
    split
    · rw [Option.map_map, List.length_cons, typeIds_succ]
      congr 1
      funext symbol
      simp [nextType]
    · rfl

end declareTypes

end SymbolTable

end Conformance
