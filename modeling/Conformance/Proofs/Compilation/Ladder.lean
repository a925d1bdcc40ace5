import Conformance.Proofs.Compilation.Built
import Conformance.Proofs.Resolution.Coherence

/-!
A ladder of interfaces, each of which lists the next.

The list of the first interface is cut off at the depth limit, and so are the
lists that are remembered on the way; asked for first, each of these interfaces
has a longer list.
-/

namespace Conformance

/-- The name of an interface of a ladder. -/
def rung (position : Nat) : String := String.ofList (List.replicate (position + 1) 'I')

/-- An interface of a ladder, which lists the next one. -/
def ladderType (count position : Nat) : TypeDecl where
  name := rung position
  kind := .interfaceType
  interfaces := if position + 1 < count then [rung (position + 1)] else []

/-- An assembly of interfaces, each of which lists the next one. -/
def ladder (count : Nat) : AssemblyDecl where
  name := "Ladder"
  types := (List.range count).map (ladderType count)

/-- The compilation of a ladder. -/
def ladderCompilation (count : Nat) : Compilation := .ofDecl (ladder count) [] {}

theorem rung_injective : Function.Injective rung := injective_ofList_replicate 'I'

namespace SymbolTable

/-- The types of a table are the interfaces of a ladder. -/
def IsLadder (table : SymbolTable) (count : Nat) : Prop :=
  ∀ position, (position < count → ∃ type, table.type? ⟨position⟩ = some type ∧
    type.isInterface = true ∧ type.base = none ∧
    type.interfaces = if position + 1 < count then [⟨position + 1⟩] else []) ∧
    (count ≤ position → table.type? ⟨position⟩ = none)

variable {table : SymbolTable} {count : Nat}

theorem IsLadder.link (isLadder : table.IsLadder count) {id other : TypeId}
    (linked : table.Links id other) :
    other.index = id.index + 1 ∧ id.index + 1 < count := by
  obtain ⟨type, found, link⟩ := linked
  have inside : id.index < count := by
    by_contra outside
    have missing := (isLadder id.index).2 (by omega)
    rw [show id = ⟨id.index⟩ from rfl] at found
    rw [missing] at found
    cases found
  obtain ⟨symbol, foundSymbol, _, noBase, lists⟩ := (isLadder id.index).1 inside
  cases found.symm.trans foundSymbol
  rw [noBase, lists] at link
  rcases link with base | listed
  · cases base
  · split at listed
    · rename_i below
      obtain rfl := List.mem_singleton.mp listed
      exact ⟨rfl, below⟩
    · cases listed

/-- The longest path is the whole ladder. -/
theorem IsLadder.pathsWithin (isLadder : table.IsLadder count) (positive : 0 < count) :
    table.PathsWithin count := by
  refine pathsWithin_of_rank (fun id => count - 1 - id.index) positive
    fun id other linked => ?_
  obtain ⟨step, below⟩ := isLadder.link linked
  omega

/-! ## Lists of a ladder -/

theorem foldl_addInherited_of_disjoint {origin : TypeId} {list below : List TypeId}
    (short : list.length + below.length ≤ maxInterfaces) (others : origin ∉ below)
    (distinct : (list ++ below).Nodup) :
    below.foldl (addInherited origin) list = list ++ below := by
  induction below generalizing list with
  | nil => simp
  | cons next below ih =>
    rw [List.mem_cons, not_or] at others
    rw [List.length_cons] at short
    have fresh : next ∉ list := by
      intro inside
      exact (List.nodup_append.mp distinct).2.2 next inside next List.mem_cons_self rfl
    have added : addInherited origin list next = list ++ [next] := by
      rw [addInherited, if_neg]
      rintro (full | same | inside)
      · omega
      · exact others.1 same.symm
      · exact fresh inside
    rw [List.foldl_cons, added, ih (by simp only [List.length_append, List.length_singleton]; omega)
      others.2 (by simpa using distinct), List.append_assoc, List.singleton_append]

/-- The list of a rung that lists another one is that one, followed by its list. -/
theorem answer_gather_rung {type : TypeSymbol} {position length : Nat}
    {below : TypeId → QueryM (List TypeId)} {memory after : Memory} (noBase : type.base = none)
    (lists : type.interfaces = [⟨position + 1⟩]) (short : length < maxInterfaces)
    (answered : (below ⟨position + 1⟩).answer memory =
      (.ok (typeIds (position + 2) length), after)) :
    (type.gather ⟨position⟩ below).answer memory =
      (.ok (typeIds (position + 1) (length + 1)), after) := by
  have isOpen : ¬ (maxInterfaces ≤ ([] : List TypeId).length ∨
      (⟨position + 1⟩ : TypeId) = ⟨position⟩ ∨ (⟨position + 1⟩ : TypeId) ∈ []) := by
    simp [maxInterfaces]
  have gathers : type.gather ⟨position⟩ below = do
      let list ← below ⟨position + 1⟩
      return list.foldl (addInherited ⟨position⟩) [⟨position + 1⟩] := by
    rw [TypeSymbol.gather, TypeSymbol.gatherBase_of_none noBase, lists, pure_bind,
      List.foldlM_cons, if_neg isOpen, List.nil_append]
    simp only [List.foldlM_nil, bind_assoc, pure_bind]
  have fits : [(⟨position + 1⟩ : TypeId)].length + (typeIds (position + 2) length).length ≤
      maxInterfaces := by
    rw [length_typeIds, List.length_singleton]
    omega
  have apart : (⟨position⟩ : TypeId) ∉ typeIds (position + 2) length := by
    rw [mem_typeIds]
    exact fun inside => absurd inside.1 (by simp)
  have distinct : ([(⟨position + 1⟩ : TypeId)] ++ typeIds (position + 2) length).Nodup :=
    nodup_typeIds (position + 1) (length + 1)
  rw [gathers, QueryM.answer_bind_ok answered, foldl_addInherited_of_disjoint fits apart distinct]
  rfl

/-- From below a rung, nothing is remembered yet: its list goes on for `depth`
interfaces, and the lists of the rungs after it end at the same one. -/
theorem IsLadder.flattenFrom (isLadder : table.IsLadder count) (small : count ≤ maxInterfaces)
    (depth : Nat) {position : Nat} (path : List TypeId) {memory : Memory} (inside : position < count)
    (fresh : ∀ other, position ≤ other → memory.interfaces.find? other = none)
    (below : ∀ passed ∈ path, passed.index < position) :
    ∃ after, (table.flattenFrom depth path ⟨position⟩).answer memory =
        (.ok (typeIds (position + 1) (min depth (count - 1 - position))), after) ∧
      ∀ other, position ≤ other → other < position + depth → other < count →
        after.interfaces.find? other =
          some (typeIds (other + 1) (min (position + depth - other) (count - 1 - other))) := by
  induction depth generalizing position path memory with
  | zero =>
    refine ⟨memory, ?_, fun other above bound => by omega⟩
    rw [flattenFrom_zero (fresh position (Nat.le_refl _)), Nat.zero_min]
    rfl
  | succ depth ih =>
    obtain ⟨type, found, _, noBase, lists⟩ := (isLadder position).1 inside
    have outside : (⟨position⟩ : TypeId) ∉ path := fun passed =>
      Nat.lt_irrefl _ (below _ passed)
    by_cases last : position + 1 < count
    · rw [if_pos last] at lists
      have belowAbove : ∀ passed ∈ (⟨position⟩ :: path : List TypeId),
          passed.index < position + 1 := by
        intro passed on
        rcases List.mem_cons.mp on with rfl | earlier
        · exact Nat.lt_succ_self _
        · exact Nat.lt_succ_of_lt (below passed earlier)
      obtain ⟨after, answered, remembered⟩ :=
        ih _ last (fun other above => fresh other (by omega)) belowAbove
      have length : min (depth + 1) (count - 1 - position) =
          min depth (count - 1 - (position + 1)) + 1 := by omega
      have gathered := answer_gather_rung noBase lists (by omega) answered
      rw [← length] at gathered
      refine ⟨_, flattenFrom_opened (fresh position (Nat.le_refl _)) outside found gathered, ?_⟩
      intro other above bound inTable
      rw [Memo.find?_insert]
      split
      · rename_i same
        subst same
        rw [Nat.add_sub_cancel_left]
      · rename_i apart
        have later : position + 1 ≤ other := Nat.lt_of_le_of_ne above apart
        rw [remembered other later (by omega) inTable, Nat.add_right_comm, Nat.add_assoc]
    · rw [if_neg last] at lists
      have gathered : (type.gather ⟨position⟩ (table.flattenFrom depth (⟨position⟩ :: path))).answer
          memory = (.ok [], memory) := by
        rw [TypeSymbol.gather_unlinked noBase lists]
        rfl
      have short : min (depth + 1) (count - 1 - position) = 0 := by omega
      refine ⟨{ memory with interfaces := memory.interfaces.insert position [] }, ?_, ?_⟩
      · rw [short]
        exact flattenFrom_opened (fresh position (Nat.le_refl _)) outside found gathered
      · intro other above bound inTable
        obtain rfl : other = position := by omega
        rw [Nat.add_sub_cancel_left, short]
        exact Memo.find?_insert_self _ _ _

end SymbolTable

/-! ## Binding a ladder -/

open SymbolTable

section

variable {count position : Nat} {mode : BindMode}

theorem ladder_type (inside : position < count) :
    (ladder count).types[position]? = some (ladderType count position) := by
  simp [ladder, inside]

theorem ladder_types_length (count : Nat) : (ladder count).types.length = count := by
  simp [ladder]

/-- The names of a ladder tell its interfaces apart. -/
theorem nodup_ladder_names (count : Nat) : ((ladder count).types.map TypeDecl.name).Nodup := by
  have names : (ladder count).types.map TypeDecl.name = (List.range count).map rung := by
    rw [ladder, List.map_map]
    rfl
  rw [names]
  exact List.nodup_range.map rung_injective

theorem resolve?_rung (inside : position < count) :
    ((∅ : SymbolTable).declaring (ladder count) [] mode).resolve? ⟨0⟩ (rung position) =
      some (⟨position⟩, shell ⟨0⟩ (ladderType count position)) := by
  have meant : ((∅ : SymbolTable).declaring (ladder count) [] mode).resolve? _ _ = _ :=
    resolve?_declaring_new (nodup_ladder_names count) (ladder_type inside)
  exact meant.trans (congrArg (fun id => some (TypeId.mk id, _)) (Nat.zero_add position))

/-- The interface of a ladder with its list entered. -/
theorem bindHeritage_ladderType (mode : BindMode) (count position : Nat) :
    ((ladderType count position).bindHeritage
      (((∅ : SymbolTable).declaring (ladder count) [] mode).resolve? ⟨0⟩)).enter
        (shell ⟨0⟩ (ladderType count position)) =
      { shell ⟨0⟩ (ladderType count position) with
        interfaces := if position + 1 < count then [⟨position + 1⟩] else [] } := by
  unfold TypeDecl.bindHeritage
  by_cases next : position + 1 < count
  · simp only [ladderType, if_pos next, List.foldl_cons, List.foldl_nil, TypeDecl.bindInterface,
      resolve?_rung next]
    simp [shell, TypeSymbol.isInterface, Heritage.list, Heritage.enter]
  · simp only [ladderType, if_neg next, List.foldl_nil]
    rfl

/-- The links of a ladder are those of its declarations. -/
theorem links_inheriting_ladder {id : TypeId} {type : TypeSymbol}
    (found : ((∅ : SymbolTable).inheriting (ladder count) [] mode).type? id = some type) :
    type.base = none ∧
      type.interfaces = if id.index + 1 < count then [⟨id.index + 1⟩] else [] := by
  rcases type?_inheriting_cases found with old | ⟨position, typeDecl, declared, rfl, rfl⟩
  · cases old
  · obtain ⟨inside, -⟩ := List.getElem?_eq_some_iff.mp declared
    rw [ladder_types_length] at inside
    cases declared.symm.trans (ladder_type inside)
    have place : (∅ : SymbolTable).types.size + position = position := Nat.zero_add position
    rw [show (∅ : SymbolTable).nextAssembly = ⟨0⟩ from rfl, bindHeritage_ladderType, place]
    exact ⟨rfl, rfl⟩

/-- Each interface of a ladder is before those on its list. -/
theorem lists_inheriting_ladder {id other : TypeId}
    (lists : ((∅ : SymbolTable).inheriting (ladder count) [] mode).Lists id other) :
    id.index < other.index := by
  obtain ⟨type, found, listed⟩ := lists
  rw [(links_inheriting_ladder found).2] at listed
  split at listed
  · obtain rfl := List.mem_singleton.mp listed
    exact Nat.lt_succ_self _
  · cases listed

theorem untangled_inheriting_ladder (id : TypeId) :
    ((∅ : SymbolTable).inheriting (ladder count) [] mode).Untangled id where
  base type base found known := by
    rw [(links_inheriting_ladder found).1] at known
    cases known
  interfaces type found _ other listed path := by
    have ahead : id.index < other.index := lists_inheriting_ladder ⟨type, found, listed⟩
    have onwards {start stop : TypeId} (path : Relation.ReflTransGen
        ((∅ : SymbolTable).inheriting (ladder count) [] mode).Lists start stop) :
        start.index ≤ stop.index := by
      induction path with
      | refl => exact Nat.le_refl _
      | tail _ step ih => exact Nat.le_trans ih (Nat.le_of_lt (lists_inheriting_ladder step))
    exact Nat.lt_irrefl _ (Nat.lt_of_lt_of_le ahead (onwards path))

end

/-- A ladder is bound to a ladder. -/
theorem isLadder_ladderCompilation (count : Nat) :
    (ladderCompilation count).table.IsLadder count := by
  have wellFormed : (∅ : SymbolTable).WellFormed := wellFormed_empty
  have noFault : ((∅ : SymbolTable).untangling (ladder count) [] (.source .latest)).fault? = none :=
    wellFormed.untangling_keeps.fault
  have bound : (ladderCompilation count).table =
      (∅ : SymbolTable).targeting (ladder count) [] (.source .latest) := by
    show ((∅ : SymbolTable).bind (ladder count) [] (.source .latest)).table = _
    rw [bind_eq noFault]
  intro position
  constructor
  · intro inside
    have declared := ladder_type inside
    have shell : ((∅ : SymbolTable).declaring (ladder count) [] (.source .latest)).type? _ =
        some _ := type?_declaring_new declared
    obtain ⟨type, found, _⟩ := wellFormed.type?_targeting shell
    have heritage := wellFormed.heritage_targeting
      (fun id _ => untangled_inheriting_ladder id) declared found
    rw [show (∅ : SymbolTable).nextAssembly = ⟨0⟩ from rfl, bindHeritage_ladderType] at heritage
    refine ⟨type, ?_, ?_, ?_, ?_⟩
    · rw [bound]
      exact (congrArg _ (congrArg TypeId.mk (Nat.zero_add position))).symm.trans found
    · rw [heritage]
      rfl
    · rw [heritage]
      rfl
    · rw [heritage]
  · intro outside
    rw [bound]
    cases found : ((∅ : SymbolTable).targeting (ladder count) [] (.source .latest)).type?
        ⟨position⟩ with
    | none => rfl
    | some type =>
      obtain ⟨original, known⟩ := wellFormed.type?_targeting_of_after found
      rcases type?_declaring_cases known with old | ⟨place, typeDecl, declared, same, _⟩
      · cases old
      · obtain ⟨inside, -⟩ := List.getElem?_eq_some_iff.mp declared
        rw [ladder_types_length] at inside
        have here : position = 0 + place := congrArg TypeId.index same
        omega

end Conformance
