import Conformance.Proofs.Binding.Declaring
import Conformance.Proofs.Resolution.Coherence
import Conformance.Proofs.Symbol.WellFormed
import Mathlib.Data.List.Perm.Subperm

/-!
Interface lists as closures.

On short paths, and with no more interfaces than a list can hold, the list of a
type is complete: it holds just the interfaces that can be reached along links
(`SymbolTable.mem_interfacesOf`). An interface that is on a list already has
been followed before, and a full list has every interface there is, so nothing
is lost where the walk passes an interface over.
-/

namespace Conformance

namespace SymbolTable

/-- Whether an id is that of an interface. -/
def IsInterface (table : SymbolTable) (id : TypeId) : Prop :=
  ∃ type, table.type? id = some type ∧ type.isInterface = true

/-- A type implements an interface if it comes to it along links. -/
def Implements (table : SymbolTable) (id interface : TypeId) : Prop :=
  Relation.TransGen table.Links id interface ∧ table.IsInterface interface

/-- The ids of all interfaces. -/
def interfaceIds (table : SymbolTable) : List TypeId :=
  (typeIds 0 table.types.size).filter fun id => (table.type? id).any TypeSymbol.isInterface

variable {table : SymbolTable}

theorem mem_interfaceIds {id : TypeId} : id ∈ table.interfaceIds ↔ table.IsInterface id := by
  rw [interfaceIds, List.mem_filter, mem_typeIds, Nat.zero_add, Option.any_eq_true]
  constructor
  · exact fun inside => inside.2
  · rintro ⟨type, found, isInterface⟩
    exact ⟨⟨Nat.zero_le _, lt_of_type? found⟩, type, found, isInterface⟩

theorem length_interfaceIds : table.interfaceIds.length = table.interfaceCount := by
  have items : (List.range' 0 table.types.size).map (fun index => table.types.toList[index]?) =
      table.types.toList.map some := by
    refine List.ext_getElem (by simp) fun index first second => ?_
    simp only [List.length_map, List.length_range'] at first
    simp [first]
  have counted := congrArg (List.countP fun item : Option TypeSymbol =>
    item.any TypeSymbol.isInterface) items
  rw [List.countP_map, List.countP_map] at counted
  rw [interfaceIds, ← List.countP_eq_length_filter, typeIds, List.countP_map, interfaceCount,
    ← Array.countP_toList]
  simpa [Function.comp_def, type?] using counted

/-! ## Full lists -/

section

variable (few : table.interfaceCount ≤ maxInterfaces) {list : List TypeId} (distinct : list.Nodup)
  (interfaces : ∀ inside ∈ list, table.IsInterface inside)

include few distinct interfaces

/-- A full list has every interface there is. -/
theorem mem_of_full (full : maxInterfaces ≤ list.length) {id : TypeId}
    (isInterface : table.IsInterface id) : id ∈ list := by
  have part : list.Subperm table.interfaceIds :=
    distinct.subperm fun inside listed => mem_interfaceIds.mpr (interfaces inside listed)
  have whole : list.Perm table.interfaceIds := by
    refine part.perm_of_length_le ?_
    rw [length_interfaceIds]
    exact Nat.le_trans few full
  exact whole.mem_iff.mpr (mem_interfaceIds.mpr isInterface)

theorem mem_addInherited {origin inherited : TypeId} (apart : inherited ≠ origin)
    (isInterface : table.IsInterface inherited) {other : TypeId} :
    other ∈ addInherited origin list inherited ↔ other ∈ list ∨ other = inherited := by
  unfold addInherited
  split
  · rename_i passed
    have known : inherited ∈ list := by
      rcases passed with full | same | listed
      · exact mem_of_full few distinct interfaces full isInterface
      · exact absurd same apart
      · exact listed
    constructor
    · exact .inl
    · rintro (listed | rfl)
      · exact listed
      · exact known
  · rw [List.mem_append, List.mem_singleton]

omit few interfaces in
theorem nodup_addInherited (origin inherited : TypeId) :
    (addInherited origin list inherited).Nodup := by
  unfold addInherited
  split
  · exact distinct
  · rename_i fresh
    rw [not_or, not_or] at fresh
    exact nodup_append_singleton distinct fresh.2.2

/-- Adding the list of an interface adds all that is on it. -/
theorem mem_foldl_addInherited {origin : TypeId} {below : List TypeId}
    (apart : ∀ inherited ∈ below, inherited ≠ origin)
    (areInterfaces : ∀ inherited ∈ below, table.IsInterface inherited) :
    (below.foldl (addInherited origin) list).Nodup ∧
      ∀ other, other ∈ below.foldl (addInherited origin) list ↔ other ∈ list ∨ other ∈ below := by
  induction below generalizing list with
  | nil => exact ⟨distinct, by simp⟩
  | cons next below ih =>
    have isInterface := areInterfaces next List.mem_cons_self
    have member (other : TypeId) :
        other ∈ addInherited origin list next ↔ other ∈ list ∨ other = next :=
      mem_addInherited few distinct interfaces (apart next List.mem_cons_self) isInterface
    obtain ⟨nodup, members⟩ := ih (nodup_addInherited distinct origin next)
      (fun other inside => by
        rcases (member other).mp inside with listed | rfl
        · exact interfaces other listed
        · exact isInterface)
      (fun other inside => apart other (List.mem_cons_of_mem _ inside))
      (fun other inside => areInterfaces other (List.mem_cons_of_mem _ inside))
    refine ⟨nodup, fun other => ?_⟩
    rw [List.foldl_cons, members, member, List.mem_cons, or_assoc]

end

/-! ## Lists of a type -/

/-- The list of a type while it is made: the interfaces that are reached from
the base type, and those reached from the entries that were looked at. -/
structure Covers (table : SymbolTable) (base : Option TypeId) (seen list : List TypeId) : Prop where
  nodup : list.Nodup
  mem : ∀ id, id ∈ list ↔ table.IsInterface id ∧
    ((∃ start, base = some start ∧ Relation.TransGen table.Links start id) ∨
      ∃ start ∈ seen, Relation.ReflTransGen table.Links start id)

section

variable (few : table.interfaceCount ≤ maxInterfaces) {origin interface : TypeId}
  {base : Option TypeId} {seen list below : List TypeId} (covers : table.Covers base seen list)

/-- What is reached when one more entry is looked at. -/
theorem reached_append (id : TypeId) :
    (∃ start ∈ seen ++ [interface], Relation.ReflTransGen table.Links start id) ↔
      (∃ start ∈ seen, Relation.ReflTransGen table.Links start id) ∨
        Relation.ReflTransGen table.Links interface id := by
  simp [or_and_right, exists_or]

include few covers

/-- An entry is passed over when there is no room or it is known: what is reached from it was
reached before. -/
theorem Covers.skip (passed : maxInterfaces ≤ list.length ∨ interface ∈ list) :
    table.Covers base (seen ++ [interface]) list where
  nodup := covers.nodup
  mem id := by
    rw [covers.mem, reached_append, ← or_assoc]
    refine and_congr_right fun isInterface => (or_iff_left_of_imp fun further => ?_).symm
    have known : id ∈ list := by
      rcases passed with full | listed
      · exact mem_of_full few covers.nodup (fun other inside => ((covers.mem other).mp inside).1)
          full isInterface
      · refine (covers.mem id).mpr ⟨isInterface, ?_⟩
        rcases ((covers.mem interface).mp listed).2 with ⟨start, hasBase, path⟩ | ⟨start, on, path⟩
        · exact .inl ⟨start, hasBase, path.trans_left further⟩
        · exact .inr ⟨start, on, path.trans further⟩
    exact ((covers.mem id).mp known).2

variable (isInterface : table.IsInterface interface)
  (members : ∀ id, id ∈ below ↔ table.Implements interface id)
  (outside : ∀ id, table.Implements interface id → id ≠ origin)

include isInterface members outside

/-- A new entry is added with its list. -/
theorem Covers.enter (fresh : interface ∉ list) : table.Covers base (seen ++ [interface])
    (below.foldl (addInherited origin) (list ++ [interface])) := by
  have longer : (list ++ [interface]).Nodup := nodup_append_singleton covers.nodup fresh
  have interfaces : ∀ id ∈ list ++ [interface], table.IsInterface id :=
    List.forall_mem_append.mpr ⟨fun id listed => ((covers.mem id).mp listed).1,
      List.forall_mem_singleton.mpr isInterface⟩
  obtain ⟨nodup, all⟩ := mem_foldl_addInherited few longer interfaces
    (fun id inside => outside id ((members id).mp inside))
    (fun id inside => ((members id).mp inside).2)
  refine ⟨nodup, fun id => ?_⟩
  rw [all, List.mem_append, List.mem_singleton, members, covers.mem, reached_append,
    Relation.reflTransGen_iff_eq_or_transGen, Implements]
  constructor
  · rintro ((⟨reached, way⟩ | rfl) | ⟨path, reached⟩)
    · exact ⟨reached, way.imp_right .inl⟩
    · exact ⟨isInterface, .inr (.inr (.inl rfl))⟩
    · exact ⟨reached, .inr (.inr (.inr path))⟩
  · rintro ⟨reached, way | way | rfl | path⟩
    · exact .inl (.inl ⟨reached, .inl way⟩)
    · exact .inl (.inl ⟨reached, .inr way⟩)
    · exact .inl (.inr rfl)
    · exact .inr ⟨path, reached⟩

/-- Looking at one more entry of the interface list. -/
theorem Covers.step (apart : interface ≠ origin) : table.Covers base (seen ++ [interface])
    (if maxInterfaces ≤ list.length ∨ interface = origin ∨ interface ∈ list then list
      else below.foldl (addInherited origin) (list ++ [interface])) := by
  split
  · rename_i passed
    exact covers.skip few (passed.imp_right (Or.resolve_left · apart))
  · rename_i fresh
    rw [not_or, not_or] at fresh
    exact covers.enter few isInterface members outside fresh.2.2

end

/-- Looking at all entries of an interface list. -/
theorem Covers.foldl (few : table.interfaceCount ≤ maxInterfaces) {origin : TypeId}
    {below : TypeId → List TypeId} {base : Option TypeId} {seen list entries : List TypeId}
    (covers : table.Covers base seen list)
    (each : ∀ interface ∈ entries, table.IsInterface interface ∧ interface ≠ origin ∧
      (∀ id, id ∈ below interface ↔ table.Implements interface id) ∧
      ∀ id, table.Implements interface id → id ≠ origin) :
    table.Covers base (seen ++ entries) (entries.foldl (fun list interface =>
      if maxInterfaces ≤ list.length ∨ interface = origin ∨ interface ∈ list then list
      else (below interface).foldl (addInherited origin) (list ++ [interface])) list) := by
  induction entries generalizing seen list with
  | nil =>
    rw [List.append_nil]
    exact covers
  | cons interface entries ih =>
    obtain ⟨isInterface, apart, members, outside⟩ := each interface List.mem_cons_self
    have next := ih (covers.step few isInterface members outside apart)
      fun other inside => each other (List.mem_cons_of_mem _ inside)
    rw [List.append_assoc, List.singleton_append] at next
    exact next

end SymbolTable

theorem TypeSymbol.gather_id (type : TypeSymbol) (id : TypeId) (below : TypeId → List TypeId) :
    type.gather (m := Id) id (fun other => below other) =
      type.interfaces.foldl (fun list interface =>
        if maxInterfaces ≤ list.length ∨ interface = id ∨ interface ∈ list then list
        else (below interface).foldl (SymbolTable.addInherited id) (list ++ [interface]))
        (type.gatherBase (m := Id) fun other => below other) := by
  unfold TypeSymbol.gather
  generalize type.gatherBase (m := Id) (fun other => below other) = start
  show List.foldlM (m := Id) _ (start : List TypeId) type.interfaces = _
  induction type.interfaces generalizing start with
  | nil => rfl
  | cons interface interfaces ih =>
    rw [List.foldlM_cons, List.foldl_cons, ← ih]
    show List.foldlM (m := Id) _ (ite _ _ _ : List TypeId) interfaces = _
    split <;> rfl

namespace SymbolTable

variable {table : SymbolTable}

/-- A base type is no interface, and interfaces have none. -/
theorem Linked.base_not_interface (linked : table.Linked) {id base : TypeId} {type : TypeSymbol}
    (found : table.type? id = some type) (known : type.base = some base) :
    type.isInterface = false ∧ ¬ table.IsInterface base := by
  obtain ⟨kind, symbol, foundBase, baseKind⟩ := linked.base found known
  refine ⟨by simp [TypeSymbol.isInterface, kind], ?_⟩
  rintro ⟨other, foundOther, isInterface⟩
  cases foundBase.symm.trans foundOther
  simp [TypeSymbol.isInterface, baseKind] at isInterface

theorem covers_gatherBase (linked : table.Linked) {id : TypeId} {type : TypeSymbol}
    (found : table.type? id = some type) {below : TypeId → List TypeId}
    (base : ∀ base, type.base = some base → (below base).Nodup ∧
      ∀ interface, interface ∈ below base ↔ table.Implements base interface) :
    table.Covers type.base [] (type.gatherBase (m := Id) fun other => below other) := by
  unfold TypeSymbol.gatherBase
  cases known : type.base with
  | none =>
    have nothing : table.Covers none [] [] := ⟨.nil, by simp⟩
    cases type.isInterface <;> exact nothing
  | some base' =>
    obtain ⟨nodup, members⟩ := base base' known
    rw [(linked.base_not_interface found known).1]
    exact ⟨nodup, fun interface => by simp [members, Implements, and_comm]⟩

theorem interfacesWithin_complete (wellFormed : table.WellFormed)
    (few : table.interfaceCount ≤ maxInterfaces) {depth : Nat} {origin : TypeId}
    {type : TypeSymbol} (found : table.type? origin = some type)
    (short : table.PathsFrom (depth + 1) origin) :
    (table.interfacesWithin depth origin).Nodup ∧ ∀ interface,
      interface ∈ table.interfacesWithin depth origin ↔ table.Implements origin interface := by
  induction depth generalizing origin type with
  | zero =>
    refine ⟨.nil, fun interface => iff_of_false List.not_mem_nil ?_⟩
    rintro ⟨path, _⟩
    obtain ⟨other, step, _⟩ := Relation.TransGen.head'_iff.mp path
    exact short.not_link step
  | succ depth ih =>
    have below (other : TypeId) (linked : type.base = some other ∨ other ∈ type.interfaces) :
        (table.interfacesWithin depth other).Nodup ∧ ∀ interface,
          interface ∈ table.interfacesWithin depth other ↔ table.Implements other interface := by
      obtain ⟨symbol, foundOther⟩ := wellFormed.closed.link found linked
      exact ih foundOther (short.link ⟨type, found, linked⟩)
    have acyclic (other : TypeId) (linked : type.base = some other ∨ other ∈ type.interfaces)
        (id : TypeId) (path : Relation.ReflTransGen table.Links other id) : id ≠ origin := by
      rintro rfl
      exact short.acyclic (Relation.TransGen.head' ⟨type, found, linked⟩ path)
    have start := covers_gatherBase wellFormed.linked found fun base known =>
      below base (.inl known)
    have covers := start.foldl few fun entry listed => by
      obtain ⟨symbol, foundEntry, isInterface⟩ := wellFormed.linked.interface found listed
      exact ⟨⟨symbol, foundEntry, isInterface⟩, acyclic entry (.inr listed) entry .refl,
        (below entry (.inr listed)).2, fun id implements =>
          acyclic entry (.inr listed) id implements.1.to_reflTransGen⟩
    rw [interfacesWithin_succ found, TypeSymbol.gather_id]
    refine ⟨covers.nodup, fun interface => ?_⟩
    rw [covers.mem, List.nil_append, Implements, Relation.TransGen.head'_iff]
    constructor
    · rintro ⟨isInterface, ⟨base, known, path⟩ | ⟨entry, listed, path⟩⟩
      · exact ⟨⟨base, ⟨type, found, .inl known⟩, path.to_reflTransGen⟩, isInterface⟩
      · exact ⟨⟨entry, ⟨type, found, .inr listed⟩, path⟩, isInterface⟩
    · rintro ⟨⟨next, ⟨symbol, foundSymbol, linked⟩, path⟩, isInterface⟩
      cases found.symm.trans foundSymbol
      refine ⟨isInterface, ?_⟩
      rcases linked with known | listed
      · rcases Relation.reflTransGen_iff_eq_or_transGen.mp path with rfl | further
        · exact absurd isInterface (wellFormed.linked.base_not_interface found known).2
        · exact .inl ⟨next, known, further⟩
      · exact .inr ⟨next, listed, path⟩

/-- The list of a type holds just the interfaces that it implements. -/
theorem mem_interfacesOf (wellFormed : table.WellFormed) (short : table.PathsWithin longestPath)
    (few : table.interfaceCount ≤ maxInterfaces) {id : TypeId} {type : TypeSymbol}
    (found : table.type? id = some type) (interface : TypeId) :
    interface ∈ table.interfacesOf id ↔ table.Implements id interface :=
  (interfacesWithin_complete wellFormed few found (short.from id)).2 interface

end SymbolTable

end Conformance
