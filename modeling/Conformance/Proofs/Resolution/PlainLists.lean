import Conformance.Proofs.Binding.Cycles
import Conformance.Proofs.Resolution.PlainRule

/-!
Interface lists by a plain recursion.

The list of a type can be described without memory, without skipping and without
bounds: the list of its base type, then each interface that it declares followed by the
list of that interface, each interface at its first occurrence
(`SymbolTable.PlainLists`). On short paths, and with no more interfaces than a list can
hold, queries answer just these lists, whatever was asked before
(`SymbolTable.Session.flatten_eq_plain`).
-/

namespace Conformance

/-- The list of a type with repetitions, given the lists of the types that it is linked
to. Only classes and structs have the interfaces of their base type. -/
def TypeSymbol.plainList (type : TypeSymbol) (below : TypeId → List TypeId) : List TypeId :=
  (if type.isInterface then [] else (type.base.map below).getD []) ++
    type.interfaces.flatMap fun interface => interface :: below interface

namespace SymbolTable

/-- The lists of all types, by the plain recursion. -/
def PlainLists (table : SymbolTable) (lists : TypeId → List TypeId) : Prop :=
  ∀ {id type}, table.type? id = some type → lists id = (type.plainList lists).eraseDups

variable {table : SymbolTable}

/-! ## Nothing is lost where an interface is passed over -/

section

variable (few : table.interfaceCount ≤ maxInterfaces) {origin : TypeId}

include few

/-- Inherited interfaces are added unless they were seen. -/
theorem foldl_addInherited_eraseDups {seen below : List TypeId}
    (interfaces : ∀ id ∈ seen, table.IsInterface id)
    (areInterfaces : ∀ id ∈ below, table.IsInterface id) (apart : ∀ id ∈ below, id ≠ origin) :
    below.foldl (addInherited origin) seen.eraseDups = (seen ++ below).eraseDups := by
  induction below generalizing seen with
  | nil => rw [List.append_nil, List.foldl_nil]
  | cons next below ih =>
    have isInterface := areInterfaces next List.mem_cons_self
    have kept : ∀ id ∈ seen.eraseDups, table.IsInterface id :=
      fun id inside => interfaces id (List.mem_eraseDups.mp inside)
    have added : addInherited origin seen.eraseDups next = (seen ++ [next]).eraseDups := by
      unfold addInherited
      split
      · rename_i passed
        have listed : next ∈ seen.eraseDups := by
          rcases passed with full | same | listed
          · exact mem_of_full few (nodup_eraseDups seen) kept full isInterface
          · exact absurd same (apart next List.mem_cons_self)
          · exact listed
        have known : next ∈ seen := List.mem_eraseDups.mp listed
        exact (eraseDups_append_of_subset (by simpa using known)).symm
      · rename_i fresh
        rw [not_or, not_or, List.mem_eraseDups] at fresh
        exact (eraseDups_concat fresh.2.2).symm
    have interfacesNext : ∀ id ∈ seen ++ [next], table.IsInterface id :=
      List.forall_mem_append.mpr ⟨interfaces, List.forall_mem_singleton.mpr isInterface⟩
    rw [List.foldl_cons, added, ih interfacesNext
      (fun id inside => areInterfaces id (List.mem_cons_of_mem _ inside))
      (fun id inside => apart id (List.mem_cons_of_mem _ inside)), List.append_assoc,
      List.singleton_append]

/-- Looking at one entry of an interface list adds it with its list, as far as they were
not seen. -/
theorem Covers.step_eraseDups {base : Option TypeId} {seen passed below : List TypeId}
    {interface : TypeId} (covers : table.Covers base passed seen.eraseDups)
    (isInterface : table.IsInterface interface) (apart : interface ≠ origin)
    (members : ∀ id, id ∈ below ↔ table.Implements interface id)
    (outside : ∀ id, table.Implements interface id → id ≠ origin) :
    (if maxInterfaces ≤ seen.eraseDups.length ∨ interface = origin ∨
        interface ∈ seen.eraseDups then seen.eraseDups
      else below.foldl (addInherited origin) (seen.eraseDups ++ [interface])) =
      (seen ++ interface :: below).eraseDups := by
  have interfaces : ∀ id ∈ seen, table.IsInterface id :=
    fun id inside => ((covers.mem id).mp (List.mem_eraseDups.mpr inside)).1
  split
  · -- Whatever lies below an interface that is passed over is on the list.
    rename_i skipped
    have next := covers.skip few (skipped.imp_right (Or.resolve_left · apart))
    have reached {id : TypeId} (path : Relation.ReflTransGen table.Links interface id)
        (isInterface : table.IsInterface id) : id ∈ seen := by
      apply List.mem_eraseDups.mp
      exact (next.mem id).mpr ⟨isInterface, .inr ⟨interface, by simp, path⟩⟩
    refine (eraseDups_append_of_subset fun id inside => ?_).symm
    rcases List.mem_cons.mp inside with rfl | inside
    · exact reached .refl isInterface
    · have implemented := (members id).mp inside
      exact reached implemented.1.to_reflTransGen implemented.2
  · rename_i fresh
    rw [not_or, not_or, List.mem_eraseDups] at fresh
    have longer : ∀ id ∈ seen ++ [interface], table.IsInterface id :=
      List.forall_mem_append.mpr ⟨interfaces, List.forall_mem_singleton.mpr isInterface⟩
    rw [← eraseDups_concat fresh.2.2, foldl_addInherited_eraseDups few longer
      (fun id inside => ((members id).mp inside).2)
      (fun id inside => outside id ((members id).mp inside)), List.append_assoc,
      List.singleton_append]

/-- Going through the entries of an interface list adds each entry with its list, as far
as they were not seen. -/
theorem Covers.foldl_eraseDups {below : TypeId → List TypeId} {base : Option TypeId}
    {seen entries passed list : List TypeId} (covers : table.Covers base passed list)
    (unrepeated : seen.eraseDups = list)
    (each : ∀ interface ∈ entries, table.IsInterface interface ∧ interface ≠ origin ∧
      (∀ id, id ∈ below interface ↔ table.Implements interface id) ∧
      ∀ id, table.Implements interface id → id ≠ origin) :
    entries.foldl (fun list interface =>
      if maxInterfaces ≤ list.length ∨ interface = origin ∨ interface ∈ list then list
      else (below interface).foldl (addInherited origin) (list ++ [interface])) list =
      (seen ++ entries.flatMap fun interface => interface :: below interface).eraseDups := by
  induction entries generalizing seen passed list with
  | nil => rw [List.flatMap_nil, List.append_nil, List.foldl_nil, unrepeated]
  | cons interface entries ih =>
    subst unrepeated
    rcases each interface List.mem_cons_self with ⟨isInterface, apart, members, outside⟩
    have step := covers.step_eraseDups few isInterface apart members outside
    have next := covers.step few isInterface members outside apart
    rw [step] at next
    rw [List.foldl_cons, step,
      ih next rfl fun other inside => each other (List.mem_cons_of_mem _ inside),
      List.flatMap_cons, List.append_assoc]

end

/-! ## The recursion -/

/-- On a short path, one step of the recursion leads to the list of a type. -/
theorem interfacesWithin_plain (wellFormed : table.WellFormed)
    (few : table.interfaceCount ≤ maxInterfaces) {depth : Nat} {origin : TypeId}
    {type : TypeSymbol} (found : table.type? origin = some type)
    (short : table.PathsFrom (depth + 2) origin) :
    table.interfacesWithin (depth + 1) origin =
      (type.plainList fun other => table.interfacesWithin depth other).eraseDups := by
  have below (other : TypeId) (linked : type.base = some other ∨ other ∈ type.interfaces) :
      (table.interfacesWithin depth other).Nodup ∧ ∀ interface,
        interface ∈ table.interfacesWithin depth other ↔ table.Implements other interface := by
    rcases wellFormed.closed.link found linked with ⟨symbol, foundOther⟩
    exact interfacesWithin_complete wellFormed few foundOther (short.link ⟨type, found, linked⟩)
  have acyclic (other : TypeId) (linked : type.base = some other ∨ other ∈ type.interfaces)
      (id : TypeId) (path : Relation.ReflTransGen table.Links other id) : id ≠ origin := by
    intro same
    subst same
    exact short.acyclic (Relation.TransGen.head' ⟨type, found, linked⟩ path)
  have start := covers_gatherBase wellFormed.linked found fun base known => below base (.inl known)
  have inherited : type.gatherBase (m := Id) (fun other => table.interfacesWithin depth other) =
      if type.isInterface then []
      else (type.base.map fun other => table.interfacesWithin depth other).getD [] := by
    unfold TypeSymbol.gatherBase
    cases type.isInterface with
    | true => rfl
    | false => cases type.base <;> rfl
  rw [interfacesWithin_succ found, TypeSymbol.gather_id, TypeSymbol.plainList, ← inherited]
  exact start.foldl_eraseDups few (eraseDups_of_nodup start.nodup) fun entry listed => by
    rcases wellFormed.linked.interface found listed with ⟨symbol, foundEntry, isInterface⟩
    exact ⟨⟨symbol, foundEntry, isInterface⟩, acyclic entry (.inr listed) entry .refl,
      (below entry (.inr listed)).2, fun id implements =>
        acyclic entry (.inr listed) id implements.1.to_reflTransGen⟩

/-- The plain recursion has one solution on types with short paths. -/
theorem PlainLists.eq (wellFormed : table.WellFormed) (few : table.interfaceCount ≤ maxInterfaces)
    {lists : TypeId → List TypeId} (plain : table.PlainLists lists) {depth : Nat} {id : TypeId}
    {type : TypeSymbol} (found : table.type? id = some type)
    (short : table.PathsFrom (depth + 1) id) : lists id = table.interfacesWithin depth id := by
  induction depth generalizing id type with
  | zero =>
    have noBase : type.base = none := by
      cases known : type.base with
      | none => rfl
      | some base => exact absurd ⟨type, found, .inl known⟩ short.not_link
    have noInterface : type.interfaces = [] := by
      rw [List.eq_nil_iff_forall_not_mem]
      exact fun other listed => short.not_link ⟨type, found, .inr listed⟩
    rw [plain found, TypeSymbol.plainList, noBase, noInterface]
    cases type.isInterface <;> rfl
  | succ depth ih =>
    have links (other : TypeId) (linked : type.base = some other ∨ other ∈ type.interfaces) :
        lists other = table.interfacesWithin depth other := by
      rcases wellFormed.closed.link found linked with ⟨symbol, foundOther⟩
      exact ih foundOther (short.link ⟨type, found, linked⟩)
    have same : type.plainList lists =
        type.plainList fun other => table.interfacesWithin depth other := by
      unfold TypeSymbol.plainList
      congr 1
      · cases known : type.base with
        | none => rfl
        | some base => rw [Option.map_some, Option.map_some, links base (.inl known)]
      · exact List.flatMap_congr fun other listed => by rw [links other (.inr listed)]
    rw [plain found, same, interfacesWithin_plain wellFormed few found short]

/-- The lists without memory are those of the plain recursion. -/
theorem plainLists_interfacesOf (wellFormed : table.WellFormed)
    (few : table.interfaceCount ≤ maxInterfaces) (short : table.PathsWithin maxDepth) :
    table.PlainLists table.interfacesOf := by
  intro id type found
  have longer : table.PathsFrom (255 + 2) id := fun path chain =>
    Nat.le_succ_of_le (short (id :: path) chain)
  have step := interfacesWithin_plain wellFormed few found longer
  have below (other : TypeId) : table.interfacesWithin 255 other = table.interfacesOf other :=
    interfacesWithin_stable (short.from other) (fun path chain =>
      Nat.le_succ_of_le (short (other :: path) chain))
  simp only [below] at step
  exact step

/-! ## Where the interfaces of a list come from -/

theorem Linked.bases_of_links (linked : table.Linked) {id other : TypeId}
    (step : table.Links id other) : table.Bases id other ∧ ¬ table.IsInterface other ∨
      table.Lists id other ∧ table.IsInterface other := by
  rcases step with ⟨type, found, base | listed⟩
  · exact .inl ⟨⟨type, found, base⟩, (linked.base_not_interface found base).2⟩
  · rcases linked.interface found listed with ⟨symbol, foundOther, isInterface⟩
    exact .inr ⟨⟨type, found, listed⟩, symbol, foundOther, isInterface⟩

/-- From an interface, links lead along interface lists. -/
theorem Linked.lists_of_links (linked : table.Linked) {id other : TypeId}
    (isInterface : table.IsInterface id) (path : Relation.ReflTransGen table.Links id other) :
    Relation.ReflTransGen table.Lists id other ∧ table.IsInterface other := by
  induction path with
  | refl => exact ⟨.refl, isInterface⟩
  | @tail middle last _ step ih =>
    rcases ih with ⟨earlier, isMiddle⟩
    rcases linked.bases_of_links step with ⟨⟨type, found, base⟩, _⟩ | ⟨lists, isLast⟩
    · rcases isMiddle with ⟨_, foundAgain, inside⟩
      cases found.symm.trans foundAgain
      rw [(linked.base_not_interface found base).1] at inside
      cases inside
    · exact ⟨earlier.tail lists, isLast⟩

/-- A type implements the interfaces that it comes to by base types first, and then by at
least one interface list. -/
theorem Linked.implements_iff (linked : table.Linked) {id interface : TypeId} :
    table.Implements id interface ↔ ∃ level, Relation.ReflTransGen table.Bases id level ∧
      Relation.TransGen table.Lists level interface := by
  constructor
  · intro ⟨path, isInterface⟩
    induction path using Relation.TransGen.head_induction_on with
    | single step =>
      rcases linked.bases_of_links step with ⟨_, isNone⟩ | ⟨lists, _⟩
      · exact absurd isInterface isNone
      · exact ⟨_, .refl, .single lists⟩
    | head step rest ih =>
      rcases linked.bases_of_links step with ⟨base, _⟩ | ⟨lists, isMiddle⟩
      · rcases ih with ⟨level, bases, further⟩
        exact ⟨level, .head base bases, further⟩
      · have further := (linked.lists_of_links isMiddle rest.to_reflTransGen).1
        exact ⟨_, .refl, .head' lists further⟩
  · intro ⟨level, bases, lists⟩
    have start : Relation.ReflTransGen table.Links id level :=
      Relation.ReflTransGen.mono (fun _ _ ⟨type, found, base⟩ => ⟨type, found, .inl base⟩) _ _ bases
    have rest : Relation.TransGen table.Links level interface :=
      Relation.TransGen.mono (fun _ _ ⟨type, found, listed⟩ => ⟨type, found, .inr listed⟩) _ _ lists
    rcases Relation.TransGen.tail'_iff.mp lists with ⟨last, _, type, found, listed⟩
    rcases linked.interface found listed with ⟨symbol, foundInterface, isInterface⟩
    exact ⟨rest.trans_right start, symbol, foundInterface, isInterface⟩

/-! ## Answers -/

/-- Interface lists are those of the plain recursion, which has a solution, and hold just
what base types and then interface lists lead to. This is so whatever was asked before, as
long as no path is cut off and no list is too long. -/
theorem Session.flatten_eq_plain {memory : Memory} (session : Session table memory)
    (short : table.PathsWithin maxDepth) (few : table.interfaceCount ≤ maxInterfaces) :
    (∃ lists, table.PlainLists lists) ∧ ∀ {lists}, table.PlainLists lists →
      ∀ {id type}, table.type? id = some type →
        ((table.flatten id).answer memory).1 = .ok (lists id) ∧
        ∀ interface, interface ∈ lists id ↔ ∃ level, Relation.ReflTransGen table.Bases id level ∧
          Relation.TransGen table.Lists level interface := by
  have wellFormed := session.made.wellFormed
  refine ⟨⟨table.interfacesOf, plainLists_interfacesOf wellFormed few short⟩,
    fun {lists} plain {id type} found => ?_⟩
  have longer : table.PathsWithin longestPath := fun path chain =>
    Nat.le_succ_of_le (short path chain)
  have same : lists id = table.interfacesOf id := plain.eq wellFormed few found (longer.from id)
  rw [same]
  constructor
  · rcases session.coherent longer with ⟨runtime, known⟩
    have agree := remembering_coherent wellFormed.closed longer runtime
    rcases agree.interfaces found memory known with ⟨list, after, answered, _, equal⟩
    have answer : (table.flatten id).answer memory = (.ok list, after) := answered
    rw [answer, equal]
    rfl
  · intro interface
    rw [mem_interfacesOf wellFormed longer few found, wellFormed.linked.implements_iff]

end SymbolTable

/-- The list of the class of `shapes`, after that of its interface was asked for. -/
theorem shapesTable_flatten : ∃ lists, shapesTable.PlainLists lists ∧
    ((shapesTable.flatten ⟨1⟩).answer ((shapesTable.flatten ⟨0⟩).answer ∅).2).1 =
      .ok (lists ⟨1⟩) := by
  have plain := SymbolTable.Session.flatten_eq_plain
    (.flatten (.bind .start shapes [] (.source .latest)) ⟨0⟩) shapesTable_pathsWithin (by decide)
  rcases plain.1 with ⟨lists, isPlain⟩
  exact ⟨lists, isPlain,
    (plain.2 isPlain (Option.some_get (by decide : (shapesTable.type? ⟨1⟩).isSome)).symm).1⟩

end Conformance
