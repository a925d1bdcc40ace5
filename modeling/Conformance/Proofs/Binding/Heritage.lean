import Conformance.Proofs.Binding.Declaring

/-!
The second phase of binding: base types and interface lists.

Every entry of a heritage is what some name of the declaration means
(`Heritage.Named`). Heritages are entered one by one, each at a type of its own.
-/

namespace Conformance

/-- The entries of a heritage are types that names mean: the base a class, and
the interfaces, each once, interfaces. -/
structure Heritage.Named (decl : TypeDecl) (resolve? : String → Option (TypeId × TypeSymbol))
    (heritage : Heritage) : Prop where
  base : ∀ {id}, heritage.base = some id → decl.kind = .classType ∧
    ∃ name type, resolve? name = some (id, type) ∧ type.kind = .classType
  interfaces : ∀ {id}, id ∈ heritage.interfaces →
    ∃ name type, resolve? name = some (id, type) ∧ type.isInterface = true
  nodup : heritage.interfaces.Nodup

/-- A type with its links replaced by those of a heritage. -/
def Heritage.enter (heritage : Heritage) (type : TypeSymbol) : TypeSymbol :=
  { type with base := heritage.base, interfaces := heritage.interfaces }

namespace TypeDecl

variable {decl : TypeDecl} {resolve? : String → Option (TypeId × TypeSymbol)}

theorem bindBase_named {name : String} {id : TypeId} {type : TypeSymbol}
    (resolved : resolve? name = some (id, type)) :
    (decl.bindBase name id type).Named decl resolve? := by
  cases kind : type.kind with
  | interfaceType =>
    have bound : decl.bindBase name id type = { interfaces := [id] } := by
      simp only [bindBase, kind]
    rw [bound]
    refine ⟨fun absent => (nomatch absent), fun {other} listed => ?_, List.nodup_singleton id⟩
    obtain rfl := List.mem_singleton.mp listed
    exact ⟨name, type, resolved, decide_eq_true kind⟩
  | classType =>
    cases own : decl.kind with
    | classType =>
      simp only [bindBase, kind, own]
      refine ⟨fun {other} same => ⟨own, name, type, ?_, kind⟩, nofun, List.nodup_nil⟩
      cases same
      exact resolved
    | _ =>
      simp only [bindBase, kind, own]
      exact ⟨nofun, nofun, List.nodup_nil⟩
  | structType =>
    cases own : decl.kind <;> simp only [bindBase, kind, own] <;>
      exact ⟨nofun, nofun, List.nodup_nil⟩

theorem bindInterface_named {heritage : Heritage} (named : heritage.Named decl resolve?)
    (name : String) : (decl.bindInterface resolve? heritage name).Named decl resolve? := by
  unfold bindInterface
  cases resolved : resolve? name with
  | none => exact ⟨named.base, named.interfaces, named.nodup⟩
  | some entry =>
    obtain ⟨id, type⟩ := entry
    simp only
    split
    · rename_i isInterface
      unfold Heritage.list
      split
      · exact named
      · rename_i fresh
        refine ⟨named.base, fun {other} listed => ?_, ?_⟩
        · rcases List.mem_append.mp listed with earlier | last
          · exact named.interfaces earlier
          · obtain rfl := List.mem_singleton.mp last
            exact ⟨name, type, resolved, isInterface⟩
        · exact nodup_append_singleton named.nodup fresh
    · exact ⟨named.base, named.interfaces, named.nodup⟩

/-- A declaration inherits what its names mean. -/
theorem bindHeritage_named (decl : TypeDecl)
    (resolve? : String → Option (TypeId × TypeSymbol)) :
    (decl.bindHeritage resolve?).Named decl resolve? := by
  have fold {heritage : Heritage} (named : heritage.Named decl resolve?) (names : List String) :
      (names.foldl (decl.bindInterface resolve?) heritage).Named decl resolve? := by
    induction names generalizing heritage with
    | nil => exact named
    | cons name names ih => exact ih (bindInterface_named named name)
  refine fold ?_ decl.interfaces
  cases decl.base with
  | none => exact ⟨nofun, nofun, List.nodup_nil⟩
  | some name =>
    cases resolved : resolve? name with
    | none =>
      simp only [resolved]
      exact ⟨nofun, nofun, List.nodup_nil⟩
    | some entry =>
      simp only [resolved]
      exact bindBase_named resolved

theorem foldl_bindInterface_resolved {names : List String} {ids : List TypeId}
    (resolved : List.Forall₂ (fun name id => ∃ type, resolve? name = some (id, type) ∧
      type.isInterface = true) names ids) (heritage : Heritage)
    (distinct : (heritage.interfaces ++ ids).Nodup) :
    names.foldl (decl.bindInterface resolve?) heritage =
      { heritage with interfaces := heritage.interfaces ++ ids } := by
  induction resolved generalizing heritage with
  | nil => rw [List.foldl_nil, List.append_nil]
  | @cons name id names ids head _ ih =>
    obtain ⟨type, meant, isInterface⟩ := head
    have fresh : id ∉ heritage.interfaces := fun inside =>
      (List.nodup_append.mp distinct).2.2 id inside id List.mem_cons_self rfl
    have step : decl.bindInterface resolve? heritage name =
        { heritage with interfaces := heritage.interfaces ++ [id] } := by
      simp only [bindInterface, meant, isInterface, if_true, Heritage.list, fresh, if_false]
    rw [List.foldl_cons, step, ih]
    · simp
    · simpa using distinct

/-- A declaration whose names mean types of the right kinds inherits them all. -/
theorem bindHeritage_resolved {base : Option TypeId} {interfaces : List TypeId}
    (resolvedBase : Option.Rel (fun name id => decl.kind = .classType ∧
      ∃ type, resolve? name = some (id, type) ∧ type.kind = .classType) decl.base base)
    (resolved : List.Forall₂ (fun name id => ∃ type, resolve? name = some (id, type) ∧
      type.isInterface = true) decl.interfaces interfaces) (distinct : interfaces.Nodup) :
    (decl.bindHeritage resolve?).base = base ∧
      (decl.bindHeritage resolve?).interfaces = interfaces := by
  unfold bindHeritage
  generalize decl.base = name at resolvedBase ⊢
  cases resolvedBase with
  | none =>
    simp only
    rw [foldl_bindInterface_resolved resolved {} distinct]
    exact ⟨rfl, rfl⟩
  | @some name id related =>
    obtain ⟨isClass, type, meant, kind⟩ := related
    have start : (decl.bindBase name id type).base = some id ∧
        (decl.bindBase name id type).interfaces = [] := by
      simp [bindBase, isClass, kind]
    simp only [meant]
    rw [foldl_bindInterface_resolved resolved _ (by rw [start.2]; exact distinct)]
    exact ⟨start.1, by rw [start.2, List.nil_append]⟩

end TypeDecl

namespace SymbolTable

/-! ## Looking names up -/

variable {table : SymbolTable}

theorem typeIn?_some {assembly : AssemblyId} {name : String} {id : TypeId}
    (found : table.typeIn? assembly name = some id) :
    id ∈ table.typesOf assembly ∧ ∃ type, table.type? id = some type ∧ type.name = name := by
  have named := List.find?_some found
  obtain ⟨type, foundType, same⟩ := (Option.any_eq_true _ _).mp named
  exact ⟨List.mem_of_find?_eq_some found, type, foundType, of_decide_eq_true same⟩

theorem typeSeenFrom?_some {assembly : AssemblyId} {name : String} {id : TypeId}
    (seen : table.typeSeenFrom? assembly name = some id) :
    ∃ type, table.type? id = some type ∧ type.name = name := by
  rw [typeSeenFrom?, Option.or_eq_some_iff] at seen
  rcases seen with own | ⟨_, referenced⟩
  · exact (typeIn?_some own).2
  · obtain ⟨reference, _, found⟩ := List.exists_of_findSome?_eq_some referenced
    exact (typeIn?_some found).2

theorem resolve?_some {assembly : AssemblyId} {name : String} {id : TypeId} {type : TypeSymbol}
    (resolved : table.resolve? assembly name = some (id, type)) :
    table.typeSeenFrom? assembly name = some id ∧ table.type? id = some type ∧
      type.name = name := by
  obtain ⟨other, seen, rest⟩ := Option.bind_eq_some_iff.mp resolved
  obtain ⟨symbol, found, same⟩ := Option.bind_eq_some_iff.mp rest
  cases same
  obtain ⟨_, foundNamed, named⟩ := typeSeenFrom?_some seen
  cases found.symm.trans foundNamed
  exact ⟨seen, found, named⟩

/-! ## Entering heritages -/

/-- Enters the heritages of types. -/
def setHeritages (table : SymbolTable) (entries : List (TypeId × Heritage)) : SymbolTable :=
  entries.foldl (fun table entry => table.setHeritage entry.1 entry.2) table

section setHeritages

variable (table) (entries : List (TypeId × Heritage))

theorem assemblies_setHeritages : (table.setHeritages entries).assemblies = table.assemblies := by
  unfold setHeritages
  induction entries generalizing table with
  | nil => rfl
  | cons entry entries ih => exact ih _

theorem members_setHeritages : (table.setHeritages entries).members = table.members := by
  unfold setHeritages
  induction entries generalizing table with
  | nil => rfl
  | cons entry entries ih => exact ih _

theorem types_setHeritages_size : (table.setHeritages entries).types.size = table.types.size := by
  unfold setHeritages
  induction entries generalizing table with
  | nil => rfl
  | cons entry entries ih =>
    rw [List.foldl_cons, ih]
    exact types_modifyType_size ..

variable {table entries}

theorem type?_setHeritages_of_notMem {id : TypeId} (absent : id ∉ entries.map Prod.fst) :
    (table.setHeritages entries).type? id = table.type? id := by
  unfold setHeritages
  induction entries generalizing table with
  | nil => rfl
  | cons entry entries ih =>
    rw [List.map_cons, List.mem_cons, not_or] at absent
    rw [List.foldl_cons, ih absent.2, setHeritage, type?_modifyType, if_neg (Ne.symm absent.1)]

theorem type?_setHeritages {id : TypeId} {heritage : Heritage}
    (distinct : (entries.map Prod.fst).Nodup) (listed : (id, heritage) ∈ entries) :
    (table.setHeritages entries).type? id = (table.type? id).map heritage.enter := by
  unfold setHeritages
  induction entries generalizing table with
  | nil => nomatch listed
  | cons entry entries ih =>
    rw [List.map_cons, List.nodup_cons] at distinct
    rw [List.foldl_cons]
    rcases List.mem_cons.mp listed with rfl | later
    · have rest : ((table.setHeritage id heritage).setHeritages entries).type? id =
          (table.setHeritage id heritage).type? id := type?_setHeritages_of_notMem distinct.1
      rw [setHeritages] at rest
      rw [rest, setHeritage, type?_modifyType, if_pos rfl]
      rfl
    · have apart : entry.1 ≠ id := fun same =>
        distinct.1 (same ▸ List.mem_map_of_mem (f := Prod.fst) later)
      rw [ih distinct.2 later, setHeritage, type?_modifyType, if_neg apart]

end setHeritages

end SymbolTable

end Conformance
