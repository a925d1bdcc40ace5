import Conformance.Symbol.Table
import Mathlib.Data.List.Basic
import Mathlib.Data.List.Chain

/-!
Closed symbol tables, and the links between their types.

A table is closed if every id in its symbols is the id of a symbol. Lookups in
a closed table do not fault: base chains consist of types that exist.
-/

namespace Conformance

namespace SymbolTable

/-- The ids that a table holds are ids of symbols in it. -/
structure Closed (table : SymbolTable) : Prop where
  base : ∀ {id type base}, table.type? id = some type → type.base = some base →
    ∃ symbol, table.type? base = some symbol
  interface : ∀ {id type interface}, table.type? id = some type →
    interface ∈ type.interfaces → ∃ symbol, table.type? interface = some symbol
  member : ∀ {id type member}, table.type? id = some type → member ∈ type.members →
    ∃ symbol, table.member? member = some symbol
  owner : ∀ {id member}, table.member? id = some member →
    ∃ symbol, table.type? member.owner = some symbol
  accessor : ∀ {id member accessor}, table.member? id = some member →
    accessor ∈ member.accessors → ∃ symbol, table.member? accessor = some symbol
  parent : ∀ {id member kind parent}, table.member? id = some member →
    member.clause? = some (kind, parent) → ∃ symbol, table.member? parent = some symbol

/-- A type names another one as its base or in its list of interfaces. -/
def Links (table : SymbolTable) (id other : TypeId) : Prop :=
  ∃ type, table.type? id = some type ∧ (type.base = some other ∨ other ∈ type.interfaces)

/-- Every path along links visits at most `bound` types. -/
def PathsWithin (table : SymbolTable) (bound : Nat) : Prop :=
  ∀ path : List TypeId, path.IsChain table.Links → path.length ≤ bound

/-- The number of interfaces. -/
def interfaceCount (table : SymbolTable) : Nat :=
  table.types.countP TypeSymbol.isInterface

theorem member?_of_mem_membersOf {table : SymbolTable} {type : TypeSymbol}
    {entry : MemberId × MemberSymbol} (listed : entry ∈ table.membersOf type) :
    entry.1 ∈ type.members ∧ table.member? entry.1 = some entry.2 := by
  obtain ⟨id, member, found⟩ := List.mem_filterMap.mp listed
  obtain ⟨symbol, foundSymbol, rfl⟩ := Option.map_eq_some_iff.mp found
  exact ⟨member, foundSymbol⟩

theorem member?_of_mem_accessorsOf {table : SymbolTable} {member : MemberSymbol}
    {entry : MemberId × MemberSymbol} (listed : entry ∈ table.accessorsOf member) :
    entry.1 ∈ member.accessors ∧ table.member? entry.1 = some entry.2 := by
  obtain ⟨id, accessor, found⟩ := List.mem_filterMap.mp listed
  obtain ⟨symbol, foundSymbol, rfl⟩ := Option.map_eq_some_iff.mp found
  exact ⟨accessor, foundSymbol⟩

theorem mem_membersOf {table : SymbolTable} {type : TypeSymbol} {id : MemberId}
    {member : MemberSymbol} (listed : id ∈ type.members) (found : table.member? id = some member) :
    (id, member) ∈ table.membersOf type :=
  List.mem_filterMap.mpr ⟨id, listed, by rw [found]; rfl⟩

theorem mem_accessorsOf {table : SymbolTable} {member accessor : MemberSymbol} {id : MemberId}
    (listed : id ∈ member.accessors) (found : table.member? id = some accessor) :
    (id, accessor) ∈ table.accessorsOf member :=
  List.mem_filterMap.mpr ⟨id, listed, by rw [found]; rfl⟩

theorem sublist_pairs (table : SymbolTable) (ids : List MemberId) :
    ((ids.filterMap fun id => (table.member? id).map fun member => (id, member)).map
      Prod.fst).Sublist ids := by
  induction ids with
  | nil => exact .slnil
  | cons id ids ih =>
    rw [List.filterMap_cons]
    cases table.member? id with
    | none => exact ih.cons id
    | some member => exact ih.cons_cons id

theorem sublist_membersOf (table : SymbolTable) (type : TypeSymbol) :
    ((table.membersOf type).map Prod.fst).Sublist type.members :=
  table.sublist_pairs type.members

theorem sublist_accessorsOf (table : SymbolTable) (member : MemberSymbol) :
    ((table.accessorsOf member).map Prod.fst).Sublist member.accessors :=
  table.sublist_pairs member.accessors

/-! ## Base chains of closed tables -/

variable {table : SymbolTable}

theorem Closed.exists_of_mem_walkBases (closed : table.Closed) {steps : Nat}
    {visited : List TypeId} {id level : TypeId}
    (known : ∃ symbol, table.type? id = some symbol)
    (passed : level ∈ table.walkBases steps visited id) :
    ∃ symbol, table.type? level = some symbol := by
  induction steps generalizing visited id with
  | zero => simp [walkBases] at passed
  | succ steps ih =>
    obtain ⟨symbol, found⟩ := known
    rw [walkBases, found] at passed
    split at passed
    · simp at passed
    · cases baseAt : symbol.base with
      | none =>
        rw [Option.bind_some, baseAt, List.mem_singleton] at passed
        exact ⟨symbol, passed ▸ found⟩
      | some base =>
        rw [Option.bind_some, baseAt, List.mem_cons] at passed
        rcases passed with rfl | below
        · exact ⟨symbol, found⟩
        · exact ih (closed.base found baseAt) below

theorem Closed.exists_of_mem_baseChain (closed : table.Closed) {id level : TypeId}
    (known : ∃ symbol, table.type? id = some symbol) (passed : level ∈ table.baseChain id) :
    ∃ symbol, table.type? level = some symbol :=
  closed.exists_of_mem_walkBases known passed

end SymbolTable

end Conformance
