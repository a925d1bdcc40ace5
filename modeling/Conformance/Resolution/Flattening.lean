import Conformance.Resolution.Basic
import Conformance.Resolution.Memo

/-!
Interface lists, and resolution with memory.

The interface list of a type holds every interface that it implements: those of
its base type, then each interface that it declares, followed by the list of
that interface. The first occurrence of an interface fixes its place, and no
interface is in its own list.

Lists and levels are remembered, and a runtime flag that was read or set stays
as it is. Symbol tables that were not made by binding may hold cycles and long
chains; bounds keep every walk finite.
-/

namespace Conformance

/-- The largest number of interfaces in a list. -/
def maxInterfaces : Nat := 4096

/-- What earlier queries left behind. -/
structure Memory where
  interfaces : Memo (List TypeId) := ∅
  levels : Memo LevelTable := ∅
  /-- The runtime flags that were read or set. -/
  runtime : Memo Bool := ∅

instance : EmptyCollection Memory := ⟨{}⟩

instance : Inhabited Memory := ⟨∅⟩

/-- Whether the runtime flag of an assembly was read or set. -/
def Memory.isFrozen (memory : Memory) (id : AssemblyId) : Bool :=
  (memory.runtime.find? id.index).isSome

/-- Queries that use and fill a memory. What was learned before a fault is kept. -/
abbrev QueryM := ExceptT Fault (StateM Memory)

namespace QueryM

/-- Runs a query. -/
def answer {α : Type} (query : QueryM α) (memory : Memory) : Except Fault α × Memory :=
  let (result, memory) := (ExceptT.run query).run memory
  (result, memory)

end QueryM

namespace SymbolTable

/-! ## Interface lists -/

/-- Adds an inherited interface to the list of `origin`. -/
def addInherited (origin : TypeId) (list : List TypeId) (inherited : TypeId) : List TypeId :=
  if maxInterfaces ≤ list.length ∨ inherited = origin ∨ inherited ∈ list then list
  else list ++ [inherited]

end SymbolTable

/-- What the interface list of a type begins with: the list of its base type. -/
def TypeSymbol.gatherBase {m : Type → Type} [Monad m] (type : TypeSymbol)
    (below : TypeId → m (List TypeId)) : m (List TypeId) :=
  match type.isInterface, type.base with
  | false, some base => below base
  | _, _ => pure []

/-- The interface list of a type, given a way to get those of the types that it
is linked to. -/
def TypeSymbol.gather {m : Type → Type} [Monad m] (type : TypeSymbol) (id : TypeId)
    (below : TypeId → m (List TypeId)) : m (List TypeId) := do
  let inherited ← type.gatherBase below
  type.interfaces.foldlM (fun list interface => do
    if maxInterfaces ≤ list.length ∨ interface = id ∨ interface ∈ list then return list
    return (← below interface).foldl (SymbolTable.addInherited id) (list ++ [interface])) inherited

namespace SymbolTable

/-- The interface list of a type that is reached along `path`. Types on the path
contribute nothing a second time, and at most `depth` more types are opened. -/
def flattenFrom (table : SymbolTable) :
    Nat → List TypeId → TypeId → QueryM (List TypeId)
  | depth, path, id => do
    match (← get).interfaces.find? id.index with
    | some known => return known
    | none =>
      match depth with
      | 0 => return []
      | depth + 1 =>
        if id ∈ path then return []
        let type ← table.type id
        let list ← type.gather id fun other => flattenFrom table depth (id :: path) other
        modify fun memory =>
          { memory with interfaces := memory.interfaces.insert id.index list }
        return list

/-- The interface list of a type. -/
def flatten (table : SymbolTable) (id : TypeId) : QueryM (List TypeId) :=
  table.flattenFrom maxDepth [] id

/-! ## Levels -/

/-- The members that a type declares. -/
def levelOf (table : SymbolTable) (id : TypeId) : QueryM LevelTable := do
  match (← get).levels.find? id.index with
  | some known => return known
  | none =>
    let level := LevelTable.ofType table (← table.type id)
    modify fun memory => { memory with levels := memory.levels.insert id.index level }
    return level

/-! ## Runtime flags -/

/-- What the core library of an assembly says about its runtime. An assembly
without one has a runtime that cannot call bodies of interfaces. -/
def declaredRuntime (table : SymbolTable) (id : AssemblyId) : Bool :=
  ((table.assembly? id).bind AssemblySymbol.coreLibrary).any CoreLibrary.supportsDefaults

/-- Reads the runtime flag of an assembly. From then on it is fixed. -/
def readRuntime (table : SymbolTable) (id : AssemblyId) : QueryM Bool := do
  match (← get).runtime.find? id.index with
  | some known => return known
  | none =>
    let value := table.declaredRuntime id
    modify fun memory => { memory with runtime := memory.runtime.insert id.index value }
    return value

/-- Sets the runtime flag of an assembly, unless it is fixed. -/
def setRuntime (table : SymbolTable) (id : AssemblyId) (value : Bool) : QueryM Unit := do
  if (← get).isFrozen id then
    throw (.frozenRuntime (((table.assembly? id).map AssemblySymbol.name).getD "") value)
  modify fun memory => { memory with runtime := memory.runtime.insert id.index value }

/-! ## Resolution -/

/-- Lookups that use and fill a memory. -/
def remembering (table : SymbolTable) : Lookups QueryM where
  interfaces := table.flatten
  level := table.levelOf
  runtime := table.readRuntime

/-- What implements an interface member for a type. -/
def resolve (table : SymbolTable) (typeId : TypeId) (id : MemberId) : QueryM Resolution :=
  table.remembering.resolve table typeId id

end SymbolTable

end Conformance
