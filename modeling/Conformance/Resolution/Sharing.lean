import Conformance.Resolution.Flattening

/-!
Queries that share a memory.

Types are checked side by side, by threads that share what they remember. A thread looks for an
answer, works it out where there is none, and then remembers it. Nothing comes between the parts
of one access to the memory, but between two accesses of a thread the others can make any number
of theirs. If one of them has remembered an answer in the meantime, that answer stays, and the
thread goes on with it.

So a `Thread` is a query that stops at every access, a `Pool` is what there is between two
accesses, and a schedule says whose access is next.
-/

namespace Conformance

/-! ## Threads -/

/-- A query that has ended, or that waits for an access to the memory. The access changes the
memory, and the query goes on with what was in it before. -/
inductive Thread (α : Type) where
  | ended (result : Except Fault α)
  | access (change : Memory → Memory) (next : Memory → Thread α)

namespace Thread

variable {α β : Type}

/-- Goes on with the result of a query, if it has one. -/
def bind : Thread α → (α → Thread β) → Thread β
  | ended (.ok value), further => further value
  | ended (.error fault), _ => ended (.error fault)
  | access change next, further => access change fun memory => (next memory).bind further

instance : Monad Thread where
  pure value := ended (.ok value)
  bind := bind

instance : MonadLift (Except Fault) Thread := ⟨ended⟩

/-- Runs a thread to its end. No other comes in between. -/
def alone : Thread α → QueryM α
  | ended result => liftM result
  | access change next => do
    let memory ← getModify change
    (next memory).alone

end Thread

/-- Threads that share a memory. -/
structure Pool (α : Type) where
  threads : List (Thread α)
  memory : Memory

namespace Pool

variable {α : Type}

/-- The thread at a position makes its next access. One that has ended makes none. -/
def turn (pool : Pool α) (position : Nat) : Pool α :=
  match pool.threads[position]? with
  | some (.access change next) =>
    { threads := pool.threads.set position (next pool.memory), memory := change pool.memory }
  | _ => pool

/-- The threads make their accesses in the order of a schedule. -/
def follow (pool : Pool α) (schedule : List Nat) : Pool α := schedule.foldl turn pool

/-- The threads end, one after another. -/
def finish (pool : Pool α) : QueryM (List α) := do
  set pool.memory
  pool.threads.mapM Thread.alone

end Pool

/-- The results of threads that run side by side. What is left of them when the schedule is over
runs in their order. -/
def Thread.sideBySide {α : Type} (threads : List (Thread α)) (schedule : List Nat) :
    QueryM (List α) := do
  let pool : Pool α := { threads, memory := ← get }
  (pool.follow schedule).finish

/-! ## Accesses -/

/-- Remembers an answer, unless there is one. -/
def Memo.keep {α : Type} (memo : Memo α) (index : Nat) (answer : α) : Memo α :=
  if (memo.find? index).isSome then memo else memo.insert index answer

/-- The part of a memory that holds the answers to one kind of question. -/
structure Memory.Part (α : Type) where
  read : Memory → Memo α
  write : Memory → Memo α → Memory

namespace Memory.Part

def interfaces : Part (List TypeId) where
  read := Memory.interfaces
  write memory memo := { memory with interfaces := memo }

def levels : Part LevelTable where
  read := Memory.levels
  write memory memo := { memory with levels := memo }

def runtime : Part Bool where
  read := Memory.runtime
  write memory memo := { memory with runtime := memo }

@[simp] theorem read_interfaces (memory : Memory) : interfaces.read memory = memory.interfaces := rfl

@[simp] theorem read_levels (memory : Memory) : levels.read memory = memory.levels := rfl

@[simp] theorem read_runtime (memory : Memory) : runtime.read memory = memory.runtime := rfl

end Memory.Part

namespace Thread

variable {α : Type}

/-- Looks for an answer. -/
def find (part : Memory.Part α) (index : Nat) : Thread (Option α) :=
  access id fun memory => pure ((part.read memory).find? index)

/-- Remembers an answer, unless there is one. The result is what is remembered then. -/
def keep (part : Memory.Part α) (index : Nat) (answer : α) : Thread α :=
  access (fun memory => part.write memory ((part.read memory).keep index answer))
    fun memory => pure (((part.read memory).find? index).getD answer)

end Thread

/-! ## Lookups -/

namespace SymbolTable

/-- The interface list of a type that is reached along `path`, in a memory that others use. -/
def flattenSharing (table : SymbolTable) : Nat → List TypeId → TypeId → Thread (List TypeId)
  | depth, path, id => do
    match ← Thread.find .interfaces id.index with
    | some known => return known
    | none =>
      match depth with
      | 0 => return []
      | depth + 1 =>
        if id ∈ path then return []
        let type ← table.type id
        let list ← type.gather id fun other => flattenSharing table depth (id :: path) other
        Thread.keep .interfaces id.index list

/-- The members that a type declares. -/
def levelSharing (table : SymbolTable) (id : TypeId) : Thread LevelTable := do
  match ← Thread.find .levels id.index with
  | some known => return known
  | none =>
    let type ← table.type id
    Thread.keep .levels id.index (.ofType table type)

/-- Reads the runtime flag of an assembly. It is found out and fixed in one access. -/
def runtimeSharing (table : SymbolTable) (id : AssemblyId) : Thread Bool :=
  Thread.keep .runtime id.index (table.declaredRuntime id)

/-- Lookups in a memory that others use. -/
def sharing (table : SymbolTable) : Lookups Thread where
  interfaces := table.flattenSharing maxDepth []
  level := table.levelSharing
  runtime := table.runtimeSharing

end SymbolTable

end Conformance
