import Conformance.Proofs.Resolution.Closure

/-!
What every memory keeps.

However long the paths of a table are, no interface stands twice on a list that is
remembered, a level is that of its type, and a runtime flag is the one that the memory
started with, or the one that the core library gives (`Memory.Steady`). Every query keeps this
(`SymbolTable.remembering_steady`).
-/

namespace Conformance

namespace Memory

/-- The lists of a memory are without repetition, and its levels and runtime flags are
given. -/
structure Steady (table : SymbolTable) (runtime : AssemblyId → Bool) (memory : Memory) :
    Prop where
  nodup : ∀ {id : TypeId} {list}, memory.interfaces.find? id.index = some list → list.Nodup
  level : ∀ {id : TypeId} {type level}, table.type? id = some type →
    memory.levels.find? id.index = some level → level = LevelTable.ofType table type
  runtime : ∀ id : AssemblyId,
    (memory.runtime.find? id.index).getD (table.declaredRuntime id) = runtime id

/-- Queries have answers from steady memories, and leave steady memories behind. The
values on the other side do not matter. -/
def steady (table : SymbolTable) (runtime : AssemblyId → Bool) : Lifting QueryM Id where
  rel r query _ := ∀ memory : Memory, memory.Steady table runtime →
    ∃ a after, query.answer memory = (.ok a, after) ∧ after.Steady table runtime ∧ ∃ b, r a b
  pure results memory known := ⟨_, memory, rfl, known, _, results⟩
  bind related next memory known := by
    obtain ⟨a, middle, answered, kept, b, results⟩ := related memory known
    obtain ⟨c, after, answeredNext, keptNext, resultsNext⟩ := next a b results middle kept
    exact ⟨c, after, by rw [QueryM.answer_bind_ok answered, answeredNext], keptNext, resultsNext⟩

variable {table : SymbolTable} {runtime : AssemblyId → Bool}

theorem Steady.remember {memory : Memory} (known : memory.Steady table runtime) {list : List TypeId}
    (nodup : list.Nodup) (id : TypeId) :
    Steady table runtime
      { memory with interfaces := memory.interfaces.insert id.index list } where
  nodup {other answer} found := by
    rw [Memo.find?_insert] at found
    split at found
    · cases found
      exact nodup
    · exact known.nodup found
  level := known.level
  runtime := known.runtime

end Memory

/-- No interface stands twice on the list of a type if that is so for its links. -/
theorem TypeSymbol.gather_nodup {m n : Type → Type} [Monad m] [Monad n] (L : Lifting m n)
    {type : TypeSymbol} (id : TypeId) {first : TypeId → m (List TypeId)}
    {second : TypeId → n (List TypeId)}
    (links : ∀ other, type.base = some other ∨ other ∈ type.interfaces →
      L.rel (fun a b => a = b ∧ a.Nodup) (first other) (second other)) :
    L.rel (fun a b => a = b ∧ a.Nodup) (type.gather id first) (type.gather id second) := by
  have inherited : L.rel (fun a b => a = b ∧ a.Nodup) (type.gatherBase first)
      (type.gatherBase second) := by
    unfold TypeSymbol.gatherBase
    cases type.isInterface with
    | true => exact L.pure ⟨rfl, .nil⟩
    | false =>
      cases known : type.base with
      | none => exact L.pure ⟨rfl, .nil⟩
      | some base => exact links base (.inl known)
  apply L.bind inherited
  intro start _ ⟨same, nodup⟩
  subst same
  have items : List.Forall₂ Eq type.interfaces type.interfaces := List.forall₂_refl _
  apply L.foldlM (q := fun a b : List TypeId => a = b ∧ a.Nodup) items ⟨rfl, nodup⟩
  intro list _ interface _ listed ⟨same, distinct⟩ sameInterface
  subst same sameInterface
  split
  · exact L.pure ⟨rfl, distinct⟩
  · rename_i fresh
    rw [not_or, not_or] at fresh
    apply L.bind (links interface (.inr listed))
    intro below _ ⟨same, _⟩
    subst same
    refine L.pure ⟨rfl, ?_⟩
    have longer : (list ++ [interface]).Nodup := by
      rw [← List.concat_eq_append]
      exact distinct.concat fresh.2.2
    exact List.foldlRecOn below (SymbolTable.addInherited id) longer fun _ known next _ =>
      SymbolTable.nodup_addInherited known id next

namespace SymbolTable

variable {table : SymbolTable} {runtime : AssemblyId → Bool}

theorem flattenFrom_steady (closed : table.Closed) {origin : TypeId}
    (known : ∃ symbol, table.type? origin = some symbol) (depth : Nat) (path : List TypeId) :
    (Memory.steady table runtime).rel (fun a b => a = b ∧ a.Nodup)
      (table.flattenFrom depth path origin) ([] : List TypeId) := by
  induction depth generalizing origin path with
  | zero =>
    intro memory steady
    cases remembered : memory.interfaces.find? origin.index with
    | some list =>
      exact ⟨list, memory, flattenFrom_known remembered 0 path, steady, _, rfl,
        steady.nodup remembered⟩
    | none => exact ⟨[], memory, flattenFrom_zero remembered path, steady, _, rfl, .nil⟩
  | succ depth ih =>
    intro memory steady
    cases remembered : memory.interfaces.find? origin.index with
    | some list =>
      exact ⟨list, memory, flattenFrom_known remembered _ path, steady, _, rfl,
        steady.nodup remembered⟩
    | none =>
      by_cases passed : origin ∈ path
      · exact ⟨[], memory, flattenFrom_passed remembered passed _, steady, _, rfl, .nil⟩
      · rcases known with ⟨type, found⟩
        have gathers : (Memory.steady table runtime).rel (fun a b => a = b ∧ a.Nodup)
            (type.gather origin (table.flattenFrom depth (origin :: path)))
            (type.gather origin fun _ => ([] : List TypeId)) :=
          TypeSymbol.gather_nodup _ origin fun other linked =>
            ih (closed.link found linked) (origin :: path)
        rcases gathers memory steady with ⟨list, after, gathered, kept, _, _, nodup⟩
        exact ⟨list, _, flattenFrom_opened remembered passed found gathered,
          kept.remember nodup origin, _, rfl, nodup⟩

theorem levelOf_steady {origin : TypeId} {type : TypeSymbol}
    (found : table.type? origin = some type) :
    (Memory.steady table runtime).rel Eq (table.levelOf origin) ({} : LevelTable) := by
  intro memory steady
  cases remembered : memory.levels.find? origin.index with
  | some level => exact ⟨level, memory, levelOf_known remembered, steady, _, rfl⟩
  | none =>
    refine ⟨_, _, levelOf_fresh remembered found, ⟨steady.nodup, ?_, steady.runtime⟩, _, rfl⟩
    intro other symbol level foundOther known
    rw [Memo.find?_insert] at known
    split at known
    · rename_i same
      obtain rfl : origin = other := congrArg TypeId.mk same
      cases found.symm.trans foundOther
      exact (Option.some.inj known).symm
    · exact steady.level foundOther known

/-- The flag that is read is the one that is given. -/
theorem answer_readRuntime {memory : Memory} (steady : memory.Steady table runtime)
    (id : AssemblyId) : ∃ after, (table.readRuntime id).answer memory = (.ok (runtime id), after) ∧
      after.Steady table runtime := by
  have given := steady.runtime id
  cases remembered : memory.runtime.find? id.index with
  | some flag =>
    rw [remembered, Option.getD_some] at given
    exact ⟨memory, given ▸ readRuntime_known remembered, steady⟩
  | none =>
    rw [remembered, Option.getD_none] at given
    have answered : (table.readRuntime id).answer memory = _ := readRuntime_fresh remembered
    rw [given] at answered
    refine ⟨_, answered, ⟨steady.nodup, steady.level, fun other => ?_⟩⟩
    rw [Memo.find?_insert]
    split
    · rename_i same
      obtain rfl : id = other := congrArg AssemblyId.mk same
      rfl
    · exact steady.runtime other

theorem readRuntime_steady (id : AssemblyId) :
    (Memory.steady table runtime).rel Eq (table.readRuntime id) false := by
  intro memory steady
  obtain ⟨after, answered, kept⟩ := answer_readRuntime steady id
  exact ⟨_, after, answered, kept, _, rfl⟩

/-- The lookups with memory keep memories steady. -/
theorem remembering_steady (closed : table.Closed) (runtime : AssemblyId → Bool) :
    Lookups.Agree (Memory.steady table runtime) table table.remembering
      { interfaces := fun _ => ([] : List TypeId), level := fun _ => ({} : LevelTable),
        runtime := fun _ => false } where
  interfaces {_ type} found memory steady := by
    rcases flattenFrom_steady closed ⟨type, found⟩ maxDepth [] memory steady with
      ⟨list, after, answered, kept, _⟩
    exact ⟨list, after, answered, kept, _, rfl⟩
  level found := levelOf_steady found
  runtime id := readRuntime_steady id

end SymbolTable

end Conformance
