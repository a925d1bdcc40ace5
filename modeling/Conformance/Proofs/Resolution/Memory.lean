import Conformance.Proofs.Compilation.Agreement
import Conformance.Resolution.Flattening

/-!
Queries that use a memory.

A query never forgets: what was remembered before it is remembered after it,
with the same answer (`Memory.Extends`). `Memory.settled` compares queries with
lookups that read a memory at the end of a run, and so needs no assumption on
what the memory held before; `SymbolTable.remembering_settled` says that the
lookups with memory answer what is remembered at the end.
-/

namespace Conformance

namespace QueryM

variable {α β : Type}

theorem answer_bind (query : QueryM α) (next : α → QueryM β) (memory : Memory) :
    (query >>= next).answer memory =
      match query.answer memory with
      | (.ok a, after) => (next a).answer after
      | (.error fault, after) => (.error fault, after) := by
  unfold answer
  simp only [ExceptT.run_bind, StateT.run_bind]
  generalize (ExceptT.run query).run memory = outcome
  obtain ⟨result, after⟩ := outcome
  cases result <;> rfl

/-- A query goes on after one that has an answer. -/
theorem answer_bind_ok {query : QueryM α} {next : α → QueryM β} {memory after : Memory} {a : α}
    (answered : query.answer memory = (.ok a, after)) :
    (query >>= next).answer memory = (next a).answer after := by
  rw [answer_bind, answered]

theorem answer_get (next : Memory → QueryM α) (memory : Memory) :
    (get >>= next : QueryM α).answer memory = (next memory).answer memory := rfl

theorem answer_modify (f : Memory → Memory) (next : Unit → QueryM α) (memory : Memory) :
    (modify f >>= next : QueryM α).answer memory = (next ()).answer (f memory) := rfl

end QueryM

theorem SymbolTable.type_eq_ok {table : SymbolTable} {id : TypeId} {symbol : TypeSymbol}
    (found : table.type? id = some symbol) : table.type id = .ok symbol := by
  rw [SymbolTable.type, found]

/-! ## The order of memories -/

namespace Memo

variable {α : Type}

/-- One memo has every answer of another. -/
def Extends (before after : Memo α) : Prop :=
  ∀ index answer, before.find? index = some answer → after.find? index = some answer

theorem Extends.refl (memo : Memo α) : memo.Extends memo := fun _ _ found => found

theorem Extends.trans {before middle after : Memo α} (first : before.Extends middle)
    (second : middle.Extends after) : before.Extends after :=
  fun index answer found => second index answer (first index answer found)

/-- An answer where there was none takes no other answer away. -/
theorem extends_insert {memo : Memo α} {index : Nat} (fresh : memo.find? index = none)
    (answer : α) : memo.Extends (memo.insert index answer) := by
  intro other known found
  rw [find?_insert]
  split
  · rename_i same
    subst same
    rw [fresh] at found
    contradiction
  · exact found

theorem find?_insert_self (memo : Memo α) (index : Nat) (answer : α) :
    (memo.insert index answer).find? index = some answer := by
  rw [find?_insert, if_pos rfl]

end Memo

namespace Memory

/-- One memory has every answer of another. -/
structure Extends (before after : Memory) : Prop where
  interfaces : before.interfaces.Extends after.interfaces
  levels : before.levels.Extends after.levels
  runtime : before.runtime.Extends after.runtime

theorem Extends.refl (memory : Memory) : memory.Extends memory :=
  ⟨.refl _, .refl _, .refl _⟩

theorem Extends.trans {before middle after : Memory} (first : before.Extends middle)
    (second : middle.Extends after) : before.Extends after where
  interfaces := first.interfaces.trans second.interfaces
  levels := first.levels.trans second.levels
  runtime := first.runtime.trans second.runtime

/-! ## Settled answers -/

/-- Lookups in a memory that is known only at the end of a run. What is not remembered
then has no answer. -/
def eventual : Lookups (ReaderT Memory Option) where
  interfaces id := fun final => final.interfaces.find? id.index
  level id := fun final => final.levels.find? id.index
  runtime id := fun final => final.runtime.find? id.index

/-- Queries have answers, from every memory, which are settled: they are those
of lookups in whatever memory there is at the end, and all that these lookups ask for
is remembered. -/
def settled : Lifting QueryM (ReaderT Memory Option) where
  rel r query value := ∀ memory, ∃ a after, query.answer memory = (.ok a, after) ∧
    memory.Extends after ∧ ∀ final, after.Extends final → ∃ b, value final = some b ∧ r a b
  pure results memory := ⟨_, memory, rfl, .refl memory, fun _ _ => ⟨_, rfl, results⟩⟩
  bind {α β γ δ r q x y f g} related next memory := by
    obtain ⟨a, middle, answered, grown, settles⟩ := related memory
    obtain ⟨first, _, start⟩ := settles middle (.refl middle)
    obtain ⟨c, after, answeredNext, grownNext, _⟩ := next a first start middle
    refine ⟨c, after, ?_, grown.trans grownNext, fun final later => ?_⟩
    · rw [QueryM.answer_bind_ok answered, answeredNext]
    · -- The answer does not depend on the value that the second part is compared with.
      obtain ⟨b, known, results⟩ := settles final (grownNext.trans later)
      obtain ⟨c', after', answered', _, settlesNext⟩ := next a b results middle
      rw [answeredNext] at answered'
      cases answered'
      obtain ⟨d, knownNext, last⟩ := settlesNext final later
      refine ⟨d, ?_, last⟩
      show (y final).bind (fun b => g b final) = some d
      rw [known]
      exact knownNext

/-- The value that there is with the memory at the end, if there is one. -/
def atEnd (final : Memory) : Lifting (ReaderT Memory Option) Id where
  rel r value result := ∀ b, value final = some b → r b result
  pure results _ same := Option.some.inj same ▸ results
  bind {α β γ δ r q x y f g} related next c same := by
    obtain ⟨b, known, rest⟩ := Option.bind_eq_some_iff.mp (same : (x final).bind _ = some c)
    exact next b _ (related b known) c rest

/-- Lookups give the answers that a memory remembers. -/
structure Recalled (table : SymbolTable) (memory : Memory) (lookups : Lookups Id) : Prop where
  interfaces : ∀ {id type list}, table.type? id = some type →
    memory.interfaces.find? id.index = some list → list = lookups.interfaces id
  level : ∀ {id type level}, table.type? id = some type →
    memory.levels.find? id.index = some level → level = lookups.level id
  runtime : ∀ {id flag}, memory.runtime.find? id.index = some flag → flag = lookups.runtime id

theorem Recalled.agree {table : SymbolTable} {final : Memory} {lookups : Lookups Id}
    (recalled : Recalled table final lookups) :
    Lookups.Agree (atEnd final) table eventual lookups where
  interfaces found _ known := recalled.interfaces found known
  level found _ known := recalled.level found known
  runtime _ _ known := recalled.runtime known

/-- Lookups in a memory. What is not remembered has an answer that says nothing. -/
def lookups (memory : Memory) : Lookups Id where
  interfaces id := (memory.interfaces.find? id.index).getD []
  level id := (memory.levels.find? id.index).getD {}
  runtime id := (memory.runtime.find? id.index).getD false

theorem recalled_lookups (table : SymbolTable) (memory : Memory) :
    Recalled table memory memory.lookups where
  interfaces {id _ list} _ known := by
    show list = (memory.interfaces.find? id.index).getD []
    rw [known]
    rfl
  level {id _ level} _ known := by
    show level = (memory.levels.find? id.index).getD {}
    rw [known]
    rfl
  runtime {id flag} known := by
    show flag = (memory.runtime.find? id.index).getD false
    rw [known]
    rfl

end Memory

end Conformance
