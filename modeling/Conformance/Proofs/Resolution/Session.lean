import Conformance.Proofs.Binding.Bound
import Conformance.Proofs.Symbol.Extension
import Conformance.Proofs.Resolution.Coherence

/-!
Sessions: a table to which assemblies are added, and one memory that answers
queries all along.

Binding an assembly changes no type that was there, so a memory that is coherent
stays coherent. As long as no path is cut off, every memory that a session comes
to is coherent (`SymbolTable.Session.coherent`).
-/

namespace Conformance

namespace SymbolTable

/-- The tables and memories that binding and asking lead to, in any order. -/
inductive Session : SymbolTable → Memory → Prop where
  | start : Session ∅ ∅
  | bind {table : SymbolTable} {memory : Memory} (session : Session table memory)
    (decl : AssemblyDecl) (references : List AssemblyId) (mode : BindMode) :
    Session (table.bind decl references mode).table memory
  | flatten {table : SymbolTable} {memory : Memory} (session : Session table memory)
    (id : TypeId) : Session table ((table.flatten id).answer memory).2
  | level {table : SymbolTable} {memory : Memory} (session : Session table memory)
    (id : TypeId) : Session table ((table.levelOf id).answer memory).2
  | resolve {table : SymbolTable} {memory : Memory} (session : Session table memory)
    (typeId : TypeId) (id : MemberId) : Session table ((table.resolve typeId id).answer memory).2
  | readRuntime {table : SymbolTable} {memory : Memory} (session : Session table memory)
    (id : AssemblyId) : Session table ((table.readRuntime id).answer memory).2
  | setRuntime {table : SymbolTable} {memory : Memory} (session : Session table memory)
    (id : AssemblyId) (value : Bool) :
    Session table ((table.setRuntime id value).answer memory).2

/-- The table of a session is made by binding. -/
theorem Session.made {table : SymbolTable} {memory : Memory} (session : Session table memory) :
    Made table := by
  induction session with
  | start => exact .empty
  | bind _ decl references mode ih => exact ih.bind decl references mode
  | _ => assumption

/-! ## Growing tables -/

variable {before after : SymbolTable}

theorem Extends.pathsFrom (grown : before.Extends after) {bound : Nat} {id : TypeId}
    (short : after.PathsFrom bound id) : before.PathsFrom bound id :=
  fun path chain => short path (chain.imp fun _ _ linked => grown.links linked)

/-- What a type declares does not change when assemblies are added. -/
theorem Extends.ofType (grown : before.Extends after) (closed : before.Closed) {id : TypeId}
    {type : TypeSymbol} (found : before.type? id = some type) :
    LevelTable.ofType after type = LevelTable.ofType before type := by
  unfold LevelTable.ofType
  rw [grown.membersOf closed found, LevelTable.mk.injEq]
  refine ⟨rfl, List.flatMap_congr fun entry listed => ?_⟩
  obtain ⟨_, foundMember⟩ := member?_of_mem_membersOf listed
  simp only [LevelTable.boundEntries, grown.accessorsOf closed foundMember]

/-- Neither do the interfaces that it implements. -/
theorem Extends.interfacesWithin (grown : before.Extends after) (closed : before.Closed)
    (depth : Nat) {id : TypeId} (known : ∃ type, before.type? id = some type) :
    after.interfacesWithin depth id = before.interfacesWithin depth id := by
  induction depth generalizing id with
  | zero => rfl
  | succ depth ih =>
    obtain ⟨type, found⟩ := known
    rw [SymbolTable.interfacesWithin, SymbolTable.interfacesWithin, found, grown.type found]
    refine TypeSymbol.gather_eq .same id fun other linked => ?_
    exact ih (closed.link found linked)

end SymbolTable

namespace Memory

open SymbolTable

variable {before after : SymbolTable} {memory : Memory}

/-- A memory with all its answers, some runtime flags aside, as without memory. -/
def Sound (table : SymbolTable) (memory : Memory) : Prop :=
  ∃ runtime, memory.Coherent table runtime

theorem Sound.extend (sound : memory.Sound before) (closed : before.Closed)
    (grown : before.Extends after) : memory.Sound after := by
  obtain ⟨runtime, known⟩ := sound
  refine ⟨fun id => (memory.runtime.find? id.index).getD (after.declaredRuntime id), ?_, ?_, ?_, ?_⟩
  · intro id list found
    obtain ⟨type, foundType⟩ := known.known found
    exact ⟨type, grown.type foundType⟩
  · intro id list depth found short
    rw [grown.interfacesWithin closed depth (known.known found)]
    exact known.interfaces found (grown.pathsFrom short)
  · intro id level found
    obtain ⟨type, foundType, same⟩ := known.level found
    exact ⟨type, grown.type foundType, by rw [same, grown.ofType closed foundType]⟩
  · exact fun _ => rfl

variable {table : SymbolTable}

/-- A query that answers as without memory leaves a sound memory behind. -/
theorem Sound.of_coherent (sound : memory.Sound table) {α : Type} {query : QueryM α}
    (related : ∀ runtime, ∃ value, (coherent table runtime).rel Eq query value) :
    (query.answer memory).2.Sound table := by
  obtain ⟨runtime, known⟩ := sound
  obtain ⟨value, answers⟩ := related runtime
  obtain ⟨_, after, answered, kept, _⟩ := answers memory known
  rw [answered]
  exact ⟨runtime, kept⟩

theorem Sound.flatten (sound : memory.Sound table) (closed : table.Closed)
    (short : table.PathsWithin longestPath) (id : TypeId) :
    ((table.flatten id).answer memory).2.Sound table := by
  cases found : table.type? id with
  | some type =>
    exact sound.of_coherent fun runtime =>
      ⟨_, (remembering_coherent closed short runtime).interfaces found⟩
  | none =>
    rw [flatten_missing found]
    exact sound

theorem Sound.level (sound : memory.Sound table) (id : TypeId) :
    ((table.levelOf id).answer memory).2.Sound table := by
  cases found : table.type? id with
  | some type => exact sound.of_coherent fun runtime => ⟨_, levelOf_coherent found⟩
  | none =>
    rw [levelOf_missing found]
    exact sound

theorem Sound.setRuntime (sound : memory.Sound table) (id : AssemblyId) (value : Bool) :
    ((table.setRuntime id value).answer memory).2.Sound table := by
  obtain ⟨runtime, known⟩ := sound
  unfold SymbolTable.setRuntime
  rw [QueryM.answer_get]
  split
  · exact ⟨runtime, known⟩
  · exact ⟨_, known.known, known.interfaces, known.level, fun _ => rfl⟩

end Memory

/-- As long as no path is cut off, the memory of a session answers as if there
were none. -/
theorem SymbolTable.Session.coherent {table : SymbolTable} {memory : Memory}
    (session : Session table memory) (short : table.PathsWithin longestPath) :
    memory.Sound table := by
  induction session with
  | start =>
    refine ⟨fun _ => false, ?_, ?_, ?_, fun _ => rfl⟩
    · intro id list found
      cases (Memo.find?_empty id.index).symm.trans found
    · intro id list depth found
      cases (Memo.find?_empty id.index).symm.trans found
    · intro id level found
      cases (Memo.find?_empty id.index).symm.trans found
  | bind earlier decl references mode ih =>
    have wellFormed := earlier.made.wellFormed
    have grown := (bind_bound wellFormed decl references mode).grown
    exact (ih (grown.pathsWithin short)).extend wellFormed.closed grown
  | flatten earlier id ih =>
    exact (ih short).flatten earlier.made.wellFormed.closed short id
  | level earlier id ih => exact (ih short).level id
  | resolve earlier typeId id ih =>
    have closed := earlier.made.wellFormed.closed
    exact (ih short).of_coherent fun runtime =>
      ⟨_, (remembering_coherent closed short runtime).resolve closed typeId id⟩
  | readRuntime earlier id ih => exact (ih short).of_coherent fun _ => ⟨_, readRuntime_coherent id⟩
  | setRuntime earlier id value ih => exact (ih short).setRuntime id value

end Conformance
