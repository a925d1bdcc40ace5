import Conformance.Proofs.Compilation.Ladder

/-!
Answers and the order of questions.

All questions about a compilation share one memory, and the types of an
assembly may be checked in any order. Answers do not depend on what was asked
before as long as no path along links visits more types than are followed. On
longer paths a list that is cut off is remembered as if it were complete, and
answers depend on where a path was entered first
(`Compilation.independent_iff_short`).
-/

namespace Conformance

/-- What can be asked of a compilation. -/
inductive Query where
  /-- The interfaces that a type implements. -/
  | interfaces (type : TypeId)
  /-- What implements an interface member for a type. -/
  | implementation (type : TypeId) (member : MemberId)
  | implementationMap
  /-- The diagnostics of a type. -/
  | check (type : TypeId)
deriving DecidableEq, Repr

/-- What is answered. -/
inductive Answer where
  | interfaces (list : List TypeId)
  | implementation (resolution : Resolution)
  | implementationMap (entries : List ImplementationEntry)
  | check (diagnostics : List Diagnostic)
deriving DecidableEq, Repr

namespace Compilation

/-- Asks a question. -/
def ask {m : Type → Type} [Monad m] (lookups : Lookups m) (compilation : Compilation) :
    Query → m Answer
  | .interfaces type => return .interfaces (← lookups.interfaces type)
  | .implementation type member =>
    return .implementation (← lookups.resolve compilation.table type member)
  | .implementationMap => return .implementationMap (← compilation.implementationMap lookups)
  | .check type =>
    return .check (← lookups.checkType compilation.table compilation.assembly type)

/-- Answers a question with a memory. -/
def answer (compilation : Compilation) (query : Query) (memory : Memory) :
    Except Fault Answer × Memory :=
  (compilation.ask compilation.table.remembering query).answer memory

/-- The memory after some questions. -/
def memoryAfter (compilation : Compilation) (queries : List Query) : Memory :=
  queries.foldl (fun memory query => (compilation.answer query memory).2) compilation.memory

/-- Every answer is the one that is given first, whatever was asked before. -/
def Independent (compilation : Compilation) : Prop :=
  ∀ (earlier : List Query) (query : Query),
    (compilation.answer query (compilation.memoryAfter earlier)).1 =
      (compilation.answer query compilation.memory).1

theorem memoryAfter_singleton (compilation : Compilation) (query : Query) :
    compilation.memoryAfter [query] = (compilation.answer query compilation.memory).2 := rfl

/-! ## Short paths -/

variable {compilation : Compilation}

/-- The runtime flags of a compilation: what its options give, and otherwise
what core libraries say. -/
def runtimeFlag (compilation : Compilation) (id : AssemblyId) : Bool :=
  (compilation.memory.runtime.find? id.index).getD (compilation.table.declaredRuntime id)

/-- The flag of the own assembly is what the options give, or what its core library says. -/
theorem runtimeFlag_own (compilation : Compilation) :
    compilation.runtimeFlag compilation.assembly = compilation.options.runtimeSupport.getD
      (compilation.table.declaredRuntime compilation.assembly) := by
  rw [runtimeFlag, memory]
  cases compilation.options.runtimeSupport with
  | none => rfl
  | some value => rw [Memo.find?_insert, if_pos rfl, Option.getD_some]

theorem coherent_memory (compilation : Compilation) :
    compilation.memory.Coherent compilation.table compilation.runtimeFlag where
  known found := by
    rw [memory, Memo.find?_empty] at found
    cases found
  interfaces found := by
    rw [memory, Memo.find?_empty] at found
    cases found
  level found := by
    rw [memory, Memo.find?_empty] at found
    cases found
  runtime _ := rfl

/-- On short paths, a question has one answer, from all coherent memories. -/
theorem answer_coherent (closed : compilation.table.Closed)
    (short : compilation.table.PathsWithin SymbolTable.longestPath) (query : Query) :
    ∃ answer, ∀ memory : Memory, memory.Coherent compilation.table compilation.runtimeFlag →
      ∃ after, compilation.answer query memory = (answer, after) ∧
        after.Coherent compilation.table compilation.runtimeFlag := by
  have agree := SymbolTable.remembering_coherent closed short compilation.runtimeFlag
  have answers {α : Type} {query : QueryM α} {value : Id α} (wrap : α → Answer)
      (related : (Memory.coherent compilation.table compilation.runtimeFlag).rel Eq query value) :
      ∃ answer, ∀ memory : Memory, memory.Coherent compilation.table compilation.runtimeFlag →
        ∃ after, (do return wrap (← query) : QueryM Answer).answer memory = (answer, after) ∧
          after.Coherent compilation.table compilation.runtimeFlag := by
    refine ⟨.ok (wrap value), fun memory known => ?_⟩
    obtain ⟨a, after, answered, kept, rfl⟩ := related memory known
    exact ⟨after, QueryM.answer_bind_ok answered, kept⟩
  cases query with
  | interfaces type =>
    cases found : compilation.table.type? type with
    | some symbol => exact answers .interfaces (agree.interfaces found)
    | none =>
      refine ⟨.error (.unknownType type), fun memory known => ⟨memory, ?_, known⟩⟩
      have fresh : memory.interfaces.find? type.index = none := by
        cases remembered : memory.interfaces.find? type.index with
        | none => rfl
        | some list =>
          obtain ⟨symbol, foundSymbol⟩ := known.known remembered
          rw [found] at foundSymbol
          cases foundSymbol
      have missed : (compilation.table.flatten type).answer memory = _ :=
        SymbolTable.flattenFrom_missing fresh List.not_mem_nil found 255
      show ((compilation.table.flatten type) >>= fun list => pure (Answer.interfaces list) :
        QueryM Answer).answer memory = _
      rw [QueryM.answer_bind, missed]
  | implementation type member => exact answers .implementation (agree.resolve closed type member)
  | implementationMap =>
    exact answers .implementationMap (compilation.implementationMap_agree agree closed)
  | check type => exact answers .check (agree.checkType closed compilation.assembly type)

theorem coherent_memoryAfter (closed : compilation.table.Closed)
    (short : compilation.table.PathsWithin SymbolTable.longestPath) (queries : List Query) :
    (compilation.memoryAfter queries).Coherent compilation.table compilation.runtimeFlag := by
  have run (memory : Memory) (known : memory.Coherent compilation.table compilation.runtimeFlag) :
      (queries.foldl (fun memory query => (compilation.answer query memory).2) memory).Coherent
        compilation.table compilation.runtimeFlag := by
    induction queries generalizing memory with
    | nil => exact known
    | cons query queries ih =>
      obtain ⟨answer, answers⟩ := answer_coherent closed short query
      obtain ⟨after, answered, kept⟩ := answers memory known
      have next : (compilation.answer query memory).2 = after := by rw [answered]
      rw [List.foldl_cons, next]
      exact ih after kept
  exact run compilation.memory compilation.coherent_memory

/-- On short paths, answers do not depend on what was asked before. -/
theorem independent_of_short (closed : compilation.table.Closed)
    (short : compilation.table.PathsWithin SymbolTable.longestPath) : compilation.Independent := by
  intro earlier query
  obtain ⟨answer, answers⟩ := answer_coherent closed short query
  obtain ⟨_, later, _⟩ := answers _ (coherent_memoryAfter closed short earlier)
  obtain ⟨_, first, _⟩ := answers _ compilation.coherent_memory
  rw [later, first]

/-! ## Long paths -/

/-- On a ladder that is one interface too long, the list of the second
interface ends early if the first interface was asked for before. -/
theorem answer_ladder_differs :
    ((ladderCompilation 258).answer (.interfaces ⟨1⟩)
      ((ladderCompilation 258).memoryAfter [.interfaces ⟨0⟩])).1 ≠
    ((ladderCompilation 258).answer (.interfaces ⟨1⟩) (ladderCompilation 258).memory).1 := by
  have isLadder := isLadder_ladderCompilation 258
  have small : 258 ≤ maxInterfaces := by decide
  have limit : SymbolTable.maxDepth = 256 := rfl
  have fresh (position : Nat) :
      (ladderCompilation 258).memory.interfaces.find? position = none :=
    Memo.find?_empty position
  obtain ⟨cut, answeredFirst, remembered⟩ := isLadder.flattenFrom small
    SymbolTable.maxDepth [] (by decide : 0 < 258)
    (fun other _ => fresh other) fun _ passed => nomatch passed
  obtain ⟨_, answeredAlone, -⟩ := isLadder.flattenFrom small
    SymbolTable.maxDepth [] (by decide : 1 < 258)
    (fun other _ => fresh other) fun _ passed => nomatch passed
  have known := remembered 1 (by decide) (by omega) (by decide)
  have wrapped {id : TypeId} {memory after : Memory} {list : List TypeId}
      (answered : ((ladderCompilation 258).table.flatten id).answer memory = (.ok list, after)) :
      (ladderCompilation 258).answer (.interfaces id) memory =
        (.ok (.interfaces list), after) :=
    QueryM.answer_bind_ok answered
  rw [memoryAfter_singleton, wrapped answeredFirst,
    wrapped (SymbolTable.flattenFrom_known known _ []), wrapped answeredAlone]
  intro same
  have lengths := congrArg List.length (Answer.interfaces.inj (Except.ok.inj same))
  rw [SymbolTable.length_typeIds, SymbolTable.length_typeIds] at lengths
  omega

/-- A compilation on which answers depend on what was asked before. -/
theorem ladder_not_independent : ¬ (ladderCompilation 258).Independent :=
  fun independent => answer_ladder_differs (independent [.interfaces ⟨0⟩] (.interfaces ⟨1⟩))

/-- Answers are independent of earlier questions on all compilations whose paths
along links visit at most `bound` types just if `bound` is at most
`SymbolTable.longestPath`. -/
theorem independent_iff_short (bound : Nat) :
    (∀ compilation : Compilation, compilation.Built → compilation.table.PathsWithin bound →
      compilation.Independent) ↔ bound ≤ SymbolTable.longestPath := by
  constructor
  · intro independent
    by_contra long
    have short : (ladderCompilation 258).table.PathsWithin bound := by
      intro path chain
      have := (isLadder_ladderCompilation 258).pathsWithin (by decide) path chain
      have : SymbolTable.longestPath = 257 := rfl
      omega
    have built : (ladderCompilation 258).Built :=
      .ofDecl (ladder 258) (fun _ inside => absurd inside List.not_mem_nil) {}
    exact answer_ladder_differs
      (independent _ built short [.interfaces ⟨0⟩] (.interfaces ⟨1⟩))
  · intro short compilation built paths
    exact independent_of_short built.closed fun path chain =>
      Nat.le_trans (paths path chain) short

end Compilation

end Conformance
