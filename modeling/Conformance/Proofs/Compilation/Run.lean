import Conformance.Proofs.Compilation.Checks
import Conformance.Proofs.Compilation.Scheduling
import Conformance.Proofs.Resolution.Steady
import Conformance.Proofs.Resolution.Transport

/-!
Runs of a compilation.

A compilation is asked for interface lists, implementations, diagnostics and flags,
in any order and with one memory. On long paths an answer may depend on what was asked
before, but within one run answers fit together: all of them are those of lookups in the
interface lists that are remembered at the end (`Compilation.Answered.eq`).
-/

namespace Conformance

/-- What a compilation can be asked for, by the type of the answer. -/
inductive Request : Type → Type where
  /-- The interfaces that a type implements. -/
  | interfaces (type : TypeId) : Request (List TypeId)
  /-- What implements an interface member for a type. -/
  | implementation (type : TypeId) (member : MemberId) : Request Resolution
  | implementationMap : Request (List ImplementationEntry)
  /-- The diagnostics of one type. -/
  | check (type : TypeId) : Request (List Diagnostic)
  /-- The diagnostics of binding and of all types. -/
  | diagnostics : Request (Except Cancelled (List Diagnostic))
  /-- The runtime flag of an assembly. -/
  | runtime (assembly : AssemblyId) : Request Bool

/-- A request is not about a type that does not exist. -/
def Request.Known (table : SymbolTable) {α : Type} : Request α → Prop
  | .interfaces id => ∃ type, table.type? id = some type
  | _ => True

namespace Compilation

/-- Answers a request by lookups. -/
def perform {m : Type → Type} [Monad m] (lookups : Lookups m) (compilation : Compilation)
    {α : Type} : Request α → m α
  | .interfaces id => lookups.interfaces id
  | .implementation typeId id => lookups.resolve compilation.table typeId id
  | .implementationMap => compilation.implementationMap lookups
  | .check id => lookups.checkType compilation.table compilation.assembly id
  | .diagnostics => compilation.check lookups {}
  | .runtime id => lookups.runtime id

/-- Answers a request with a memory. -/
def reply (compilation : Compilation) {α : Type} (request : Request α) (memory : Memory) :
    Except Fault α × Memory :=
  (compilation.perform compilation.table.remembering request).answer memory

/-- What is remembered before a request and after it. -/
inductive Step (compilation : Compilation) (memory : Memory) : Memory → Prop where
  | ask {α : Type} (request : Request α) :
    Step compilation memory (compilation.reply request memory).2

/-- What is remembered before some requests and after them. -/
abbrev Run (compilation : Compilation) : Memory → Memory → Prop :=
  Relation.ReflTransGen compilation.Step

/-- In a run that ends with a memory, a request got an answer. -/
def Answered (compilation : Compilation) (final : Memory) {α : Type} (request : Request α)
    (value : α) : Prop :=
  ∃ before after, compilation.Run compilation.memory before ∧
    compilation.reply request before = (.ok value, after) ∧ compilation.Run after final

/-- A request has an answer at the end of a run, and every answer that it gets there
or got before is as described. -/
structure Replies (compilation : Compilation) (final : Memory) {α : Type} (request : Request α)
    (described : α → Prop) : Prop where
  now : ∃ value, (compilation.reply request final).1 = .ok value ∧ described value
  before : ∀ {value}, compilation.Answered final request value → described value

/-- Lookups in the interface lists that a memory remembers. Levels and runtime flags do
not depend on what was asked. -/
def lookups (compilation : Compilation) (memory : Memory) : Lookups Id where
  interfaces id := (memory.interfaces.find? id.index).getD []
  level id := ((compilation.table.type? id).map (LevelTable.ofType compilation.table)).getD {}
  runtime := compilation.runtimeFlag

variable {compilation : Compilation} {α : Type} {request : Request α}

/-! ## Single requests -/

theorem interfaces_lookups {memory : Memory} {id : TypeId} {list : List TypeId}
    (known : memory.interfaces.find? id.index = some list) :
    (compilation.lookups memory).interfaces id = list := by
  show (memory.interfaces.find? id.index).getD [] = list
  rw [known]
  rfl

theorem level_lookups (memory : Memory) {id : TypeId} {type : TypeSymbol}
    (found : compilation.table.type? id = some type) :
    (compilation.lookups memory).level id = LevelTable.ofType compilation.table type := by
  show ((compilation.table.type? id).map (LevelTable.ofType compilation.table)).getD {} = _
  rw [found]
  rfl

theorem recalled_lookups {memory : Memory}
    (steady : memory.Steady compilation.table compilation.runtimeFlag) :
    memory.Recalled compilation.table (compilation.lookups memory) where
  interfaces _ known := (interfaces_lookups known).symm
  level found known := (steady.level found known).trans (level_lookups memory found).symm
  runtime {id flag} known := by
    have same := steady.runtime id
    rw [known] at same
    exact same

theorem perform_agree {m n : Type → Type} [Monad m] [Monad n] [LawfulMonad m] [LawfulMonad n]
    {L : Lifting m n} {first : Lookups m} {second : Lookups n} (closed : compilation.table.Closed)
    (agree : Lookups.Agree L compilation.table first second)
    (known : request.Known compilation.table) :
    L.rel Eq (compilation.perform first request) (compilation.perform second request) := by
  cases request with
  | interfaces id =>
    rcases known with ⟨_, found⟩
    exact agree.interfaces found
  | implementation typeId id => exact agree.resolve closed typeId id
  | implementationMap => exact compilation.implementationMap_agree agree closed
  | check id => exact agree.checkType closed compilation.assembly id
  | diagnostics => exact compilation.check_agree agree closed {}
  | runtime id => exact agree.runtime id

/-- About a type that does not exist, only what is remembered can be an answer. -/
theorem reply_missing {id : TypeId} (missing : compilation.table.type? id = none)
    (memory : Memory) : compilation.reply (.interfaces id) memory =
      ((memory.interfaces.find? id.index).elim (.error (.unknownType id)) .ok, memory) :=
  SymbolTable.flatten_missing missing memory

/-- A request about a type that does not exist changes nothing. Only a list that is
remembered all the same can be its answer. -/
theorem reply_unknown (unknown : ¬ request.Known compilation.table) (memory : Memory) :
    (compilation.reply request memory).2 = memory ∧ ∀ {value final},
      (compilation.reply request memory).1 = .ok value → memory.Extends final →
        value = (compilation.perform (compilation.lookups final) request).run := by
  cases request with
  | interfaces id =>
    have missing : compilation.table.type? id = none :=
      Option.eq_none_iff_forall_ne_some.mpr fun type found => unknown ⟨type, found⟩
    rw [reply_missing missing]
    refine ⟨rfl, fun {value final} same later => ?_⟩
    cases remembered : memory.interfaces.find? id.index with
    | some list =>
      rw [remembered] at same
      cases same
      show _ = (final.interfaces.find? id.index).getD []
      rw [later.interfaces _ _ remembered]
      rfl
    | none =>
      rw [remembered] at same
      cases same
  | _ => exact absurd trivial unknown

/-- A request has an answer. -/
theorem exists_reply (closed : compilation.table.Closed) (known : request.Known compilation.table)
    (memory : Memory) : ∃ value after, compilation.reply request memory = (.ok value, after) := by
  have agree := SymbolTable.remembering_settled closed
  rcases perform_agree closed agree known memory with ⟨value, after, answered, _⟩
  exact ⟨value, after, answered⟩

/-- What led to an answer is remembered. -/
theorem reply_settled (closed : compilation.table.Closed) (known : request.Known compilation.table)
    {memory after final : Memory} {value : α}
    (answered : compilation.reply request memory = (.ok value, after))
    (later : after.Extends final) :
    compilation.perform Memory.eventual request final = some value := by
  have agree := SymbolTable.remembering_settled closed
  rcases perform_agree closed agree known memory with ⟨other, rest, again, _, settles⟩
  cases answered.symm.trans again
  rcases settles final later with ⟨_, recalled, rfl⟩
  exact recalled

/-- Nothing is forgotten. -/
theorem reply_grows (closed : compilation.table.Closed) (request : Request α) (memory : Memory) :
    memory.Extends (compilation.reply request memory).2 := by
  by_cases known : request.Known compilation.table
  · have agree := SymbolTable.remembering_settled closed
    rcases perform_agree closed agree known memory with ⟨_, after, answered, grown, _⟩
    have answer : compilation.reply request memory = _ := answered
    rw [answer]
    exact grown
  · rw [(reply_unknown known memory).1]
    exact .refl memory

theorem reply_steady (closed : compilation.table.Closed) {runtime : AssemblyId → Bool}
    {memory : Memory} (steady : memory.Steady compilation.table runtime) (request : Request α) :
    (compilation.reply request memory).2.Steady compilation.table runtime := by
  by_cases known : request.Known compilation.table
  · have agree := SymbolTable.remembering_steady closed runtime
    rcases perform_agree closed agree known memory steady with ⟨_, after, answered, kept, _⟩
    have answer : compilation.reply request memory = _ := answered
    rw [answer]
    exact kept
  · rw [(reply_unknown known memory).1]
    exact steady

/-! ## Runs -/

theorem Run.grows (closed : compilation.table.Closed) {memory final : Memory}
    (run : compilation.Run memory final) : memory.Extends final := by
  induction run with
  | refl => exact .refl memory
  | tail _ step ih =>
    cases step with
    | ask request => exact ih.trans (reply_grows closed request _)

/-- The memory that a compilation starts with remembers nothing about types. -/
theorem memory_isFresh (compilation : Compilation) : compilation.memory.IsFresh := ⟨rfl, rfl⟩

theorem steady_memory (compilation : Compilation) :
    compilation.memory.Steady compilation.table compilation.runtimeFlag where
  nodup found := by
    rw [memory, Memo.find?_empty] at found
    cases found
  level _ found := by
    rw [memory, Memo.find?_empty] at found
    cases found
  runtime _ := rfl

/-- The memories of a run are steady. -/
theorem Run.steady (closed : compilation.table.Closed) {final : Memory}
    (run : compilation.Run compilation.memory final) :
    final.Steady compilation.table compilation.runtimeFlag := by
  induction run with
  | refl => exact compilation.steady_memory
  | tail _ step ih =>
    cases step with
    | ask request => exact reply_steady closed ih request

/-- The interface lists of a run are without repetition. -/
theorem Run.nodup_interfaces (closed : compilation.table.Closed) {final : Memory}
    (run : compilation.Run compilation.memory final) (id : TypeId) :
    ((compilation.lookups final).interfaces id).Nodup := by
  show ((final.interfaces.find? id.index).getD []).Nodup
  cases remembered : final.interfaces.find? id.index with
  | none => exact .nil
  | some list => exact (run.steady closed).nodup remembered

namespace Answered

variable {final : Memory} {value : α}

theorem of_reply {before : Memory} (run : compilation.Run compilation.memory before)
    (replied : (compilation.reply request before).1 = .ok value) :
    compilation.Answered (compilation.reply request before).2 request value :=
  ⟨before, _, run, Prod.ext replied rfl, .refl⟩

theorem run (answered : compilation.Answered final request value) :
    compilation.Run compilation.memory final := by
  rcases answered with ⟨before, after, first, replied, last⟩
  have step : compilation.Step before (compilation.reply request before).2 := .ask request
  rw [replied] at step
  exact (first.tail step).trans last

theorem later (answered : compilation.Answered final request value) {last : Memory}
    (run : compilation.Run final last) : compilation.Answered last request value := by
  rcases answered with ⟨before, after, first, replied, rest⟩
  exact ⟨before, after, first, replied, rest.trans run⟩

theorem recalled (closed : compilation.table.Closed) (known : request.Known compilation.table)
    (answered : compilation.Answered final request value) :
    compilation.perform Memory.eventual request final = some value := by
  rcases answered with ⟨before, after, _, replied, rest⟩
  exact reply_settled closed known replied (Run.grows closed rest)

/-- An answer in a run is that of lookups in what is remembered at the end. -/
theorem eq (closed : compilation.table.Closed)
    (answered : compilation.Answered final request value) :
    value = (compilation.perform (compilation.lookups final) request).run := by
  by_cases known : request.Known compilation.table
  · have agree := (recalled_lookups (answered.run.steady closed)).agree
    have same : (Memory.atEnd final).rel Eq (compilation.perform Memory.eventual request)
      (compilation.perform (compilation.lookups final) request) := perform_agree closed agree known
    exact same value (answered.recalled closed known)
  · rcases answered with ⟨before, after, _, replied, rest⟩
    rcases reply_unknown known before with ⟨same, settles⟩
    rw [replied] at same settles
    exact settles rfl (same ▸ Run.grows closed rest)

/-- Asked for its diagnostics, a compilation answers with those of binding, and then with those
of its types. -/
theorem diagnostics {result : Except Cancelled (List Diagnostic)}
    (closed : compilation.table.Closed)
    (answered : compilation.Answered final .diagnostics result) :
    result = .ok (compilation.bindingDiagnostics ++ compilation.types.flatMap fun typeId =>
      ((compilation.lookups final).checkType compilation.table compilation.assembly typeId).run) :=
  (answered.eq closed).trans (check_run (compilation.lookups final) compilation)

end Answered

/-- If a list of questions has answers, each has one. -/
theorem exists_of_mapM {ρ α β : Type} {f : α → ReaderT ρ Option β} {items : List α} {env : ρ}
    {results : List β} (answered : items.mapM f env = some results) :
    ∀ item ∈ items, ∃ result, f item env = some result := by
  induction items generalizing results with
  | nil => nofun
  | cons item items ih =>
    rw [List.mapM_cons] at answered
    rcases Option.bind_eq_some_iff.mp answered with ⟨first, known, rest⟩
    rcases Option.bind_eq_some_iff.mp rest with ⟨others, answeredRest, _⟩
    intro other listed
    rcases List.mem_cons.mp listed with rfl | later
    · exact ⟨first, known⟩
    · exact ih answeredRest other later

/-- The interface list of a class or struct that was checked is remembered. -/
theorem Answered.remembers (closed : compilation.table.Closed) {final : Memory}
    {diagnostics : List Diagnostic}
    (checked : compilation.Answered final .diagnostics (.ok diagnostics)) {typeId : TypeId}
    {type : TypeSymbol} (listed : typeId ∈ compilation.types)
    (foundType : compilation.table.type? typeId = some type) (isClass : type.isInterface = false) :
    ∃ list, final.interfaces.find? typeId.index = some list := by
  have known : Request.diagnostics.Known compilation.table := trivial
  have recalled : compilation.check Memory.eventual {} final = some (.ok diagnostics) :=
    checked.recalled closed known
  rcases Option.bind_eq_some_iff.mp recalled with ⟨types, answeredTypes, _⟩
  have nonempty : compilation.types.isEmpty = false := by
    rw [List.isEmpty_eq_false_iff]
    exact List.ne_nil_of_mem listed
  unfold checkTypes at answeredTypes
  rw [nonempty] at answeredTypes
  rcases Option.bind_eq_some_iff.mp answeredTypes with ⟨lists, checkedTypes, _⟩
  rcases exists_of_mapM checkedTypes typeId listed with ⟨reported, answered⟩
  unfold Lookups.checkType at answered
  rw [foundType] at answered
  simp only [isClass] at answered
  rcases Option.bind_eq_some_iff.mp answered with ⟨explicit, answeredExplicit, _⟩
  rcases Option.bind_eq_some_iff.mp answeredExplicit with ⟨list, remembered, _⟩
  exact ⟨list, remembered⟩

/-- What holds of all answers in all continuations of a run holds of the answer at its
end. -/
theorem Replies.of_answered (closed : compilation.table.Closed)
    (known : request.Known compilation.table) {described : α → Prop} {final : Memory}
    (run : compilation.Run compilation.memory final)
    (answers : ∀ {last value}, compilation.Run final last →
      compilation.Answered last request value → described value) :
    compilation.Replies final request described where
  now := by
    rcases exists_reply closed known final with ⟨value, after, replied⟩
    have answered : (compilation.reply request final).1 = .ok value := by rw [replied]
    exact ⟨value, answered, answers (.single (.ask request)) (.of_reply run answered)⟩
  before answered := answers .refl answered

end Compilation

end Conformance
