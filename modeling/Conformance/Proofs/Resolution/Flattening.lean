import Conformance.Proofs.Resolution.Memory

/-!
Interface lists with memory.

Opening a type is one step, `TypeSymbol.gather`, that asks for the lists of the
types it is linked to. `SymbolTable.flattenFrom` runs this step and remembers
its result; what holds of its lists follows from what holds of one step.
-/

namespace Conformance

theorem TypeSymbol.gatherBase_of_none {m : Type → Type} [Monad m] {type : TypeSymbol}
    (noBase : type.base = none) (below : TypeId → m (List TypeId)) :
    type.gatherBase below = pure [] := by
  rw [TypeSymbol.gatherBase, noBase]
  cases type.isInterface <;> rfl

/-- The interface list of a type without links is empty. -/
theorem TypeSymbol.gather_unlinked {m : Type → Type} [Monad m] [LawfulMonad m] {type : TypeSymbol}
    (noBase : type.base = none) (noInterface : type.interfaces = []) (id : TypeId)
    (below : TypeId → m (List TypeId)) : type.gather id below = pure [] := by
  rw [TypeSymbol.gather, TypeSymbol.gatherBase_of_none noBase, noInterface, pure_bind,
    List.foldlM_nil]

namespace SymbolTable

/-! ## The steps of flattening -/

variable {table : SymbolTable} {id : TypeId} {memory : Memory}

theorem flattenFrom_known {list : List TypeId}
    (known : memory.interfaces.find? id.index = some list) (depth : Nat) (path : List TypeId) :
    (table.flattenFrom depth path id).answer memory = (.ok list, memory) := by
  unfold flattenFrom
  rw [QueryM.answer_get, known]
  rfl

theorem flattenFrom_zero (fresh : memory.interfaces.find? id.index = none) (path : List TypeId) :
    (table.flattenFrom 0 path id).answer memory = (.ok [], memory) := by
  unfold flattenFrom
  rw [QueryM.answer_get, fresh]
  rfl

theorem flattenFrom_passed (fresh : memory.interfaces.find? id.index = none) {path : List TypeId}
    (passed : id ∈ path) (depth : Nat) :
    (table.flattenFrom depth path id).answer memory = (.ok [], memory) := by
  cases depth with
  | zero => exact flattenFrom_zero fresh path
  | succ depth =>
    unfold flattenFrom
    rw [QueryM.answer_get, fresh]
    simp only [passed, if_true]
    rfl

/-- A type that is opened is asked for the lists of its links, and its own list
is remembered. -/
theorem answer_flattenFrom_opened (fresh : memory.interfaces.find? id.index = none)
    {path : List TypeId} (outside : id ∉ path) {type : TypeSymbol}
    (found : table.type? id = some type) (depth : Nat) :
    (table.flattenFrom (depth + 1) path id).answer memory =
      ((type.gather id (table.flattenFrom depth (id :: path))) >>= fun list => do
        modify fun memory =>
          { memory with interfaces := memory.interfaces.insert id.index list }
        return list : QueryM (List TypeId)).answer memory := by
  have lifted : (liftM (table.type id) : QueryM TypeSymbol) = pure type := by
    rw [type_eq_ok found]
    rfl
  unfold flattenFrom
  rw [QueryM.answer_get, fresh]
  simp only [outside, if_false, lifted, pure_bind]

theorem flattenFrom_opened (fresh : memory.interfaces.find? id.index = none) {path : List TypeId}
    (outside : id ∉ path) {type : TypeSymbol} (found : table.type? id = some type) {depth : Nat}
    {list : List TypeId} {after : Memory}
    (gathered : (type.gather id (table.flattenFrom depth (id :: path))).answer memory =
      (.ok list, after)) :
    (table.flattenFrom (depth + 1) path id).answer memory =
      (.ok list, { after with interfaces := after.interfaces.insert id.index list }) := by
  rw [answer_flattenFrom_opened fresh outside found, QueryM.answer_bind_ok gathered,
    QueryM.answer_modify]
  rfl

theorem flattenFrom_missing (fresh : memory.interfaces.find? id.index = none) {path : List TypeId}
    (outside : id ∉ path) (missing : table.type? id = none) (depth : Nat) :
    (table.flattenFrom (depth + 1) path id).answer memory = (.error (.unknownType id), memory) := by
  have lifted : table.type id = .error (.unknownType id) := by
    rw [type, missing]
  unfold flattenFrom
  rw [QueryM.answer_get, fresh]
  simp only [outside, if_false, lifted]
  rfl

/-- About a type that does not exist, only what is remembered can be an answer. -/
theorem flatten_missing (missing : table.type? id = none) (memory : Memory) :
    (table.flatten id).answer memory =
      ((memory.interfaces.find? id.index).elim (.error (.unknownType id)) .ok, memory) := by
  cases remembered : memory.interfaces.find? id.index with
  | some list => exact flattenFrom_known remembered _ []
  | none => exact flattenFrom_missing remembered List.not_mem_nil missing 255

/-! ## The steps of the other lookups -/

theorem levelOf_known {level : LevelTable} (known : memory.levels.find? id.index = some level) :
    (table.levelOf id).answer memory = (.ok level, memory) := by
  unfold levelOf
  rw [QueryM.answer_get, known]
  rfl

theorem levelOf_fresh (fresh : memory.levels.find? id.index = none) {type : TypeSymbol}
    (found : table.type? id = some type) :
    (table.levelOf id).answer memory =
      (.ok (.ofType table type),
        { memory with levels := memory.levels.insert id.index (.ofType table type) }) := by
  unfold levelOf
  rw [QueryM.answer_get, fresh, type_eq_ok found]
  rfl

theorem levelOf_missing (missing : table.type? id = none) (memory : Memory) :
    (table.levelOf id).answer memory =
      ((memory.levels.find? id.index).elim (.error (.unknownType id)) .ok, memory) := by
  have lifted : table.type id = .error (.unknownType id) := by
    rw [type, missing]
  unfold levelOf
  rw [QueryM.answer_get]
  cases memory.levels.find? id.index with
  | some level => rfl
  | none =>
    simp only [lifted]
    rfl

theorem readRuntime_known {assembly : AssemblyId} {flag : Bool}
    (known : memory.runtime.find? assembly.index = some flag) :
    (table.readRuntime assembly).answer memory = (.ok flag, memory) := by
  unfold readRuntime
  rw [QueryM.answer_get, known]
  rfl

theorem readRuntime_fresh {assembly : AssemblyId}
    (fresh : memory.runtime.find? assembly.index = none) :
    (table.readRuntime assembly).answer memory =
      (.ok (table.declaredRuntime assembly),
        { memory with
          runtime := memory.runtime.insert assembly.index (table.declaredRuntime assembly) }) := by
  unfold readRuntime
  rw [QueryM.answer_get, fresh]
  rfl

/-! ## Lists under a map of ids -/

theorem addInherited_map {f : TypeId → TypeId} (injective : Function.Injective f)
    (origin : TypeId) (list : List TypeId) (inherited : TypeId) :
    addInherited (f origin) (list.map f) (f inherited) = (addInherited origin list inherited).map f := by
  simp only [addInherited, List.length_map, injective.eq_iff,
    List.mem_map_of_injective injective]
  split
  · rfl
  · rw [List.map_append]
    rfl

theorem foldl_addInherited_map {f : TypeId → TypeId} (injective : Function.Injective f)
    (origin : TypeId) (list inherited : List TypeId) :
    (inherited.map f).foldl (addInherited (f origin)) (list.map f) =
      (inherited.foldl (addInherited origin) list).map f := by
  induction inherited generalizing list with
  | nil => rfl
  | cons head rest ih =>
    rw [List.map_cons, List.foldl_cons, List.foldl_cons, addInherited_map injective, ih]

end SymbolTable

/-- The lists of two types that look alike are related if those of their links are. -/
theorem TypeSymbol.gather_related {m n : Type → Type} [Monad m] [Monad n] (L : Lifting m n)
    {f : TypeId → TypeId} (injective : Function.Injective f) {type image : TypeSymbol}
    (isInterface : image.isInterface = type.isInterface) (base : image.base = type.base.map f)
    (interfaces : image.interfaces = type.interfaces.map f) (id : TypeId)
    {first : TypeId → m (List TypeId)} {second : TypeId → n (List TypeId)}
    (links : ∀ other, type.base = some other ∨ other ∈ type.interfaces →
      L.rel (fun a b => b = a.map f) (first other) (second (f other))) :
    L.rel (fun a b => b = a.map f) (type.gather id first) (image.gather (f id) second) := by
  have inherited : L.rel (fun a b => b = a.map f) (type.gatherBase first)
      (image.gatherBase second) := by
    unfold TypeSymbol.gatherBase
    rw [isInterface, base]
    cases type.isInterface with
    | true => exact L.pure rfl
    | false =>
      cases known : type.base with
      | none => exact L.pure rfl
      | some base => exact links base (.inl known)
  have paired : List.Forall₂ (fun a b => b = f a) type.interfaces image.interfaces := by
    rw [interfaces]
    exact List.forall₂_map_right_iff.mpr (List.forall₂_same.mpr fun _ _ => rfl)
  refine L.bind inherited ?_
  rintro start _ rfl
  refine L.foldlM paired rfl ?_
  rintro list _ interface _ listed rfl rfl
  simp only [List.length_map, injective.eq_iff, List.mem_map_of_injective injective]
  split
  · exact L.pure rfl
  · refine L.bind (links interface (.inr listed)) ?_
    rintro below _ rfl
    refine L.pure ?_
    rw [← SymbolTable.foldl_addInherited_map injective, List.map_append]
    rfl

/-- The lists of a type in two monads are related if those of its links are. -/
theorem TypeSymbol.gather_eq {m n : Type → Type} [Monad m] [Monad n] [LawfulMonad m]
    [LawfulMonad n] (L : Lifting m n) {type : TypeSymbol} (id : TypeId)
    {first : TypeId → m (List TypeId)} {second : TypeId → n (List TypeId)}
    (links : ∀ other, type.base = some other ∨ other ∈ type.interfaces →
      L.rel Eq (first other) (second other)) :
    L.rel Eq (type.gather id first) (type.gather id second) := by
  have related : L.rel (fun a b => b = a.map fun other => other) (type.gather id first)
      (type.gather id second) :=
    gather_related L Function.injective_id rfl (by simp) (by simp) id fun other linked =>
      L.mono (links other linked) fun a b same => by simp [same]
  exact L.mono related fun a b same => by simp [same]

/-! ## Growth of the memory -/

/-- Queries have answers from every memory, forget nothing, and remember no
list of a type on a path. The values on the other side do not matter. -/
def Memory.growing (path : List TypeId) : Lifting QueryM Id where
  rel r query _ := ∀ memory, ∃ a after, query.answer memory = (.ok a, after) ∧
    memory.Extends after ∧
    (∀ passed ∈ path,
      after.interfaces.find? passed.index = memory.interfaces.find? passed.index) ∧
    ∃ b, r a b
  pure results memory := ⟨_, memory, rfl, .refl memory, fun _ _ => rfl, _, results⟩
  bind related next memory := by
    obtain ⟨a, middle, answered, grown, kept, b, results⟩ := related memory
    obtain ⟨c, after, answeredNext, grownNext, keptNext, resultsNext⟩ := next a b results middle
    refine ⟨c, after, ?_, grown.trans grownNext, fun passed on => ?_, resultsNext⟩
    · rw [QueryM.answer_bind_ok answered, answeredNext]
    · rw [keptNext passed on, kept passed on]

namespace SymbolTable

variable {table : SymbolTable}

theorem Closed.link (closed : table.Closed) {id other : TypeId} {type : TypeSymbol}
    (found : table.type? id = some type)
    (linked : type.base = some other ∨ other ∈ type.interfaces) :
    ∃ symbol, table.type? other = some symbol := by
  rcases linked with base | listed
  · exact closed.base found base
  · exact closed.interface found listed

/-- The memory with a list that was not there. -/
theorem extends_remembered {memory : Memory} {id : TypeId}
    (fresh : memory.interfaces.find? id.index = none) (list : List TypeId) :
    memory.Extends { memory with interfaces := memory.interfaces.insert id.index list } where
  interfaces := Memo.extends_insert fresh list
  levels := .refl _
  runtime := .refl _

theorem flattenFrom_grows (closed : table.Closed) {origin : TypeId}
    (known : ∃ symbol, table.type? origin = some symbol) (depth : Nat) (path : List TypeId) :
    (Memory.growing path).rel Eq (table.flattenFrom depth path origin) ([] : List TypeId) := by
  induction depth generalizing origin path with
  | zero =>
    intro memory
    cases remembered : memory.interfaces.find? origin.index with
    | some list =>
      exact ⟨list, memory, flattenFrom_known remembered 0 path, .refl memory, fun _ _ => rfl,
        _, rfl⟩
    | none =>
      exact ⟨[], memory, flattenFrom_zero remembered path, .refl memory, fun _ _ => rfl, _, rfl⟩
  | succ depth ih =>
    intro memory
    cases remembered : memory.interfaces.find? origin.index with
    | some list =>
      exact ⟨list, memory, flattenFrom_known remembered _ path, .refl memory, fun _ _ => rfl,
        _, rfl⟩
    | none =>
      by_cases passed : origin ∈ path
      · exact ⟨[], memory, flattenFrom_passed remembered passed _, .refl memory, fun _ _ => rfl,
          _, rfl⟩
      · obtain ⟨type, found⟩ := known
        have grows : (Memory.growing (origin :: path)).rel Eq
            (type.gather origin (table.flattenFrom depth (origin :: path)))
            (type.gather origin fun _ => ([] : List TypeId)) :=
          TypeSymbol.gather_eq _ origin fun other linked =>
            ih (closed.link found linked) (origin :: path)
        obtain ⟨list, after, gathered, grown, kept, _⟩ := grows memory
        have fresh : after.interfaces.find? origin.index = none := by
          rw [kept origin List.mem_cons_self, remembered]
        refine ⟨list, _, flattenFrom_opened remembered passed found gathered,
          grown.trans (extends_remembered fresh list), fun other on => ?_, _, rfl⟩
        have apart : origin.index ≠ other.index := by
          intro same
          have : origin = other := congrArg TypeId.mk same
          exact passed (this ▸ on)
        rw [Memo.find?_insert, if_neg apart, kept other (List.mem_cons_of_mem _ on)]

/-- The list of a type is settled: it is the one that is remembered from then on. -/
theorem flatten_settled (closed : table.Closed) {origin : TypeId} {type : TypeSymbol}
    (found : table.type? origin = some type) :
    Memory.settled.rel Eq (table.flatten origin) (Memory.eventual.interfaces origin) := by
  have settles {list : List TypeId} {after : Memory}
      (remembered : after.interfaces.find? origin.index = some list) (final : Memory)
      (later : after.Extends final) :
      ∃ other, Memory.eventual.interfaces origin final = some other ∧ list = other :=
    ⟨list, later.interfaces _ _ remembered, rfl⟩
  intro memory
  cases remembered : memory.interfaces.find? origin.index with
  | some list =>
    exact ⟨list, memory, flattenFrom_known remembered _ [], .refl memory, settles remembered⟩
  | none =>
    have grows : (Memory.growing [origin]).rel Eq
        (type.gather origin (table.flattenFrom 255 [origin]))
        (type.gather origin fun _ => ([] : List TypeId)) :=
      TypeSymbol.gather_eq _ origin fun other linked =>
        flattenFrom_grows closed (closed.link found linked) 255 [origin]
    obtain ⟨list, after, gathered, grown, kept, _⟩ := grows memory
    have fresh : after.interfaces.find? origin.index = none := by
      rw [kept origin List.mem_cons_self, remembered]
    refine ⟨list, _, flattenFrom_opened remembered List.not_mem_nil found gathered,
      grown.trans (extends_remembered fresh list), settles ?_⟩
    exact Memo.find?_insert_self _ _ _

theorem levelOf_settled {origin : TypeId} {type : TypeSymbol}
    (found : table.type? origin = some type) :
    Memory.settled.rel Eq (table.levelOf origin) (Memory.eventual.level origin) := by
  have settles {level : LevelTable} {after : Memory}
      (remembered : after.levels.find? origin.index = some level) (final : Memory)
      (later : after.Extends final) :
      ∃ other, Memory.eventual.level origin final = some other ∧ level = other :=
    ⟨level, later.levels _ _ remembered, rfl⟩
  intro memory
  cases remembered : memory.levels.find? origin.index with
  | some level =>
    exact ⟨level, memory, levelOf_known remembered, .refl memory, settles remembered⟩
  | none =>
    refine ⟨_, _, levelOf_fresh remembered found, ?_, settles ?_⟩
    · exact ⟨.refl _, Memo.extends_insert remembered _, .refl _⟩
    · exact Memo.find?_insert_self _ _ _

theorem readRuntime_settled (id : AssemblyId) :
    Memory.settled.rel Eq (table.readRuntime id) (Memory.eventual.runtime id) := by
  have settles {flag : Bool} {after : Memory}
      (remembered : after.runtime.find? id.index = some flag) (final : Memory)
      (later : after.Extends final) :
      ∃ other, Memory.eventual.runtime id final = some other ∧ flag = other :=
    ⟨flag, later.runtime _ _ remembered, rfl⟩
  intro memory
  cases remembered : memory.runtime.find? id.index with
  | some flag =>
    exact ⟨flag, memory, readRuntime_known remembered, .refl memory, settles remembered⟩
  | none =>
    refine ⟨_, _, readRuntime_fresh remembered, ?_, settles ?_⟩
    · exact ⟨.refl _, .refl _, Memo.extends_insert remembered _⟩
    · exact Memo.find?_insert_self _ _ _

/-- The lookups with memory answer what is remembered at the end. -/
theorem remembering_settled (closed : table.Closed) :
    Lookups.Agree Memory.settled table table.remembering Memory.eventual where
  interfaces found := flatten_settled closed found
  level found := levelOf_settled found
  runtime id := readRuntime_settled id

end SymbolTable

end Conformance
