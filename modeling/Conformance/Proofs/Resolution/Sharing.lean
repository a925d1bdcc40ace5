import Conformance.Proofs.Resolution.Threads

/-!
Lookups in a memory that others use.

Left alone, the lookups of a thread answer as the lookups with memory do
(`SymbolTable.sharing_likeQueries`). Along an embedding they fit each other access by access
(`SymbolTable.sharing_together`): what other threads remember in the meantime is alike on both
sides, also where it is a list that was cut off. And if no path is cut off, all memories are
coherent, so the lookups answer as without memory whatever comes in between
(`SymbolTable.sharing_gives`).
-/

namespace Conformance

theorem Memo.find?_keep {α : Type} (memo : Memo α) (index other : Nat) (answer : α) :
    (memo.keep index answer).find? other =
      if index = other then some ((memo.find? index).getD answer) else memo.find? other := by
  unfold keep
  cases known : memo.find? index with
  | none => rw [Option.isSome_none, if_neg nofun, find?_insert, Option.getD_none]
  | some first =>
    rw [Option.isSome_some, if_pos rfl, Option.getD_some]
    split
    · rename_i same
      rw [← same, known]
    · rfl

theorem Memo.keep_of_none {α : Type} {memo : Memo α} {index : Nat}
    (fresh : memo.find? index = none) (answer : α) :
    memo.keep index answer = memo.insert index answer := by
  rw [keep, fresh]
  rfl

namespace SymbolTable

variable {table : SymbolTable}

theorem liftM_type {id : TypeId} {type : TypeSymbol} (found : table.type? id = some type) :
    (liftM (table.type id) : Thread TypeSymbol) = pure type := by
  rw [type_eq_ok found]
  rfl

/-! ## Threads that are left alone -/

section

variable {memory : Memory} {id : TypeId}

theorem flattenSharing_known {list : List TypeId}
    (known : memory.interfaces.find? id.index = some list) (depth : Nat) (path : List TypeId) :
    (table.flattenSharing depth path id).alone.answer memory = (.ok list, memory) := by
  unfold flattenSharing
  rw [Thread.answer_find_bind, Memory.Part.read_interfaces, known]
  rfl

theorem flattenSharing_zero (fresh : memory.interfaces.find? id.index = none)
    (path : List TypeId) :
    (table.flattenSharing 0 path id).alone.answer memory = (.ok [], memory) := by
  unfold flattenSharing
  rw [Thread.answer_find_bind, Memory.Part.read_interfaces, fresh]
  rfl

theorem flattenSharing_passed (fresh : memory.interfaces.find? id.index = none)
    {path : List TypeId} (passed : id ∈ path) (depth : Nat) :
    (table.flattenSharing (depth + 1) path id).alone.answer memory = (.ok [], memory) := by
  unfold flattenSharing
  rw [Thread.answer_find_bind, Memory.Part.read_interfaces, fresh]
  simp only [passed, if_true]
  rfl

theorem flattenSharing_opened (fresh : memory.interfaces.find? id.index = none)
    {path : List TypeId} (outside : id ∉ path) {type : TypeSymbol}
    (found : table.type? id = some type) {depth : Nat} {list : List TypeId} {after : Memory}
    (gathered : (type.gather id (table.flattenSharing depth (id :: path))).alone.answer memory =
      (.ok list, after)) (still : after.interfaces.find? id.index = none) :
    (table.flattenSharing (depth + 1) path id).alone.answer memory =
      (.ok list, { after with interfaces := after.interfaces.insert id.index list }) := by
  unfold flattenSharing
  rw [Thread.answer_find_bind, Memory.Part.read_interfaces, fresh]
  simp only [outside, if_false, liftM_type found, pure_bind]
  rw [Thread.answer_bind_ok gathered, Thread.answer_keep, Memory.Part.read_interfaces, still,
    Memo.keep_of_none still]
  rfl

end

theorem flattenSharing_likeQueries (closed : table.Closed) {origin : TypeId}
    (known : ∃ symbol, table.type? origin = some symbol) (depth : Nat) (path : List TypeId) :
    Thread.likeQueries.rel Eq (table.flattenSharing depth path origin)
      (table.flattenFrom depth path origin) := by
  induction depth generalizing origin path with
  | zero =>
    intro memory
    cases remembered : memory.interfaces.find? origin.index with
    | some list =>
      exact ⟨list, list, memory, flattenSharing_known remembered 0 path,
        flattenFrom_known remembered 0 path, rfl⟩
    | none =>
      exact ⟨[], [], memory, flattenSharing_zero remembered path,
        flattenFrom_zero remembered path, rfl⟩
  | succ depth ih =>
    intro memory
    cases remembered : memory.interfaces.find? origin.index with
    | some list =>
      exact ⟨list, list, memory, flattenSharing_known remembered _ path,
        flattenFrom_known remembered _ path, rfl⟩
    | none =>
      by_cases passed : origin ∈ path
      · exact ⟨[], [], memory, flattenSharing_passed remembered passed depth,
          flattenFrom_passed remembered passed _, rfl⟩
      · obtain ⟨type, found⟩ := known
        have gathers : Thread.likeQueries.rel Eq
            (type.gather origin (table.flattenSharing depth (origin :: path)))
            (type.gather origin (table.flattenFrom depth (origin :: path))) :=
          TypeSymbol.gather_eq _ origin fun other linked =>
            ih (closed.link found linked) (origin :: path)
        -- Nothing below remembers a list for a type on the path, so the one that is kept is new.
        have grows : (Memory.growing (origin :: path)).rel Eq
            (type.gather origin (table.flattenFrom depth (origin :: path)))
            (type.gather origin fun _ => ([] : List TypeId)) :=
          TypeSymbol.gather_eq _ origin fun other linked =>
            flattenFrom_grows closed (closed.link found linked) depth (origin :: path)
        obtain ⟨list, _, after, gathered, gatheredQuery, rfl⟩ := gathers memory
        obtain ⟨_, _, again, _, kept, _⟩ := grows memory
        cases gatheredQuery.symm.trans again
        have still : after.interfaces.find? origin.index = none := by
          rw [kept origin List.mem_cons_self, remembered]
        exact ⟨list, list, _, flattenSharing_opened remembered passed found gathered still,
          flattenFrom_opened remembered passed found gatheredQuery, rfl⟩

theorem levelSharing_likeQueries {origin : TypeId} {type : TypeSymbol}
    (found : table.type? origin = some type) :
    Thread.likeQueries.rel Eq (table.levelSharing origin) (table.levelOf origin) := by
  intro memory
  cases remembered : memory.levels.find? origin.index with
  | some level =>
    refine ⟨level, level, memory, ?_, levelOf_known remembered, rfl⟩
    rw [levelSharing, Thread.answer_find_bind, Memory.Part.read_levels, remembered]
    rfl
  | none =>
    refine ⟨.ofType table type, _, _, ?_, levelOf_fresh remembered found, rfl⟩
    rw [levelSharing, Thread.answer_find_bind, Memory.Part.read_levels, remembered]
    simp only [liftM_type found, pure_bind]
    rw [Thread.answer_keep, Memory.Part.read_levels, remembered, Memo.keep_of_none remembered]
    rfl

theorem runtimeSharing_likeQueries (id : AssemblyId) :
    Thread.likeQueries.rel Eq (table.runtimeSharing id) (table.readRuntime id) := by
  intro memory
  cases remembered : memory.runtime.find? id.index with
  | some flag =>
    refine ⟨flag, flag, memory, ?_, readRuntime_known remembered, rfl⟩
    rw [runtimeSharing, Thread.answer_keep, Memory.Part.read_runtime, remembered, Memo.keep,
      remembered]
    rfl
  | none =>
    refine ⟨_, _, _, ?_, readRuntime_fresh remembered, rfl⟩
    rw [runtimeSharing, Thread.answer_keep, Memory.Part.read_runtime, remembered,
      Memo.keep_of_none remembered]
    rfl

/-- Left alone, threads look answers up as queries do. -/
theorem sharing_likeQueries (closed : table.Closed) :
    Lookups.Agree Thread.likeQueries table table.sharing table.remembering where
  interfaces found := flattenSharing_likeQueries closed ⟨_, found⟩ maxDepth []
  level found := levelSharing_likeQueries found
  runtime id := runtimeSharing_likeQueries id

/-! ## Threads in two tables -/

/-- The flag that is read is the one that was there, or the one that the core library gives. -/
theorem getD_keep_declaredRuntime (memo : Memo Bool) (id own : AssemblyId) :
    ((memo.keep id.index (table.declaredRuntime id)).find? own.index).getD
        (table.declaredRuntime own) =
      (memo.find? own.index).getD (table.declaredRuntime own) := by
  rw [Memo.find?_keep]
  split
  · rename_i same
    obtain rfl : id = own := congrArg AssemblyId.mk same
    rw [Option.getD_some]
  · rfl

end SymbolTable

variable {s t : SymbolTable}

/-- Two memories remember the same about types and about their images, and about the runtime of
one assembly. -/
structure Memory.AlikeAt (e : Embedding s t) (own image : AssemblyId) (first second : Memory) :
    Prop extends Memory.Alike e first second where
  flag : (first.runtime.find? own.index).getD (s.declaredRuntime own) =
    (second.runtime.find? image.index).getD (t.declaredRuntime image)

/-- Answers that are kept on two sides, at an index and at its image. -/
theorem Memo.find?_keep_image {α β : Type} {f : TypeId → TypeId} (injective : Function.Injective f)
    {g : α → β} {first : Memo α} {second : Memo β}
    (alike : ∀ id, second.find? (f id).index = (first.find? id.index).map g) (id : TypeId)
    (answer : α) (other : TypeId) :
    (second.keep (f id).index (g answer)).find? (f other).index =
      ((first.keep id.index answer).find? other.index).map g := by
  unfold keep
  rw [alike id, Option.isSome_map]
  cases first.find? id.index with
  | none => exact find?_insert_image injective alike id answer other
  | some known => exact alike other

namespace SymbolTable

variable (e : Embedding s t) {own image : AssemblyId}

theorem find_interfaces_together (id : TypeId) :
    (Thread.together (Memory.AlikeAt e own image)).rel (fun a b => b = a.map (List.map e.type))
      (Thread.find .interfaces id.index) (Thread.find .interfaces (e.type id).index) :=
  Thread.find_together fun alike => alike.interfaces id

theorem keep_interfaces_together (id : TypeId) (list : List TypeId) :
    (Thread.together (Memory.AlikeAt e own image)).rel (fun a b => b = a.map e.type)
      (Thread.keep .interfaces id.index list)
      (Thread.keep .interfaces (e.type id).index (list.map e.type)) := by
  refine Thread.keep_together (fun alike => alike.interfaces id) fun alike =>
    ⟨⟨fun other => ?_, alike.levels⟩, alike.flag⟩
  exact Memo.find?_keep_image e.type_injective alike.interfaces id list other

theorem flattenSharing_together (closed : s.Closed) {origin : TypeId} {type : TypeSymbol}
    (found : s.type? origin = some type) (depth : Nat) (path : List TypeId) :
    (Thread.together (Memory.AlikeAt e own image)).rel (fun a b => b = a.map e.type)
      (s.flattenSharing depth path origin)
      (t.flattenSharing depth (path.map e.type) (e.type origin)) := by
  induction depth generalizing origin type path with
  | zero =>
    unfold flattenSharing
    refine (Thread.together _).bind (find_interfaces_together e origin) fun known _ same => ?_
    subst same
    cases known <;> exact .ended rfl
  | succ depth ih =>
    unfold flattenSharing
    refine (Thread.together _).bind (find_interfaces_together e origin) fun known _ same => ?_
    subst same
    cases known with
    | some list => exact .ended rfl
    | none =>
      obtain ⟨symbol, foundImage, alikeTypes⟩ := e.type?_some found
      simp only [Option.map_none, e.mem_map_type, liftM_type found, liftM_type foundImage,
        pure_bind]
      split
      · exact .ended rfl
      · refine (Thread.together _).bind (TypeSymbol.gather_related _ e.type_injective
          alikeTypes.isInterface alikeTypes.base alikeTypes.interfaces origin
          fun other linked => ?_) fun list _ same => ?_
        · obtain ⟨link, foundLink⟩ := closed.link found linked
          exact ih foundLink (origin :: path)
        · subst same
          exact keep_interfaces_together e origin list

theorem levelSharing_together {origin : TypeId} {type : TypeSymbol}
    (found : s.type? origin = some type) :
    (Thread.together (Memory.AlikeAt e own image)).rel (fun a b => b = a.map e.member)
      (s.levelSharing origin) (t.levelSharing (e.type origin)) := by
  refine (Thread.together _).bind
    (Thread.find_together fun alike => alike.levels origin) fun known _ same => ?_
  subst same
  cases known with
  | some level => exact .ended rfl
  | none =>
    obtain ⟨symbol, foundImage, alikeTypes⟩ := e.type?_some found
    simp only [Option.map_none, liftM_type found, liftM_type foundImage, pure_bind,
      e.ofType alikeTypes]
    refine Thread.keep_together (fun alike => alike.levels origin) fun alike =>
      ⟨⟨alike.interfaces, fun other => ?_⟩, alike.flag⟩
    exact Memo.find?_keep_image e.type_injective alike.levels origin _ other

/-- Which flags are read makes no difference to what is remembered about types, and none to what
the flags are. -/
theorem keep_runtime_alikeAt {memory other : Memory} (alike : memory.AlikeAt e own image other)
    (id second : AssemblyId) : Memory.AlikeAt e own image
      { memory with runtime := memory.runtime.keep id.index (s.declaredRuntime id) }
      { other with runtime := other.runtime.keep second.index (t.declaredRuntime second) } where
  interfaces := alike.interfaces
  levels := alike.levels
  flag := (getD_keep_declaredRuntime _ id own).trans
    (alike.flag.trans (getD_keep_declaredRuntime _ second image).symm)

theorem runtimeSharing_together (first second : AssemblyId) :
    (Thread.together (Memory.AlikeAt e own image)).rel (fun _ _ => True)
      (s.runtimeSharing first) (t.runtimeSharing second) :=
  .access (fun alike => keep_runtime_alikeAt e alike first second) fun _ => .ended trivial

/-- The flag of the one assembly is the same on both sides. -/
theorem ownRuntimeSharing_together :
    (Thread.together (Memory.AlikeAt e own image)).rel Eq (s.runtimeSharing own)
      (t.runtimeSharing image) :=
  .access (fun alike => keep_runtime_alikeAt e alike own image) fun alike => .ended alike.flag

/-- Lookups in two tables fit each other, whatever others remember in the meantime. -/
theorem sharing_together (closed : s.Closed) :
    Lookups.Related (Thread.together (Memory.AlikeAt e own image)) e s.sharing t.sharing where
  interfaces found := flattenSharing_together e closed found maxDepth []
  level found := levelSharing_together e found
  runtime _ _ := runtimeSharing_together e _ _

end SymbolTable

/-! ## Threads on short paths -/

namespace Memory.Coherent

variable {table : SymbolTable} {runtime : AssemblyId → Bool} {memory : Memory}

/-- It makes no difference if a list is there already that would be remembered. -/
theorem keep (known : memory.Coherent table runtime) {id : TypeId} {type : TypeSymbol}
    (found : table.type? id = some type) {depth : Nat} (short : table.PathsFrom (depth + 1) id) :
    Coherent table runtime { memory with
      interfaces := memory.interfaces.keep id.index (table.interfacesWithin depth id) } := by
  unfold Memo.keep
  cases memory.interfaces.find? id.index with
  | some list => exact known
  | none => exact known.remember found short

theorem keepLevel (known : memory.Coherent table runtime) {id : TypeId} {type : TypeSymbol}
    (found : table.type? id = some type) : Coherent table runtime
      { memory with levels := memory.levels.keep id.index (.ofType table type) } := by
  unfold Memo.keep
  cases memory.levels.find? id.index with
  | some level => exact known
  | none => exact known.rememberLevel found

theorem keepFlag (known : memory.Coherent table runtime) (id : AssemblyId) :
    Coherent table runtime
      { memory with runtime := memory.runtime.keep id.index (table.declaredRuntime id) } where
  known := known.known
  interfaces := known.interfaces
  level := known.level
  runtime other := (SymbolTable.getD_keep_declaredRuntime _ id other).trans (known.runtime other)

end Memory.Coherent

namespace SymbolTable

variable {table : SymbolTable} {runtime : AssemblyId → Bool}

/-- On a short path, the list of a type is the one that is found without memory, whatever others
remember in the meantime. -/
theorem flattenSharing_gives (closed : table.Closed) {origin : TypeId} {type : TypeSymbol}
    (found : table.type? origin = some type) {depth : Nat}
    (short : table.PathsFrom (depth + 1) origin) {path : List TypeId}
    (above : ∀ passed ∈ path, Relation.TransGen table.Links passed origin) :
    (Thread.gives (Memory.Coherent table runtime)).rel Eq (table.flattenSharing depth path origin)
      (table.interfacesWithin depth origin) := by
  induction depth generalizing origin type path with
  | zero =>
    unfold flattenSharing
    refine Thread.find_gives fun {memory} known => ?_
    rw [Memory.Part.read_interfaces]
    cases remembered : memory.interfaces.find? origin.index with
    | some list => exact .ended (known.interfaces remembered short)
    | none => exact .ended rfl
  | succ depth ih =>
    unfold flattenSharing
    refine Thread.find_gives fun {memory} known => ?_
    rw [Memory.Part.read_interfaces]
    cases remembered : memory.interfaces.find? origin.index with
    | some list => exact .ended (known.interfaces remembered short)
    | none =>
      have outside : origin ∉ path := fun passed => short.acyclic (above origin passed)
      have gathers : (Thread.gives (Memory.Coherent table runtime)).rel Eq
          (type.gather origin (table.flattenSharing depth (origin :: path)))
          (table.interfacesWithin (depth + 1) origin) := by
        rw [interfacesWithin_succ found]
        refine TypeSymbol.gather_eq _ origin fun other linked => ?_
        obtain ⟨symbol, foundOther⟩ := closed.link found linked
        have step : table.Links origin other := ⟨type, found, linked⟩
        refine ih foundOther (short.link step) fun passed on => ?_
        rcases List.mem_cons.mp on with rfl | earlier
        · exact .single step
        · exact (above passed earlier).tail step
      simp only [outside, if_false, liftM_type found, pure_bind]
      refine gathers.bind fun list same => ?_
      rw [same]
      -- Another thread may have kept a list in the meantime. In a coherent memory it is this one.
      refine .access (fun known => known.keep found short) fun {memory} known => .ended ?_
      rw [Memory.Part.read_interfaces]
      cases remembered : memory.interfaces.find? origin.index with
      | some list => exact known.interfaces remembered short
      | none => rfl

theorem levelSharing_gives {origin : TypeId} {type : TypeSymbol}
    (found : table.type? origin = some type) :
    (Thread.gives (Memory.Coherent table runtime)).rel Eq (table.levelSharing origin)
      ((table.pureLookups runtime).level origin) := by
  have level : (table.pureLookups runtime).level origin = LevelTable.ofType table type := by
    show ((table.type? origin).map (LevelTable.ofType table)).getD {} = _
    rw [found]
    rfl
  have isOwn {memory : Memory} (known : memory.Coherent table runtime) {level : LevelTable}
      (remembered : memory.levels.find? origin.index = some level) : level = .ofType table type := by
    obtain ⟨symbol, foundSymbol, same⟩ := known.level remembered
    cases found.symm.trans foundSymbol
    exact same
  rw [level]
  refine Thread.find_gives fun {memory} known => ?_
  rw [Memory.Part.read_levels]
  cases remembered : memory.levels.find? origin.index with
  | some level => exact .ended (isOwn known remembered)
  | none =>
    simp only [liftM_type found, pure_bind]
    refine .access (fun known => known.keepLevel found) fun {memory} known => .ended ?_
    rw [Memory.Part.read_levels]
    cases remembered : memory.levels.find? origin.index with
    | some level => exact isOwn known remembered
    | none => rfl

theorem runtimeSharing_gives (id : AssemblyId) :
    (Thread.gives (Memory.Coherent table runtime)).rel Eq (table.runtimeSharing id) (runtime id) :=
  .access (fun known => known.keepFlag id) fun known => .ended (known.runtime id)

/-- If no path is cut off, lookups answer as without memory, whatever others remember in the
meantime. -/
theorem sharing_gives (closed : table.Closed) (short : table.PathsWithin longestPath)
    (runtime : AssemblyId → Bool) :
    Lookups.Agree (Thread.gives (Memory.Coherent table runtime)) table table.sharing
      (table.pureLookups runtime) where
  interfaces {id _} found :=
    flattenSharing_gives closed found (short.from id) fun _ passed => nomatch passed
  level found := levelSharing_gives found
  runtime id := runtimeSharing_gives id

end SymbolTable

end Conformance
