import Conformance.Proofs.Resolution.Flattening

/-!
Interface lists without memory.

The memory of a table is coherent if each list in it is the one that is found
without memory. Lists are cut off where a path gets too long, and what is then
remembered depends on where the path began. In a table whose paths visit no
more types than `SymbolTable.longestPath` no path is cut off: memories stay
coherent, and all lookups answer as without memory.
-/

namespace Conformance

namespace SymbolTable

/-- The number of types on the longest path that is not cut off. The last type
need not be opened. -/
def longestPath : Nat := maxDepth + 1

/-- The interface list of a type that at most `depth` types are opened for, one
below the other. -/
def interfacesWithin (table : SymbolTable) : Nat → TypeId → List TypeId
  | 0, _ => []
  | depth + 1, id =>
    match table.type? id with
    | none => []
    | some type => Id.run (type.gather id fun other => table.interfacesWithin depth other)

/-- The interface list of a type, without memory. -/
def interfacesOf (table : SymbolTable) (id : TypeId) : List TypeId :=
  table.interfacesWithin maxDepth id

/-- The lookups without memory, with the given runtime flags. -/
def pureLookups (table : SymbolTable) (runtime : AssemblyId → Bool) : Lookups Id where
  interfaces id := table.interfacesOf id
  level id := ((table.type? id).map (LevelTable.ofType table)).getD {}
  runtime id := runtime id

variable {table : SymbolTable}

theorem interfacesWithin_succ {id : TypeId} {type : TypeSymbol}
    (found : table.type? id = some type) (depth : Nat) :
    table.interfacesWithin (depth + 1) id =
      type.gather (m := Id) id fun other => table.interfacesWithin depth other := by
  rw [interfacesWithin, found]
  rfl

/-! ## Short paths -/

/-- Every path along links from a type visits at most `bound` types. -/
def PathsFrom (table : SymbolTable) (bound : Nat) (id : TypeId) : Prop :=
  ∀ path : List TypeId, (id :: path).IsChain table.Links → path.length + 1 ≤ bound

theorem PathsWithin.from {bound : Nat} (short : table.PathsWithin bound) (id : TypeId) :
    table.PathsFrom bound id :=
  fun path chain => short (id :: path) chain

theorem PathsFrom.link {bound : Nat} {id other : TypeId} (short : table.PathsFrom (bound + 1) id)
    (linked : table.Links id other) : table.PathsFrom bound other := by
  intro path chain
  have longer := short (other :: path) (.cons_cons linked chain)
  rw [List.length_cons] at longer
  omega

theorem PathsFrom.not_link {id other : TypeId} (short : table.PathsFrom 1 id) :
    ¬ table.Links id other := by
  intro linked
  have longer := short [other] (.cons_cons linked (.singleton other))
  simp at longer

/-- A path from the end of a chain of links can be prolonged to its start. -/
theorem exists_path {id other : TypeId} (linked : Relation.TransGen table.Links id other)
    {path : List TypeId} (chain : (other :: path).IsChain table.Links) :
    ∃ longer : List TypeId, (id :: longer).IsChain table.Links ∧ path.length < longer.length := by
  induction linked using Relation.TransGen.head_induction_on with
  | single step => exact ⟨other :: path, .cons_cons step chain, by simp⟩
  | @head start middle step _ ih =>
    obtain ⟨longer, continued, more⟩ := ih
    refine ⟨middle :: longer, .cons_cons step continued, ?_⟩
    rw [List.length_cons]
    omega

/-- Types on cycles have paths of any length. -/
theorem PathsFrom.acyclic {bound : Nat} {id : TypeId} (short : table.PathsFrom bound id) :
    ¬ Relation.TransGen table.Links id id := by
  intro cycle
  have long (count : Nat) : ∃ path : List TypeId, (id :: path).IsChain table.Links ∧
      count ≤ path.length := by
    induction count with
    | zero => exact ⟨[], .singleton id, by simp⟩
    | succ count ih =>
      obtain ⟨path, chain, enough⟩ := ih
      obtain ⟨longer, continued, more⟩ := exists_path cycle chain
      exact ⟨longer, continued, by omega⟩
  obtain ⟨path, chain, enough⟩ := long bound
  have := short path chain
  omega

/-- Paths are short if links go down in rank. -/
theorem pathsWithin_of_rank (rank : TypeId → Nat) {bound : Nat} (positive : 0 < bound)
    (down : ∀ id other, table.Links id other → rank other < rank id ∧ rank id < bound) :
    table.PathsWithin bound := by
  have bounded (id : TypeId) (path : List TypeId) (chain : (id :: path).IsChain table.Links) :
      path.length ≤ rank id := by
    induction path generalizing id with
    | nil => exact Nat.zero_le _
    | cons next path ih =>
      rw [List.isChain_cons_cons] at chain
      exact Nat.succ_le_of_lt (Nat.lt_of_le_of_lt (ih next chain.2) (down id next chain.1).1)
  intro path chain
  match path, chain with
  | [], _ => exact Nat.zero_le _
  | [_], _ => exact positive
  | id :: next :: path, chain =>
    have below := (down id next (List.isChain_cons_cons.mp chain).1).2
    exact Nat.succ_le_of_lt (Nat.lt_of_le_of_lt (bounded id (next :: path) chain) below)

/-! ## Lists of types with short paths -/

theorem interfacesWithin_unlinked {id : TypeId} (unlinked : ∀ other, ¬ table.Links id other)
    (depth : Nat) : table.interfacesWithin depth id = [] := by
  cases depth with
  | zero => rfl
  | succ depth =>
    rw [interfacesWithin]
    cases found : table.type? id with
    | none => rfl
    | some type =>
      have noBase : type.base = none := by
        cases base : type.base with
        | none => rfl
        | some other => exact absurd ⟨type, found, .inl base⟩ (unlinked other)
      have noInterface : type.interfaces = [] := by
        rw [List.eq_nil_iff_forall_not_mem]
        exact fun other listed => unlinked other ⟨type, found, .inr listed⟩
      show Id.run (type.gather id _) = []
      rw [TypeSymbol.gather_unlinked noBase noInterface]
      rfl

/-- It makes no difference how many types may be opened if the paths are shorter. -/
theorem interfacesWithin_stable {depth other : Nat} {id : TypeId}
    (short : table.PathsFrom (depth + 1) id) (shortOther : table.PathsFrom (other + 1) id) :
    table.interfacesWithin depth id = table.interfacesWithin other id := by
  induction depth generalizing other id with
  | zero =>
    rw [interfacesWithin_unlinked fun _ => short.not_link,
      interfacesWithin_unlinked fun _ => short.not_link]
  | succ depth ih =>
    cases other with
    | zero =>
      rw [interfacesWithin_unlinked fun _ => shortOther.not_link,
        interfacesWithin_unlinked fun _ => shortOther.not_link]
    | succ other =>
      rw [interfacesWithin, interfacesWithin]
      cases found : table.type? id with
      | none => rfl
      | some type =>
        refine TypeSymbol.gather_eq .same id fun link linked => ?_
        have step : table.Links id link := ⟨type, found, linked⟩
        exact ih (short.link step) (shortOther.link step)

end SymbolTable

/-! ## Coherent memories -/

namespace Memory

/-- Every answer in a memory is the one that is found without memory. Lists of
types with long paths are not constrained. -/
structure Coherent (table : SymbolTable) (runtime : AssemblyId → Bool) (memory : Memory) :
    Prop where
  known : ∀ {id : TypeId} {list}, memory.interfaces.find? id.index = some list →
    ∃ type, table.type? id = some type
  interfaces : ∀ {id : TypeId} {list depth}, memory.interfaces.find? id.index = some list →
    table.PathsFrom (depth + 1) id → list = table.interfacesWithin depth id
  level : ∀ {id : TypeId} {level}, memory.levels.find? id.index = some level →
    ∃ type, table.type? id = some type ∧ level = .ofType table type
  runtime : ∀ id : AssemblyId,
    (memory.runtime.find? id.index).getD (table.declaredRuntime id) = runtime id

/-- Queries have answers that are related to values, from memories of which `P` holds, and
leave memories behind of which it holds. -/
def keeping (P : Memory → Prop) : Lifting QueryM Id where
  rel r query value := ∀ memory, P memory →
    ∃ a after, query.answer memory = (.ok a, after) ∧ P after ∧ r a value
  pure results memory known := ⟨_, memory, rfl, known, results⟩
  bind related next memory known := by
    obtain ⟨a, middle, answered, kept, results⟩ := related memory known
    obtain ⟨c, after, answeredNext, keptNext, resultsNext⟩ := next a _ results middle kept
    exact ⟨c, after, by rw [QueryM.answer_bind_ok answered, answeredNext], keptNext, resultsNext⟩

/-- Queries have the answers of lookups without memory, from coherent memories,
and leave coherent memories behind. -/
def coherent (table : SymbolTable) (runtime : AssemblyId → Bool) : Lifting QueryM Id :=
  keeping (Coherent table runtime)

variable {table : SymbolTable} {runtime : AssemblyId → Bool}

theorem Coherent.remember {memory : Memory} (known : memory.Coherent table runtime) {id : TypeId}
    {type : TypeSymbol} (found : table.type? id = some type) {depth : Nat}
    (short : table.PathsFrom (depth + 1) id) :
    Coherent table runtime { memory with
      interfaces := memory.interfaces.insert id.index (table.interfacesWithin depth id) } where
  known {other list} foundList := by
    rw [Memo.find?_insert] at foundList
    split at foundList
    · rename_i same
      obtain rfl : id = other := congrArg TypeId.mk same
      exact ⟨type, found⟩
    · exact known.known foundList
  interfaces {other list bound} foundList shortOther := by
    rw [Memo.find?_insert] at foundList
    split at foundList
    · rename_i same
      obtain rfl : id = other := congrArg TypeId.mk same
      cases foundList
      exact SymbolTable.interfacesWithin_stable short shortOther
    · exact known.interfaces foundList shortOther
  level := known.level
  runtime := known.runtime

theorem Coherent.rememberLevel {memory : Memory} (known : memory.Coherent table runtime)
    {id : TypeId} {type : TypeSymbol} (found : table.type? id = some type) :
    Coherent table runtime
      { memory with levels := memory.levels.insert id.index (.ofType table type) } where
  known := known.known
  interfaces := known.interfaces
  level {other level} foundLevel := by
    rw [Memo.find?_insert] at foundLevel
    split at foundLevel
    · rename_i same
      obtain rfl : id = other := congrArg TypeId.mk same
      exact ⟨type, found, (Option.some.inj foundLevel).symm⟩
    · exact known.level foundLevel
  runtime := known.runtime

end Memory

namespace SymbolTable

variable {table : SymbolTable} {runtime : AssemblyId → Bool}

/-- On a short path, the list of a type is the one that is found without memory. -/
theorem flattenFrom_coherent (closed : table.Closed) {origin : TypeId} {type : TypeSymbol}
    (found : table.type? origin = some type) {depth : Nat}
    (short : table.PathsFrom (depth + 1) origin) {path : List TypeId}
    (above : ∀ passed ∈ path, Relation.TransGen table.Links passed origin) :
    (Memory.coherent table runtime).rel Eq (table.flattenFrom depth path origin)
      (table.interfacesWithin depth origin) := by
  induction depth generalizing origin type path with
  | zero =>
    intro memory known
    cases remembered : memory.interfaces.find? origin.index with
    | some list =>
      exact ⟨list, memory, flattenFrom_known remembered 0 path, known,
        known.interfaces remembered short⟩
    | none => exact ⟨[], memory, flattenFrom_zero remembered path, known, rfl⟩
  | succ depth ih =>
    intro memory known
    cases remembered : memory.interfaces.find? origin.index with
    | some list =>
      exact ⟨list, memory, flattenFrom_known remembered _ path, known,
        known.interfaces remembered short⟩
    | none =>
      have outside : origin ∉ path := fun passed => short.acyclic (above origin passed)
      have gathers : (Memory.coherent table runtime).rel Eq
          (type.gather origin (table.flattenFrom depth (origin :: path)))
          (type.gather origin fun other => table.interfacesWithin depth other) := by
        refine TypeSymbol.gather_eq _ origin fun other linked => ?_
        obtain ⟨symbol, foundOther⟩ := closed.link found linked
        have step : table.Links origin other := ⟨type, found, linked⟩
        refine ih foundOther (short.link step) fun passed on => ?_
        rcases List.mem_cons.mp on with rfl | earlier
        · exact .single step
        · exact (above passed earlier).tail step
      obtain ⟨list, after, gathered, kept, rfl⟩ := gathers memory known
      have unfolded := interfacesWithin_succ found depth
      refine ⟨_, _, flattenFrom_opened remembered outside found gathered, ?_, unfolded.symm⟩
      rw [← unfolded]
      exact kept.remember found short

theorem levelOf_coherent {origin : TypeId} {type : TypeSymbol}
    (found : table.type? origin = some type) :
    (Memory.coherent table runtime).rel Eq (table.levelOf origin)
      ((table.pureLookups runtime).level origin) := by
  have level : (table.pureLookups runtime).level origin = LevelTable.ofType table type := by
    show ((table.type? origin).map (LevelTable.ofType table)).getD {} = _
    rw [found]
    rfl
  rw [level]
  intro memory known
  cases remembered : memory.levels.find? origin.index with
  | some level =>
    obtain ⟨symbol, foundSymbol, same⟩ := known.level remembered
    cases found.symm.trans foundSymbol
    exact ⟨level, memory, levelOf_known remembered, known, same⟩
  | none =>
    exact ⟨_, _, levelOf_fresh remembered found, known.rememberLevel found, rfl⟩

theorem readRuntime_coherent (id : AssemblyId) :
    (Memory.coherent table runtime).rel Eq (table.readRuntime id) (runtime id) := by
  intro memory known
  have flag := known.runtime id
  cases remembered : memory.runtime.find? id.index with
  | some value =>
    rw [remembered] at flag
    exact ⟨value, memory, readRuntime_known remembered, known, flag⟩
  | none =>
    rw [remembered] at flag
    refine ⟨_, _, readRuntime_fresh remembered,
      ⟨known.known, known.interfaces, known.level, ?_⟩, flag⟩
    intro other
    rw [Memo.find?_insert]
    split
    · rename_i same
      obtain rfl : id = other := congrArg AssemblyId.mk same
      exact flag
    · exact known.runtime other

/-- If no path is cut off, the lookups with memory answer as without. -/
theorem remembering_coherent (closed : table.Closed) (short : table.PathsWithin longestPath)
    (runtime : AssemblyId → Bool) :
    Lookups.Agree (Memory.coherent table runtime) table table.remembering
      (table.pureLookups runtime) where
  interfaces {id _} found :=
    flattenFrom_coherent closed found (short.from id) fun _ passed => nomatch passed
  level found := levelOf_coherent found
  runtime id := readRuntime_coherent id

end SymbolTable

end Conformance
