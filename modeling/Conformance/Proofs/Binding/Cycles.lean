import Conformance.Proofs.Binding.Heritage
import Conformance.Proofs.Lists
import Mathlib.Data.List.Perm.Basic
import Mathlib.Logic.Relation

/-!
Cycles, and what breaking them leaves.

Breaking cycles only takes links out (`SymbolTable.Trims`), and only at the
types that it is given. Afterwards the walk along base types from none of them
comes back within its limit, and no search along interface lists comes back at
all (`SymbolTable.breakCycles_untangled`). A table in which nothing comes back
is left as it is (`SymbolTable.breakCycles_idle`).
-/

namespace Conformance

/-! ## Links taken out -/

/-- A type from which links may have been taken out. -/
structure TypeSymbol.Trimmed (before after : TypeSymbol) : Prop where
  rest : after = { before with base := after.base, interfaces := after.interfaces }
  base : after.base = none ∨ after.base = before.base
  interfaces : after.interfaces.Sublist before.interfaces

theorem TypeSymbol.Trimmed.refl (type : TypeSymbol) : type.Trimmed type :=
  ⟨rfl, .inr rfl, .refl _⟩

theorem TypeSymbol.Trimmed.trans {before middle after : TypeSymbol}
    (first : before.Trimmed middle) (second : middle.Trimmed after) : before.Trimmed after where
  rest := by
    rw [second.rest, first.rest]
  base := by
    rcases second.base with none | same
    · exact .inl none
    · rw [same]
      exact first.base
  interfaces := second.interfaces.trans first.interfaces

namespace SymbolTable

/-- A table from whose types links may have been taken out. -/
structure Trims (before after : SymbolTable) : Prop where
  assemblies : after.assemblies = before.assemblies
  members : after.members = before.members
  types : ∀ id, Option.Rel TypeSymbol.Trimmed (before.type? id) (after.type? id)

theorem Trims.refl (table : SymbolTable) : table.Trims table where
  assemblies := rfl
  members := rfl
  types id := by
    cases table.type? id with
    | none => exact .none
    | some type => exact .some (.refl type)

theorem Trims.trans {before middle after : SymbolTable} (first : before.Trims middle)
    (second : middle.Trims after) : before.Trims after where
  assemblies := second.assemblies.trans first.assemblies
  members := second.members.trans first.members
  types id := rel_comp (first.types id) (second.types id) fun _ _ _ => TypeSymbol.Trimmed.trans

theorem Trims.type? {before after : SymbolTable} (trims : before.Trims after) {id : TypeId}
    {type : TypeSymbol} (found : before.type? id = some type) :
    ∃ trimmed, after.type? id = some trimmed ∧ type.Trimmed trimmed :=
  exists_of_rel_some (trims.types id) found

theorem Trims.type?_of_after {before after : SymbolTable} (trims : before.Trims after)
    {id : TypeId} {type : TypeSymbol} (found : after.type? id = some type) :
    ∃ original, before.type? id = some original ∧ original.Trimmed type :=
  exists_of_rel_some_right (trims.types id) found

theorem Trims.member? {before after : SymbolTable} (trims : before.Trims after) (id : MemberId) :
    after.member? id = before.member? id := by
  rw [SymbolTable.member?, SymbolTable.member?, trims.members]

theorem Trims.modifyType {table : SymbolTable} (id : TypeId) {cut : TypeSymbol → TypeSymbol}
    (trims : ∀ type : TypeSymbol, type.Trimmed (cut type)) :
    table.Trims (table.modifyType id cut) where
  assemblies := rfl
  members := rfl
  types other := by
    rw [type?_modifyType]
    cases table.type? other with
    | none => split <;> exact .none
    | some type =>
      split
      · exact .some (trims type)
      · exact .some (.refl type)

/-- Taking links out leaves no id without symbol. -/
theorem Trims.closed {before after : SymbolTable} (trims : before.Trims after)
    (closed : before.Closed) : after.Closed where
  base found base := by
    obtain ⟨original, foundBefore, trimmed⟩ := trims.type?_of_after found
    rcases trimmed.base with none | same
    · rw [none] at base
      contradiction
    · obtain ⟨symbol, known⟩ := closed.base foundBefore (same ▸ base)
      obtain ⟨image, foundImage, _⟩ := trims.type? known
      exact ⟨image, foundImage⟩
  interface found listed := by
    obtain ⟨original, foundBefore, trimmed⟩ := trims.type?_of_after found
    obtain ⟨symbol, known⟩ := closed.interface foundBefore (trimmed.interfaces.subset listed)
    obtain ⟨image, foundImage, _⟩ := trims.type? known
    exact ⟨image, foundImage⟩
  member found listed := by
    obtain ⟨original, foundBefore, trimmed⟩ := trims.type?_of_after found
    rw [trimmed.rest] at listed
    obtain ⟨symbol, known⟩ := closed.member foundBefore listed
    exact ⟨symbol, trims.member? _ ▸ known⟩
  owner found := by
    obtain ⟨symbol, known⟩ := closed.owner (trims.member? _ ▸ found)
    obtain ⟨image, foundImage, _⟩ := trims.type? known
    exact ⟨image, foundImage⟩
  accessor found listed := by
    obtain ⟨symbol, known⟩ := closed.accessor (trims.member? _ ▸ found) listed
    exact ⟨symbol, trims.member? _ ▸ known⟩
  parent found clause := by
    obtain ⟨symbol, known⟩ := closed.parent (trims.member? _ ▸ found) clause
    exact ⟨symbol, trims.member? _ ▸ known⟩

/-! ## Walks along base types -/

/-- A type has another one as its base type. -/
def Bases (table : SymbolTable) (id other : TypeId) : Prop :=
  ∃ type, table.type? id = some type ∧ type.base = some other

variable {table : SymbolTable}

theorem basesReach_total (closed : table.Closed) (target : TypeId) (steps : Nat) {id : TypeId}
    (known : ∃ type, table.type? id = some type) :
    ∃ result, table.basesReach target steps id = .ok result := by
  induction steps generalizing id with
  | zero =>
    unfold basesReach
    split <;> exact ⟨_, rfl⟩
  | succ steps ih =>
    obtain ⟨type, found⟩ := known
    unfold basesReach
    rw [found]
    split
    · exact ⟨_, rfl⟩
    · simp only
      cases base : type.base with
      | none => exact ⟨_, rfl⟩
      | some other => exact ih (closed.base found base)

/-- A walk that does not come to its target does not start there. -/
theorem ne_of_basesReach {target id : TypeId} {steps : Nat}
    (missed : table.basesReach target steps id = .ok false) : id ≠ target := by
  rintro rfl
  cases steps <;> rw [basesReach, if_pos rfl] at missed <;> cases missed

/-- A walk that does not come to its target still does not after links were
taken out. -/
theorem Trims.basesReach {before after : SymbolTable} (trims : before.Trims after)
    {target : TypeId} {steps : Nat} {id : TypeId}
    (missed : before.basesReach target steps id = .ok false) :
    after.basesReach target steps id = .ok false := by
  induction steps generalizing id with
  | zero => rw [SymbolTable.basesReach, if_neg (ne_of_basesReach missed)]
  | succ steps ih =>
    have apart := ne_of_basesReach missed
    unfold SymbolTable.basesReach at missed ⊢
    rw [if_neg apart] at missed ⊢
    cases found : before.type? id with
    | none =>
      rw [found] at missed
      cases missed
    | some type =>
      obtain ⟨trimmed, foundAfter, cut⟩ := trims.type? found
      simp only [found] at missed
      simp only [foundAfter]
      rcases cut.base with none | same
      · rw [none]
      · rw [same]
        cases base : type.base with
        | none => rfl
        | some other =>
          rw [base] at missed
          exact ih missed

/-! ## Searches along interface lists -/

/-- A type lists another one. -/
def Lists (table : SymbolTable) (id other : TypeId) : Prop :=
  ∃ type, table.type? id = some type ∧ other ∈ type.interfaces

theorem Trims.lists {before after : SymbolTable} (trims : before.Trims after) {id other : TypeId}
    (lists : after.Lists id other) : before.Lists id other := by
  obtain ⟨type, found, listed⟩ := lists
  obtain ⟨original, foundBefore, trimmed⟩ := trims.type?_of_after found
  exact ⟨original, foundBefore, trimmed.interfaces.subset listed⟩

theorem Trims.reaches {before after : SymbolTable} (trims : before.Trims after)
    {id other : TypeId} (path : Relation.ReflTransGen after.Lists id other) :
    Relation.ReflTransGen before.Lists id other :=
  Relation.ReflTransGen.mono (fun _ _ lists => trims.lists lists) _ _ path

theorem searchInterfaces_total (closed : table.Closed) (target : TypeId) (steps : Nat)
    (visited : List TypeId) {pending : List TypeId}
    (known : ∀ id ∈ pending, ∃ type, table.type? id = some type) :
    ∃ result, table.searchInterfaces target steps visited pending = .ok result := by
  induction steps generalizing visited pending with
  | zero => exact ⟨_, rfl⟩
  | succ steps ih =>
    cases pending with
    | nil => exact ⟨_, rfl⟩
    | cons id pending =>
      have rest : ∀ other ∈ pending, ∃ type, table.type? other = some type :=
        fun other listed => known other (List.mem_cons_of_mem _ listed)
      obtain ⟨type, found⟩ := known id List.mem_cons_self
      unfold searchInterfaces
      rw [found]
      split
      · exact ⟨_, rfl⟩
      · split
        · exact ih visited rest
        · refine ih _ fun other listed => ?_
          rcases List.mem_append.mp listed with below | later
          · exact closed.interface found (List.mem_reverse.mp below)
          · exact rest other later

/-- A search that comes to its target has found a path. -/
theorem reaches_of_searchInterfaces {target : TypeId} {steps : Nat} {visited pending : List TypeId}
    (hit : table.searchInterfaces target steps visited pending = .ok true) :
    ∃ id ∈ pending, Relation.ReflTransGen table.Lists id target := by
  induction steps generalizing visited pending with
  | zero => cases hit
  | succ steps ih =>
    cases pending with
    | nil => cases hit
    | cons id pending =>
      have later (found : ∃ other ∈ pending, Relation.ReflTransGen table.Lists other target) :
          ∃ other ∈ id :: pending, Relation.ReflTransGen table.Lists other target := by
        obtain ⟨other, listed, path⟩ := found
        exact ⟨other, List.mem_cons_of_mem _ listed, path⟩
      unfold searchInterfaces at hit
      split at hit
      · rename_i same
        exact ⟨id, List.mem_cons_self, same ▸ .refl⟩
      · split at hit
        · exact later (ih hit)
        · split at hit
          · cases hit
          · rename_i type found
            obtain ⟨other, listed, path⟩ := ih hit
            rcases List.mem_append.mp listed with below | rest
            · exact ⟨id, List.mem_cons_self,
                .head ⟨type, found, List.mem_reverse.mp below⟩ path⟩
            · exact later ⟨other, rest, path⟩

/-- The list of a type. -/
def linksOf (table : SymbolTable) (id : TypeId) : List TypeId :=
  ((table.type? id).map TypeSymbol.interfaces).getD []

theorem length_linksOf (table : SymbolTable) :
    ((typeIds 0 table.types.size).flatMap table.linksOf).length = table.interfaceLinks := by
  rw [interfaceLinks, List.flatMap_def, List.flatMap_def]
  congr 2
  refine List.ext_getElem (by simp) fun index inside _ => ?_
  have bound : index < table.types.size := by simpa using inside
  simp [typeIds, linksOf, type?, bound]

/-- How far a search along interface lists has come that did not meet its target:
the links of what was looked at are looked at or pending, and `unvisited` are the
types that can still be looked into. -/
structure Searching (table : SymbolTable) (target : TypeId)
    (unvisited visited pending : List TypeId) : Prop where
  complete : ∀ id type, table.type? id = some type → id ∉ visited → id ∈ unvisited
  looked : ∀ id ∈ visited, ∀ other, table.Lists id other → other ∈ visited ∨ other ∈ pending
  outside : target ∉ visited

/-- What was looked at or pending still is when the first pending type was looked at. -/
theorem seen_or_pending {head id : TypeId} {visited pending later rest : List TypeId}
    (known : id ∈ visited ∨ id ∈ head :: pending) (first : head ∈ later)
    (kept : visited ⊆ later) (left : pending ⊆ rest) : id ∈ later ∨ id ∈ rest := by
  rcases known with earlier | next
  · exact .inl (kept earlier)
  · rcases List.mem_cons.mp next with rfl | after
    · exact .inl first
    · exact .inr (left after)

namespace Searching

variable {target head : TypeId} {unvisited visited pending : List TypeId}

/-- What was looked at is closed under links once nothing is pending. -/
theorem unreachable (search : table.Searching target unvisited visited []) {id : TypeId}
    (seen : id ∈ visited) : ¬ Relation.ReflTransGen table.Lists id target := by
  intro path
  have inside : target ∈ visited := by
    induction path using Relation.ReflTransGen.head_induction_on with
    | refl => exact seen
    | head step _ further =>
      exact further ((search.looked _ seen _ step).resolve_right List.not_mem_nil)
  exact search.outside inside

/-- A type that was looked at is passed over. -/
theorem skip (search : table.Searching target unvisited visited (head :: pending))
    (seen : head ∈ visited) : table.Searching target unvisited visited pending where
  complete := search.complete
  looked id inside other lists :=
    seen_or_pending (search.looked id inside other lists) seen (List.Subset.refl _)
      (List.Subset.refl _)
  outside := search.outside

/-- Another type is looked into. -/
theorem visit (search : table.Searching target unvisited visited (head :: pending))
    (apart : head ≠ target) {type : TypeSymbol} (found : table.type? head = some type) :
    table.Searching target (unvisited.erase head) (head :: visited)
      (type.interfaces.reverse ++ pending) where
  complete id symbol known unseen := by
    rw [List.mem_cons, not_or] at unseen
    exact (List.mem_erase_of_ne unseen.1).mpr (search.complete id symbol known unseen.2)
  looked id inside other lists := by
    rcases List.mem_cons.mp inside with rfl | earlier
    · obtain ⟨symbol, known, below⟩ := lists
      cases found.symm.trans known
      exact .inr (List.mem_append_left _ (List.mem_reverse.mpr below))
    · exact seen_or_pending (search.looked id earlier other lists) List.mem_cons_self
        (List.subset_cons_self _ _) (List.subset_append_right _ _)
  outside := by
    rw [List.mem_cons, not_or]
    exact ⟨apart.symm, search.outside⟩

end Searching

/-- The links of a type that can still be looked into. -/
theorem length_linksOf_erase {head : TypeId} {type : TypeSymbol} {unvisited : List TypeId}
    (found : table.type? head = some type) (listed : head ∈ unvisited) :
    (unvisited.flatMap table.linksOf).length =
      type.interfaces.length + ((unvisited.erase head).flatMap table.linksOf).length := by
  have links : table.linksOf head = type.interfaces := by
    rw [linksOf, found]
    rfl
  have total := ((List.perm_cons_erase listed).flatMap_right table.linksOf).length_eq
  rwa [List.flatMap_cons, List.length_append, links] at total

/-- A step of a search that misses its target. -/
theorem searchInterfaces_false_cases {target head : TypeId} {steps : Nat}
    {visited pending : List TypeId}
    (missed : table.searchInterfaces target (steps + 1) visited (head :: pending) = .ok false) :
    head ≠ target ∧
      ((head ∈ visited ∧ table.searchInterfaces target steps visited pending = .ok false) ∨
        (head ∉ visited ∧ ∃ type, table.type? head = some type ∧
          table.searchInterfaces target steps (head :: visited)
            (type.interfaces.reverse ++ pending) = .ok false)) := by
  unfold searchInterfaces at missed
  split at missed
  · cases missed
  · rename_i apart
    split at missed
    · rename_i seen
      exact ⟨apart, .inl ⟨seen, missed⟩⟩
    · rename_i fresh
      split at missed
      · cases missed
      · rename_i type found
        exact ⟨apart, .inr ⟨fresh, type, found, missed⟩⟩

/-- A search that misses its target leaves it out of reach: with as many steps as
there are links to look at, it comes to an end by itself. -/
theorem unreachable_of_searchInterfaces {target : TypeId} {steps : Nat}
    {visited pending unvisited : List TypeId}
    (missed : table.searchInterfaces target steps visited pending = .ok false)
    (enough : pending.length + (unvisited.flatMap table.linksOf).length < steps)
    (search : table.Searching target unvisited visited pending) {id : TypeId}
    (start : id ∈ visited ∨ id ∈ pending) : ¬ Relation.ReflTransGen table.Lists id target := by
  induction steps generalizing visited pending unvisited id with
  | zero => omega
  | succ steps ih =>
    cases pending with
    | nil => exact search.unreachable (start.resolve_right List.not_mem_nil)
    | cons head pending =>
      rw [List.length_cons] at enough
      obtain ⟨apart, ⟨seen, rest⟩ | ⟨fresh, type, found, rest⟩⟩ :=
        searchInterfaces_false_cases missed
      · exact ih rest (by omega) (search.skip seen)
          (seen_or_pending start seen (List.Subset.refl _) (List.Subset.refl _))
      · have total := length_linksOf_erase found (search.complete head type found fresh)
        refine ih rest ?_ (search.visit apart found)
          (seen_or_pending start List.mem_cons_self (List.subset_cons_self _ _)
            (List.subset_append_right _ _))
        rw [List.length_append, List.length_reverse]
        omega

/-- Whether a type is reached along interface lists is decided by the search. -/
theorem interfacesReach_iff (closed : table.Closed) {target id : TypeId}
    (known : ∃ type, table.type? id = some type) :
    table.interfacesReach target id = .ok true ∨
      table.interfacesReach target id = .ok false ∧
        ¬ Relation.ReflTransGen table.Lists id target := by
  have exists_pending : ∀ other ∈ [id], ∃ type, table.type? other = some type := by
    intro other listed
    rw [List.mem_singleton] at listed
    exact listed ▸ known
  obtain ⟨result, answered⟩ :=
    searchInterfaces_total closed target (table.interfaceLinks + 2) [] exists_pending
  cases result with
  | true => exact .inl answered
  | false =>
    have search : table.Searching target (typeIds 0 table.types.size) [] [id] := by
      refine ⟨fun other type found _ => ?_, nofun, List.not_mem_nil⟩
      have inside := lt_of_type? found
      exact mem_typeIds.mpr ⟨by omega, by omega⟩
    refine .inr ⟨answered, unreachable_of_searchInterfaces answered ?_ search
      (.inr List.mem_cons_self)⟩
    rw [length_linksOf, List.length_singleton]
    omega

theorem interfacesReach_false (closed : table.Closed) {target id : TypeId}
    (known : ∃ type, table.type? id = some type)
    (unreachable : ¬ Relation.ReflTransGen table.Lists id target) :
    table.interfacesReach target id = .ok false := by
  rcases interfacesReach_iff closed known with hit | missed
  · obtain ⟨other, listed, path⟩ := reaches_of_searchInterfaces hit
    rw [List.mem_singleton] at listed
    exact absurd (listed ▸ path) unreachable
  · exact missed.1

/-! ## What is left -/

/-- The walk along base types from a type does not come back within its limit. -/
def BaseFree (table : SymbolTable) (id : TypeId) : Prop :=
  ∀ type base, table.type? id = some type → type.base = some base →
    table.basesReach id maxDepth base = .ok false

/-- A type does not list another one, or cannot be reached from it. -/
def EntryFree (table : SymbolTable) (id other : TypeId) : Prop :=
  ∀ type, table.type? id = some type → other ∈ type.interfaces →
    ¬ Relation.ReflTransGen table.Lists other id

/-- An interface cannot be reached from the types that it lists. -/
def ListFree (table : SymbolTable) (id : TypeId) : Prop :=
  ∀ type, table.type? id = some type → type.isInterface = true → ∀ other ∈ type.interfaces,
    ¬ Relation.ReflTransGen table.Lists other id

theorem Trims.baseFree {before after : SymbolTable} (trims : before.Trims after) {id : TypeId}
    (free : before.BaseFree id) : after.BaseFree id := by
  intro type base found known
  obtain ⟨original, foundBefore, trimmed⟩ := trims.type?_of_after found
  rcases trimmed.base with none | same
  · rw [none] at known
    contradiction
  · exact trims.basesReach (free original base foundBefore (same ▸ known))

theorem Trims.entryFree {before after : SymbolTable} (trims : before.Trims after)
    {id other : TypeId} (free : before.EntryFree id other) : after.EntryFree id other := by
  intro type found listed path
  obtain ⟨original, foundBefore, trimmed⟩ := trims.type?_of_after found
  exact free original foundBefore (trimmed.interfaces.subset listed)
    (trims.reaches path)

theorem Trims.listFree {before after : SymbolTable} (trims : before.Trims after) {id : TypeId}
    (free : before.ListFree id) : after.ListFree id := by
  intro type found isInterface other listed path
  obtain ⟨original, foundBefore, trimmed⟩ := trims.type?_of_after found
  rw [trimmed.rest] at isInterface
  exact free original foundBefore isInterface other (trimmed.interfaces.subset listed)
    (trims.reaches path)

end SymbolTable

/-! ## Untangling -/

/-- A state of untangling has no fault, and links were taken out at the given
types only. -/
structure Untangling.Keeps (table : SymbolTable) (ids : List TypeId) (state : Untangling) :
    Prop where
  fault : state.fault? = none
  trims : table.Trims state.table
  others : ∀ id, id ∉ ids → state.table.type? id = table.type? id

namespace Untangling

variable {table : SymbolTable} {ids : List TypeId} {state : Untangling}

theorem Keeps.cut (keeps : state.Keeps table ids) {id : TypeId} (listed : id ∈ ids)
    (rule : Rule) (other : TypeId) {cut : TypeSymbol → TypeSymbol}
    (trims : ∀ type : TypeSymbol, type.Trimmed (cut type)) :
    (state.cutIf (.ok true) rule id other cut).Keeps table ids where
  fault := keeps.fault
  trims := keeps.trims.trans (.modifyType id trims)
  others place outside := by
    have apart : id ≠ place := fun same => outside (same ▸ listed)
    rw [cutIf, SymbolTable.type?_modifyType, if_neg apart]
    exact keeps.others place outside

theorem cutBase_spec (closed : table.Closed) (keeps : state.Keeps table ids) {id : TypeId}
    (listed : id ∈ ids) :
    (state.cutBase id).Keeps table ids ∧ state.table.Trims (state.cutBase id).table ∧
      (state.cutBase id).table.BaseFree id := by
  have noFault : state.fault?.isSome = false := by
    rw [keeps.fault]
    rfl
  have closedNow := keeps.trims.closed closed
  unfold cutBase
  simp only [noFault, Bool.false_eq_true, if_false]
  cases known : (state.table.type? id).bind TypeSymbol.base with
  | none =>
    refine ⟨keeps, .refl _, fun type base found hasBase => ?_⟩
    rw [found, Option.bind_some, hasBase] at known
    contradiction
  | some base =>
    obtain ⟨type, found, hasBase⟩ := Option.bind_eq_some_iff.mp known
    obtain ⟨result, answered⟩ := SymbolTable.basesReach_total closedNow id SymbolTable.maxDepth
      (closedNow.base found hasBase)
    simp only [answered]
    cases result with
    | false =>
      refine ⟨keeps, .refl _, fun symbol other foundOther hasOther => ?_⟩
      cases found.symm.trans foundOther
      cases hasBase.symm.trans hasOther
      exact answered
    | true =>
      have trims (type : TypeSymbol) : type.Trimmed { type with base := none } :=
        ⟨rfl, .inl rfl, .refl _⟩
      refine ⟨keeps.cut listed _ _ trims, .modifyType id trims, fun symbol other cutType has => ?_⟩
      rw [cutIf, SymbolTable.type?_modifyType, if_pos rfl] at cutType
      obtain ⟨_, _, rfl⟩ := Option.map_eq_some_iff.mp cutType
      cases has

theorem cutInterface_spec (closed : table.Closed) (keeps : state.Keeps table ids) {id : TypeId}
    (listed : id ∈ ids) {other : TypeId} (known : ∃ type, state.table.type? other = some type) :
    (state.cutInterface id other).Keeps table ids ∧
      state.table.Trims (state.cutInterface id other).table ∧
      (state.cutInterface id other).table.EntryFree id other := by
  have noFault : state.fault?.isSome = false := by
    rw [keeps.fault]
    rfl
  unfold cutInterface
  simp only [noFault, Bool.false_eq_true, if_false]
  have decided : state.table.interfacesReach id other = .ok true ∨ _ :=
    SymbolTable.interfacesReach_iff (keeps.trims.closed closed) known
  rcases decided with hit | ⟨missed, unreachable⟩
  · have trims (type : TypeSymbol) :
        type.Trimmed { type with interfaces := type.interfaces.filter (· ≠ other) } :=
      ⟨rfl, .inr rfl, List.filter_sublist⟩
    simp only [hit]
    refine ⟨keeps.cut listed _ _ trims, .modifyType id trims, fun symbol cutType has => ?_⟩
    rw [cutIf, SymbolTable.type?_modifyType, if_pos rfl] at cutType
    obtain ⟨_, _, rfl⟩ := Option.map_eq_some_iff.mp cutType
    exact absurd rfl (of_decide_eq_true (List.mem_filter.mp has).2)
  · simp only [missed]
    exact ⟨keeps, .refl _, fun _ _ _ => unreachable⟩

/-- The entries of the list of an interface are cut one by one. -/
theorem foldl_cutInterface_spec (closed : table.Closed) (keeps : state.Keeps table ids)
    {id : TypeId} (listed : id ∈ ids) {others : List TypeId}
    (known : ∀ other ∈ others, ∃ type, state.table.type? other = some type) :
    (others.foldl (cutInterface id) state).Keeps table ids ∧
      state.table.Trims (others.foldl (cutInterface id) state).table ∧
      ∀ other ∈ others, (others.foldl (cutInterface id) state).table.EntryFree id other := by
  induction others generalizing state with
  | nil => exact ⟨keeps, .refl _, nofun⟩
  | cons other others ih =>
    obtain ⟨keepsNext, trimsNext, free⟩ :=
      cutInterface_spec closed keeps listed (known other List.mem_cons_self)
    obtain ⟨keepsLast, trimsLast, rest⟩ := ih keepsNext fun place inside => by
      obtain ⟨type, found⟩ := known place (List.mem_cons_of_mem _ inside)
      obtain ⟨trimmed, foundNext, _⟩ := trimsNext.type? found
      exact ⟨trimmed, foundNext⟩
    refine ⟨keepsLast, trimsNext.trans trimsLast, fun place inside => ?_⟩
    rcases List.mem_cons.mp inside with rfl | later
    · exact trimsLast.entryFree free
    · exact rest place later

theorem cutInterfaces_spec (closed : table.Closed) (keeps : state.Keeps table ids) {id : TypeId}
    (listed : id ∈ ids) :
    (state.cutInterfaces id).Keeps table ids ∧ state.table.Trims (state.cutInterfaces id).table ∧
      (state.cutInterfaces id).table.ListFree id := by
  unfold cutInterfaces
  cases found : state.table.type? id with
  | none =>
    refine ⟨keeps, .refl _, fun type foundType => ?_⟩
    rw [found] at foundType
    contradiction
  | some type =>
    simp only
    split
    · obtain ⟨keepsLast, trims, free⟩ := foldl_cutInterface_spec closed keeps listed
        fun other inside => (keeps.trims.closed closed).interface found inside
      refine ⟨keepsLast, trims, fun symbol foundLast _ other has => ?_⟩
      obtain ⟨trimmed, foundTrimmed, cut⟩ := trims.type? found
      cases foundLast.symm.trans foundTrimmed
      exact free other (cut.interfaces.subset has) symbol foundLast has
    · rename_i noInterface
      refine ⟨keeps, .refl _, fun symbol foundType isInterface => ?_⟩
      cases found.symm.trans foundType
      exact absurd isInterface noInterface

/-- The links to base types are cut type by type. -/
theorem foldl_cutBase_spec (closed : table.Closed) (keeps : state.Keeps table ids)
    {types : List TypeId} (within : ∀ id ∈ types, id ∈ ids) :
    (types.foldl cutBase state).Keeps table ids ∧
      state.table.Trims (types.foldl cutBase state).table ∧
      ∀ id ∈ types, (types.foldl cutBase state).table.BaseFree id := by
  induction types generalizing state with
  | nil => exact ⟨keeps, .refl _, nofun⟩
  | cons id rest ih =>
    obtain ⟨keepsNext, trimsNext, free⟩ := cutBase_spec closed keeps (within id List.mem_cons_self)
    obtain ⟨keepsLast, trimsLast, others⟩ :=
      ih keepsNext fun place inside => within place (List.mem_cons_of_mem _ inside)
    refine ⟨keepsLast, trimsNext.trans trimsLast, fun place inside => ?_⟩
    rcases List.mem_cons.mp inside with rfl | later
    · exact trimsLast.baseFree free
    · exact others place later

/-- The lists of interfaces are cut type by type. -/
theorem foldl_cutInterfaces_spec (closed : table.Closed) (keeps : state.Keeps table ids)
    {types : List TypeId} (within : ∀ id ∈ types, id ∈ ids) :
    (types.foldl cutInterfaces state).Keeps table ids ∧
      state.table.Trims (types.foldl cutInterfaces state).table ∧
      ∀ id ∈ types, (types.foldl cutInterfaces state).table.ListFree id := by
  induction types generalizing state with
  | nil => exact ⟨keeps, .refl _, nofun⟩
  | cons id rest ih =>
    obtain ⟨keepsNext, trimsNext, free⟩ :=
      cutInterfaces_spec closed keeps (within id List.mem_cons_self)
    obtain ⟨keepsLast, trimsLast, others⟩ :=
      ih keepsNext fun place inside => within place (List.mem_cons_of_mem _ inside)
    refine ⟨keepsLast, trimsNext.trans trimsLast, fun place inside => ?_⟩
    rcases List.mem_cons.mp inside with rfl | later
    · exact trimsLast.listFree free
    · exact others place later

end Untangling

namespace SymbolTable

/-- A type whose links do not come back to it. -/
structure Untangled (table : SymbolTable) (id : TypeId) : Prop where
  base : table.BaseFree id
  interfaces : table.ListFree id

variable {table : SymbolTable}

/-- Breaking the cycles of types takes links out of them only, and leaves them
without links that come back. -/
theorem breakCycles_untangled (closed : table.Closed) (types : List TypeId) :
    (table.breakCycles types).Keeps table types ∧
      ∀ id ∈ types, (table.breakCycles types).table.Untangled id := by
  have start : Untangling.Keeps table types { table } := ⟨rfl, .refl table, fun _ _ => rfl⟩
  obtain ⟨keepsBases, _, baseFree⟩ :=
    Untangling.foldl_cutBase_spec closed start fun _ inside => inside
  obtain ⟨keepsLists, trims, listFree⟩ :=
    Untangling.foldl_cutInterfaces_spec closed keepsBases fun _ inside => inside
  exact ⟨keepsLists, fun id inside => ⟨trims.baseFree (baseFree id inside), listFree id inside⟩⟩

/-- Without links that come back there is nothing to break. -/
theorem breakCycles_idle (closed : table.Closed) {types : List TypeId}
    (untangled : ∀ id ∈ types, table.Untangled id) : table.breakCycles types = { table } := by
  have bases : types.foldl Untangling.cutBase { table } = { table } := by
    refine foldl_idle fun id inside => ?_
    unfold Untangling.cutBase
    simp only [Option.isSome_none, Bool.false_eq_true, if_false]
    cases known : (table.type? id).bind TypeSymbol.base with
    | none => rfl
    | some base =>
      obtain ⟨type, found, hasBase⟩ := Option.bind_eq_some_iff.mp known
      simp only [(untangled id inside).base type base found hasBase]
      rfl
  have lists : types.foldl Untangling.cutInterfaces { table } = { table } := by
    refine foldl_idle fun id inside => ?_
    unfold Untangling.cutInterfaces
    cases found : table.type? id with
    | none => rfl
    | some type =>
      simp only
      split
      · rename_i isInterface
        refine foldl_idle fun other listed => ?_
        have unreachable :=
          (untangled id inside).interfaces type found isInterface other listed
        unfold Untangling.cutInterface
        simp only [Option.isSome_none, Bool.false_eq_true, if_false,
          interfacesReach_false closed (closed.interface found listed) unreachable]
        rfl
      · rfl
  rw [breakCycles, bases, lists]

end SymbolTable

end Conformance
