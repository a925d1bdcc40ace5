import Conformance.Proofs.Resolution.Flattening
import Conformance.Proofs.Symbol.Extension

/-!
Queries in two tables, side by side.

Where one table is embedded in another, queries about types and members and
queries about their images run in lockstep: from memories that are alike they
have answers that are alike, and leave memories behind that are alike
(`SymbolTable.remembering_lockstep`). In particular this is so for lists that are
cut off.

A table is embedded in an extension of it by a map that moves all other ids
(`SymbolTable.Extends.shift`). Where the table is its own extension, this says that
answers can hold ids of symbols only (`SymbolTable.resolve_within`). So an extension
gives the answers that the table gave (`SymbolTable.Extends.resolve`).
-/

namespace Conformance

namespace Memo

/-- Answers that are remembered on two sides, at an index and at its image. -/
theorem find?_insert_image {α β : Type} {f : TypeId → TypeId} (injective : Function.Injective f)
    {g : α → β} {first : Memo α} {second : Memo β}
    (alike : ∀ id, second.find? (f id).index = (first.find? id.index).map g) (id : TypeId)
    (answer : α) (other : TypeId) :
    (second.insert (f id).index (g answer)).find? (f other).index =
      ((first.insert id.index answer).find? other.index).map g := by
  have index_inj {a b : TypeId} : a.index = b.index ↔ a = b := by
    obtain ⟨i⟩ := a
    obtain ⟨j⟩ := b
    rw [TypeId.mk.injEq]
  rw [find?_insert, find?_insert]
  simp only [index_inj, injective.eq_iff]
  split
  · rfl
  · exact alike other

end Memo

namespace Memory

variable {s t : SymbolTable} (e : Embedding s t)

/-- Two memories remember the same about types and about their images. -/
structure Alike (first second : Memory) : Prop where
  interfaces : ∀ id : TypeId, second.interfaces.find? (e.type id).index =
    (first.interfaces.find? id.index).map (List.map e.type)
  levels : ∀ id : TypeId, second.levels.find? (e.type id).index =
    (first.levels.find? id.index).map (LevelTable.map e.member)

/-- Queries have related answers, from memories of which a relation holds, and leave memories
behind of which it holds. -/
def inStep (R : Memory → Memory → Prop) : Lifting QueryM QueryM where
  rel r x y := ∀ first second, R first second → ∃ a b after afterSecond,
    x.answer first = (.ok a, after) ∧ y.answer second = (.ok b, afterSecond) ∧
      R after afterSecond ∧ r a b
  pure results first second alike := ⟨_, _, first, second, rfl, rfl, alike, results⟩
  bind related next first second alike := by
    obtain ⟨a, b, middle, middleSecond, answered, answeredSecond, kept, results⟩ :=
      related first second alike
    obtain ⟨c, d, after, afterSecond, answeredNext, answeredNextSecond, last, resultsNext⟩ :=
      next a b results middle middleSecond kept
    refine ⟨c, d, after, afterSecond, ?_, ?_, last, resultsNext⟩
    · rw [QueryM.answer_bind_ok answered, answeredNext]
    · rw [QueryM.answer_bind_ok answeredSecond, answeredNextSecond]

/-- Queries have related answers, from memories that are alike, and leave memories
behind that are alike. -/
def lockstep : Lifting QueryM QueryM := inStep (Alike e)

end Memory

namespace SymbolTable

variable {s t : SymbolTable} (e : Embedding s t)

/-! ## Lookups in lockstep -/

theorem flattenFrom_lockstep (closed : s.Closed) {origin : TypeId} {type : TypeSymbol}
    (found : s.type? origin = some type) (depth : Nat) (path : List TypeId) :
    (Memory.lockstep e).rel (fun a b => b = a.map e.type) (s.flattenFrom depth path origin)
      (t.flattenFrom depth (path.map e.type) (e.type origin)) := by
  induction depth generalizing origin type path with
  | zero =>
    intro first second alike
    have image := alike.interfaces origin
    cases remembered : first.interfaces.find? origin.index with
    | some list =>
      rw [remembered] at image
      exact ⟨_, _, first, second, flattenFrom_known remembered 0 path, flattenFrom_known image 0 _,
        alike, rfl⟩
    | none =>
      rw [remembered] at image
      exact ⟨_, _, first, second, flattenFrom_zero remembered path, flattenFrom_zero image _,
        alike, rfl⟩
  | succ depth ih =>
    intro first second alike
    have image := alike.interfaces origin
    cases remembered : first.interfaces.find? origin.index with
    | some list =>
      rw [remembered] at image
      exact ⟨_, _, first, second, flattenFrom_known remembered _ path, flattenFrom_known image _ _,
        alike, rfl⟩
    | none =>
      rw [remembered] at image
      by_cases passed : origin ∈ path
      · exact ⟨_, _, first, second, flattenFrom_passed remembered passed _,
          flattenFrom_passed image (e.mem_map_type.mpr passed) _, alike, rfl⟩
      · have outside : e.type origin ∉ path.map e.type := fun inside =>
          passed (e.mem_map_type.mp inside)
        obtain ⟨symbol, foundImage, alikeTypes⟩ := e.type?_some found
        have gathered : (Memory.lockstep e).rel (fun a b => b = a.map e.type)
            (type.gather origin (s.flattenFrom depth (origin :: path)))
            (symbol.gather (e.type origin)
              (t.flattenFrom depth (e.type origin :: path.map e.type))) :=
          TypeSymbol.gather_related _ e.type_injective alikeTypes.isInterface alikeTypes.base
            alikeTypes.interfaces origin fun other linked => by
              obtain ⟨link, foundLink⟩ := closed.link found linked
              exact ih foundLink (origin :: path)
        obtain ⟨list, images, after, afterSecond, answered, answeredSecond, kept, same⟩ :=
          gathered first second alike
        refine ⟨_, _, _, _, flattenFrom_opened remembered passed found answered,
          flattenFrom_opened image outside foundImage answeredSecond, ⟨fun other => ?_, ?_⟩, same⟩
        · rw [same]
          exact Memo.find?_insert_image e.type_injective kept.interfaces origin list other
        · exact kept.levels

theorem levelOf_lockstep {origin : TypeId} {type : TypeSymbol}
    (found : s.type? origin = some type) :
    (Memory.lockstep e).rel (fun a b => b = a.map e.member) (s.levelOf origin)
      (t.levelOf (e.type origin)) := by
  intro first second alike
  have image := alike.levels origin
  cases remembered : first.levels.find? origin.index with
  | some level =>
    rw [remembered] at image
    exact ⟨_, _, first, second, levelOf_known remembered, levelOf_known image, alike, rfl⟩
  | none =>
    rw [remembered] at image
    obtain ⟨symbol, foundImage, alikeTypes⟩ := e.type?_some found
    refine ⟨_, _, _, _, levelOf_fresh remembered found, levelOf_fresh image foundImage,
      ⟨alike.interfaces, fun other => ?_⟩, e.ofType alikeTypes⟩
    rw [e.ofType alikeTypes]
    exact Memo.find?_insert_image e.type_injective alike.levels origin _ other

/-- Which flags are read, and what they are, makes no difference to what is
remembered about types. -/
theorem readRuntime_lockstep (first second : AssemblyId) :
    (Memory.lockstep e).rel (fun _ _ => True) (s.readRuntime first) (t.readRuntime second) := by
  have answers (table : SymbolTable) (id : AssemblyId) (memory : Memory) : ∃ flag after,
      (table.readRuntime id).answer memory = (.ok flag, after) ∧
        after.interfaces = memory.interfaces ∧ after.levels = memory.levels := by
    cases remembered : memory.runtime.find? id.index with
    | some flag => exact ⟨flag, memory, readRuntime_known remembered, rfl, rfl⟩
    | none => exact ⟨_, _, readRuntime_fresh remembered, rfl, rfl⟩
  intro memory memorySecond alike
  obtain ⟨flag, after, answered, interfaces, levels⟩ := answers s first memory
  obtain ⟨flagSecond, afterSecond, answeredSecond, interfacesSecond, levelsSecond⟩ :=
    answers t second memorySecond
  refine ⟨flag, flagSecond, after, afterSecond, answered, answeredSecond, ⟨?_, ?_⟩, trivial⟩
  · rw [interfaces, interfacesSecond]
    exact alike.interfaces
  · rw [levels, levelsSecond]
    exact alike.levels

/-- The lookups with memory run in lockstep. -/
theorem remembering_lockstep (closed : s.Closed) :
    Lookups.Related (Memory.lockstep e) e s.remembering t.remembering where
  interfaces found := flattenFrom_lockstep e closed found maxDepth []
  level found := levelOf_lockstep e found
  runtime _ _ := readRuntime_lockstep e _ _

/-! ## Tables that are extended -/

/-- A map of ids that leaves those in a table where they are, and moves all others beyond
`bound`. -/
def shifted (size bound index : Nat) : Nat := if index < size then index else index + bound + 1

theorem shifted_injective (size bound : Nat) : Function.Injective (shifted size bound) := by
  intro first second same
  unfold shifted at same
  split at same <;> split at same <;> omega

theorem shifted_eq_iff {size bound index : Nat} :
    shifted size bound index = index ↔ index < size := by
  unfold shifted
  split <;> omega

theorem le_shifted {size bound index : Nat} (beyond : size ≤ index) :
    bound ≤ shifted size bound index := by
  unfold shifted
  split <;> omega

variable {before after : SymbolTable}

/-- The map of types that moves ids without a type beyond the types of another table. -/
def shiftType (before after : SymbolTable) (id : TypeId) : TypeId :=
  ⟨shifted before.types.size after.types.size id.index⟩

/-- The map of members that moves ids without a member beyond the members of another table. -/
def shiftMember (before after : SymbolTable) (id : MemberId) : MemberId :=
  ⟨shifted before.members.size after.members.size id.index⟩

theorem shiftType_eq_iff {id : TypeId} :
    before.shiftType after id = id ↔ ∃ type, before.type? id = some type := by
  obtain ⟨index⟩ := id
  rw [shiftType, TypeId.mk.injEq, shifted_eq_iff]
  exact ⟨exists_type?, fun ⟨_, found⟩ => lt_of_type? found⟩

theorem shiftMember_eq_iff {id : MemberId} :
    before.shiftMember after id = id ↔ ∃ member, before.member? id = some member := by
  obtain ⟨index⟩ := id
  rw [shiftMember, MemberId.mk.injEq, shifted_eq_iff]
  exact ⟨exists_member?, fun ⟨_, found⟩ => lt_of_member? found⟩

theorem shiftType_of_some {id : TypeId} {type : TypeSymbol} (found : before.type? id = some type) :
    before.shiftType after id = id :=
  shiftType_eq_iff.mpr ⟨type, found⟩

theorem shiftMember_of_some {id : MemberId} {member : MemberSymbol}
    (found : before.member? id = some member) : before.shiftMember after id = id :=
  shiftMember_eq_iff.mpr ⟨member, found⟩

theorem map_fixed {α : Type} {f : α → α} {items : List α} (fixed : ∀ item ∈ items, f item = item) :
    items = items.map f := by
  have same := List.map_congr_left (g := id) fixed
  rw [same, List.map_id]

/-- The kind of a member names accessors and a parent that exist. -/
theorem kind_shifted (closed : before.Closed) (after : SymbolTable) {id : MemberId}
    {member : MemberSymbol} (found : before.member? id = some member) :
    member.kind = member.kind.map (before.shiftMember after) := by
  have accessor (kind : AccessorKind) :
      member.accessor? kind = (member.accessor? kind).map (before.shiftMember after) := by
    cases has : member.accessor? kind with
    | none => rfl
    | some other =>
      obtain ⟨_, foundAccessor⟩ :=
        closed.accessor found (MemberSymbol.mem_accessors.mpr ⟨kind, has⟩)
      rw [Option.map_some, shiftMember_of_some foundAccessor]
  refine MemberSymbol.kind_eq_map rfl accessor ?_
  cases clause : member.clause? with
  | none => rfl
  | some entry =>
    obtain ⟨_, foundParent⟩ := closed.parent found clause
    rw [Option.map_some, Prod.map, shiftMember_of_some foundParent]
    rfl

/-- The embedding of a table in an extension of it that leaves ids where they are, and moves
those without a symbol out of the extension. -/
def Extends.shift (grown : before.Extends after) (wellFormed : before.WellFormed) :
    Embedding before after where
  type := before.shiftType after
  member := before.shiftMember after
  type_injective first second same := by
    have indices := shifted_injective _ _ (congrArg TypeId.index same)
    exact congrArg TypeId.mk indices
  member_injective first second same := by
    have indices := shifted_injective _ _ (congrArg MemberId.index same)
    exact congrArg MemberId.mk indices
  types id := by
    cases found : before.type? id with
    | none =>
      have outside : after.type? (before.shiftType after id) = none :=
        type?_eq_none.mpr (le_shifted (type?_eq_none.mp found))
      rw [outside]
      exact .none
    | some type =>
      rw [shiftType_of_some found, grown.type found]
      refine .some ⟨rfl, ?_, map_fixed fun other listed => ?_, map_fixed fun other listed => ?_⟩
      · cases base : type.base with
        | none => rfl
        | some other =>
          obtain ⟨_, foundBase⟩ := wellFormed.closed.base found base
          rw [Option.map_some, shiftType_of_some foundBase]
      · obtain ⟨_, foundInterface⟩ := wellFormed.closed.interface found listed
        exact shiftType_of_some foundInterface
      · obtain ⟨_, foundMember⟩ := wellFormed.closed.member found listed
        exact shiftMember_of_some foundMember
  members id := by
    cases found : before.member? id with
    | none =>
      have outside : after.member? (before.shiftMember after id) = none :=
        member?_eq_none.mpr (le_shifted (member?_eq_none.mp found))
      rw [outside]
      exact .none
    | some member =>
      rw [shiftMember_of_some found, grown.member found]
      refine .some ⟨rfl, kind_shifted wellFormed.closed after found, rfl, ?_, rfl, rfl, rfl, ?_,
        grown.isImplementable wellFormed.closed found, fun _ => rfl⟩
      · obtain ⟨_, foundOwner⟩ := wellFormed.closed.owner found
        exact (shiftType_of_some foundOwner).symm
      · cases target : member.target with
        | none => rfl
        | some other =>
          obtain ⟨symbol, foundTarget, owner, _⟩ := wellFormed.targeted.target found target
          obtain ⟨_, foundOwner⟩ := wellFormed.closed.owner foundTarget
          rw [owner] at foundOwner
          rw [Option.map_some, ExplicitTarget.map, shiftType_of_some foundOwner,
            shiftMember_of_some foundTarget]

end SymbolTable

namespace Memory

/-- A memory that remembers nothing about types. -/
def IsFresh (memory : Memory) : Prop :=
  memory.interfaces = ∅ ∧ memory.levels = ∅

/-- Memories that remember nothing are alike. -/
theorem IsFresh.alike {s t : SymbolTable} (e : Embedding s t) {first second : Memory}
    (fresh : first.IsFresh) (freshSecond : second.IsFresh) : Alike e first second where
  interfaces id := by rw [fresh.1, freshSecond.1, Memo.find?_empty, Memo.find?_empty]; rfl
  levels id := by rw [fresh.2, freshSecond.2, Memo.find?_empty, Memo.find?_empty]; rfl

end Memory

/-- A resolution holds members of a table only. -/
structure Resolution.Within (table : SymbolTable) (resolution : Resolution) : Prop where
  implementation : ∀ {found}, resolution.implementation = some found →
    ∃ member, table.member? found.member = some member
  closeMismatch : ∀ {close}, resolution.closeMismatch = some close →
    ∃ member, table.member? close.candidate = some member

namespace SymbolTable

variable {table : SymbolTable} {memory : Memory}

/-- Interface lists hold types only. -/
theorem flatten_within (wellFormed : table.WellFormed) (fresh : memory.IsFresh) {id : TypeId}
    {type : TypeSymbol} (found : table.type? id = some type) :
    ∃ list after, (table.flatten id).answer memory = (.ok list, after) ∧
      ∀ other ∈ list, ∃ symbol, table.type? other = some symbol := by
  obtain ⟨list, shiftedList, after, _, answered, again, _, same⟩ :=
    (remembering_lockstep ((Extends.refl table).shift wellFormed)
      wellFormed.closed).interfaces found memory memory (fresh.alike _ fresh)
  refine ⟨list, after, answered, fun other listed => ?_⟩
  -- The map moves the type to itself, so both sides asked for the same list.
  rw [show ((Extends.refl table).shift wellFormed).type id = id from shiftType_of_some found,
    answered] at again
  cases again
  obtain ⟨place, inside⟩ := List.getElem?_of_mem listed
  have moved := congrArg (fun items : List TypeId => items[place]?) same
  simp only [List.getElem?_map, inside, Option.map_some, Option.some.injEq] at moved
  exact shiftType_eq_iff.mp moved.symm

/-- Resolutions hold members only. -/
theorem resolve_within (wellFormed : table.WellFormed) (fresh : memory.IsFresh) {typeId : TypeId}
    {type : TypeSymbol} (found : table.type? typeId = some type) {id : MemberId}
    {member : MemberSymbol} (foundMember : table.member? id = some member) :
    ∃ resolution after, (table.resolve typeId id).answer memory = (.ok resolution, after) ∧
      resolution.Within table := by
  obtain ⟨resolution, shiftedResolution, after, _, answered, again, _, same⟩ :=
    (remembering_lockstep ((Extends.refl table).shift wellFormed)
      wellFormed.closed).resolve wellFormed.closed typeId id memory memory (fresh.alike _ fresh)
  refine ⟨resolution, after, answered, ?_⟩
  rw [show ((Extends.refl table).shift wellFormed).type typeId = typeId from
      shiftType_of_some found,
    show ((Extends.refl table).shift wellFormed).member id = id from
      shiftMember_of_some foundMember] at again
  cases answered.symm.trans again
  constructor
  · intro found' known
    have moved := congrArg Resolution.implementation same
    rw [known, Resolution.map, known] at moved
    exact shiftMember_eq_iff.mp (congrArg Implementation.member (Option.some.inj moved)).symm
  · intro close known
    have moved := congrArg Resolution.closeMismatch same
    rw [known, Resolution.map, known] at moved
    exact shiftMember_eq_iff.mp (congrArg CloseMismatch.candidate (Option.some.inj moved)).symm

/-! ## Answers in an extension -/

/-- A resolution that holds members only is not changed by the map of an extension. -/
theorem resolution_map_shiftMember {before after : SymbolTable} {resolution : Resolution}
    (within : resolution.Within before) :
    resolution.map (before.shiftMember after) = resolution := by
  obtain ⟨implementation, close⟩ := resolution
  rw [Resolution.map, Resolution.mk.injEq]
  constructor
  · cases implementation with
    | none => rfl
    | some found =>
      have fixed : before.shiftMember after found.member = found.member :=
        shiftMember_eq_iff.mpr (within.implementation rfl)
      rw [Option.map_some, Implementation.map, fixed]
  · cases close with
    | none => rfl
    | some found =>
      have fixed : before.shiftMember after found.candidate = found.candidate :=
        shiftMember_eq_iff.mpr (within.closeMismatch rfl)
      rw [Option.map_some, CloseMismatch.map, fixed]

variable {before after : SymbolTable} (grown : before.Extends after)
  (wellFormed : before.WellFormed) {memory other : Memory} (fresh : memory.IsFresh)
  (freshOther : other.IsFresh)

include grown wellFormed fresh freshOther

/-- The interface list of a type is the same in an extension. -/
theorem Extends.flatten {id : TypeId} {type : TypeSymbol}
    (found : before.type? id = some type) :
    ∃ list left leftOther, (before.flatten id).answer memory = (.ok list, left) ∧
      (after.flatten id).answer other = (.ok list, leftOther) := by
  obtain ⟨list, left, answered, within⟩ := flatten_within wellFormed fresh found
  obtain ⟨list', shiftedList, _, leftOther, again, answeredOther, _, same⟩ :=
    (remembering_lockstep (grown.shift wellFormed) wellFormed.closed).interfaces found memory other
      (fresh.alike _ freshOther)
  cases answered.symm.trans again
  rw [show (grown.shift wellFormed).type id = id from shiftType_of_some found] at answeredOther
  have fixed : list = list.map (grown.shift wellFormed).type := map_fixed fun item listed =>
    shiftType_eq_iff.mpr (within item listed)
  rw [same, ← fixed] at answeredOther
  exact ⟨list, left, leftOther, answered, answeredOther⟩

/-- What implements a member for a type is the same in an extension. -/
theorem Extends.resolve {typeId : TypeId} {type : TypeSymbol}
    (found : before.type? typeId = some type) {id : MemberId} {member : MemberSymbol}
    (foundMember : before.member? id = some member) :
    ∃ resolution left leftOther, (before.resolve typeId id).answer memory = (.ok resolution, left) ∧
      (after.resolve typeId id).answer other = (.ok resolution, leftOther) := by
  obtain ⟨resolution, left, answered, within⟩ :=
    resolve_within wellFormed fresh found foundMember
  obtain ⟨resolution', image, _, leftOther, again, answeredOther, _, same⟩ :=
    (remembering_lockstep (grown.shift wellFormed) wellFormed.closed).resolve wellFormed.closed
      typeId id memory other (fresh.alike _ freshOther)
  cases answered.symm.trans again
  rw [show (grown.shift wellFormed).type typeId = typeId from shiftType_of_some found,
    show (grown.shift wellFormed).member id = id from shiftMember_of_some foundMember]
    at answeredOther
  rw [same, show resolution.map (grown.shift wellFormed).member = resolution from
    resolution_map_shiftMember within] at answeredOther
  exact ⟨resolution, left, leftOther, answered, answeredOther⟩

end SymbolTable

end Conformance
