import Conformance.Proofs.Binding.Cycles
import Conformance.Proofs.Resolution.Closure
import Conformance.Proofs.Symbol.Extension

/-!
Interface lists of any table.

A table that was not made by binding may hold cycles, self-references, chains of any length
and ids of types that it does not have. Flattening ends for all of them: with a list that has
no repetitions, no more entries than a list can hold and nothing but types that are met along
links, or for want of a type that is reached along links. A list that was cut short where a
path came back to itself, or grew too long, is remembered and put into other lists later. What
is known of it does not depend on the path, so it holds of the other lists as well, whatever was
asked before (`SymbolTable.Asked.flatten_sound`).
-/

namespace Conformance

namespace SymbolTable

/-- A type is met from another one: the last link to it is an entry of an interface list. -/
def Meets (table : SymbolTable) (id other : TypeId) : Prop :=
  ∃ owner, Relation.ReflTransGen table.Links id owner ∧ table.Lists owner other

/-- What an interface list is in any table. -/
structure SoundList (table : SymbolTable) (id : TypeId) (list : List TypeId) : Prop where
  nodup : list.Nodup
  fits : list.length ≤ maxInterfaces
  /-- An interface is not in its own list. -/
  apart : table.IsInterface id → id ∉ list
  met : ∀ other ∈ list, table.Meets id other

/-- How a query about a type ends: with a good answer, or for want of a type that is reached
from it. -/
inductive Ends (table : SymbolTable) (id : TypeId) {α : Type} (good : α → Prop) :
    Except Fault α → Prop where
  | answer {a : α} (isGood : good a) : Ends table id good (.ok a)
  | want {missing : TypeId} (path : Relation.ReflTransGen table.Links id missing)
    (absent : table.type? missing = none) : Ends table id good (.error (.unknownType missing))

/-- The tables and memories that asking for interface lists leads to, from any table and no
memory. Symbols may be added to the table in between. -/
inductive Asked : SymbolTable → Memory → Prop where
  | start (table : SymbolTable) : Asked table ∅
  | grow {before after : SymbolTable} {memory : Memory} (asked : Asked before memory)
    (grown : before.Extends after) : Asked after memory
  | flatten {table : SymbolTable} {memory : Memory} (asked : Asked table memory) (id : TypeId) :
    Asked table ((table.flatten id).answer memory).2

variable {table : SymbolTable} {id other : TypeId} {list : List TypeId}

theorem Lists.links (lists : table.Lists id other) : table.Links id other := by
  obtain ⟨type, found, listed⟩ := lists
  exact ⟨type, found, .inr listed⟩

theorem Lists.meets (lists : table.Lists id other) : table.Meets id other :=
  ⟨id, .refl, lists⟩

theorem Meets.head {target : TypeId} (link : table.Links id other)
    (meets : table.Meets other target) : table.Meets id target := by
  obtain ⟨owner, path, last⟩ := meets
  exact ⟨owner, .head link path, last⟩

/-- What is missed from a type is missed from all that link to it. -/
theorem Ends.head {α : Type} {good : α → Prop} {result : Except Fault α}
    (ends : table.Ends other good result) (link : table.Links id other) :
    table.Ends id good result := by
  cases ends with
  | answer isGood => exact .answer isGood
  | want path absent => exact .want (.head link path) absent

theorem Ends.mono {α : Type} {good better : α → Prop} {result : Except Fault α}
    (ends : table.Ends id good result) (weaker : ∀ a, good a → better a) :
    table.Ends id better result := by
  cases ends with
  | answer isGood => exact .answer (weaker _ isGood)
  | want path absent => exact .want path absent

/-- Where no type is missed, there is an answer. -/
theorem Ends.exists_answer {α : Type} {good : α → Prop} {result : Except Fault α}
    (ends : table.Ends id good result)
    (known : ∀ other, Relation.ReflTransGen table.Links id other →
      ∃ type, table.type? other = some type) : ∃ a, result = .ok a ∧ good a := by
  cases ends with
  | answer isGood => exact ⟨_, rfl, isGood⟩
  | want path absent =>
    obtain ⟨type, found⟩ := known _ path
    rw [absent] at found
    cases found

/-! ## Steps of a list -/

theorem SoundList.nil : table.SoundList id [] :=
  ⟨.nil, Nat.zero_le _, fun _ => List.not_mem_nil, nofun⟩

/-- A list has room for one more type that is met. -/
theorem SoundList.push (sound : table.SoundList id list)
    (admits : ¬ (maxInterfaces ≤ list.length ∨ other = id ∨ other ∈ list))
    (meets : table.Meets id other) : table.SoundList id (list ++ [other]) := by
  rw [not_or, not_or, Nat.not_le] at admits
  obtain ⟨room, foreign, fresh⟩ := admits
  refine ⟨?_, ?_, fun isInterface inside => ?_, fun next inside => ?_⟩
  · exact nodup_append_singleton sound.nodup fresh
  · rw [List.length_append, List.length_singleton]
    exact room
  · rcases List.mem_append.mp inside with listed | last
    · exact sound.apart isInterface listed
    · exact foreign (List.mem_singleton.mp last).symm
  · rcases List.mem_append.mp inside with listed | last
    · exact sound.met next listed
    · exact List.mem_singleton.mp last ▸ meets

/-- The list of an interface is added as far as there is room. -/
theorem SoundList.foldl_addInherited {below : List TypeId} (sound : table.SoundList id list)
    (met : ∀ inherited ∈ below, table.Meets id inherited) :
    table.SoundList id (below.foldl (addInherited id) list) :=
  List.foldlRecOn below (addInherited id) (motive := table.SoundList id) sound
    fun list sound inherited inside => by
      unfold addInherited
      split
      · exact sound
      · rename_i fresh
        exact sound.push fresh (met inherited inside)

/-- The list of the base type of a class or struct is where its own begins. -/
theorem SoundList.ofBase (sound : table.SoundList other list) (link : table.Links id other)
    (noInterface : ¬ table.IsInterface id) : table.SoundList id list :=
  ⟨sound.nodup, sound.fits, fun isInterface => absurd isInterface noInterface,
    fun next inside => (sound.met next inside).head link⟩

/-- Lists stay sound when symbols are added. -/
theorem SoundList.grow {before after : SymbolTable} (sound : before.SoundList id list)
    (grown : before.Extends after) {type : TypeSymbol} (found : before.type? id = some type) :
    after.SoundList id list := by
  refine ⟨sound.nodup, sound.fits, fun isInterface => sound.apart ?_, fun next inside => ?_⟩
  · obtain ⟨symbol, foundAfter, isInterface⟩ := isInterface
    cases foundAfter.symm.trans (grown.type found)
    exact ⟨_, found, isInterface⟩
  · obtain ⟨owner, path, symbol, foundOwner, listed⟩ := sound.met next inside
    exact ⟨owner, Relation.ReflTransGen.mono (fun _ _ link => grown.links link) _ _ path,
      symbol, grown.type foundOwner, listed⟩

end SymbolTable

namespace Memory

open SymbolTable

/-- All lists that are remembered are sound lists of types that exist. -/
def SoundLists (table : SymbolTable) (memory : Memory) : Prop :=
  ∀ {id list}, memory.interfaces.find? id.index = some list →
    (∃ type, table.type? id = some type) ∧ table.SoundList id list

variable {table : SymbolTable} {id : TypeId}

theorem SoundLists.remember {memory : Memory} (sound : memory.SoundLists table)
    {type : TypeSymbol} (found : table.type? id = some type) {list : List TypeId}
    (isSound : table.SoundList id list) :
    SoundLists table { memory with interfaces := memory.interfaces.insert id.index list } := by
  intro other known remembered
  rw [Memo.find?_insert] at remembered
  split at remembered
  · rename_i same
    obtain rfl : id = other := congrArg TypeId.mk same
    cases remembered
    exact ⟨⟨type, found⟩, isSound⟩
  · exact sound remembered

/-- Queries that keep all lists sound and end, with a good answer or for want of a type. The
values on the other side do not matter. -/
def ending (table : SymbolTable) (id : TypeId) : Lifting QueryM Id where
  rel r query _ := ∀ memory, memory.SoundLists table →
    SoundLists table (query.answer memory).2 ∧
      table.Ends id (fun a => ∃ b, r a b) (query.answer memory).1
  pure results _ sound := ⟨sound, .answer ⟨_, results⟩⟩
  bind related next memory sound := by
    obtain ⟨kept, ends⟩ := related memory sound
    rw [QueryM.answer_bind]
    generalize QueryM.answer _ memory = outcome at kept ends ⊢
    obtain ⟨result, after⟩ := outcome
    cases ends with
    | answer isGood =>
      obtain ⟨b, results⟩ := isGood
      exact next _ b results after kept
    | want path absent => exact ⟨kept, .want path absent⟩

/-- A query about a type is one about all that link to it. -/
theorem ending_head {α β : Type} {other : TypeId} {r : α → β → Prop} {query : QueryM α} {value : β}
    (related : (ending table other).rel r query value) (link : table.Links id other) :
    (ending table id).rel r query value := by
  intro memory sound
  obtain ⟨kept, ends⟩ := related memory sound
  exact ⟨kept, ends.head link⟩

end Memory

open SymbolTable in
/-- The list that one step makes is sound if those of the links are. -/
theorem TypeSymbol.gather_sound {table : SymbolTable} {id : TypeId} {type : TypeSymbol}
    (found : table.type? id = some type) {below : TypeId → QueryM (List TypeId)}
    (links : ∀ other, type.base = some other ∨ other ∈ type.interfaces →
      (Memory.ending table other).rel (fun list _ => table.SoundList other list) (below other) ()) :
    (Memory.ending table id).rel (fun list _ => table.SoundList id list) (type.gather id below)
      () := by
  have inherited : (Memory.ending table id).rel (fun list _ => table.SoundList id list)
      (type.gatherBase below) () := by
    unfold TypeSymbol.gatherBase
    cases kind : type.isInterface with
    | true => exact (Memory.ending table id).pure .nil
    | false =>
      cases known : type.base with
      | none => exact (Memory.ending table id).pure .nil
      | some base =>
        have link : table.Links id base := ⟨type, found, .inl known⟩
        have noInterface : ¬ table.IsInterface id := by
          rintro ⟨symbol, foundSymbol, isInterface⟩
          cases found.symm.trans foundSymbol
          rw [kind] at isInterface
          cases isInterface
        exact (Memory.ending table id).mono (Memory.ending_head (links base (.inl known)) link)
          fun list _ sound => sound.ofBase link noInterface
  refine (Memory.ending table id).bind (g := fun _ => type.interfaces.foldlM (m := Id)
    (fun _ _ => ()) ()) inherited fun start _ sound => ?_
  have items : List.Forall₂ Eq type.interfaces type.interfaces := List.forall₂_refl _
  refine (Memory.ending table id).foldlM items sound ?_
  rintro list _ interface _ listed sound rfl
  have lists : table.Lists id interface := ⟨type, found, listed⟩
  split
  · exact (Memory.ending table id).pure sound
  · rename_i fresh
    refine (Memory.ending table id).bind (g := fun _ => ())
      (Memory.ending_head (links interface (.inr listed)) lists.links) fun below _ soundBelow => ?_
    refine (Memory.ending table id).pure ((sound.push fresh lists.meets).foldl_addInherited ?_)
    exact fun inherited inside => (soundBelow.met inherited inside).head lists.links

namespace SymbolTable

variable {table : SymbolTable} {memory : Memory} {id : TypeId}

/-- At any depth and on any path the list of a type is sound. -/
theorem flattenFrom_sound (depth : Nat) (path : List TypeId) (id : TypeId) :
    (Memory.ending table id).rel (fun list _ => table.SoundList id list)
      (table.flattenFrom depth path id) () := by
  induction depth generalizing path id with
  | zero =>
    intro memory sound
    cases remembered : memory.interfaces.find? id.index with
    | some list =>
      rw [flattenFrom_known remembered]
      exact ⟨sound, .answer ⟨(), (sound remembered).2⟩⟩
    | none =>
      rw [flattenFrom_zero remembered]
      exact ⟨sound, .answer ⟨(), .nil⟩⟩
  | succ depth ih =>
    intro memory sound
    cases remembered : memory.interfaces.find? id.index with
    | some list =>
      rw [flattenFrom_known remembered]
      exact ⟨sound, .answer ⟨(), (sound remembered).2⟩⟩
    | none =>
      by_cases passed : id ∈ path
      · rw [flattenFrom_passed remembered passed]
        exact ⟨sound, .answer ⟨(), .nil⟩⟩
      · cases found : table.type? id with
        | none =>
          rw [flattenFrom_missing remembered passed found]
          exact ⟨sound, .want .refl found⟩
        | some type =>
          rw [answer_flattenFrom_opened remembered passed found]
          have gathered : (Memory.ending table id).rel (fun list _ => table.SoundList id list)
              (type.gather id (table.flattenFrom depth (id :: path))) () :=
            TypeSymbol.gather_sound found fun other _ => ih (id :: path) other
          refine (Memory.ending table id).bind (g := fun _ => ()) gathered
            (fun list _ isSound memory sound => ?_) memory sound
          rw [QueryM.answer_modify]
          exact ⟨sound.remember found isSound, .answer ⟨(), isSound⟩⟩

/-- Asking keeps all lists sound. -/
theorem Asked.soundLists (asked : table.Asked memory) : memory.SoundLists table := by
  induction asked with
  | start table =>
    intro id list remembered
    cases (Memo.find?_empty id.index).symm.trans remembered
  | grow _ grown ih =>
    intro id list remembered
    obtain ⟨⟨type, found⟩, sound⟩ := ih remembered
    exact ⟨⟨type, grown.type found⟩, sound.grow grown found⟩
  | flatten _ id ih => exact (flattenFrom_sound maxDepth [] id _ ih).1

/-- Whatever was asked before, flattening a type ends with a sound list, or for want of a type
that is reached from it. Where all of them exist there is a list. -/
theorem Asked.flatten_sound (asked : table.Asked memory) (id : TypeId) :
    table.Ends id (table.SoundList id) ((table.flatten id).answer memory).1 ∧
      ((∀ other, Relation.ReflTransGen table.Links id other →
        ∃ type, table.type? other = some type) →
          ∃ list, ((table.flatten id).answer memory).1 = .ok list ∧ table.SoundList id list) := by
  have ends : table.Ends id (table.SoundList id) ((table.flatten id).answer memory).1 :=
    (flattenFrom_sound maxDepth [] id memory asked.soundLists).2.mono
      fun list ⟨_, sound⟩ => sound
  exact ⟨ends, ends.exists_answer⟩

/-- Classes that are each other's base, and interfaces that list themselves and each other. -/
def tangle : SymbolTable where
  types := #[
    { name := "Warp", kind := .classType, assembly := ⟨0⟩, base := some ⟨1⟩, interfaces := [⟨2⟩] },
    { name := "Weft", kind := .classType, assembly := ⟨0⟩, base := some ⟨0⟩, interfaces := [⟨3⟩] },
    { name := "IHank", kind := .interfaceType, assembly := ⟨0⟩, interfaces := [⟨2⟩, ⟨3⟩] },
    { name := "ISkein", kind := .interfaceType, assembly := ⟨0⟩, interfaces := [⟨4⟩, ⟨2⟩] },
    { name := "ISpool", kind := .interfaceType, assembly := ⟨0⟩, interfaces := [⟨3⟩] }]

theorem tangle_known (id other : TypeId) (link : tangle.Links id other) :
    ∃ type, tangle.type? other = some type := by
  have inside : ∀ type ∈ tangle.types.toList,
      ∀ linked ∈ type.base.toList ++ type.interfaces, (tangle.type? linked).isSome := by
    decide
  obtain ⟨type, found, linked⟩ := link
  refine Option.isSome_iff_exists.mp (inside type ?_ other (List.mem_append.mpr ?_))
  · exact Array.mem_toList_iff.mpr (Array.mem_of_getElem? found)
  · exact linked.imp_left Option.mem_toList.mpr

/-- The list of the last interface was cut short on the path of an earlier query, and it is
kept so. -/
theorem tangle_flatten_sound :
    let memory := ((tangle.flatten ⟨3⟩).answer ∅).2
    tangle.Asked memory ∧
      (∃ list, ((tangle.flatten ⟨4⟩).answer memory).1 = .ok list ∧ tangle.SoundList ⟨4⟩ list) ∧
      ((tangle.flatten ⟨4⟩).answer memory).1 = .ok [⟨3⟩] ∧
      ((tangle.flatten ⟨4⟩).answer ∅).1 = .ok [⟨3⟩, ⟨2⟩] := by
  have asked : tangle.Asked _ := (Asked.start tangle).flatten ⟨3⟩
  refine ⟨asked, (asked.flatten_sound ⟨4⟩).2 fun other path => ?_, by decide +kernel,
    by decide +kernel⟩
  rcases Relation.ReflTransGen.cases_tail path with rfl | ⟨before, _, link⟩
  · exact ⟨_, rfl⟩
  · exact tangle_known before other link

end SymbolTable

end Conformance
