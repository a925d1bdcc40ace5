import Conformance.Proofs.Options
import Mathlib.Data.List.Forall2
import Mathlib.Data.List.Induction
import Mathlib.Data.List.Nodup

/-!
Facts about lists and partial maps.
-/

namespace Conformance

/-- In a list without duplicates, the place of an item is the one that holds it. -/
theorem idxOf?_eq_some_iff_getElem? {α : Type} [DecidableEq α] {items : List α}
    (distinct : items.Nodup) {item : α} {place : Nat} :
    items.idxOf? item = some place ↔ items[place]? = some item := by
  rw [List.idxOf?_eq_some_iff, List.getElem?_eq_some_iff]
  constructor
  · rintro ⟨inside, same, _⟩
    exact ⟨inside, same⟩
  · rintro ⟨inside, same⟩
    refine ⟨inside, same, fun earlier before again => ?_⟩
    have := (distinct.getElem_inj_iff).mp (again.trans same.symm)
    omega

/-- Names of one letter tell numbers apart by their length. -/
theorem injective_ofList_replicate (letter : Char) :
    Function.Injective fun count => String.ofList (List.replicate (count + 1) letter) := by
  intro a b same
  have lists := congrArg String.toList same
  simp only [String.toList_ofList] at lists
  have lengths := congrArg List.length lists
  simpa using lengths

/-- An item that is not on a list can be added to it. -/
theorem nodup_append_singleton {α : Type} {items : List α} {item : α} (distinct : items.Nodup)
    (fresh : item ∉ items) : (items ++ [item]).Nodup := by
  rw [← List.concat_eq_append]
  exact distinct.concat fresh

/-- Steps that change nothing change nothing together. -/
theorem foldl_idle {α β : Type} {f : β → α → β} {state : β} {items : List α}
    (idle : ∀ item ∈ items, f state item = state) : items.foldl f state = state := by
  induction items with
  | nil => rfl
  | cons item items ih =>
    rw [List.foldl_cons, idle item List.mem_cons_self]
    exact ih fun other inside => idle other (List.mem_cons_of_mem _ inside)

/-- Searches agree where what they look for agrees. -/
theorem findSome?_congr {α β : Type} {f g : α → Option β} {items : List α}
    (same : ∀ item ∈ items, f item = g item) : items.findSome? f = items.findSome? g := by
  induction items with
  | nil => rfl
  | cons item items ih =>
    rw [List.findSome?_cons, List.findSome?_cons, same item List.mem_cons_self,
      ih fun other inside => same other (List.mem_cons_of_mem _ inside)]

/-- A search finds the only item that has what is searched for. -/
theorem find?_eq_some_of_unique {α : Type} {p : α → Bool} {items : List α} {item : α}
    (inside : item ∈ items) (holds : p item = true)
    (unique : ∀ other ∈ items, p other = true → other = item) : items.find? p = some item := by
  cases found : items.find? p with
  | none => exact absurd holds (List.find?_eq_none.mp found item inside)
  | some other =>
    rw [unique other (List.mem_of_find?_eq_some found) (List.find?_some found)]

/-- Nothing changes if an item is replaced by itself. -/
theorem set_eq_self {α : Type} {items : List α} {position : Nat} {item : α}
    (found : items[position]? = some item) : items.set position item = items := by
  obtain ⟨inside, rfl⟩ := List.getElem?_eq_some_iff.mp found
  exact List.set_getElem_self inside

/-- An item is the last of its list, or stands before it. -/
theorem exists_getLast?_of_mem {α : Type} {items : List α} {item : α} (listed : item ∈ items) :
    ∃ last, items.getLast? = some last ∧ (last = item ∨ [item, last].Sublist items) := by
  cases items using List.reverseRecOn with
  | nil => cases listed
  | append_singleton items last =>
    refine ⟨last, List.getLast?_concat, ?_⟩
    rcases List.mem_append.mp listed with earlier | isLast
    · exact .inr ((List.singleton_sublist.mpr earlier).append (.refl [last]))
    · exact .inl (List.mem_singleton.mp isLast).symm

theorem flatMap_filter {α β : Type} {p : α → Bool} {f : α → List β} {items : List α} :
    (items.filter p).flatMap f = items.flatMap fun item => if p item then f item else [] := by
  induction items with
  | nil => rfl
  | cons item items ih =>
    rw [List.filter_cons, List.flatMap_cons, ← ih]
    split <;> rfl

/-- Results that show which item they are of are different for different items. -/
theorem nodup_flatMap_of_key {α β κ : Type} {f : α → List β} {key : α → κ} {origin : β → κ}
    {items : List α} (distinct : (items.map key).Nodup) (each : ∀ item ∈ items, (f item).Nodup)
    (shows : ∀ item ∈ items, ∀ result ∈ f item, origin result = key item) :
    (items.flatMap f).Nodup := by
  refine List.nodup_flatMap.mpr ⟨each, (List.pairwise_map.mp distinct).imp_of_mem ?_⟩
  intro first second isFirst isSecond different result ofFirst ofSecond
  exact different ((shows first isFirst result ofFirst).symm.trans
    (shows second isSecond result ofSecond))

/-- Where each item has at most one result, no result is counted twice for an item. -/
theorem countP_filterMap_of_nodup {α β : Type} [DecidableEq α] {items : List α}
    (distinct : items.Nodup) (f : α → Option β) (p : β → Bool) (item : α) :
    let count := (items.filterMap fun other => (f other).map fun result => (other, result)).countP
      fun entry => entry.1 = item && p entry.2
    count ≤ 1 ∧ (count = 1 ↔ item ∈ items ∧ (f item).any p = true) := by
  have counted (other : α) :
      (((f other).map fun result => (other, result)).map fun entry =>
        decide (entry.1 = item) && p entry.2).getD false =
      (other == item && (f item).any p) := by
    by_cases same : other = item
    · subst same
      cases f other <;> simp
    · cases f other <;> simp [same]
  simp only [List.countP_filterMap, counted]
  cases (f item).any p with
  | false => simp
  | true =>
    simp only [Bool.and_true, and_true]
    refine ⟨List.nodup_iff_count_le_one.mp distinct item, fun once => ?_,
      List.count_eq_one_of_mem distinct⟩
    exact List.count_pos_iff.mp (Nat.lt_of_lt_of_eq Nat.zero_lt_one once.symm)

/-- What a search finds at consecutive places. -/
theorem filterMap_consecutive {α β : Type} {lookup : Nat → Option β} {items : List α} {f : α → β}
    {first : Nat} (found : ∀ position item, items[position]? = some item →
      lookup (first + position) = some (f item)) :
    (List.range' first items.length).filterMap lookup = items.map f := by
  induction items generalizing first with
  | nil => rfl
  | cons item items ih =>
    have here : lookup first = some (f item) := found 0 item rfl
    rw [List.length_cons, List.range'_succ, List.filterMap_cons, here]
    simp only [List.map_cons]
    rw [ih fun position other listed => ?_]
    rw [Nat.add_assoc, Nat.add_comm 1]
    exact found (position + 1) other listed

/-! ## First occurrences -/

section

variable {α : Type} [DecidableEq α] {items : List α}

theorem eraseDups_append_of_subset {more : List α} (listed : more ⊆ items) :
    (items ++ more).eraseDups = items.eraseDups := by
  have nothing : more.removeAll items = [] :=
    List.filter_eq_nil_iff.mpr fun item inside => by simpa using listed inside
  rw [List.eraseDups_append, nothing, List.eraseDups_nil, List.append_nil]

theorem eraseDups_concat {item : α} (fresh : item ∉ items) :
    (items ++ [item]).eraseDups = items.eraseDups ++ [item] := by
  have kept : [item].removeAll items = [item] :=
    List.filter_eq_self.mpr fun other inside => by
      simpa [List.mem_singleton.mp inside] using fresh
  rw [List.eraseDups_append, kept]
  rfl

theorem nodup_eraseDups (items : List α) : items.eraseDups.Nodup := by
  induction items using List.reverseRecOn with
  | nil => exact .nil
  | append_singleton items item ih =>
    by_cases listed : item ∈ items
    · rwa [eraseDups_append_of_subset (by simpa using listed)]
    · rw [eraseDups_concat listed, ← List.concat_eq_append]
      exact ih.concat fun inside => listed (List.mem_eraseDups.mp inside)

theorem eraseDups_of_nodup (nodup : items.Nodup) : items.eraseDups = items := by
  induction items using List.reverseRecOn with
  | nil => rfl
  | append_singleton items item ih =>
    rw [List.nodup_append] at nodup
    have fresh : item ∉ items := fun inside => nodup.2.2 item inside item List.mem_cons_self rfl
    rw [eraseDups_concat fresh, ih nodup.1]

end

/-- A partial map that is completed by values that it does not have is injective
if both parts are. -/
theorem injective_getD {α : Type} {f : α → Option α} {fresh : α → α}
    (images : ∀ {a b c}, f a = some c → f b = some c → a = b)
    (rest : Function.Injective fresh) (apart : ∀ {a b c}, f a = some c → c ≠ fresh b) :
    Function.Injective fun a => (f a).getD (fresh a) := by
  intro a b same
  simp only at same
  cases first : f a with
  | none =>
    cases second : f b with
    | none =>
      rw [first, second] at same
      exact rest same
    | some d =>
      rw [first, second] at same
      exact absurd same.symm (apart second)
  | some c =>
    cases second : f b with
    | none =>
      rw [first, second] at same
      exact absurd same (apart first)
    | some d =>
      rw [first, second] at same
      cases same
      exact images first second

/-- To change each answer about items is to change all the answers. -/
theorem map_mapM {m : Type → Type} [Monad m] [LawfulMonad m] {α β γ : Type} (f : α → m β)
    (g : β → γ) (items : List α) :
    items.mapM (fun item => g <$> f item) = List.map g <$> items.mapM f := by
  induction items with
  | nil => simp only [List.mapM_nil, map_pure, List.map_nil]
  | cons item items ih =>
    simp only [List.mapM_cons, ih, map_bind, map_pure, List.map_cons, bind_map_left]

/-! ## Lists that are related item by item -/

variable {α β : Type} {r : α → β → Prop} {first : List α} {second : List β}

theorem exists_of_mem_forall₂ (related : List.Forall₂ r first second) {item : α}
    (inside : item ∈ first) : ∃ other ∈ second, r item other := by
  induction related with
  | nil => cases inside
  | cons head _ ih =>
    rcases List.mem_cons.mp inside with rfl | later
    · exact ⟨_, List.mem_cons_self, head⟩
    · obtain ⟨other, listed, same⟩ := ih later
      exact ⟨other, List.mem_cons_of_mem _ listed, same⟩

theorem forall₂_imp_mem {q : α → β → Prop} (related : List.Forall₂ r first second)
    (step : ∀ a ∈ first, ∀ b ∈ second, r a b → q a b) : List.Forall₂ q first second := by
  induction related with
  | nil => exact .nil
  | cons head _ ih =>
    refine .cons (step _ List.mem_cons_self _ List.mem_cons_self head) (ih ?_)
    exact fun a inFirst b inSecond =>
      step a (List.mem_cons_of_mem _ inFirst) b (List.mem_cons_of_mem _ inSecond)

theorem forall₂_getElem? (related : List.Forall₂ r first second) (position : Nat) :
    Option.Rel r first[position]? second[position]? := by
  induction related generalizing position with
  | nil => exact .none
  | cons head _ ih =>
    cases position with
    | zero => exact .some head
    | succ position => exact ih position

/-- The item across from an item of a related list. -/
theorem exists_getElem?_of_forall₂ (related : List.Forall₂ r first second) {position : Nat} {a : α}
    (inside : first[position]? = some a) : ∃ b, second[position]? = some b ∧ r a b :=
  exists_of_rel_some (forall₂_getElem? related position) inside

theorem exists_getElem?_of_forall₂_right (related : List.Forall₂ r first second) {position : Nat}
    {b : β} (inside : second[position]? = some b) : ∃ a, first[position]? = some a ∧ r a b :=
  exists_of_rel_some_right (forall₂_getElem? related position) inside

/-- Items that are replaced at one position are related as before. -/
theorem forall₂_set (related : List.Forall₂ r first second) (position : Nat) {a : α} {b : β}
    (pair : r a b) : List.Forall₂ r (first.set position a) (second.set position b) := by
  induction related generalizing position with
  | nil => exact .nil
  | cons head rest ih =>
    cases position with
    | zero => exact .cons pair rest
    | succ position => exact .cons head (ih position)

/-- Lists that are related to one list are related to each other. -/
theorem forall₂_comp {γ : Type} {q : β → γ → Prop} {p : α → γ → Prop} {third : List γ}
    (related : List.Forall₂ r first second) (next : List.Forall₂ q second third)
    (comp : ∀ a b c, r a b → q b c → p a c) : List.Forall₂ p first third := by
  induction related generalizing third with
  | nil =>
    cases next with
    | nil => exact .nil
  | cons head _ ih =>
    cases next with
    | cons further rest => exact .cons (comp _ _ _ head further) (ih rest)

theorem forall₂_map_filterMap {γ δ : Type} {f : α → Option γ} {p : γ → δ} {q : δ → β → Prop}
    (related : List.Forall₂ (fun a b => ∃ x, f a = some x ∧ q (p x) b) first second) :
    List.Forall₂ q ((first.filterMap f).map p) second := by
  induction related with
  | nil => exact .nil
  | cons head _ ih =>
    obtain ⟨x, found, holds⟩ := head
    rw [List.filterMap_cons, found]
    exact .cons holds ih

/-- A list without duplicates is related to lists without duplicates only, if no
item is related to two. -/
theorem forall₂_nodup (related : List.Forall₂ r first second)
    (unique : ∀ {a a' b}, r a b → r a' b → a = a') (distinct : first.Nodup) : second.Nodup := by
  induction related with
  | nil => exact List.nodup_nil
  | @cons a b first second head rest ih =>
    obtain ⟨absent, distinctRest⟩ := List.nodup_cons.mp distinct
    refine List.nodup_cons.mpr ⟨fun inside => ?_, ih distinctRest⟩
    obtain ⟨other, listed, again⟩ := exists_of_mem_forall₂ (List.Forall₂.flip rest) inside
    exact absent (unique head again ▸ listed)

/-- What tells the items of a list apart tells those of a related list apart. -/
theorem forall₂_apart (same : β → β → Prop) (related : List.Forall₂ r first second)
    (distinct : first.Nodup)
    (apart : ∀ {a a' b b'}, a ∈ first → a' ∈ first → r a b → r a' b' → same b b' → a = a')
    {b b' : β} (inside : b ∈ second) (insideToo : b' ∈ second) (alike : same b b') : b = b' := by
  obtain ⟨i, found⟩ := List.getElem?_of_mem inside
  obtain ⟨j, foundToo⟩ := List.getElem?_of_mem insideToo
  obtain ⟨a, atFirst, head⟩ := exists_getElem?_of_forall₂_right related found
  obtain ⟨a', atSecond, headToo⟩ := exists_getElem?_of_forall₂_right related foundToo
  have same := apart (List.mem_of_getElem? atFirst) (List.mem_of_getElem? atSecond) head headToo
    alike
  have place := (List.getElem?_inj (List.getElem?_eq_some_iff.mp atFirst).1 distinct).mp
    (atFirst.trans ((congrArg some same).trans atSecond.symm))
  exact Option.some.inj (found.symm.trans (place ▸ foundToo))

theorem map_eq_of_forall₂ {f : α → β} (related : List.Forall₂ (fun a b => f a = b) first second) :
    second = first.map f := by
  induction related with
  | nil => rfl
  | cons head _ ih => rw [List.map_cons, head, ← ih]

theorem map_eq_map_of_forall₂ {γ : Type} {f : α → γ} {g : β → γ}
    (related : List.Forall₂ r first second) (same : ∀ a b, r a b → g b = f a) :
    first.map f = second.map g := by
  induction related with
  | nil => rfl
  | cons head _ ih => rw [List.map_cons, List.map_cons, same _ _ head, ih]

theorem flatMap_eq_of_forall₂ {γ : Type} {f : α → List γ} {g : β → List γ}
    (related : List.Forall₂ r first second) (same : ∀ a b, r a b → g b = f a) :
    second.flatMap g = first.flatMap f := by
  rw [List.flatMap_def, List.flatMap_def, map_eq_map_of_forall₂ related same]

theorem filterMap_eq_of_forall₂ {γ : Type} {f : α → Option γ} {g : β → Option γ}
    (related : List.Forall₂ r first second) (same : ∀ a b, r a b → g b = f a) :
    second.filterMap g = first.filterMap f := by
  rw [List.filterMap_eq_flatMap_toList, List.filterMap_eq_flatMap_toList]
  exact flatMap_eq_of_forall₂ related fun a b item => congrArg Option.toList (same a b item)

theorem any_eq_of_forall₂ {p : α → Bool} {q : β → Bool} (related : List.Forall₂ r first second)
    (same : ∀ a b, r a b → q b = p a) : second.any q = first.any p := by
  induction related with
  | nil => rfl
  | cons head _ ih => rw [List.any_cons, List.any_cons, same _ _ head, ih]

/-- What a change of related items keeps is kept in the list. -/
theorem map_zipWith_of_forall₂ {γ : Type} {change : α → β → β} {f : β → γ}
    (related : List.Forall₂ r first second) (kept : ∀ {a b}, r a b → f (change a b) = f b) :
    (List.zipWith change first second).map f = second.map f := by
  induction related with
  | nil => rfl
  | cons head _ ih => rw [List.zipWith_cons_cons, List.map_cons, List.map_cons, kept head, ih]

/-- An item and the item that it is related to, before and after a change of related items. -/
theorem exists_of_forall₂_zipWith {q : α → β → Prop} {change : α → β → β}
    (related : List.Forall₂ r first second)
    (changed : List.Forall₂ q first (List.zipWith change first second)) {item : α}
    (inside : item ∈ first) : ∃ other, r item other ∧ q item (change item other) := by
  induction related with
  | nil => cases inside
  | cons head _ ih =>
    rw [List.zipWith_cons_cons] at changed
    rcases changed with _ | ⟨headChanged, restChanged⟩
    rcases List.mem_cons.mp inside with rfl | later
    · exact ⟨_, head, headChanged⟩
    · exact ih restChanged later

/-- Two lists that are related to one are equal if related items are. -/
theorem eq_of_forall₂ {q : α → β → Prop} {third : List β} (related : List.Forall₂ r first second)
    (relatedThird : List.Forall₂ q first third)
    (same : ∀ a ∈ first, ∀ b c, r a b → q a c → b = c) : second = third := by
  induction related generalizing third with
  | nil =>
    cases relatedThird
    rfl
  | cons head _ ih =>
    cases relatedThird with
    | cons headThird rest =>
      rw [same _ List.mem_cons_self _ _ head headThird,
        ih rest fun a inside => same a (List.mem_cons_of_mem _ inside)]

theorem forall₂_filterMap {f : α → Option β} (found : ∀ a ∈ first, ∃ b, f a = some b ∧ r a b) :
    List.Forall₂ r first (first.filterMap f) := by
  induction first with
  | nil => exact .nil
  | cons a first ih =>
    obtain ⟨b, known, related⟩ := found a List.mem_cons_self
    rw [List.filterMap_cons, known]
    exact .cons related (ih fun other listed => found other (List.mem_cons_of_mem _ listed))

theorem forall₂_of_getElem?
    (related : ∀ position : Nat, Option.Rel r first[position]? second[position]?) :
    List.Forall₂ r first second := by
  induction first generalizing second with
  | nil =>
    cases second with
    | nil => exact .nil
    | cons => exact nomatch related 0
  | cons a first ih =>
    cases second with
    | nil => exact nomatch related 0
    | cons b second =>
      cases related 0 with
      | some head => exact .cons head (ih fun position => related (position + 1))

/-- Searches in related lists find items at one position. -/
theorem forall₂_find? (related : List.Forall₂ r first second) {p : α → Bool} {q : β → Bool}
    (same : ∀ a b, r a b → q b = p a) :
    Option.Rel (fun a b => ∃ position : Nat, first[position]? = some a ∧ second[position]? = some b)
      (first.find? p) (second.find? q) := by
  induction related with
  | nil => exact .none
  | @cons a b first second head _ ih =>
    rw [List.find?_cons, List.find?_cons, same a b head]
    cases p a with
    | true => exact .some ⟨0, rfl, rfl⟩
    | false =>
      exact rel_imp ih fun _ _ ⟨position, inFirst, inSecond⟩ => ⟨position + 1, inFirst, inSecond⟩

theorem forall₂_find?_related (related : List.Forall₂ r first second) {p : α → Bool}
    {q : β → Bool} (same : ∀ a b, r a b → q b = p a) :
    Option.Rel r (first.find? p) (second.find? q) := by
  refine rel_imp (forall₂_find? related same) ?_
  rintro a b ⟨position, inFirst, inSecond⟩
  obtain ⟨_, again, head⟩ := exists_getElem?_of_forall₂ related inFirst
  cases inSecond.symm.trans again
  exact head

/-- Searches for a first answer in related lists have related answers. -/
theorem forall₂_findSome? {γ δ : Type} {q : γ → δ → Prop} {f : α → Option γ} {g : β → Option δ}
    (related : List.Forall₂ r first second) (same : ∀ a b, r a b → Option.Rel q (f a) (g b)) :
    Option.Rel q (first.findSome? f) (second.findSome? g) := by
  induction related with
  | nil => exact .none
  | @cons a b first second head _ ih =>
    have answers := same a b head
    rw [List.findSome?_cons, List.findSome?_cons]
    generalize f a = x at answers ⊢
    generalize g b = y at answers ⊢
    cases answers with
    | none => exact ih
    | some results => exact .some results

/-- Searches in lists in different orders have related answers, if each item has one on the
other side with a related answer, and there is one answer only. -/
theorem rel_findSome?_of_unique {γ δ : Type} {q : γ → δ → Prop} {f : α → Option γ}
    {g : β → Option δ} (forward : ∀ a ∈ first, ∃ b ∈ second, Option.Rel q (f a) (g b))
    (backward : ∀ b ∈ second, ∃ a ∈ first, Option.Rel q (f a) (g b))
    (unique : ∀ {a c x y}, a ∈ first → c ∈ first → f a = some x → f c = some y → x = y) :
    Option.Rel q (first.findSome? f) (second.findSome? g) := by
  cases answer : second.findSome? g with
  | none =>
    have silent : first.findSome? f = none := List.findSome?_eq_none_iff.mpr fun a inside => by
      obtain ⟨b, insideSecond, related⟩ := forward a inside
      rw [List.findSome?_eq_none_iff.mp answer b insideSecond] at related
      generalize f a = x at related
      cases related
      rfl
    rw [silent]
    exact .none
  | some y =>
    obtain ⟨b, insideSecond, found⟩ := List.exists_of_findSome?_eq_some answer
    obtain ⟨a, inside, related⟩ := backward b insideSecond
    rw [found] at related
    generalize known : f a = x at related
    cases related with
    | @some x _ results =>
      cases answerFirst : first.findSome? f with
      | none =>
        rw [List.findSome?_eq_none_iff.mp answerFirst a inside] at known
        cases known
      | some z =>
        obtain ⟨c, insideToo, foundToo⟩ := List.exists_of_findSome?_eq_some answerFirst
        exact .some (unique inside insideToo known foundToo ▸ results)

/-- If questions about items have answers, these are the answers about each. -/
theorem forall₂_of_mapM_ok {ε : Type} {f : α → Except ε β} {items : List α} {results : List β}
    (answered : items.mapM f = .ok results) :
    List.Forall₂ (fun item result => f item = .ok result) items results := by
  induction items generalizing results with
  | nil =>
    cases answered
    exact .nil
  | cons item items ih =>
    rw [List.mapM_cons] at answered
    cases head : f item with
    | error error =>
      rw [head] at answered
      cases answered
    | ok result =>
      cases rest : items.mapM f with
      | error error =>
        rw [head, rest] at answered
        cases answered
      | ok results =>
        rw [head, rest] at answered
        cases answered
        exact .cons head (ih rest)

/-- Where questions about items have answers, related questions have related answers. -/
theorem forall₂_mapM_ok {ε γ : Type} {f : γ → Except ε α} {g : γ → Except ε β} {items : List γ}
    (steps : ∀ item a, f item = .ok a → ∃ b, g item = .ok b ∧ r a b) {results : List α}
    (answered : items.mapM f = .ok results) :
    ∃ others, items.mapM g = .ok others ∧ List.Forall₂ r results others := by
  induction items generalizing results with
  | nil =>
    cases answered
    exact ⟨[], rfl, .nil⟩
  | cons item items ih =>
    rw [List.mapM_cons] at answered ⊢
    cases head : f item with
    | error error =>
      rw [head] at answered
      cases answered
    | ok a =>
      cases rest : items.mapM f with
      | error error =>
        rw [head, rest] at answered
        cases answered
      | ok results =>
        rw [head, rest] at answered
        cases answered
        obtain ⟨b, image, related⟩ := steps item a head
        obtain ⟨others, images, relatedRest⟩ := ih rest
        rw [image, images]
        exact ⟨_, rfl, .cons related relatedRest⟩

/-- What is looked up in two lists is the same if it is so item by item. -/
theorem map_filterMap_eq_iff {γ δ ε : Type} {f : α → Option γ} {g : β → Option δ} {p : γ → ε}
    {q : δ → ε} (inFirst : ∀ a ∈ first, ∃ x, f a = some x)
    (inSecond : ∀ b ∈ second, ∃ y, g b = some y) :
    (second.filterMap g).map q = (first.filterMap f).map p ↔
      List.Forall₂ (fun a b => ∃ x y, f a = some x ∧ g b = some y ∧ q y = p x) first second := by
  induction first generalizing second with
  | nil =>
    cases second with
    | nil => simp
    | cons b second =>
      obtain ⟨y, found⟩ := inSecond b List.mem_cons_self
      simp [found]
  | cons a first ih =>
    obtain ⟨x, found⟩ := inFirst a List.mem_cons_self
    cases second with
    | nil => simp [found]
    | cons b second =>
      obtain ⟨y, foundOther⟩ := inSecond b List.mem_cons_self
      have rest := ih (fun other listed => inFirst other (List.mem_cons_of_mem _ listed))
        fun other listed => inSecond other (List.mem_cons_of_mem _ listed)
      simp only [List.filterMap_cons, found, foundOther, List.map_cons, List.cons.injEq,
        List.forall₂_cons, rest, Option.some.injEq]
      simp

end Conformance
