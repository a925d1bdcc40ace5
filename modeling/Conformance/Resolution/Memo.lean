/-!
Answers remembered by index, for ids that are places in a table.
-/

namespace Conformance

/-- The answers that are known, each at its index. -/
structure Memo (α : Type) where
  slots : Array (Option α) := #[]

namespace Memo

variable {α : Type}

/-- The memo without answers. -/
def empty : Memo α := {}

instance : EmptyCollection (Memo α) := ⟨empty⟩

instance : Inhabited (Memo α) := ⟨empty⟩

/-- The answer at an index. -/
def find? (memo : Memo α) (index : Nat) : Option α :=
  memo.slots[index]?.join

/-- Remembers an answer. -/
def insert (memo : Memo α) (index : Nat) (answer : α) : Memo α where
  slots :=
    (memo.slots ++ Array.replicate (index + 1 - memo.slots.size) none).set! index (some answer)

/-- The number of answers. -/
def size (memo : Memo α) : Nat :=
  memo.slots.countP Option.isSome

@[simp] theorem find?_empty (index : Nat) : (∅ : Memo α).find? index = none := by
  show (#[] : Array (Option α))[index]?.join = none
  simp

@[grind =] theorem find?_insert (memo : Memo α) (index other : Nat) (answer : α) :
    (memo.insert index answer).find? other =
      if index = other then some answer else memo.find? other := by
  simp only [find?, insert, Array.set!_eq_setIfInBounds, Array.getElem?_setIfInBounds,
    Array.size_append, Array.size_replicate, Array.getElem?_append, Array.getElem?_replicate]
  by_cases same : index = other
  · subst same
    have : index < memo.slots.size + (index + 1 - memo.slots.size) := by omega
    simp [this]
  · simp only [same, if_false]
    by_cases inside : other < memo.slots.size
    · simp [inside]
    · have : memo.slots[other]? = none := by simp; omega
      simp only [inside, if_false, this]
      split <;> rfl

end Memo

end Conformance
