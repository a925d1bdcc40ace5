import Mathlib.Data.Option.Basic

/-!
Options that are related: both are empty, or both hold something and what they hold is related.
-/

namespace Conformance

variable {α β γ δ : Type} {r : α → β → Prop} {first : Option α} {second : Option β}

theorem exists_of_rel_some (related : Option.Rel r first second) {a : α} (found : first = some a) :
    ∃ b, second = some b ∧ r a b := by
  subst found
  cases related with
  | some head => exact ⟨_, rfl, head⟩

theorem exists_of_rel_some_right (related : Option.Rel r first second) {b : β}
    (found : second = some b) : ∃ a, first = some a ∧ r a b := by
  subst found
  cases related with
  | some head => exact ⟨_, rfl, head⟩

theorem rel_imp {q : α → β → Prop} (related : Option.Rel r first second)
    (imp : ∀ a b, r a b → q a b) : Option.Rel q first second := by
  cases related with
  | none => exact .none
  | some head => exact .some (imp _ _ head)

theorem rel_flip (related : Option.Rel r first second) :
    Option.Rel (fun b a => r a b) second first := by
  cases related with
  | none => exact .none
  | some head => exact .some head

/-- Related options have related options between them and a third. -/
theorem rel_comp {q : β → γ → Prop} {p : α → γ → Prop} {third : Option γ}
    (related : Option.Rel r first second) (next : Option.Rel q second third)
    (comp : ∀ a b c, r a b → q b c → p a c) : Option.Rel p first third := by
  cases related with
  | none =>
    cases next with
    | none => exact .none
  | some head =>
    cases next with
    | some further => exact .some (comp _ _ _ head further)

/-- What comes of related options is related. -/
theorem rel_bind {q : γ → δ → Prop} (related : Option.Rel r first second) {f : α → Option γ}
    {g : β → Option δ} (each : ∀ a b, r a b → Option.Rel q (f a) (g b)) :
    Option.Rel q (first.bind f) (second.bind g) := by
  cases related with
  | none => exact .none
  | some head => exact each _ _ head

theorem rel_map {q : γ → δ → Prop} (related : Option.Rel r first second) {f : α → γ} {g : β → δ}
    (each : ∀ a b, r a b → q (f a) (g b)) : Option.Rel q (first.map f) (second.map g) := by
  cases related with
  | none => exact .none
  | some head => exact .some (each _ _ head)

theorem rel_or (related : Option.Rel r first second) {other : Option α} {image : Option β}
    (others : Option.Rel r other image) : Option.Rel r (first.or other) (second.or image) := by
  cases related with
  | none => exact others
  | some head => exact .some head

theorem map_eq_map_of_rel (related : Option.Rel r first second) {f : α → γ} {g : β → γ}
    (same : ∀ a b, r a b → g b = f a) : second.map g = first.map f := by
  cases related with
  | none => rfl
  | some head => exact congrArg some (same _ _ head)

theorem eq_map_of_rel (related : Option.Rel r first second) {f : α → β}
    (same : ∀ a b, r a b → b = f a) : second = first.map f := by
  rw [← map_eq_map_of_rel related (f := f) (g := id) same, Option.map_id_fun, id]

theorem bind_eq_bind_of_rel (related : Option.Rel r first second) {f : α → Option γ}
    {g : β → Option γ} (same : ∀ a b, r a b → g b = f a) : second.bind g = first.bind f := by
  cases related with
  | none => rfl
  | some head => exact same _ _ head

end Conformance
