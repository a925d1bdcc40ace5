import Conformance.Binding.Assembly
import Conformance.Proofs.Text.Substitution
import Mathlib.Data.List.Forall2

/-!
Messages of diagnostics.

The names in a message are what declarations say, so they may be any text. A message is made
of the template of its code, with the settled texts of the arguments in place of their
placeholders. It says what it should just if each argument that the template asks for is settled as
it is, and it does so if no argument has the placeholder of a later one in its text
(`Diagnostic.render_fills`).
-/

namespace Conformance

namespace Rule

/-- The placeholders of all templates are kept apart. -/
theorem isTemplate_template (rule : Rule) : Text.IsTemplate rule.template := by
  refine ⟨.parse rule.template.toList, ?_⟩
  cases rule <;> dsimp only [template]
  -- Literals are lists of characters by their own lemma; to decode them takes far longer.
  all_goals repeat rewrite [String.toList_append]
  all_goals repeat rewrite [String.toList_ofList]
  all_goals decide +kernel

end Rule

namespace Diagnostic

/-- The template of the messages with a code. -/
def templateOf (code : Nat) : String :=
  match Rule.ofCode? code with
  | some rule => rule.template
  | none => "Unexpected diagnostic code."

theorem isTemplate_templateOf (code : Nat) : Text.IsTemplate (templateOf code) := by
  unfold templateOf
  cases Rule.ofCode? code with
  | some rule => exact rule.isTemplate_template
  | none =>
    refine ⟨.parse "Unexpected diagnostic code.".toList, ?_⟩
    rewrite [String.toList_ofList]
    decide +kernel

/-- What a message says. It has the settled texts of its arguments in their places. These are the
arguments just if each one that the template asks for is settled as it is, and so if none of them
has the placeholder of a later one in its text. -/
structure Fills (template : String) (texts : List String) (message : String) : Prop where
  settled : message = Text.substitute template (Text.settle texts)
  right_iff : message = Text.substitute template texts ↔
    ∀ index, Text.Places template index → (Text.settle texts)[index]? = texts[index]?
  right : (∀ index later text, Text.Places template index → texts[index]? = some text →
    index < later → later < texts.length → ¬ Text.placeholder later <:+: text.toList) →
      message = Text.substitute template texts

theorem fills_messageOf (code : Nat) (arguments : List Argument) :
    Fills (templateOf code) (arguments.map Argument.display) (messageOf code arguments) := by
  have isTemplate := isTemplate_templateOf code
  have right := Text.fill_eq_substitute_iff isTemplate (arguments.map Argument.display)
  refine ⟨Text.fill_eq_substitute isTemplate _, right, fun absent => ?_⟩
  refine right.mpr fun index places => ?_
  cases known : (arguments.map Argument.display)[index]? with
  | none => rw [Text.settle, List.getElem?_mapIdx, known, Option.map_none]
  | some text =>
    exact Text.settle_of_not_infix known fun later above below =>
      absent index later text places known above below

/-- The messages of a diagnostic and of its further locations have the settled texts of their
arguments in the places that their templates have for them. -/
theorem render_fills (diagnostic : Diagnostic) :
    Fills (templateOf diagnostic.code) (diagnostic.arguments.map Argument.display)
        diagnostic.render.message ∧
      List.Forall₂ (fun note rendered => Fills (templateOf note.code)
        (note.arguments.map Argument.display) rendered.message)
        diagnostic.notes diagnostic.render.notes := by
  refine ⟨fills_messageOf _ _, ?_⟩
  show List.Forall₂ _ diagnostic.notes (diagnostic.notes.map Note.render)
  exact List.forall₂_map_right_iff.mpr
    (List.forall₂_same.mpr fun note _ => fills_messageOf note.code note.arguments)

end Diagnostic

/-- A sealed class, and one derived from it whose name is a placeholder. -/
def guises : AssemblyDecl where
  name := "Guises"
  types :=
    [{ name := "Mask", kind := .classType, modifiers := { isSealed := true } },
      { name := "\x7b1\x7d", kind := .classType, base := some "Mask" }]

/-- The message names the sealed class in place of the derived one. -/
theorem guises_message : ∃ diagnostic ∈
      ((∅ : SymbolTable).bind guises [] (.source .latest)).diagnostics,
    diagnostic.render.message = "'Mask': cannot derive from sealed type 'Mask'" ∧
      Text.substitute (Diagnostic.templateOf diagnostic.code)
        (diagnostic.arguments.map Argument.display) =
          "'\x7b1\x7d': cannot derive from sealed type 'Mask'" := by
  refine ⟨.breach .sealedBase .unknown [.type "\x7b1\x7d", .type "Mask"], ?_, ?_, ?_⟩
  · decide +kernel
  · decide +kernel
  · decide +kernel

end Conformance
