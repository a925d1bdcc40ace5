/-!
Message templates.

A template holds placeholders: an index between braces. Arguments are put in
one after the other, each by a replacement of its placeholder in the whole
text, the texts of earlier arguments included.
-/

namespace Conformance.Text

/-- Replaces each occurrence of `pattern`, from left to right and without
overlap. The counter says how many characters of an occurrence already
replaced are still to be passed over. -/
def replaceFrom (pattern replacement : List Char) : Nat → List Char → List Char
  | _, [] => []
  | skipped + 1, _ :: rest => replaceFrom pattern replacement skipped rest
  | 0, c :: rest =>
    if pattern.isPrefixOf (c :: rest) then
      replacement ++ replaceFrom pattern replacement (pattern.length - 1) rest
    else
      c :: replaceFrom pattern replacement 0 rest

/-- Replaces each occurrence of `pattern`. -/
def replaceAll (pattern replacement s : List Char) : List Char :=
  replaceFrom pattern replacement 0 s

/-- The placeholder of the argument at an index. -/
def placeholder (index : Nat) : List Char :=
  '{' :: (toString index).toList ++ ['}']

/-- Puts the arguments into a template, the one at `index` first. -/
def fillFrom (index : Nat) : List String → List Char → List Char
  | [], s => s
  | argument :: rest, s =>
    fillFrom (index + 1) rest (replaceAll (placeholder index) argument.toList s)

/-- Puts the arguments into a template. -/
def fill (template : String) (arguments : List String) : String :=
  String.ofList (fillFrom 0 arguments template.toList)

end Conformance.Text
