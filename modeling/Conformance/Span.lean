/-!
Source locations. Nothing interprets them: a span is copied from the
declaration that caused a diagnostic.
-/

namespace Conformance

/-- A range of bytes in a named source file. -/
structure Span where
  /-- The name of the file. -/
  file : String := ""
  /-- The offset of the first byte. -/
  start : UInt32 := 0
  /-- The number of bytes. -/
  length : UInt32 := 0
deriving DecidableEq, Repr, Inhabited

namespace Span

/-- The span of things without a location, such as symbols read from metadata. -/
def unknown : Span := {}

/-- Whether a span is the one of things without a location. -/
def isUnknown (span : Span) : Bool := decide (span = unknown)

/-- The offset past the last byte, or the largest offset if it lies beyond. -/
def stop (span : Span) : Nat :=
  min (span.start.toNat + span.length.toNat) (UInt32.size - 1)

/-- The span itself, or `fallback` for a span without a location. -/
def orElse (span fallback : Span) : Span :=
  if span.isUnknown then fallback else span

instance : ToString Span where
  toString span :=
    if span.isUnknown then "<metadata>"
    else span.file ++ "(" ++ toString span.start.toNat ++ ".." ++ toString span.stop ++ ")"

end Span

end Conformance
