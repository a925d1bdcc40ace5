import Conformance.Declaration.Encoding
import Conformance.Report.Basic

/-!
Reports as JSON trees.
-/

namespace Conformance

open Json (nat string array object field fieldIf fieldOf)

/-- The fields that diagnostics and their further locations share. -/
def messageFields (span : Span) (message : String) (category : Category) (code : Nat) :
    List (String × Json) :=
  field "file" (string span.file) ++
    field "start" (nat span.start.toNat) ++
    field "length" (nat span.length.toNat) ++
    field "message_text" (string message) ++
    field "category" (string category.name) ++
    field "code" (nat code)

/-- Further locations. -/
def RenderedNote.encode (note : RenderedNote) : Json :=
  object (messageFields note.span note.message note.category note.code)

/-- Diagnostics. -/
def RenderedDiagnostic.encode (diagnostic : RenderedDiagnostic) : Json :=
  object (messageFields diagnostic.span diagnostic.message diagnostic.category diagnostic.code ++
    fieldIf (!diagnostic.arguments.isEmpty) "args" (Json.strings diagnostic.arguments) ++
    fieldIf (!diagnostic.notes.isEmpty) "related_information"
      (array (diagnostic.notes.map RenderedNote.encode)))

/-- Entries of an implementation map. -/
def ImplementationEntry.encode (entry : ImplementationEntry) : Json :=
  object (field "type" (string entry.type) ++
    field "interfaceMember" (string entry.interfaceMember) ++
    field "implementation" (Json.ofOption string entry.implementation) ++
    field "source" (Json.ofOption (fun source => string source.name) entry.source))

/-- Reports. -/
def Report.encode (report : Report) : Json :=
  object (field "assembly" (string report.assembly) ++
    field "diagnostics" (array (report.diagnostics.map RenderedDiagnostic.encode)) ++
    fieldOf "implementations" (fun entries => array (entries.map ImplementationEntry.encode))
      report.implementations)

end Conformance
