import ImportAlias.Log.Basic
import ImportAlias.Json.Value

/-!
# Lines of a log

An entry of the log is written on one line: as a JSON object, or as its level and message with its
fields behind.
-/

namespace ImportAlias

namespace Log

/-- The value of a field as a JSON value. -/
def fieldDocument : FieldValue → Json.Value
  | .text t => .string t
  | .number n => .ofNat n
  | .flag b => .boolean b

/-- A span as a JSON value. -/
def Span.document (s : Span) : Json.Value :=
  .object (s.fields.map (fun f => (f.1, .string f.2)) ++ [("name".toList, .string s.name)])

namespace Entry

/-- The entry as a JSON value. -/
def document (e : Entry) : Json.Value :=
  let fields := e.event.fields.map fun f => (f.1, fieldDocument f.2)
  .object
    ([("level".toList, .string e.event.level.name),
      ("fields".toList, .object (("message".toList, .string e.event.message) :: fields)),
      ("target".toList, .string e.event.target)] ++
      (e.span.map fun s => ("span".toList, s.document)).toList)

/-- A field as it is shown to a reader. -/
def shownField : Text × FieldValue → Text
  | (name, .text t) => ' ' :: name ++ '=' :: t
  | (name, .number n) => ' ' :: name ++ '=' :: Text.ofNat n
  | (name, .flag b) => ' ' :: name ++ '=' :: (if b then "true" else "false").toList

/-- The entry as a line without its end. -/
def line (json : Bool) (e : Entry) : Text :=
  if json then Json.inline e.document
  else e.event.level.name ++ ' ' :: e.event.message ++ e.event.fields.flatMap shownField

end Entry

end Log

end ImportAlias
