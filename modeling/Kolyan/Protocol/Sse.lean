/-
# The server-sent event decoder

`kolyan-protocol-sse/src/lib.rs`: `Decoder` is pushed the bytes of a response body as
they come, and holds an incomplete line, the fields of an incomplete event, whether
the last byte was a CR, the sticky event id, and an error that it has yet to report.
A consumer takes the events of each push, then the deferred error, and after the last
push finishes the decoder (`consume`).
-/

import Kolyan.Bytes
import Kolyan.Numbers

namespace Kolyan
namespace Sse

/-- `Event`. -/
structure Event where
  kind : String
  data : String

/-- `DecodeError`. -/
inductive DecodeError where
  | utf8 (error : Utf8Error)

/-- `Decoder`. -/
structure Decoder where
  line : List UInt8
  kind : String
  data : List String
  afterCr : Bool
  lastEventId : String
  retry : Option ℤ
  deferredError : Option DecodeError

/-- `Decoder::default`. -/
def Decoder.default : Decoder := ⟨[], "", [], false, "", none, none⟩

section Fields

/-- `b'\n'`. -/
def lf : UInt8 := 10

/-- `b'\r'`. -/
def cr : UInt8 := 13

/-- `text.split_once(':').unwrap_or((text, ""))` and `value.strip_prefix(' ')`. -/
def splitField (text : List Char) : List Char × List Char :=
  let value := (text.dropWhile (· ≠ ':')).tail
  (text.takeWhile (· ≠ ':'), if value.head? = some ' ' then value.tail else value)

end Fields

namespace Decoder

/-- What an empty line does: the event it ends, if any of its fields is set, and the
decoder for the next event, which keeps the id. -/
def dispatch (d : Decoder) : Decoder × Option Event :=
  ({ d with kind := "", data := [], retry := none },
    if d.data ≠ [] ∨ d.kind ≠ "" ∨ d.lastEventId ≠ "" ∨ d.retry.isSome then
      some ⟨d.kind, "\n".intercalate d.data⟩
    else none)

/-- What a field does. -/
def setField (d : Decoder) (field value : String) : Decoder :=
  if field = "event" then { d with kind := value }
  else if field = "data" then { d with data := d.data ++ [value] }
  else if field = "id" ∧ '\x00' ∉ value.toList then { d with lastEventId := value }
  else if field = "retry" then
    match parseI64 (trim value.toList) with
    | some retry => { d with retry := some retry }
    | none => d
  else d

/-- What a line does, by its text. -/
def readLine (d : Decoder) (text : String) : Decoder × Option Event :=
  if text = "" then d.dispatch
  else if text.toList.head? = some ':' then (d, none)
  else
    let (field, value) := splitField text.toList
    (d.setField (.ofList field) (.ofList value), none)

/-- The loop of `Decoder::push`, with the events so far. -/
def pushFrom (d : Decoder) (events : List Event) : List UInt8 → Except DecodeError (List Event) × Decoder
  | [] => (.ok events, d)
  | byte :: bytes =>
      if d.afterCr = true ∧ byte = lf then pushFrom { d with afterCr := false } events bytes
      else if byte ≠ lf ∧ byte ≠ cr then
        pushFrom { d with afterCr := false, line := d.line ++ [byte] } events bytes
      else
        let next := { d with afterCr := byte = cr, line := [] }
        match fromUtf8 d.line with
        | .error error =>
            if events = [] then (.error (.utf8 error), next)
            else (.ok events, { next with deferredError := some (.utf8 error) })
        | .ok text =>
            let (next, event) := next.readLine text
            pushFrom next (events ++ event.toList) bytes

/-- `Decoder::push`. -/
def push (d : Decoder) (bytes : List UInt8) : Except DecodeError (List Event) × Decoder :=
  d.pushFrom [] bytes

/-- `Decoder::take_error`. -/
def takeError (d : Decoder) : Option DecodeError × Decoder :=
  (d.deferredError, { d with deferredError := none })

/-- `Decoder::finish`. -/
def finish (d : Decoder) : Except DecodeError Unit × Decoder :=
  match fromUtf8 d.line with
  | .error error => (.error (.utf8 error), d)
  | .ok _ =>
      match d.takeError with
      | (some error, d) => (.error error, d)
      | (none, _) => (.ok (), .default)

/-- What a consumer sees: the events, and the first error or the clean end. -/
def consume (d : Decoder) : List (List UInt8) → List Event × Except DecodeError Unit
  | [] => ([], d.finish.1)
  | chunk :: chunks =>
      match d.push chunk with
      | (.error error, _) => ([], .error error)
      | (.ok events, d) =>
          match d.takeError with
          | (some error, _) => (events, .error error)
          | (none, d) => (d.consume chunks).map (events ++ ·) id

end Decoder

end Sse
end Kolyan
