import FeatureQuery.Json.Token

/-!
# Reading a JSON value

The tokens of a text are read from left to right by a machine that keeps the open arrays and objects
as a list of frames, the innermost first. `Reading.next` reads one token, `Reading.result?` tells
the value once the text has ended, and `Json.read?` puts both together. Arrays and objects may nest
`maxNesting` deep. A member whose name comes up again takes the place of the earlier one.
-/

namespace FeatureQuery.Json

/-- How deep arrays and objects may nest. -/
def maxNesting : Nat := 127

/-- An array or object that is still open, with what it holds before the value being read. -/
inductive Frame where
  /-- An array, with its items so far in reverse order. -/
  | array (items : List Json)
  /-- An object, with its members so far and the name of the value being read. -/
  | object (members : List (String × Json)) (name : String)

/-- What has been read, and so what may follow. -/
inductive Reading where
  /-- A value must follow. -/
  | value (frames : List Frame)
  /-- An array was opened: its first item or its end must follow. -/
  | arrayStart (frames : List Frame)
  /-- An object was opened: its first name or its end must follow. -/
  | objectStart (frames : List Frame)
  /-- The name of a further member must follow. -/
  | name (members : List (String × Json)) (frames : List Frame)
  /-- A colon must follow the name. -/
  | colon (members : List (String × Json)) (name : String) (frames : List Frame)
  /-- A value is complete. -/
  | complete (value : Json) (frames : List Frame)

namespace Reading

/-- Reads the first token of a value. -/
def start (frames : List Frame) : Token → Option Reading
  | .text s => some (.complete (.string s) frames)
  | .scalar v => some (.complete v frames)
  | .openArray => if frames.length < maxNesting then some (.arrayStart frames) else none
  | .openObject => if frames.length < maxNesting then some (.objectStart frames) else none
  | _ => none

/-- Reads one token. -/
def next : Reading → Token → Option Reading
  | .value frames, t => start frames t
  | .arrayStart frames, .closeArray => some (.complete (.array []) frames)
  | .arrayStart frames, t => start (.array [] :: frames) t
  | .objectStart frames, .closeObject => some (.complete (.object []) frames)
  | .objectStart frames, .text s => some (.colon [] s frames)
  | .name members frames, .text s => some (.colon members s frames)
  | .colon members key frames, .colon => some (.value (.object members key :: frames))
  | .complete v (.array items :: frames), .comma => some (.value (.array (v :: items) :: frames))
  | .complete v (.array items :: frames), .closeArray =>
    some (.complete (.array (v :: items).reverse) frames)
  | .complete v (.object members key :: frames), .comma =>
    some (.name (Entries.put key v members) frames)
  | .complete v (.object members key :: frames), .closeObject =>
    some (.complete (.object (Entries.put key v members)) frames)
  | _, _ => none

/-- Reads tokens from left to right. -/
def run : Reading → List Token → Option Reading
  | reading, [] => some reading
  | reading, t :: ts => (reading.next t).bind fun reading => reading.run ts

/-- The value, if it is complete and nothing is open. -/
def result? : Reading → Option Json
  | .complete v [] => some v
  | _ => none

theorem run_append (reading : Reading) (ts us : List Token) :
    reading.run (ts ++ us) = (reading.run ts).bind fun reading => reading.run us := by
  induction ts generalizing reading with
  | nil => rfl
  | cons t ts ih =>
    simp only [List.cons_append, run]
    cases reading.next t with
    | none => rfl
    | some r => exact ih r

end Reading

/-- The value that a text denotes. -/
def read? (s : String) : Option Json := do
  let ts ← tokens? s.toList
  let reading ← (Reading.value []).run ts
  reading.result?

end FeatureQuery.Json
