import FeatureQuery.Config.Yaml.Token
import FeatureQuery.Entries

/-!
# Reading a YAML document

The tokens of a document are read from left to right by a machine that keeps the open blocks and
lists as a list of frames, the innermost first. `Reading.next` reads one token, `Reading.result?`
tells the value once the tokens have ended. A value that is missing after a key or a hyphen is null.
No key may come up twice in a mapping, but two keys of one name may, if they are not the same
scalar; then the later one counts. `Yaml.read?` gives the members of the mapping that makes up a
text.
-/

namespace FeatureQuery.Yaml

/-- A block or a list that is still open, with what it holds before the value being read. -/
inductive Frame where
  /-- A mapping, with its members so far, its keys and the name of the value being read. -/
  | mapping (members : List (String × Json)) (keys : List Scalar) (name : String)
  /-- A sequence, with its items so far in reverse order. It has an end of its own, unless it stands
  in the column of the key that it belongs to. -/
  | sequence (hasEnd : Bool) (items : List Json)
  /-- A list between brackets, with its items so far in reverse order. -/
  | list (items : List Json)
  /-- A key within a list, which makes up a mapping with its value alone. -/
  | pair (name : String)

/-- What has been read, and so what may follow. -/
inductive Reading where
  /-- A value may follow. -/
  | value (frames : List Frame)
  /-- A mapping was begun: its first key must follow. -/
  | mappingStart (frames : List Frame)
  /-- A sequence was begun: its first hyphen must follow. -/
  | sequenceStart (frames : List Frame)
  /-- An item of a list or its end must follow. -/
  | listItem (items : List Json) (frames : List Frame)
  /-- A value is complete. -/
  | complete (value : Json) (frames : List Frame)

namespace Reading

/-- Goes on with a key of a mapping. -/
def addKey (members : List (String × Json)) (keys : List Scalar) (key : Scalar)
    (frames : List Frame) : Option Reading :=
  if key ∈ keys then none
  else key.key?.map fun name => .value (.mapping members (key :: keys) name :: frames)

/-- Reads the first token of a value. -/
def start (frames : List Frame) : Token → Option Reading
  | .scalar s => s.value?.map fun v => .complete v frames
  | .beginMapping => some (.mappingStart frames)
  | .beginSequence => some (.sequenceStart frames)
  | .beginList => some (.listItem [] frames)
  | .item =>
    match frames with
    | .mapping _ _ _ :: _ => some (.value (.sequence false [] :: frames))
    | _ => none
  | _ => none

/-- Reads a token after a value is complete. -/
def follow (v : Json) : List Frame → Token → Option Reading
  | .mapping members keys name :: frames, .key k =>
    addKey (Entries.put name v members) keys k frames
  | .mapping members _ name :: frames, .endBlock =>
    some (.complete (.object (Entries.put name v members)) frames)
  | .sequence hasEnd items :: frames, .item =>
    some (.value (.sequence hasEnd (v :: items) :: frames))
  | .sequence true items :: frames, .endBlock =>
    some (.complete (.array (v :: items).reverse) frames)
  -- a sequence without an end of its own ends with whatever follows
  | .sequence false items :: frames, t => follow (.array (v :: items).reverse) frames t
  | .list items :: frames, .comma => some (.listItem (v :: items) frames)
  | .list items :: frames, .endList => some (.complete (.array (v :: items).reverse) frames)
  | .pair name :: frames, t => follow (.object [(name, v)]) frames t
  | _, _ => none

/-- Whether a value may be missing. -/
def mayMiss : List Frame → Bool
  | .mapping _ _ _ :: _ => true
  | .sequence _ _ :: _ => true
  | .pair _ :: _ => true
  | _ => false

/-- Reads one token. -/
def next : Reading → Token → Option Reading
  | .value frames, t =>
    match start frames t with
    | some reading => some reading
    | none =>
      -- a scalar that has no value is refused, and not taken for a missing value
      match t with
      | .scalar _ => none
      | t => if mayMiss frames then follow .null frames t else none
  | .mappingStart frames, .key k => addKey [] [] k frames
  | .sequenceStart frames, .item => some (.value (.sequence true [] :: frames))
  | .listItem items frames, .endList => some (.complete (.array items.reverse) frames)
  | .listItem items frames, .key k =>
    k.key?.map fun name => .value (.pair name :: .list items :: frames)
  | .listItem items frames, t => start (.list items :: frames) t
  | .complete v frames, t => follow v frames t
  | _, _ => none

/-- Reads tokens from left to right. -/
def run : Reading → List Token → Option Reading
  | reading, [] => some reading
  | reading, t :: ts => (reading.next t).bind fun reading => reading.run ts

/-- The value, if it is complete and nothing is open. -/
def result? : Reading → Option Json
  | .complete v [] => some v
  | _ => none

end Reading

/-- The tokens between the marks of a document: marks that end a document may stand at both ends,
and one that begins it at its start. -/
def documentTokens (ts : List Token) : Bool × List Token :=
  let inner := ((ts.dropWhile (· == .documentEnd)).reverse.dropWhile (· == .documentEnd)).reverse
  match inner with
  | .documentStart :: rest => (true, rest)
  | _ => (false, inner)

/-- The members of the mapping that makes up a text. A text without a document has none. -/
def read? (content : String) : Option (List (String × Json)) := do
  let ts ← tokens? content
  match documentTokens ts with
  | (false, []) => some []
  | (_, ts) =>
    let reading ← (Reading.value []).run ts
    reading.result?.bind Json.members?

end FeatureQuery.Yaml
