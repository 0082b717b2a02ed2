import FeatureQuery.Record.Basic
import FeatureQuery.Text.Digits

/-!
# Tables with commas

The first row of a table holds the names of the first record's attributes, and each further row the
values of one record under these names. A field stands between double quotes when it holds a comma,
a quote or a line break, and a quote inside it is written twice. A row that would be an empty line
is written as an empty field between quotes.
-/

namespace FeatureQuery.Csv

/-- Whether a character forces quotes around its field. -/
def isSpecial (c : Char) : Bool := c == ',' || c == '"' || c == '\n' || c == '\r'

/-- Writes every double quote twice. -/
def double (field : List Char) : List Char :=
  field.flatMap fun c => if c = '"' then ['"', '"'] else [c]

/-- One field. -/
def field (text : List Char) : List Char :=
  if text.any isSpecial then '"' :: (double text ++ ['"']) else text

/-- Fields with commas between them. -/
def fields : List (List Char) → List Char
  | [] => []
  | [text] => field text
  | text :: next :: rest => field text ++ ',' :: fields (next :: rest)

/-- One row with its line feed. -/
def row (texts : List (List Char)) : List Char :=
  (if texts = [] ∨ texts = [[]] then ['"', '"'] else fields texts) ++ ['\n']

/-- The names that head the table of some records: those of the first one. -/
def header (records : List Record) : List String :=
  match records with
  | [] => []
  | r :: _ => r.attributes.keys

/-- The texts of a record under some names; null and a name that the record lacks are empty. -/
def texts (names : List String) (r : Record) : List String :=
  names.map fun name => (r.value name).shown

/-- The rows of the table of some records. -/
def table (records : List Record) : List (List String) :=
  match records with
  | [] => []
  | _ => header records :: records.map (texts (header records))

/-- The table of some records as text. -/
def write (records : List Record) : String :=
  String.ofList ((table records).flatMap fun texts => row (texts.map String.toList))

/-! ### Rows as they go out

The fields of a row are out before it is known that no more follow. Only then are they counted, and
the row is ended if it is as wide as the first one.
-/

/-- A field without the quote that ends it. -/
def fieldStart (text : List Char) : List Char :=
  if text.any isSpecial then '"' :: double text else text

/-- The quote that ends a field, if one began it. -/
def fieldEnd (text : List Char) : List Char := if text.any isSpecial then ['"'] else []

/-- A row up to the end of its last field. -/
def rowStart : List (List Char) → List Char
  | [] => []
  | [text] => fieldStart text
  | text :: next :: rest => field text ++ ',' :: rowStart (next :: rest)

/-- The end of a row: the quote of its last field, or quotes around nothing, and the line feed. -/
def rowEnd (texts : List (List Char)) : List Char :=
  (if texts = [] ∨ texts = [[]] then ['"', '"'] else (texts.getLast?.map fieldEnd).getD []) ++
    ['\n']

/-- Why a row is refused: the first row has another number of fields. -/
structure WidthError where
  /-- How many fields the first row has. -/
  expected : Nat
  /-- How many fields the row has. -/
  found : Nat
  deriving DecidableEq

/-- The refusal in words. -/
def WidthError.message (e : WidthError) : String :=
  "CSV error: found record with " ++ Text.ofNat e.found ++
    " fields, but the previous record has " ++ Text.ofNat e.expected ++ " fields"

end FeatureQuery.Csv
