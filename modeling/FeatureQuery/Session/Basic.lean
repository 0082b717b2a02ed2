import FeatureQuery.Predicate.Select
import FeatureQuery.Query.Parser
import FeatureQuery.Text.Digits

/-!
# Filter sessions

A session keeps named layers of records, at most one active filter, and a list of saved queries. A
filter becomes active only when its query reads, its fields are known, it combines with the filter
before it, and it evaluates on every record of its layer; a query that is refused leaves the session
as it was (`apply_of_error`). The active filter keeps the text of its query beside its predicate. A
filter that combines with the one before it has its text spelled out with parentheses.
-/

namespace FeatureQuery

/-- The filter that is applied to a layer. -/
structure ActiveFilter where
  /-- The name of the layer. -/
  layer : String
  /-- The text of the query. -/
  query : String
  /-- The query made ready for the records of the layer. -/
  predicate : Predicate

/-- A query that is kept for later. -/
structure SavedQuery where
  /-- The name of the layer. -/
  layer : String
  /-- The text of the query. -/
  query : String
  deriving DecidableEq

/-- What a session reports while it works. -/
inductive SessionEvent where
  /-- A filter became active. -/
  | applied (layer : String) (mode : Mode) (query : String) (matched : Nat)
  /-- A query was refused; the filter that stays active is told if there is one. -/
  | rejected (query : String) (error : FilterError) (kept : Option (String × String))
  /-- The active filter was dropped. -/
  | cleared (layer : String)

/-- The event as a line of the log. -/
def SessionEvent.line : SessionEvent → String
  | .applied layer mode query matched =>
    "INFO Filter applied to '" ++ layer ++ "' (" ++ mode.name ++ "): " ++ query ++ " -> " ++
      Text.ofNat matched ++ " matches"
  | .rejected query error (some (layer, active)) =>
    "WARN Filter '" ++ query ++ "' rejected (" ++ error.message ++ "); keeping '" ++ active ++
      "' on '" ++ layer ++ "'"
  | .rejected query error none => "WARN Filter '" ++ query ++ "' rejected (" ++ error.message ++ ")"
  | .cleared layer => "INFO Filter cleared on '" ++ layer ++ "'"

/-- Named layers, the active filter and the saved queries. -/
structure Session where
  /-- The records of each layer. -/
  layers : OrderedMap (List Record)
  /-- The filter that is applied. -/
  active : Option ActiveFilter
  /-- The saved queries, in order. -/
  saved : List SavedQuery

/-- What a step of a session leads to. -/
structure Outcome (α : Type) where
  /-- The answer. -/
  result : α
  /-- The session afterwards. -/
  session : Session
  /-- What was reported, in order. -/
  events : List SessionEvent

/-- The text of a filter that combines with a previous one. -/
def combinedQuery (mode : Mode) (previous fresh : String) : String :=
  match mode with
  | .replace => fresh
  | .and => "(" ++ previous ++ ") and (" ++ fresh ++ ")"
  | .andNot => "(" ++ previous ++ ") and not (" ++ fresh ++ ")"
  | .or => "(" ++ previous ++ ") or (" ++ fresh ++ ")"

namespace Session

/-- A session without layers, filter or saved queries. -/
def empty : Session := ⟨OrderedMap.empty, none, []⟩

/-! ### Steps -/

/-- Registers a layer. It takes the place of a layer of the same name, and an active filter on that
layer is dropped. -/
def addLayer (s : Session) (name : String) (records : List Record) : Session :=
  { s with
    layers := s.layers.put name records
    active := s.active.filter fun active => active.layer ≠ name }

/-- The filter that a new one on the layer combines with. -/
def previousFor (s : Session) (layer : String) (mode : Mode) :
    Except FilterError (Option ActiveFilter) :=
  if mode.needsPrevious then
    match s.active with
    | some active =>
      if active.layer = layer then .ok (some active)
      else .error (.layerMismatch active.layer layer)
    | none => .ok none
  else
    .ok none

/-- The filter that a query makes on a layer, and the number of records that pass it. -/
def tryApply (s : Session) (layer query : String) (mode : Mode) :
    Except FilterError (ActiveFilter × Nat) := do
  let body := String.ofList (Text.trim query.toList)
  if body = "" then .error .emptyQuery
  else
    match s.layers.get? layer with
    | none => .error (.unknownLayer layer)
    | some records => do
      let previous ← s.previousFor layer mode
      let expr ← parse body
      let fresh ← compile (Schema.ofRecords records) expr
      let predicate ← Predicate.combine mode (previous.map ActiveFilter.predicate) fresh
      -- the filter must evaluate on every record before it becomes active
      let matched ← select predicate.evaluate records
      let text := match previous with
        | some previous => combinedQuery mode previous.query body
        | none => body
      .ok (⟨layer, text, predicate⟩, matched.length)

/-- Applies a query to a layer. The answer is the number of records that pass the new filter. -/
def apply (s : Session) (layer query : String) (mode : Mode) : Outcome (Except FilterError Nat) :=
  match s.tryApply layer query mode with
  | .ok (active, matched) =>
    { result := .ok matched
      session := { s with active := some active }
      events := [.applied active.layer mode active.query matched] }
  | .error e =>
    { result := .error e
      session := s
      events := [.rejected query e (s.active.map fun active => (active.layer, active.query))] }

/-- Drops the active filter. -/
def clear (s : Session) : Outcome Unit :=
  { result := ()
    session := { s with active := none }
    events := match s.active with
      | some active => [.cleared active.layer]
      | none => [] }

/-- Keeps the active filter's query. The answer is its index. -/
def saveCurrent (s : Session) : Outcome (Except FilterError Nat) :=
  match s.active with
  | some active =>
    { result := .ok s.saved.length
      session := { s with saved := s.saved ++ [⟨active.layer, active.query⟩] }
      events := [] }
  | none => { result := .error .nothingToSave, session := s, events := [] }

/-- Keeps a query without applying it. The answer is its index. -/
def addSaved (s : Session) (layer query : String) : Outcome Nat :=
  { result := s.saved.length
    session := { s with saved := s.saved ++ [⟨layer, query⟩] }
    events := [] }

/-- Applies a saved query in the place of the active filter. -/
def applySaved (s : Session) (index : Nat) : Outcome (Except FilterError Nat) :=
  match s.saved[index]? with
  | some saved => s.apply saved.layer saved.query .replace
  | none => { result := .error (.noSuchSavedQuery index), session := s, events := [] }

/-- Removes a saved query and drops the active filter. The answer is the query. -/
def deleteSaved (s : Session) (index : Nat) : Outcome (Except FilterError SavedQuery) :=
  match s.saved[index]? with
  | some saved =>
    let cleared := { s with saved := s.saved.eraseIdx index }.clear
    { result := .ok saved, session := cleared.session, events := cleared.events }
  | none => { result := .error (.noSuchSavedQuery index), session := s, events := [] }

/-- The records of the active filter's layer that pass it, in order and with their positions. -/
def numberedMatches (s : Session) : Except FilterError (List (Record × Nat)) :=
  match s.active with
  | none => .ok []
  | some active =>
    match s.layers.get? active.layer with
    | some records => select (fun r => active.predicate.evaluate r.1) records.zipIdx
    | none => .error (.unknownLayer active.layer)

/-- The records of the active filter's layer that pass it, in order. Without a filter there are
none. -/
def matching (s : Session) : Except FilterError (List Record) :=
  s.numberedMatches.map fun numbered => numbered.map Prod.fst

/-- A query that is refused changes nothing. -/
theorem apply_of_error {s : Session} {layer query : String} {mode : Mode} {e : FilterError}
    (h : (s.apply layer query mode).result = .error e) :
    (s.apply layer query mode).session = s := by
  unfold apply at h ⊢
  split at h <;> simp_all

end Session

end FeatureQuery
