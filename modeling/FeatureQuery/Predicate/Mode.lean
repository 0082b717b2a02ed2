/-!
# How filters combine

A filter replaces the one that is active, narrows it, takes its matches away, or widens it.
-/

namespace FeatureQuery

/-- How a new filter combines with the active one. -/
inductive Mode where
  /-- The new filter alone. -/
  | replace
  /-- Both filters. -/
  | and
  /-- The active filter, but not the new one. -/
  | andNot
  /-- Either filter. -/
  | or
  deriving DecidableEq

namespace Mode

instance : Inhabited Mode := ⟨.replace⟩

/-- All modes. -/
def all : List Mode := [.replace, .and, .andNot, .or]

/-- The name of a mode. -/
def name : Mode → String
  | .replace => "replace"
  | .and => "and"
  | .andNot => "and-not"
  | .or => "or"

/-- The mode of a name. -/
def ofName? (name : String) : Option Mode := all.find? fun mode => mode.name = name

/-- Whether the mode needs an active filter. -/
def needsPrevious (mode : Mode) : Bool := mode ≠ .replace

end Mode

end FeatureQuery
