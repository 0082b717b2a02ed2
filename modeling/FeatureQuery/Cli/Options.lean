import FeatureQuery.Export.Format
import FeatureQuery.Predicate.Mode

/-!
# Command-line options

Arguments are read from left to right. An option takes its value from the same argument or from the
next one, unless that begins with a hyphen and has more to it. A value given in an argument of its
own is checked only when the next option that is known comes up or the arguments end; an argument
that is no option is refused at once. When all have been read, a query and a saved query exclude
each other, one of them must be given, and so must the input.
-/

namespace FeatureQuery.Cli

/-- Why arguments are refused, or what they ask for instead of a run. -/
inductive UsageError where
  /-- A required argument is missing. -/
  | missingArgument
  /-- Two arguments exclude each other, or one is given twice. -/
  | conflict
  /-- An argument is no option. -/
  | unknownArgument
  /-- An option lacks its value, or does not allow the one given. -/
  | invalidValue
  /-- A number was asked for. -/
  | malformedValue
  /-- A flag was given a value. -/
  | unexpectedValue
  /-- The help is asked for. -/
  | help
  /-- The version is asked for. -/
  | version
  deriving DecidableEq

/-- A command-line option. -/
inductive Flag where
  /-- The input file. -/
  | input
  /-- The layer name. -/
  | layer
  /-- The query. -/
  | query
  /-- The name of a query in the settings. -/
  | saved
  /-- The query that is active already. -/
  | previous
  /-- How the query combines with it. -/
  | mode
  /-- The output file. -/
  | output
  /-- The output format. -/
  | format
  /-- How many threads may be used. -/
  | threads
  /-- The settings file. -/
  | config
  /-- More messages. -/
  | verbose
  /-- Patterns as they are written. -/
  | rawPatterns
  /-- The help. -/
  | help
  /-- The version. -/
  | version
  deriving DecidableEq

namespace Flag

/-- All options. -/
def all : List Flag :=
  [.input, .layer, .query, .saved, .previous, .mode, .output, .format, .threads, .config, .verbose,
    .rawPatterns, .help, .version]

/-- The name after two hyphens. -/
def longName : Flag → String
  | .input => "input"
  | .layer => "layer"
  | .query => "query"
  | .saved => "saved"
  | .previous => "previous"
  | .mode => "mode"
  | .output => "output"
  | .format => "format"
  | .threads => "threads"
  | .config => "config"
  | .verbose => "verbose"
  | .rawPatterns => "raw-patterns"
  | .help => "help"
  | .version => "version"

/-- The letter after one hyphen. -/
def letter? : Flag → Option Char
  | .input => some 'i'
  | .layer => some 'l'
  | .query => some 'q'
  | .saved => some 's'
  | .previous => some 'p'
  | .mode => some 'm'
  | .output => some 'o'
  | .format => none
  | .threads => some 't'
  | .config => some 'c'
  | .verbose => some 'v'
  | .rawPatterns => none
  | .help => some 'h'
  | .version => some 'V'

/-- The option of a name. -/
def ofLongName? (name : List Char) : Option Flag := all.find? fun f => f.longName.toList = name

/-- The option of a letter. -/
def ofLetter? (c : Char) : Option Flag := all.find? fun f => f.letter? = some c

/-- Whether the option takes a value. -/
def takesValue : Flag → Bool
  | .verbose | .rawPatterns | .help | .version => false
  | _ => true

/-- Whether a text counts threads: digits after an optional plus sign, within 64 bits. -/
def isCount (value : String) : Bool :=
  let digits := match value.toList with
    | '+' :: rest => rest
    | cs => cs
  digits != [] && digits.all Char.isDigit && Nat.ofDigitChars 10 digits 0 < UInt64.size

/-- Checks the value of an option. -/
def checkValue (f : Flag) (value : String) : Except UsageError Unit :=
  match f with
  | .input | .output | .config => if value = "" then .error .invalidValue else .ok ()
  | .mode => if (Mode.ofName? value).isNone then .error .invalidValue else .ok ()
  | .format => if (OutputFormat.ofName? value).isNone then .error .invalidValue else .ok ()
  | .threads => if isCount value then .ok () else .error .malformedValue
  | _ => .ok ()

end Flag

/-! ### Reading arguments -/

/-- The arguments read so far. -/
structure Arguments where
  /-- The options that are settled, with their values. -/
  given : List (Flag × String)
  /-- The option read last, with the value that came in an argument of its own, if that is not
  settled yet. -/
  pending : Option (Flag × Option String)

namespace Arguments

/-- The value of an option. -/
def value? (given : List (Flag × String)) (f : Flag) : Option String :=
  (given.find? fun entry => entry.1 = f).map Prod.snd

/-- Settles an option: its value must be there, the option must be new, and the value must be one
that it allows. -/
def settle (given : List (Flag × String)) (f : Flag) (value : Option String) :
    Except UsageError (List (Flag × String)) :=
  match f, value with
  | .help, _ => .error .help
  | .version, _ => .error .version
  | f, none =>
    if f.takesValue then .error .invalidValue
    else if (value? given f).isSome then .error .conflict
    else .ok (given ++ [(f, "")])
  | f, some value =>
    if (value? given f).isSome then .error .conflict
    else (f.checkValue value).map fun _ => given ++ [(f, value)]

/-- Settles the option that is pending. -/
def resolve (a : Arguments) : Except UsageError (List (Flag × String)) :=
  match a.pending with
  | none => .ok a.given
  | some (f, value) => settle a.given f value

/-- Reads an option that has its value in the same argument, or has none. -/
def readAttached (a : Arguments) (f : Flag) (value : Option String) :
    Except UsageError Arguments := do
  let given ← a.resolve
  let given ← settle given f value
  .ok ⟨given, none⟩

/-- Reads an option that may take its value from the next argument. -/
def readOpen (a : Arguments) (f : Flag) : Except UsageError Arguments := do
  let given ← a.resolve
  .ok ⟨given, some (f, none)⟩

/-- Reads an argument after two hyphens: a name, with a value after an equals sign if there is one.
-/
def readLong (a : Arguments) (cs : List Char) : Except UsageError Arguments :=
  match Flag.ofLongName? (cs.takeWhile (· ≠ '=')), cs.dropWhile (· ≠ '=') with
  | none, _ => .error .unknownArgument
  | some f, [] => if f.takesValue then a.readOpen f else a.readAttached f none
  | some f, _ :: value =>
    if f.takesValue then a.readAttached f (some (String.ofList value))
    else .error .unexpectedValue

/-- Reads an argument after one hyphen: letters of flags, and perhaps the letter of an option with
its value after it. -/
def readLetters (a : Arguments) : List Char → Except UsageError Arguments
  | [] => .ok a
  | c :: cs =>
    match Flag.ofLetter? c with
    | none => .error .unknownArgument
    | some f =>
      if f.takesValue then
        match cs with
        | [] => a.readOpen f
        | '=' :: value => a.readAttached f (some (String.ofList value))
        | value => a.readAttached f (some (String.ofList value))
      else do
        let a ← a.readAttached f none
        a.readLetters cs

/-- Reads an argument that is no option: the value of the option before it, or nothing that is
known. -/
def readPlain (a : Arguments) (arg : String) : Except UsageError Arguments :=
  match a.pending with
  -- the value is checked when the next option comes up or the arguments end
  | some (f, none) => .ok { a with pending := some (f, some arg) }
  | _ => .error .unknownArgument

/-- Reads arguments from left to right. After two hyphens alone nothing more is an option. -/
def read (a : Arguments) : List String → Except UsageError Arguments
  | [] => .ok a
  | arg :: rest =>
    match arg.toList with
    | ['-', '-'] => if rest = [] then .ok a else .error .unknownArgument
    | '-' :: '-' :: cs => (a.readLong cs).bind fun a => a.read rest
    | '-' :: c :: cs => (a.readLetters (c :: cs)).bind fun a => a.read rest
    | _ => (a.readPlain arg).bind fun a => a.read rest

end Arguments

/-! ### Options -/

/-- Where the query comes from. -/
inductive QuerySource where
  /-- The query itself. -/
  | text (query : String)
  /-- The name of a query in the settings. -/
  | saved (name : String)
  deriving DecidableEq

/-- What a run is asked to do. -/
structure Options where
  /-- The input file. -/
  input : String
  /-- The query. -/
  source : QuerySource
  /-- The layer name. -/
  layer : Option String := none
  /-- The query that is active already. -/
  previous : Option String := none
  /-- How the query combines with it. -/
  mode : Option Mode := none
  /-- The output file; a hyphen is the standard output. -/
  output : String := "-"
  /-- The output format. -/
  format : Option OutputFormat := none
  /-- The settings file. -/
  config : Option String := none
  /-- Whether patterns are taken as they are written. -/
  rawPatterns : Bool := false
  deriving DecidableEq

/-- The options of arguments that are settled. -/
def Options.ofGiven (given : List (Flag × String)) : Except UsageError Options :=
  let value? := Arguments.value? given
  match value? .query, value? .saved, value? .input with
  | some _, some _, _ => .error .conflict
  | none, none, _ => .error .missingArgument
  | _, _, none => .error .missingArgument
  | query, saved, some input =>
    .ok
      { input
        source := match query with
          | some query => .text query
          | none => .saved (saved.getD "")
        layer := value? .layer
        previous := value? .previous
        mode := (value? .mode).bind Mode.ofName?
        output := (value? .output).getD "-"
        format := (value? .format).bind OutputFormat.ofName?
        config := value? .config
        rawPatterns := (value? .rawPatterns).isSome }

/-- Reads the options from the arguments. The environment may name a settings file, which counts
when the arguments name none. -/
def Options.read (arguments : List String) (environment : Option String) :
    Except UsageError Options := do
  let a ← Arguments.read ⟨[], none⟩ arguments
  let given ← a.resolve
  let given ← match environment, Arguments.value? given .config with
    | some path, none => Arguments.settle given .config (some path)
    | _, _ => .ok given
  Options.ofGiven given

end FeatureQuery.Cli
