import FeatureQuery.Cli.Run

/-!
# The program

The command line reads its arguments and the files they name, prepares the run, and writes the
result. Reports and errors go to the standard error output.
-/

namespace FeatureQuery.Cli

/-- How the program is used. -/
def helpText : String :=
  "Filters GeoJSON features by a query on their properties.\n\n" ++
  "Usage: featurequery [OPTIONS] --input <INPUT> <--query <QUERY>|--saved <SAVED>>\n\n" ++
  "Options:\n" ++
  "  -i, --input <INPUT>        Input records (.geojson, or one feature per line)\n" ++
  "  -l, --layer <LAYER>        Layer name (default: input file stem)\n" ++
  "  -q, --query <QUERY>        Filter query, e.g. \"nombre like 'C%' and poblacion > 1000\"\n" ++
  "  -s, --saved <SAVED>        Name of a query from the config file\n" ++
  "  -p, --previous <PREVIOUS>  Query already active on the layer, applied before --query\n" ++
  "  -m, --mode <MODE>          How --query combines with --previous: " ++
    "replace, and, and-not, or\n" ++
  "  -o, --output <OUTPUT>      Output file, or - for stdout [default: -]\n" ++
  "      --format <FORMAT>      Output format: csv, geojson, geojsonl\n" ++
  "  -t, --threads <THREADS>    Number of threads\n" ++
  "  -c, --config <CONFIG>      Configuration file (YAML or JSON)\n" ++
  "  -v, --verbose              Enable verbose output\n" ++
  "      --raw-patterns         Take LIKE patterns as written, % and _ included\n" ++
  "  -h, --help                 Print help\n" ++
  "  -V, --version              Print version\n"

/-- A usage error in words. -/
def UsageError.message : UsageError → String
  | .missingArgument => "a required argument is missing"
  | .conflict => "arguments exclude each other, or one is given twice"
  | .unknownArgument => "unexpected argument"
  | .invalidValue => "an option lacks its value, or does not allow the one given"
  | .malformedValue => "a number was expected"
  | .unexpectedValue => "an option that takes no value was given one"
  | .help => helpText
  | .version => "featurequery 0.1.0\n"

/-- Adds the file at a path to those that were found, if there is one. -/
def readPath (found : OrderedMap ByteArray × List String) (path : String) :
    IO (OrderedMap ByteArray × List String) := do
  let (files, unreadable) := found
  try
    let content ← IO.FS.readBinFile path
    pure (files.put path content, unreadable)
  catch
    | .permissionDenied .. => pure (files.put path .empty, path :: unreadable)
    | _ => pure found

/-- Carries out a run with the files of the system. -/
def Options.perform (o : Options) : IO UInt32 := do
  let (files, unreadable) ← (o.paths Config.yamlAndJson).foldlM readPath (OrderedMap.empty, [])
  let prepared := o.prepare (Host.ofFound files unreadable)
  for event in prepared.events do
    IO.eprintln event.line
  match prepared.result with
  | .error e =>
    for line in e.chain do
      IO.eprintln line
    pure 1
  | .ok e =>
    if Path.isStdout o.output then
      IO.print e.text
      pure 0
    else
      try
        IO.FS.writeFile o.output e.text
        pure 0
      catch error =>
        IO.eprintln (toString error)
        pure 1

end FeatureQuery.Cli

/-- Runs the command line. -/
def main (arguments : List String) : IO UInt32 := do
  match FeatureQuery.Cli.Options.read arguments (← IO.getEnv "FILTERSEARCH_CONFIG") with
  | .ok options => options.perform
  | .error .help =>
    IO.print FeatureQuery.Cli.helpText
    pure 0
  | .error .version =>
    IO.print FeatureQuery.Cli.UsageError.version.message
    pure 0
  | .error e =>
    IO.eprintln ("error: " ++ e.message)
    pure 2
