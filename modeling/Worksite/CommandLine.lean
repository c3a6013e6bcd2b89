import Worksite.CommandLine.Help
import Worksite.Request

/-!
The command line: its verbs, what they take, and the commands that they stand for.
-/
namespace Worksite

/-- What is to be done. -/
inductive Command where
  | serve
  | stop
  | health
  | config (full : Bool)
  | ask (request : Request)
  deriving DecidableEq, Repr

/-- A command with the path of the settings. -/
structure Invocation where
  settings : String
  command : Command
  deriving DecidableEq, Repr

/-- Why no command is carried out. -/
inductive CommandLine.Halt where
  | usage
  /-- A text is shown instead. -/
  | shown (text : String)
  deriving DecidableEq, Repr

namespace CommandLine

def program : String := "burrow"

def version : String := "0.1.0"

/-- The name and the version of the program. -/
def versionLine : String := program ++ " " ++ version ++ "\n"

/-- A verb, with the command that its arguments stand for. -/
structure Verb where
  name : String
  about : String
  slots : List Slot := []
  flags : List Flag := []
  command : Given → Command

def helpFlag : Flag := { short := some 'h', long := "help", takes := .help, help := "Print help" }

def includeFlag (help : String) : Flag :=
  { short := some 'i', long := "include", takes := .texts "INCLUDE", help }

def excludeFlag (help : String) : Flag :=
  { short := some 'e', long := "exclude", takes := .texts "EXCLUDE", help }

def limitFlag (default : String) : Flag :=
  { short := some 'l', long := "limit", takes := .number "LIMIT", default := some default }

def Given.number? (g : Given) (flag : String) : Option Int :=
  (g.value? flag).bind CommandLine.number?

def serveVerb : Verb where
  name := "serve"
  about := "Run the daemon in the foreground"
  command _ := .serve

def stopVerb : Verb where
  name := "stop"
  about := "Ask a running daemon to shut down"
  command _ := .stop

def healthVerb : Verb where
  name := "health"
  about := "Show daemon health"
  command _ := .health

def configVerb : Verb where
  name := "config"
  about := "Validate and display configuration"
  flags := [{ long := "show", takes := .nothing, help := "Show the resolved configuration" }]
  command g := .config (g.has "show")

def listVerb : Verb where
  name := "list"
  about := "List workspace files"
  slots := [{ name := "ROOT", help := "Subdirectory to walk instead of the workspace root" }]
  flags := [includeFlag "Include glob (repeatable)", excludeFlag "Exclude glob (repeatable)",
    limitFlag "1000"]
  command g := .ask (.listFiles {
    root := g.words.head?
    including := g.valuesOf "include"
    excluding := g.valuesOf "exclude"
    limit := (g.number? "limit").getD 1000 })

def readVerb : Verb where
  name := "read"
  about := "Read a file, optionally a 1-based inclusive line range"
  slots := [{ name := "PATH", required := true }]
  flags := [{ long := "start", takes := .number "START" }, { long := "end", takes := .number "END" }]
  command g := .ask (.readLines {
    path := g.words.head?.getD ""
    first := g.number? "start"
    last := g.number? "end" })

def searchVerb : Verb where
  name := "search"
  about := "Search file contents"
  slots := [{ name := "QUERY", required := true }]
  flags := [
    { short := some 'r', long := "regex", takes := .nothing,
      help := "Treat the query as a regular expression" },
    { short := some 's', long := "case-sensitive", takes := .nothing },
    includeFlag "", excludeFlag "", limitFlag "200"]
  command g := .ask (.search {
    query := g.words.head?.getD ""
    including := g.valuesOf "include"
    excluding := g.valuesOf "exclude"
    regex := g.has "regex"
    caseSensitive := g.has "case-sensitive"
    limit := (g.number? "limit").getD 200 })

def indexVerb : Verb where
  name := "index"
  about := "Rebuild the symbol index"
  slots := [
    { name := "PATHS", many := true, help := "Paths to index; defaults to the whole workspace" }]
  flags := [{ short := some 'L', long := "language", takes := .texts "LANGUAGES" }]
  command g := .ask (.indexSymbols { paths := g.words, languages := g.valuesOf "language" })

def symbolsVerb : Verb where
  name := "symbols"
  about := "Query the symbol index"
  slots := [{ name := "NAME", help := "Case-insensitive name fragment" }]
  flags := [
    { short := some 'k', long := "kind", takes := .text "KIND",
      help := "\x60function\x60 or \x60class\x60" },
    { short := some 'L', long := "language", takes := .text "LANGUAGE" }]
  command g := .ask (.searchSymbols {
    kind := g.value? "kind"
    name := g.words.head?
    language := g.value? "language" })

def depsVerb : Verb where
  name := "deps"
  about := "Build the import dependency graph"
  slots := [{ name := "ROOT" }]
  flags := [includeFlag "", excludeFlag ""]
  command g := .ask (.graphDependencies {
    root := g.words.head?
    including := g.valuesOf "include"
    excluding := g.valuesOf "exclude" })

def verbs : List Verb :=
  [serveVerb, stopVerb, healthVerb, configVerb, listVerb, readVerb, searchVerb, indexVerb,
    symbolsVerb, depsVerb]

/-- The flags that come before the verb. -/
def flags : List Flag :=
  [{ short := some 'c', long := "config", takes := .path "CONFIG",
      help := "Path to configuration file", default := some "burrow.toml" },
    { short := some 'v', long := "verbose", takes := .often,
      help := "Increase log verbosity (-v, -vv, -vvv)" },
    helpFlag,
    { short := some 'V', long := "version", takes := .version, help := "Print version" }]

def programHelp : String :=
  help "Command-line front end for the burrow workspace daemon" program
    (verbs.map (fun v => (v.name, v.about)) ++
      [("help", "Print this message or the help of the given subcommand(s)")]) [] flags

def Verb.allFlags (v : Verb) : List Flag := v.flags ++ [helpFlag]

def Verb.help (v : Verb) : String :=
  CommandLine.help v.about (program ++ " " ++ v.name) [] v.slots v.allFlags

def verb? (name : String) : Option Verb := verbs.find? (·.name = name)

/-- What comes of a refusal, where `text` would help. -/
def Refusal.halt (text : String) : Refusal → Halt
  | .usage => .usage
  | .version => .shown versionLine
  | .help => .shown text

/-- The help that is asked for by name. -/
def helpFor : List String → Halt
  | [] => .shown programHelp
  | [name] => (verb? name).elim .usage fun v => .shown v.help
  | _ => .usage

/-- Reads the arguments of a verb. -/
def Verb.read (v : Verb) (arguments : List String) : Except Halt Command := do
  let (g, _) ← (readArguments v.allFlags false {} none arguments).mapError (Refusal.halt v.help)
  if fits v.slots g.words then return v.command g else .error .usage

def parse (arguments : List String) : Except Halt Invocation := do
  let (g, rest) ← (readArguments flags true {} none arguments).mapError (Refusal.halt programHelp)
  match rest with
  | [] => .error .usage
  | "help" :: names => .error (helpFor names)
  | name :: arguments =>
    match verb? name with
    | none => .error .usage
    | some v =>
      return { settings := (g.value? "config").getD "burrow.toml", command := ← v.read arguments }

end CommandLine

end Worksite
