import ContractGen.Files.Path

/-!
# Command-line arguments

A command line is a subcommand and its options. An option takes a value, which is attached to it or
is the next argument: `-g FILE`, `-gFILE`, `-g=FILE`, `--graph FILE`, `--graph=FILE`. Each option
may stand once, and nothing else may stand beside them.
-/

namespace ContractGen

namespace Command

open Files (Path)

/-- The options of commands. -/
inductive Opt where
  /-- The file of the graph. -/
  | graph
  /-- The file to write. -/
  | output
  /-- The namespace. -/
  | scope
  /-- The file of the configuration. -/
  | config
  /-- The directory of templates. -/
  | templates
  /-- The language. -/
  | language
deriving DecidableEq, Repr

namespace Opt

/-- The name of an option. -/
def name : Opt → String
  | .graph => "graph"
  | .output => "output"
  | .scope => "namespace"
  | .config => "config"
  | .templates => "templates"
  | .language => "lang"

/-- The letter of an option: the first of its name. -/
def letter (o : Opt) : Option Char := o.name.toList.head?

/-- Whether a value fits an option: a path must not be empty. -/
def accepts (o : Opt) (value : String) : Bool :=
  match o with
  | .scope => true
  | .language => true
  | _ => !value.isEmpty

end Opt

/-- The options of `generate`. -/
def generateOpts : List Opt := [.graph, .output, .scope, .config, .templates, .language]

/-- The options of `validate`. -/
def validateOpts : List Opt := [.graph]

/-- Options with their values. -/
abbrev Values := List (Opt × String)

/-- An argument, as far as it can be told by itself. -/
inductive Argument where
  /-- An option that takes the next argument as its value. -/
  | opened (o : Opt)
  /-- An option with its value. -/
  | given (o : Opt) (value : String)
  /-- The end of the options. -/
  | separator
  /-- The wish for help. -/
  | help
  /-- Anything else. -/
  | other
deriving DecidableEq, Repr

/-- The name and the value of an argument with an equals sign. -/
def splitEquals (cs : List Char) : List Char × Option String :=
  match cs.dropWhile (· != '=') with
  | [] => (cs, none)
  | _ :: value => (cs.takeWhile (· != '='), some (String.ofList value))

/-- What an argument is, given the options of the command. -/
def classify (opts : List Opt) (arg : String) : Argument :=
  match arg.toList with
  | ['-', '-'] => .separator
  | '-' :: '-' :: cs =>
    let (name, value) := splitEquals cs
    if String.ofList name = "help" then (if value.isNone then .help else .other)
    else
      match opts.find? (fun o => o.name = String.ofList name), value with
      | some o, some v => .given o v
      | some o, none => .opened o
      | none, _ => .other
  | '-' :: c :: rest =>
    if c = 'h' then .help
    else
      match opts.find? (fun o => o.letter = some c), rest with
      | some o, [] => .opened o
      | some o, '=' :: value => .given o (String.ofList value)
      | some o, value => .given o (String.ofList value)
      | none, _ => .other
  | _ => .other

/-- Whether an argument can be the value of the option before it: it is no option itself. -/
def isValue (arg : String) : Bool :=
  match arg.toList with
  | '-' :: _ :: _ => false
  | _ => true

/-- Why a command line says nothing. -/
inductive Usage where
  /-- It asks for help. -/
  | help
  /-- It is wrong. -/
  | wrong
deriving DecidableEq, Repr

/-- What the program tells about itself. -/
def helpText : String :=
  "Schemaforge - typed C# contracts from resolved schema graphs\n\n" ++
  "Usage: schemaforge <COMMAND>\n\n" ++
  "Commands:\n" ++
  "  generate  -g FILE [-o FILE] [-n NAMESPACE] [-c FILE] [-t DIRECTORY] [-l LANGUAGE]\n" ++
  "  validate  -g FILE\n" ++
  "  version\n" ++
  "  help\n"

/-- Add the value of an option, unless it has one. -/
def addValue (values : Values) (o : Opt) (value : String) : Except Usage Values :=
  if (values.lookup o).isSome || !o.accepts value then .error .wrong
  else .ok (values ++ [(o, value)])

/-- Read options after those of `values`. -/
def readOptions (opts : List Opt) (values : Values) : List String → Except Usage Values
  | [] => .ok values
  | [arg] =>
    match classify opts arg with
    | .given o value => addValue values o value
    | .separator => .ok values
    | .help => .error .help
    | _ => .error .wrong
  | arg :: next :: rest =>
    match classify opts arg with
    | .opened o =>
      if isValue next then
        match addValue values o next with
        | .ok values => readOptions opts values rest
        | .error u => .error u
      else .error .wrong
    | .given o value =>
      match addValue values o value with
      | .ok values => readOptions opts values (next :: rest)
      | .error u => .error u
    | .help => .error .help
    | _ => .error .wrong

/-- What is to be done. -/
inductive Job where
  /-- Generate code from a graph. -/
  | generate (graph : Path) (options : Values)
  /-- Check a graph. -/
  | validate (graph : Path)
  /-- Tell the version. -/
  | version
deriving DecidableEq, Repr

/-- The graph among the options, which must be there. -/
def needGraph (values : Values) : Except Usage Path :=
  match values.lookup .graph with
  | some path => .ok path
  | none => .error .wrong

/-- The commands. -/
def commandNames : List String := ["generate", "validate", "version", "help"]

/-- What comes of the command `help`: it takes one command at most. -/
def helpOn : List String → Usage
  | [] => .help
  | [name] => if name ∈ commandNames then .help else .wrong
  | _ => .wrong

/-- What a command line says. -/
def parse : List String → Except Usage Job
  | "generate" :: args => do
    let values ← readOptions generateOpts [] args
    return .generate (← needGraph values) values
  | "validate" :: args => do
    let values ← readOptions validateOpts [] args
    return .validate (← needGraph values)
  | "version" :: args => do
    let _ ← readOptions [] [] args
    return .version
  | "help" :: args => .error (helpOn args)
  | arg :: _ => if classify [] arg = .help then .error .help else .error .wrong
  | [] => .error .wrong

end Command

end ContractGen
