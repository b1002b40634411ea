import ContractGen.Command.Arguments
import ContractGen.Config
import ContractGen.Generation
import ContractGen.Schema.Document
import ContractGen.Template.Overrides

/-!
# Running commands

`run` does what a command line says, with any template engine and with access to files in any
monad. Its `Outcome` has the exit code and everything that was said: standard output, log lines, and
the error message if it failed. A command that generates code touches no file before the code is
there.
-/

namespace ContractGen

namespace Command

open Files (Access Path)
open Schema (Graph)
open Template (Engine)

/-! ### What commands say -/

/-- How much a log line matters. -/
inductive Level where
  /-- It tells what is done. -/
  | info
  /-- It tells what is left out. -/
  | warning
deriving DecidableEq, Repr

/-- A log line. -/
structure LogLine where
  /-- How much it matters. -/
  level : Level
  /-- What it says. -/
  message : String
deriving DecidableEq, Repr

/-- The log line as it is printed. -/
def LogLine.text (line : LogLine) : String :=
  (match line.level with
    | .info => "INFO "
    | .warning => "WARN ") ++ line.message

/-- Why a command fails. -/
structure Failure where
  /-- The error message. -/
  message : String
  /-- What is behind it. -/
  cause : Option String := none
deriving DecidableEq, Repr

/-- The failure as it is printed. -/
def Failure.text (f : Failure) : String :=
  "Error: " ++ f.message ++ "\n" ++
    (match f.cause with
      | some cause => "\nCaused by:\n    " ++ cause ++ "\n"
      | none => "")

/-- How a command ended. -/
structure Outcome where
  /-- The exit code. -/
  exit : Nat
  /-- What it printed. -/
  stdout : String := ""
  /-- What it logged, in order. -/
  logs : List LogLine := []
  /-- Its error message; a wrong command line has none of its own. -/
  stderr : Option String := some ""
deriving DecidableEq, Repr

/-- A command at work: it logs, and it may fail. -/
abbrev Work (m : Type → Type) := ExceptT Failure (StateT (List LogLine) m)

variable {m : Type → Type} [Monad m]

/-- Log a line. -/
def log (level : Level) (message : String) : Work m Unit :=
  modify (· ++ [⟨level, message⟩])

/-- An operation on files, as a part of a command. -/
def files {α : Type} (action : m α) : Work m α := ExceptT.lift (StateT.lift action)

/-- A result that fails the command by its own words. -/
def orFail {ε α : Type} (failure : ε → Failure) : Except ε α → Work m α
  | .ok a => pure a
  | .error e => throw (failure e)

/-! ### Loading -/

/-- The name of configuration files that are looked for. -/
def configFileName : String := "schemaforge.toml"

/-- The failure of a configuration. -/
def configFailure (e : ConfigError) : Failure :=
  match e with
  | .unreadable error => ⟨e.message, some error.message⟩
  | _ => ⟨e.message, none⟩

/-- The configuration file of the nearest directory that has one, from the working directory up. -/
def findConfig (fs : Access m) : m (Option Path) := do
  let dir ← fs.currentDir
  fs.firstFile (dir.ancestors.map fun d => d.join configFileName)

/-- The configuration: that of the file which is asked for, or else of the one that is found. -/
def loadConfig (fs : Access m) (asked : Option Path) : Work m Config := do
  let path ← match asked with
    | some path => pure (some path)
    | none => files (findConfig fs)
  match path with
  | none => return {}
  | some path =>
    log .info ("Using config: " ++ path)
    orFail configFailure (← files (Config.load fs path))

/-- The configuration with what options say in place of it. -/
def applyOptions (c : Config) (options : Values) : Except Failure Config := do
  let language ← match options.lookup .language with
    | none => pure c.language
    | some name =>
      match Language.ofName? name with
      | some language => pure language
      | none => throw { message := "Unsupported language: " ++ name }
  return { c with
    language
    scope := (options.lookup .scope).or c.scope
    templateDirectory := (options.lookup .templates).or c.templateDirectory }

/-- The templates of a configuration. -/
def loadTemplates (engine : Engine) (fs : Access m) (c : Config) : Work m engine.Templates :=
  match c.templateDirectory with
  | none => return engine.builtin
  | some dir => do
    orFail (fun e => ⟨"Template error: " ++ e.message, none⟩) (← files (engine.load fs dir))

/-- The graph of a file. -/
def loadGraph (fs : Access m) (path : Path) : Work m Graph := do
  log .info ("Loading schema graph: " ++ path)
  let text ← orFail (fun e => ⟨"File not found: " ++ path ++ ": " ++ e.message, none⟩)
    (← files (fs.readText path))
  orFail (fun e => ⟨e.message, none⟩) (Graph.load text)

/-! ### Generating -/

/-- The failure of a generation. -/
def generationFailure : GenerationError String → Failure
  | .endlessType => { message := "Arrays and unions without a name contain each other" }
  | .template message => { message := "Template error: " ++ message }

/-- Generate a file, and log what is left out. -/
def generateFile (c : Config) (render : Renderer String) (g : Graph) : Work m GeneratedFile := do
  log .info s!"Generating {c.language.displayName} code for {g.size} schema nodes"
  for fault in notedFaults render c.settings (Plan.eventsOf g c.rootTypeName) do
    log .warning ("Skipping " ++ fault.message)
  let file ← orFail generationFailure (generate render c.settings g)
  if file.hasFaults then
    log .warning s!"Generation finished with {file.faults.length} skipped schema nodes"
  log .info s!"Generated {file.artifacts.length} artifacts"
  return file

/-- Everything that `generate` does before it writes. -/
def prepare (engine : Engine) (fs : Access m) (graph : Path) (options : Values) :
    Work m GeneratedFile := do
  log .info ("Generating code from schema graph: " ++ graph)
  let c ← loadConfig fs (options.lookup .config)
  let c ← orFail id (applyOptions c options)
  let templates ← loadTemplates engine fs c
  let g ← loadGraph fs graph
  generateFile c (engine.render templates) g

/-- Generate code, and write it to a file or print it. The result is what is printed. -/
def runGenerate (engine : Engine) (fs : Access m) (graph : Path) (options : Values) :
    Work m String := do
  let file ← prepare engine fs graph options
  match options.lookup .output with
  | none => return file.code
  | some path =>
    orFail (fun e => ⟨Files.Error.message e, none⟩) (← files (fs.writeOutput path file.code))
    log .info s!"✓ Wrote {file.artifacts.length} artifacts to {path}"
    return ""

/-! ### Checking -/

/-- The number of objects, of enumerations and of unions of a graph. -/
def kindCounts (g : Graph) : Nat × Nat × Nat :=
  g.nodes.toList.foldl (fun (objects, enumerations, unions) node =>
    match node.kind with
    | .object _ => (objects + 1, enumerations, unions)
    | .enumeration _ => (objects, enumerations + 1, unions)
    | .union _ => (objects, enumerations, unions + 1)
    | _ => (objects, enumerations, unions)) (0, 0, 0)

/-- Check a graph, and log how large it is. -/
def runValidate (fs : Access m) (graph : Path) : Work m String := do
  log .info ("Validating schema graph: " ++ graph)
  if !(← files (fs.isFile graph)) then
    throw { message := "Schema graph not found: " ++ graph }
  let g ← loadGraph fs graph
  log .info "✓ Schema graph validation passed!"
  log .info s!"  - {g.size} nodes, root {g.root.label}"
  let (objects, enumerations, unions) := kindCounts g
  log .info s!"  - {objects} objects"
  log .info s!"  - {enumerations} enumerations"
  log .info s!"  - {unions} unions"
  return ""

/-! ### Commands -/

/-- The version of the program. -/
def versionText : String := "schemaforge 0.1.0\n"

/-- Do a job; the result is what is printed. -/
def work (engine : Engine) (fs : Access m) : Job → Work m String
  | .generate graph options => runGenerate engine fs graph options
  | .validate graph => runValidate fs graph
  | .version => return versionText

/-- Do a job to its end. -/
def runJob (engine : Engine) (fs : Access m) (job : Job) : m Outcome := do
  match ← (work engine fs job).run.run [] with
  | (.ok stdout, logs) => return { exit := 0, stdout, logs }
  | (.error failure, logs) => return { exit := 1, logs, stderr := some failure.text }

/-- Do what a command line says. -/
def run (engine : Engine) (fs : Access m) (args : List String) : m Outcome :=
  match parse args with
  | .ok job => runJob engine fs job
  | .error .help => return { exit := 0, stdout := helpText }
  | .error .wrong => return { exit := 2, stderr := none }

end Command

end ContractGen
