import FlowGraph.CommandLine.Arguments

/-!
# Commands

The commands of the program, read from its arguments.
-/

namespace FlowGraph.CommandLine

/-- What the program is told to do. -/
inductive Command where
  /-- Run a workflow file. -/
  | run (file : String) (input config : Option String) (verbose : Bool)
  /-- Check a workflow file. -/
  | validate (file : String)
  /-- List the categories of nodes. -/
  | nodes
  /-- Write an example workflow. -/
  | init (output : String)
deriving DecidableEq, Repr

namespace Command

/-- The options of running. -/
def runOptions : List OptionSpec :=
  [{ letter := 'f', word := "file" }, { letter := 'i', word := "input", mayBeEmpty := true },
    { letter := 'c', word := "config" },
    { letter := 'v', word := "verbose", takesValue := false }]

/-- The names that a command line may begin with. -/
def names : List String := ["run", "validate", "nodes", "init", "help"]

/-- The command that arguments give. -/
def ofArguments : List String → Except UsageFault Command
  | "run" :: args => do
    let a ← Arguments.read runOptions 0 args
    match a.option? "file" with
    | some file =>
      .ok (.run file (a.option? "input") (a.option? "config") (a.option? "verbose").isSome)
    | none => .error .invalid
  | "validate" :: args => do
    match (← Arguments.read [] 1 args).rest with
    | [file] => .ok (.validate file)
    | _ => .error .invalid
  | "nodes" :: args => do
    let _ ← Arguments.read [] 0 args
    .ok .nodes
  | "init" :: args => do
    let a ← Arguments.read [{ letter := 'o', word := "output" }] 0 args
    .ok (.init ((a.option? "output").getD "workflow.json"))
  | ["help"] => .error .help
  | "help" :: name :: _ => .error (if names.contains name then .help else .invalid)
  | arg :: _ => .error (if arg = "--help" ∨ arg = "-h" then .help else .invalid)
  | [] => .error .invalid

/-- How the program is used. -/
def usage : String :=
  "Workflow graph runner\n\nUsage: graphflow <COMMAND>\n\nCommands:\n"
    ++ "  run       Execute a workflow file\n"
    ++ "  validate  Validate a workflow file\n"
    ++ "  nodes     List available node types\n"
    ++ "  init      Create a new example workflow\n"

end Command

end FlowGraph.CommandLine
