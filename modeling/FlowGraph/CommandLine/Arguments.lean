import FlowGraph.Keyed

/-!
# Arguments of a command

Options are named by a letter after one dash or a word after two, and may take a value, which
stands in the same argument or in the next one. `Arguments.read` sorts the arguments of a command
into options and the rest.
-/

namespace FlowGraph.CommandLine

/-- Why a command line is not carried out. -/
inductive UsageFault where
  /-- It asks for help. -/
  | help
  | invalid
deriving DecidableEq, Repr

/-- An option of a command. -/
structure OptionSpec where
  letter : Char
  word : String
  takesValue : Bool := true
  /-- Whether the value may be empty. -/
  mayBeEmpty : Bool := false
deriving DecidableEq, Repr

/-- What the arguments of a command give. -/
structure Arguments where
  /-- The options by their words; those without a value have an empty one. -/
  options : Keyed String := []
  rest : List String := []
deriving DecidableEq, Repr

namespace Arguments

/-- Set an option, which must not be set already. -/
def setOption (args : Arguments) (spec : OptionSpec) (value : String) :
    Except UsageFault Arguments :=
  if Keyed.contains args.options spec.word then .error .invalid
  else if value = "" ∧ spec.takesValue ∧ ¬spec.mayBeEmpty then .error .invalid
  else .ok { args with options := args.options ++ [(spec.word, value)] }

/-- Whether an argument can be a value of its own: a dash alone can. -/
def isValue (arg : String) : Bool :=
  arg = "-" || !arg.startsWith "-"

/-- Read an option with its value in the next argument. -/
def setFromNext (args : Arguments) (spec : OptionSpec) :
    List String → Except UsageFault (Arguments × List String)
  | value :: more =>
    if isValue value then do .ok (← args.setOption spec value, more) else .error .invalid
  | [] => .error .invalid

/-- Read an option named by a word, with the value after an equals sign if there is one. -/
def readWord (specs : List OptionSpec) (args : Arguments) (text : List Char)
    (more : List String) : Except UsageFault (Arguments × List String) :=
  let word := String.ofList (text.takeWhile (· ≠ '='))
  let attached := (text.dropWhile (· ≠ '=')).tail?
  if word = "help" then .error (if attached.isSome then .invalid else .help)
  else match specs.find? fun spec => spec.word = word with
    | none => .error .invalid
    | some spec =>
      match spec.takesValue, attached with
      | true, some value => do .ok (← args.setOption spec (String.ofList value), more)
      | true, none => args.setFromNext spec more
      | false, some _ => .error .invalid
      | false, none => do .ok (← args.setOption spec "", more)

/-- Read options named by letters. What follows the letter of an option with a value is the
value. -/
def readLetters (specs : List OptionSpec) (args : Arguments) :
    List Char → List String → Except UsageFault (Arguments × List String)
  | [], more => .ok (args, more)
  | c :: text, more =>
    if c = 'h' then .error .help
    else match specs.find? fun spec => spec.letter = c with
      | none => .error .invalid
      | some spec =>
        if spec.takesValue then
          match text with
          | [] => args.setFromNext spec more
          | '=' :: value => do .ok (← args.setOption spec (String.ofList value), more)
          | value => do .ok (← args.setOption spec (String.ofList value), more)
        else do readLetters specs (← args.setOption spec "") text more

/-- Read arguments one after the other; `plain` is how many may be no options. -/
def readAll (specs : List OptionSpec) (plain : Nat) :
    Nat → Arguments → List String → Except UsageFault Arguments
  | 0, args, _ => .ok args
  | _ + 1, args, [] => .ok args
  | fuel + 1, args, arg :: more =>
    let addPlain (args : Arguments) (values : List String) : Except UsageFault Arguments :=
      if plain < args.rest.length + values.length ∨ values.contains "" then .error .invalid
      else .ok { args with rest := args.rest ++ values }
    match arg.toList with
    | ['-', '-'] => addPlain args more
    | '-' :: '-' :: text => do
      let (args, more) ← readWord specs args text more
      readAll specs plain fuel args more
    | '-' :: c :: text => do
      let (args, more) ← readLetters specs args (c :: text) more
      readAll specs plain fuel args more
    | _ => do readAll specs plain fuel (← addPlain args [arg]) more

/-- Read the arguments of a command. -/
def read (specs : List OptionSpec) (plain : Nat) (args : List String) :
    Except UsageFault Arguments :=
  readAll specs plain (args.length + 1) {} args

/-- The value of an option. -/
def option? (args : Arguments) (word : String) : Option String :=
  Keyed.get? args.options word

end Arguments

end FlowGraph.CommandLine
