import ActivationOrder.Setup.Settings

/-!
The command line. Arguments are read from left to right, first at the top and then, after the name
of a command, at the command's own level; both levels know the global options. A value in an
argument of its own is held until the next argument is understood, and only then checked, so a
later unknown argument is reported before an earlier bad value; values held at the top wait until
the command's arguments have been read.
-/

namespace ActivationOrder

/-- How arguments fail to name a run of a command. -/
inductive Usage where
  | help
  | version
  | noArguments
  | missingSubcommand
  | invalidSubcommand
  | unknownArgument
  | invalidValue
  | argumentConflict
  | tooManyValues
  | missingRequiredArgument
  deriving DecidableEq, Repr

/-- The exit status: asking for help or the version is no failure. -/
def Usage.exit : Usage → Nat
  | .help => 0
  | .version => 0
  | _ => 2

/-- The shells that completion scripts are written for. -/
inductive Shell where
  | bash
  | zsh
  | fish
  | powerShell
  deriving DecidableEq, Repr

/-- The shell with this name. -/
def Shell.named? (name : String) : Option Shell :=
  if name = "bash" then some .bash
  else if name = "zsh" then some .zsh
  else if name = "fish" then some .fish
  else if name = "power-shell" then some .powerShell
  else none

/-- What is to be done. -/
inductive Command where
  | sort (units : List String) (list : Option Path)
  | «show» (units : List String) (list : Option Path)
  | check (units : List String) (list : Option Path)
  | index (output : Path)
  | completion (shell : Shell)
  deriving DecidableEq

/-- A command with its global options. -/
structure Invocation where
  context : Context
  command : Command

namespace Arguments

/-- The options that take a value. -/
inductive Opt where
  | cwd
  | index
  | declarations
  | list
  | output
  deriving DecidableEq

/-- The options that take none. -/
inductive Flag where
  | debug
  | quiet
  | json
  | help
  | version
  deriving DecidableEq

/-- Where arguments are read. -/
inductive Level where
  | top
  | units
  | index
  | completion
  deriving DecidableEq

/-- What an option's name stands for. -/
inductive Name where
  | opt (opt : Opt)
  | flag (flag : Flag)

/-- The option with a long name. -/
def longName? (level : Level) (name : String) : Option Name :=
  if name = "cwd" then some (.opt .cwd)
  else if name = "index" then some (.opt .index)
  else if name = "declarations" then some (.opt .declarations)
  else if name = "debug" then some (.flag .debug)
  else if name = "quiet" then some (.flag .quiet)
  else if name = "json" then some (.flag .json)
  else if name = "help" then some (.flag .help)
  else if name = "version" && level = .top then some (.flag .version)
  else if name = "from" && level = .units then some (.opt .list)
  else if name = "output" && level = .index then some (.opt .output)
  else none

/-- The option with a short name. -/
def shortName? (level : Level) (name : Char) : Option Name :=
  if name = 'q' then some (.flag .quiet)
  else if name = 'h' then some (.flag .help)
  else if name = 'V' && level = .top then some (.flag .version)
  else if name = 'o' && level = .index then some (.opt .output)
  else none

/-- The names of the commands, the one that asks for help included. -/
def commandNames : List String := ["sort", "show", "check", "index", "completion", "help"]

/-- A value that has not been checked. -/
inductive Held where
  | nothing
  /-- An option, and its value once that has been seen. -/
  | option (opt : Opt) (value : Option String)
  | shell (name : String)

/-- What has been read at a level. -/
structure State where
  values : List (Opt × String) := []
  flags : List Flag := []
  /-- The units, the last one first. -/
  units : List String := []
  shell : Option Shell := none
  shellSeen : Bool := false
  held : Held := .nothing
  /-- Whether only operands follow. -/
  trailing : Bool := false

namespace State

/-- Whether the next argument is an option's value. -/
def awaitsValue (state : State) : Bool :=
  match state.held with
  | .option _ none => true
  | _ => false

/-- Sets an option, once. -/
def setOption (state : State) (opt : Opt) (value : String) : Except Usage State :=
  if state.values.any (·.1 = opt) then .error .argumentConflict
  else if value = "" then .error .invalidValue
  else .ok { state with values := (opt, value) :: state.values }

/-- Checks the value that is held. -/
def settle (state : State) : Except Usage State :=
  let free := { state with held := .nothing }
  match state.held with
  | .nothing => .ok state
  | .option _ none => .error .invalidValue
  | .option opt (some value) => free.setOption opt value
  | .shell name =>
    match Shell.named? name with
    | some shell => .ok { free with shell := some shell }
    | none => .error .invalidValue

/-- Sets a flag, once; asking for help or the version ends the reading. -/
def setFlag (state : State) (flag : Flag) : Except Usage State := do
  let state ← state.settle
  match flag with
  | .help => throw .help
  | .version => throw .version
  | flag =>
    if flag ∈ state.flags then throw .argumentConflict
    else pure { state with flags := flag :: state.flags }

/-- Starts an option, with the value that is attached to it if there is one. -/
def startOption (state : State) (opt : Opt) (attached : Option String) : Except Usage State := do
  let state ← state.settle
  match attached with
  | some value => state.setOption opt value
  | none => pure { state with held := .option opt none }

/-- Takes an argument that is neither an option nor an option's value. -/
def addOperand (level : Level) (state : State) (text : String) : Except Usage State :=
  match level with
  | .units => do
    let state ← state.settle
    pure { state with units := text :: state.units }
  | .completion =>
    if state.shellSeen then .error .unknownArgument
    else do
      let state ← state.settle
      pure { state with held := .shell text, shellSeen := true }
  | .index => .error .unknownArgument
  | .top =>
    if state.trailing && text ∈ commandNames then .error .unknownArgument
    else .error .invalidSubcommand

/-- The value that is attached to a short option. -/
def attachedValue : List Char → Option String
  | [] => none
  | '=' :: value => some (String.ofList value)
  | value => some (String.ofList value)

/-- Takes the short options of one argument. -/
def addShort (level : Level) (state : State) : List Char → Except Usage State
  | [] => .ok state
  | name :: rest =>
    match shortName? level name with
    | none => .error .unknownArgument
    | some (.flag flag) => do addShort level (← state.setFlag flag) rest
    | some (.opt opt) => state.startOption opt (attachedValue rest)

/-- Takes a long option: its name, and the value after an equals sign if there is one. -/
def addLong (level : Level) (state : State) (text : List Char) : Except Usage State :=
  let name := String.ofList (text.takeWhile (· ≠ '='))
  let attached := match text.dropWhile (· ≠ '=') with
    | [] => none
    | _ :: value => some (String.ofList value)
  match longName? level name with
  | none => .error .unknownArgument
  | some (.opt opt) => state.startOption opt attached
  | some (.flag flag) =>
    match attached with
    | some _ => .error .tooManyValues
    | none => state.setFlag flag

/-- Takes an argument that may be an operand or an option's value. -/
def addPlain (level : Level) (state : State) (text : String) : Except Usage State :=
  match state.held with
  | .option opt none => .ok { state with held := .option opt (some text) }
  | _ => state.addOperand level text

/-- Takes one argument. -/
def add (level : Level) (state : State) (text : String) : Except Usage State :=
  if state.trailing then state.addOperand level text
  else match text.toList with
    | ['-', '-'] => .ok { state with trailing := true }
    | '-' :: '-' :: rest => state.addLong level rest
    | '-' :: c :: rest => state.addShort level (c :: rest)
    | _ => state.addPlain level text

/-- The value of an option. -/
def value? (state : State) (opt : Opt) : Option Path := (state.values.lookup opt).map Path.mk

end State

/-- Reads the arguments at the top, up to the name of a command. Gives what was read, and the
command with its arguments. -/
def readTop (state : State) : List String → Except Usage (State × Option (String × List String))
  | [] => .ok (state, none)
  | text :: rest =>
    if !state.trailing && !state.awaitsValue && text ∈ commandNames then
      .ok (state, some (text, rest))
    else do readTop (← state.add .top text) rest

/-- Reads the arguments of a command. -/
def readLevel (level : Level) (arguments : List String) : Except Usage State := do
  (← arguments.foldlM (State.add level) {}).settle

/-- How asking for help ends: only one command can be named. -/
def readHelp : List String → Usage
  | [] => .help
  | [name] => if name ∈ commandNames then .help else .invalidSubcommand
  | _ => .invalidSubcommand

/-- Reads a command with its arguments; gives what was read beside it. -/
def readCommand (name : String) (arguments : List String) : Except Usage (Command × State) :=
  if name = "index" then do
    let state ← readLevel .index arguments
    match state.value? .output with
    | some output => pure (.index output, state)
    | none => throw .missingRequiredArgument
  else if name = "completion" then do
    let state ← readLevel .completion arguments
    match state.shell with
    | some shell => pure (.completion shell, state)
    | none => throw .missingRequiredArgument
  else if name = "sort" || name = "show" || name = "check" then do
    let state ← readLevel .units arguments
    let units := state.units.reverse
    let list := state.value? .list
    if name = "sort" then pure (.sort units list, state)
    else if name = "show" then pure (.show units list, state)
    else pure (.check units list, state)
  else throw (readHelp arguments)

/-- The global options of the two levels: the command's own value of an option comes first. -/
def contextOf (top inner : State) : Context where
  cwd := (inner.value? .cwd).or (top.value? .cwd)
  debug := .debug ∈ inner.flags ++ top.flags
  quiet := .quiet ∈ inner.flags ++ top.flags
  index := (inner.value? .index).or (top.value? .index)
  declarations := (inner.value? .declarations).or (top.value? .declarations)
  json := .json ∈ inner.flags ++ top.flags

end Arguments

/-- Reads the arguments of a run. -/
def Invocation.ofArguments (arguments : List String) : Except Usage Invocation := do
  let (top, rest) ← Arguments.readTop {} arguments
  match rest with
  | none =>
    let top ← top.settle
    if top.values.isEmpty && top.flags.isEmpty then throw .noArguments
    else throw .missingSubcommand
  | some (name, arguments) =>
    let (command, inner) ← Arguments.readCommand name arguments
    let top ← top.settle
    pure ⟨Arguments.contextOf top inner, command⟩

end ActivationOrder
