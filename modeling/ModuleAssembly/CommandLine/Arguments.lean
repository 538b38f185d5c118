import ModuleAssembly.Validation.Basic

/-!
# Command line arguments

`Command.ofArguments` reads the arguments of a call. Options may stand anywhere after the name of
the command; a long option takes its value after an equals sign or as the next argument, and letters
may be written together, the value of the last one attached. After `--` nothing is an option. The
last value of a repeated option counts.
-/

namespace ModuleAssembly.CommandLine

/-- An option that a command takes. -/
structure OptionRule where
  /-- Its long name. -/
  name : String
  /-- Its letter, if it has one. -/
  letter : Option Char
  /-- Whether it has a value. -/
  takesValue : Bool
deriving DecidableEq, Repr, Inhabited

/-- The arguments of a command, told apart. -/
structure Arguments where
  /-- The options in order; one without a value has the empty one. -/
  options : List (String × String) := []
  /-- The other arguments in order. -/
  operands : List String := []
deriving DecidableEq, Repr, Inhabited

namespace Arguments

/-- The arguments with one more option in front. -/
def withOption (name value : String) (a : Arguments) : Arguments :=
  { a with options := (name, value) :: a.options }

/-- The arguments with one more operand in front. -/
def withOperand (operand : String) (a : Arguments) : Arguments :=
  { a with operands := operand :: a.operands }

/-- The last value of an option. -/
def value? (a : Arguments) (name : String) : Option String :=
  a.options.reverse.lookup name

/-- Whether an option is given. -/
def has (a : Arguments) (name : String) : Bool :=
  (a.value? name).isSome

/-- Reads letters written together. Gives the options, and the name of the last one if its value
is the next argument. -/
def letters? (rules : List OptionRule) :
    List Char → Option (List (String × String) × Option String)
  | [] => some ([], none)
  | c :: cs => do
    let rule ← rules.find? (·.letter == some c)
    if rule.takesValue then
      if cs.isEmpty then return ([], some rule.name)
      else return ([(rule.name, String.ofList cs)], none)
    else
      let (options, waiting) ← letters? rules cs
      return ((rule.name, "") :: options, waiting)

/-- Reads a long option after its dashes. Gives the options, and the name of the option if its
value is the next argument. -/
def long? (rules : List OptionRule) (cs : List Char) :
    Option (List (String × String) × Option String) := do
  let name := String.ofList (cs.takeWhile (· != '='))
  let rule ← rules.find? (·.name == name)
  match cs.dropWhile (· != '='), rule.takesValue with
  | [], true => return ([], some name)
  | [], false => return ([(name, "")], none)
  | _ :: value, true => return ([(name, String.ofList value)], none)
  | _ :: _, false => none

/-- Reads an argument: none if it is an operand, and otherwise its options, if it has a right to be
one. -/
def options? (rules : List OptionRule) (arg : String) :
    Option (Option (List (String × String) × Option String)) :=
  match arg.toList with
  | '-' :: '-' :: cs => some (long? rules cs)
  | '-' :: c :: cs => some (letters? rules (c :: cs))
  | _ => none

/-- Reads arguments. `waiting` is the option whose value is the next one. Where `mixed` does not
hold, everything from the first operand on is an operand. -/
def read (rules : List OptionRule) (mixed : Bool) (waiting : Option String) :
    List String → Option Arguments
  | [] => if waiting.isSome then none else some {}
  | arg :: args =>
    match waiting with
    | some name => (read rules mixed none args).map (withOption name arg)
    | none =>
      if arg = "--" then some { operands := args }
      else
        match options? rules arg with
        | none =>
          if mixed then (read rules mixed none args).map (withOperand arg)
          else some { operands := arg :: args }
        | some none => none
        | some (some (options, waiting)) =>
          (read rules mixed waiting args).map fun a => { a with options := options ++ a.options }

end Arguments

/-- What a call asks for. -/
inductive Command where
  /-- Show how the command is used. -/
  | help
  /-- Assemble model files. -/
  | assemble (models : List String) (output : String) (config : Option String)
      (workers : Option Int) (dryRun showRenames : Bool)
  /-- Run as a plugin of the compiler. -/
  | plugin
  /-- Write a configuration file. -/
  | initConfig (output : String)
deriving DecidableEq, Repr, Inhabited

namespace Command

/-- The option that asks for help. -/
def helpRule : OptionRule := ⟨"help", none, false⟩

/-- The options of `assemble`. -/
def assembleRules : List OptionRule :=
  [⟨"output", some 'o', true⟩, ⟨"config", some 'c', true⟩, ⟨"workers", some 'w', true⟩,
    ⟨"dry-run", none, false⟩, ⟨"show-renames", none, false⟩, ⟨"verbose", some 'v', false⟩, helpRule]

/-- The options of `init-config`. -/
def initConfigRules : List OptionRule :=
  [⟨"output", some 'o', true⟩, helpRule]

/-- The command of the arguments of `assemble`. -/
def ofAssemble (a : Arguments) : Option Command := do
  let workers ←
    match a.value? "workers" with
    | none => some none
    | some s => (Value.intOfText s).toOption.map some
  if a.operands.isEmpty then none
  else
    return .assemble a.operands ((a.value? "output").getD "./generated") (a.value? "config") workers
      (a.has "dry-run") (a.has "show-renames")

/-- The command of the arguments of `plugin`. -/
def ofPlugin (a : Arguments) : Option Command :=
  if a.operands.isEmpty then some .plugin else none

/-- The command of the arguments of `init-config`. -/
def ofInitConfig (a : Arguments) : Option Command :=
  if a.operands.isEmpty then some (.initConfig ((a.value? "output").getD "./tsforge.yaml"))
  else none

/-- Reads the arguments of a command. A call for help is answered before anything else is asked. -/
def readWith (rules : List OptionRule) (command : Arguments → Option Command) (args : List String) :
    Option Command := do
  let a ← Arguments.read rules true none args
  if a.has helpRule.name then return .help else command a

/-- The command of a name and its arguments. -/
def ofName (name : String) (args : List String) : Option Command :=
  match name with
  | "assemble" => readWith assembleRules ofAssemble args
  | "plugin" => readWith [helpRule] ofPlugin args
  | "init-config" => readWith initConfigRules ofInitConfig args
  | _ => none

/-- The command of the arguments of a call, if they make one. -/
def ofArguments (args : List String) : Option Command := do
  let a ← Arguments.read [helpRule] false none args
  if a.has helpRule.name then return .help
  else
    match a.operands with
    | name :: args => ofName name args
    | [] => none

end Command

end ModuleAssembly.CommandLine
