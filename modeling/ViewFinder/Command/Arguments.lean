import ViewFinder.Command.Integer
import ViewFinder.Value.Access

/-!
# Arguments

The arguments of a command are options and operands. An option is written in full (`--where`) or with
one letter (`-w`), and its value follows as the next argument, after an equals sign (`--where=a=1`) or
after the letter (`-wa=1`). Letters of options without value can be run together. After `--` there
are only operands. `Arguments.parse` sorts arguments into options and operands and refuses those
that the command does not take.
-/

namespace ViewFinder.Command

/-- Why arguments are refused. -/
inductive UsageError where
  | unknownOption (spelling : String)
  /-- The option needs a value. -/
  | missingValue (spelling : String)
  /-- The option takes no value. -/
  | needlessValue (spelling : String)
  | missingOperand (name : String)
  | needlessOperand (text : String)
  | notAnInteger (text : String)
  | unknownCommand (name : String)
  | missingCommand
  deriving DecidableEq, Inhabited

namespace UsageError

/-- The wording. -/
def message : UsageError → String
  | .unknownOption spelling => s!"No such option: {spelling}"
  | .missingValue spelling => s!"Option '{spelling}' requires an argument."
  | .needlessValue spelling => s!"Option '{spelling}' does not take a value."
  | .missingOperand name => s!"Missing argument '{name}'."
  | .needlessOperand text => s!"Got unexpected extra argument ({text})"
  | .notAnInteger text => s!"Invalid value: '{text}' is not a valid integer."
  | .unknownCommand name => s!"No such command '{name}'."
  | .missingCommand => "Missing command."

end UsageError

/-- An option that a command takes. -/
structure Switch where
  /-- The way the option is written in full. -/
  long : String
  /-- The letter that stands for the option, if there is one. -/
  letter : Option Char := none
  takesValue : Bool := true
  deriving DecidableEq, Inhabited

/-- The options that a command takes. -/
abbrev Switches := List Switch

namespace Switches

/-- The option that asks for help. -/
def help : Switch := { long := "--help", takesValue := false }

/-- The option written in full as a text. -/
def ofLong? (ss : Switches) (spelling : String) : Option Switch :=
  List.find? (fun s => s.long == spelling) ss

/-- The option of a letter. -/
def ofLetter? (ss : Switches) (letter : Char) : Option Switch :=
  List.find? (fun s => s.letter == some letter) ss

end Switches

/-- Arguments sorted into options and operands, each in the order given. -/
structure Arguments where
  /-- The options in full, each with its value if it takes one. -/
  options : List (String × Option String) := []
  operands : List String := []
  deriving DecidableEq, Inhabited

namespace Arguments

/-- Puts options before the others. -/
def withOptions (given : List (String × Option String)) (a : Arguments) : Arguments :=
  { a with options := given ++ a.options }

/-- Puts an operand before the others. -/
def withOperand (operand : String) (a : Arguments) : Arguments :=
  { a with operands := operand :: a.operands }

/-- What an argument with options says: the options that are complete, and the spelling of one whose
value is the next argument. -/
structure Spelled where
  complete : List (String × Option String) := []
  /-- The option as it is written and in full. -/
  waiting : Option (String × String) := none

/-- The options of letters run together. The first that takes a value takes the rest as its value. -/
def readLetters (ss : Switches) : List Char → Except UsageError Spelled
  | [] => .ok {}
  | c :: rest =>
    match ss.ofLetter? c with
    | none => .error (.unknownOption s!"-{c}")
    | some s =>
      if s.takesValue then
        if rest.isEmpty then .ok { waiting := some (s!"-{c}", s.long) }
        else .ok { complete := [(s.long, some (String.ofList rest))] }
      else do
        let spelled ← readLetters ss rest
        return { spelled with complete := (s.long, none) :: spelled.complete }

/-- The parts before and after the first equals sign. -/
def splitValue (arg : String) : String × Option String :=
  match arg.toList.span (· != '=') with
  | (_, []) => (arg, none)
  | (name, _ :: value) => (String.ofList name, some (String.ofList value))

/-- What an argument that starts with a dash says. -/
def readOption (ss : Switches) (arg : String) : Except UsageError Spelled :=
  let (spelling, value) := splitValue arg
  match ss.ofLong? spelling, value with
  | some s, some value =>
    if s.takesValue then .ok { complete := [(s.long, some value)] }
    else .error (.needlessValue spelling)
  | some s, none =>
    if s.takesValue then .ok { waiting := some (spelling, s.long) }
    else .ok { complete := [(s.long, none)] }
  | none, _ =>
    match arg.toList with
    | '-' :: '-' :: _ => .error (.unknownOption spelling)
    | _ :: letters => readLetters ss letters
    | [] => .error (.unknownOption spelling)

/-- Is the argument written as an option? A dash alone is an operand. -/
def isOption (arg : String) : Bool :=
  match arg.toList with
  | '-' :: _ :: _ => true
  | _ => false

/-- Sorts arguments into options and operands. If options end at the first operand, all that follows
it is an operand. -/
def parse (ss : Switches) (endAtOperand : Bool) : List String → Except UsageError Arguments
  | [] => .ok {}
  | arg :: rest =>
    if arg == "--" then .ok { operands := rest }
    else if isOption arg then
      match readOption ss arg with
      | .error e => .error e
      | .ok ⟨complete, none⟩ => (parse ss endAtOperand rest).map (withOptions complete)
      | .ok ⟨complete, some (spelling, long)⟩ =>
        match rest with
        | [] => .error (.missingValue spelling)
        | value :: rest =>
          (parse ss endAtOperand rest).map (withOptions (complete ++ [(long, some value)]))
    else if endAtOperand then .ok { operands := arg :: rest }
    else (parse ss endAtOperand rest).map (withOperand arg)

variable (a : Arguments)

/-- Is the option given? -/
def has (long : String) : Bool := a.options.any (·.1 == long)

/-- The values given for an option. -/
def values (long : String) : List String :=
  a.options.filterMap fun (name, value) => if name == long then value else none

/-- The value given last for an option. -/
def value? (long : String) : Option String := (a.values long).getLast?

/-- The value given for an option as a text, null if there is none. -/
def text (long : String) : Value := ((a.value? long).map .str).getD .null

/-- The value given for an option as an integer, null if there is none. -/
def integer (long : String) : Except UsageError Value :=
  match a.value? long with
  | none => .ok .null
  | some s =>
    match readInteger? s with
    | some n => .ok (.int n)
    | none => .error (.notAnInteger s)

/-- The operands of a command that takes as many as there are names. -/
def operandsFor (names : List String) : Except UsageError (List String) :=
  match names.drop a.operands.length, a.operands.drop names.length with
  | name :: _, _ => .error (.missingOperand name)
  | [], operand :: _ => .error (.needlessOperand operand)
  | [], [] => .ok a.operands

end Arguments

end ViewFinder.Command
