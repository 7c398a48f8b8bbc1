import Stencil.Text.Basic

namespace Stencil.Command

/-- How often an option may be given, and whether it takes a value. -/
inductive Arity where
  | flag
  /-- without a value, and nothing behind it is looked at -/
  | final
  | once (valid : Text → Bool)
  | often (valid : Text → Bool)

/-- An option that a command knows. -/
structure Known where
  name : Text
  letter : Option Char := none
  arity : Arity

namespace Known

def isRepeatable (o : Known) : Bool :=
  match o.arity with
  | .often _ => true
  | _ => false

def allows (o : Known) (value : Text) : Bool :=
  match o.arity with
  | .once valid | .often valid => valid value
  | _ => true

end Known

/-- What is wrong with the arguments of a command. -/
inductive UsageError where
  | unknownOption (name : Text)
  | unexpectedValue (option value : Text)
  | missingValue (option : Text)
  | invalidValue (option value : Text)
  | repeatedOption (name : Text)
  | unexpectedOperand (operand : Text)
  | missingOperand (name : Text)
  | unknownCommand (name : Text)
  | missingCommand
deriving DecidableEq, Repr

def UsageError.message : UsageError → Text
  | unknownOption name => "unknown option ".toList ++ name
  | unexpectedValue option value =>
      "option ".toList ++ option ++ " takes no value, but got ".toList ++ value
  | missingValue option => "a value is missing for option ".toList ++ option
  | invalidValue option value =>
      "option ".toList ++ option ++ " cannot have the value ".toList ++ value
  | repeatedOption name => "option ".toList ++ name ++ " can be given only once".toList
  | unexpectedOperand operand => "unexpected argument ".toList ++ operand
  | missingOperand name => "missing argument ".toList ++ name
  | unknownCommand name => "unknown command ".toList ++ name
  | missingCommand => "a command is missing".toList

/-- The names of options that were given with their values, in order; without one it is empty. -/
abbrev Given := List (Text × Text)

namespace Given

/-- The given options with one more, unless it was given before or its value is refused. -/
def add (given : Given) (o : Known) (value : Text) : Except UsageError Given :=
  if !o.isRepeatable && given.any (·.1 == o.name) then
    .error (.repeatedOption o.name)
  else if o.allows value then
    .ok (given ++ [(o.name, value)])
  else
    .error (.invalidValue o.name value)

def has (given : Given) (name : Text) : Bool :=
  given.any (·.1 == name)

/-- The first value of an option. -/
def value? (given : Given) (name : Text) : Option Text :=
  given.lookup name

/-- All values of an option, in order. -/
def values (given : Given) (name : Text) : List Text :=
  (given.filter (·.1 == name)).map Prod.snd

end Given

/-- What one argument turns out to be. -/
inductive Taken where
  | options (given : Given)
  | awaiting (given : Given) (o : Known)
  /-- nothing behind the argument counts -/
  | ended (given : Given)
  | operand

/-- Reads letters behind a single dash.  The letters behind an option with a value are its value; an
equals sign may stand between. -/
def takeLetters (known : List Known) (given : Given) : Text → Except UsageError Taken
  | [] => .ok (.options given)
  | c :: letters =>
      match known.find? (·.letter == some c) with
      | none => .error (.unknownOption ['-', c])
      | some o =>
          match o.arity with
          | .flag => do takeLetters known (← given.add o []) letters
          | .final => return .ended (← given.add o [])
          | .once _ | .often _ =>
              match letters with
              | [] => .ok (.awaiting given o)
              | '=' :: value => return .options (← given.add o value)
              | value => return .options (← given.add o value)

/-- Reads a long name, to which a value may be attached by an equals sign. -/
def takeName (known : List Known) (given : Given) (t : Text) : Except UsageError Taken :=
  let (name, attached) := match Text.cut? ['='] t with
    | some (name, value) => (name, some value)
    | none => (t, none)
  match known.find? (·.name == name) with
  | none => .error (.unknownOption ('-' :: '-' :: name))
  | some o =>
      match o.arity, attached with
      | .flag, none => return .options (← given.add o [])
      | .final, none => return .ended (← given.add o [])
      | .flag, some value | .final, some value => .error (.unexpectedValue name value)
      | .once _, none | .often _, none => .ok (.awaiting given o)
      | .once _, some value | .often _, some value => return .options (← given.add o value)

/-- Reads one argument; a single dash, and what does not begin with one, is an operand. -/
def take (known : List Known) (given : Given) : Text → Except UsageError Taken
  | '-' :: '-' :: t => takeName known given t
  | '-' :: c :: t => takeLetters known given (c :: t)
  | _ => .ok .operand

def isOption : Text → Bool
  | '-' :: _ :: _ => true
  | _ => false

/-- What a command takes its operands for. -/
inductive OperandRule where
  | absent
  | listed (valid : Text → Bool)
  /-- the first names another command, and all arguments behind it are that command's own -/
  | command

/-- What was read of the arguments so far. -/
structure Arguments where
  given : Given := []
  operands : List Text := []
  command : Option (Text × List Text) := none

/-- Adds operands, or tells the first one for which there is no use. -/
def Arguments.addOperands (read : Arguments) (rule : OperandRule) (operands : List Text) :
    Except UsageError Arguments :=
  let refused := match rule with
    | .listed valid => operands.find? (!valid ·)
    | .absent | .command => operands.head?
  match refused with
  | none => .ok { read with operands := read.operands ++ operands }
  | some operand => .error (.unexpectedOperand operand)

/-- Reads arguments on top of those read before; the first one that does not fit is the error.
Behind a double dash there are only operands, and none of them names a command. -/
def readArguments (known : List Known) (rule : OperandRule) (read : Arguments) :
    List Text → Except UsageError Arguments
  | [] => .ok read
  | arg :: args =>
      if arg = ['-', '-'] then
        read.addOperands rule args
      else
        match take known read.given arg with
        | .error e => .error e
        | .ok (.options given) => readArguments known rule { read with given } args
        | .ok (.ended given) => .ok { read with given }
        | .ok .operand =>
            match rule with
            | .command => .ok { read with command := some (arg, args) }
            | .absent | .listed _ => do
                readArguments known rule (← read.addOperands rule [arg]) args
        | .ok (.awaiting given o) =>
            match args with
            | [] => .error (.missingValue o.name)
            | value :: args =>
                if isOption value then
                  .error (.missingValue o.name)
                else do
                  readArguments known rule { read with given := ← given.add o value } args
termination_by args => args.length

end Stencil.Command
