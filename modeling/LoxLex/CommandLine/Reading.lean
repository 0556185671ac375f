import LoxLex.CommandLine.Flag

namespace LoxLex.CommandLine

inductive Reading where
  | operand
  | separator
  /-- An option, whether a single dash starts it, and a value written with it. -/
  | option (flag : Flag) (isShort : Bool) (value : Option Text)
  | unknown
deriving DecidableEq, Repr

/-- An argument before its first equals sign, and the value behind it if there is one. -/
def splitValue (argument : Text) : Text × Option Text :=
  match argument.dropWhile (· ≠ '=') with
  | [] => (argument, none)
  | _ :: value => (argument.takeWhile (· ≠ '='), some value)

def isLong (argument : Text) : Bool := ['-', '-'].isPrefixOf argument

/-- Decimal digits, or a point with digits behind it and perhaps before it. -/
def isUnsigned (text : Text) : Bool :=
  let whole := text.takeWhile Text.isDecimalDigit
  match text.dropWhile Text.isDecimalDigit with
  | [] => !whole.isEmpty
  | c :: fraction => c = '.' && !fraction.isEmpty && fraction.all Text.isDecimalDigit

/-- Whether an argument looks like a negative number; a line feed may end it. -/
def isNegativeNumber : Text → Bool
  | '-' :: rest => isUnsigned (if rest.getLast? = some '\n' then rest.dropLast else rest)
  | _ => false

/-- The long options that an argument may be short for. -/
def expansions (argument : Text) : List (Text × Flag) :=
  Flag.spellings.filter fun spelling => argument.isPrefixOf spelling.1

/-- What an argument that names no option is. -/
def readUnmatched (argument : Text) : Reading :=
  if isNegativeNumber argument || argument.contains ' ' then .operand else .unknown

/-- Reads an argument that starts with two dashes and is no full spelling. -/
def readLong (argument : Text) : Except UsageError Reading :=
  let (name, value) := splitValue argument
  match expansions name with
  | [] => .ok (readUnmatched argument)
  | [(_, flag)] => .ok (.option flag false value)
  | several => .error (.ambiguous argument (several.map Prod.fst))

/-- Reads an argument that starts with one dash and is no full spelling. -/
def readShort (argument : Text) : Reading :=
  match Flag.spelled? (argument.take 2) with
  | some flag => .option flag true (some (argument.drop 2))
  | none => readUnmatched argument

/-- Reads an argument that is not the separator. -/
def readArgument (argument : Text) : Except UsageError Reading :=
  if argument.head? ≠ some '-' then .ok .operand
  else match Flag.spelled? argument with
    | some flag => .ok (.option flag (!isLong argument) none)
    | none =>
      if argument = ['-'] then .ok .operand
      else match splitValue argument with
        | (name, some value) =>
          match Flag.spelled? name with
          | some flag => .ok (.option flag (!isLong argument) (some value))
          | none => if isLong argument then readLong argument else .ok (readShort argument)
        | (_, none) => if isLong argument then readLong argument else .ok (readShort argument)

def readAll : List Text → Except UsageError (List (Text × Reading))
  | [] => .ok []
  | argument :: rest =>
    if argument = ['-', '-'] then
      .ok ((argument, .separator) :: rest.map fun operand => (operand, .operand))
    else do
      let reading ← readArgument argument
      return (argument, reading) :: (← readAll rest)

end LoxLex.CommandLine
