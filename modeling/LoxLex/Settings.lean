import LoxLex.Token.Basic

namespace LoxLex

/-- A value of a configuration document.  Settings are not checked when they are read, so any
value can stand for any setting. -/
inductive Value where
  | null
  | bool (value : Bool)
  | int (value : Int)
  | float (value : Double)
  | text (value : Text)
  | list (items : List Value)
  | table (entries : List (Text × Value))
deriving Inhabited

namespace Value

/-- Zero, the empty text and the empty collections are false, and so is null. -/
def truth : Value → Bool
  | null => false
  | bool value => value
  | int value => value != 0
  | float value => !value.isZero
  | text value => !value.isEmpty
  | list items => !items.isEmpty
  | table entries => !entries.isEmpty

mutual

def display : Value → Text
  | null => "None".toList
  | bool true => "True".toList
  | bool false => "False".toList
  | int value => Text.ofInt value
  | float value => value.text
  | text value => value.quoted
  | list items => '[' :: List.intercalate ", ".toList (displayAll items) ++ [']']
  | table entries => '{' :: List.intercalate ", ".toList (displayEntries entries) ++ ['}']

def displayAll : List Value → List Text
  | [] => []
  | item :: rest => display item :: displayAll rest

def displayEntry : Text × Value → Text
  | (key, value) => key.quoted ++ ": ".toList ++ display value

def displayEntries : List (Text × Value) → List Text
  | [] => []
  | entry :: rest => displayEntry entry :: displayEntries rest

end

/-- A text as it is, and any other value in its display form. -/
def plain : Value → Text
  | text value => value
  | value => value.display

/-- The integer that a value equals, if there is one: truth counts as one and
falsehood as zero. -/
def integer? : Value → Option Int
  | bool value => some (if value then 1 else 0)
  | int value => some value
  | float value =>
    if value.isFinite && value.units % Double.unitsPerOne = 0 then
      let whole : Int := (value.units / Double.unitsPerOne : Nat)
      some (if value.isNegative then -whole else whole)
    else none
  | _ => none

def isText (expected : Text) : Value → Bool
  | text value => value == expected
  | _ => false

end Value

namespace Kind

/-- The kind whose ordinal a value equals as a number. -/
def ofValue? (value : Value) : Option Kind := value.integer?.bind ofOrdinal?

def refusal (value : Value) : Text := value.display ++ " is not a valid TokenType".toList

end Kind

structure Settings where
  prompt : Value := .text "> ".toList
  resetErrorsPerLine : Value := .bool true
  printTokens : Value := .bool true
  logLevel : Value := .text "WARNING".toList

namespace Settings

/-- The settings that a table gives, with defaults for the missing ones. -/
def ofTable (entries : List (Text × Value)) : Settings :=
  let standard : Settings := {}
  { prompt := (entries.lookup "prompt".toList).getD standard.prompt
    resetErrorsPerLine :=
      (entries.lookup "reset_errors_per_line".toList).getD standard.resetErrorsPerLine
    printTokens := (entries.lookup "print_tokens".toList).getD standard.printTokens
    logLevel := (entries.lookup "log_level".toList).getD standard.logLevel }

def display (settings : Settings) : Text :=
  "RunConfig(".toList ++ List.intercalate ", ".toList
    ["prompt=".toList ++ settings.prompt.display,
     "reset_errors_per_line=".toList ++ settings.resetErrorsPerLine.display,
     "print_tokens=".toList ++ settings.printTokens.display,
     "log_level=".toList ++ settings.logLevel.display] ++ [')']

/-- Whether every setting equals its default, where one equals true. -/
def isDefault (settings : Settings) : Bool :=
  settings.prompt.isText "> ".toList && settings.resetErrorsPerLine.integer? == some 1 &&
    settings.printTokens.integer? == some 1 && settings.logLevel.isText "WARNING".toList

end Settings

end LoxLex
