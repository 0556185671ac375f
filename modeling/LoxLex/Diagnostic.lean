import LoxLex.Text.Quoted

namespace LoxLex.Log

inductive Level where
  | debug
  | info
deriving DecidableEq, Repr

def Level.name : Level → Text
  | .debug => "DEBUG".toList
  | .info => "INFO".toList

structure Record where
  level : Level
  channel : Text
  message : Text
deriving DecidableEq, Repr

def Record.line (entry : Record) : Text :=
  entry.level.name ++ ' ' :: entry.channel ++ ": ".toList ++ entry.message

def root : Text := "lox".toList

/-- The channel that a name asks for. -/
def channel (name : Text) : Text :=
  if name = root ∨ (root ++ ['.']).isPrefixOf name = true then name else root ++ '.' :: name

end LoxLex.Log

namespace LoxLex

inductive Fault where
  | unsupportedCharacter
  | unterminatedString
deriving DecidableEq, Repr

namespace Fault

def all : List Fault := [.unsupportedCharacter, .unterminatedString]

def message : Fault → Text
  | unsupportedCharacter => "Unsupported character".toList
  | unterminatedString => "Unterminated string".toList

def code : Fault → Text
  | unsupportedCharacter => "L001".toList
  | unterminatedString => "L002".toList

def ofMessage? (message : Text) : Option Fault := all.find? (·.message = message)

end Fault

/-- What is said to a sink: the line of an error and its message. -/
structure Report where
  line : Int
  message : Text
deriving DecidableEq, Repr

structure Diagnostic where
  line : Int
  message : Text
  code : Option Text
deriving DecidableEq, Repr

namespace Diagnostic

def ofReport (report : Report) : Diagnostic :=
  ⟨report.line, report.message, (Fault.ofMessage? report.message).map Fault.code⟩

def text (diagnostic : Diagnostic) : Text :=
  "[line ".toList ++ Text.ofInt diagnostic.line ++ "] Error: ".toList ++ diagnostic.message

def display (diagnostic : Diagnostic) : Text :=
  "Diagnostic(".toList ++ List.intercalate ", ".toList
    ["line=".toList ++ Text.ofInt diagnostic.line,
     "message=".toList ++ diagnostic.message.quoted,
     "code=".toList ++ (diagnostic.code.map Text.quoted).getD "None".toList] ++ [')']

def echo (diagnostic : Diagnostic) : Text := diagnostic.text ++ ['\n']

def record (diagnostic : Diagnostic) : Log.Record where
  level := .debug
  channel := Log.channel "lox.lexer.errors".toList
  message := "Lexical error ".toList ++ diagnostic.code.getD ['-'] ++ " at line ".toList ++
    Text.ofInt diagnostic.line ++ ": ".toList ++ diagnostic.message

end Diagnostic

end LoxLex
