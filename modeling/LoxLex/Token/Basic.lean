import LoxLex.Number.Shortest
import LoxLex.Text.Quoted
import LoxLex.Token.Kind

namespace LoxLex

inductive Literal where
  | number (value : Double)
  | text (value : Text)
deriving DecidableEq, Repr

namespace Literal

def listing : Literal → Text
  | number value => value.text
  | text value => value

def display : Literal → Text
  | number value => value.text
  | text value => value.quoted

/-- Equality of values: numbers as numbers, texts by their characters. -/
def same : Literal → Literal → Bool
  | number value, number other => value.sameNumber other
  | text value, text other => value == other
  | _, _ => false

end Literal

structure Token where
  kind : Kind
  lexeme : Text
  literal : Option Literal
  line : Int
deriving DecidableEq, Repr

namespace Token

/-- The token behind the last one, on the last line. -/
def endOfInput (line : Int) : Token := ⟨.endOfInput, [], none, line⟩

def isLiteral (token : Token) : Bool := token.kind = .number || token.kind = .string

/-- Whether the token is the keyword that its lexeme spells. -/
def isKeyword (token : Token) : Bool :=
  match Keyword.ofSpelling? token.lexeme with
  | some word => token.kind = .keyword word
  | none => false

def listing (token : Token) : Text :=
  token.kind.name ++ ' ' :: token.lexeme ++ ' ' ::
    (token.literal.map Literal.listing).getD "null".toList

def display (token : Token) : Text :=
  "Token(".toList ++ List.intercalate ", ".toList
    [token.kind.name, token.lexeme.quoted,
      (token.literal.map Literal.display).getD "None".toList, Text.ofInt token.line] ++ [')']

/-- Equality field by field, with values compared by `Literal.same`. -/
def same (token other : Token) : Bool :=
  token.kind == other.kind && token.lexeme == other.lexeme && token.line == other.line &&
    match token.literal, other.literal with
    | none, none => true
    | some value, some otherValue => value.same otherValue
    | _, _ => false

end Token

/-- An attempt to change a token, a diagnostic or settings.  It is refused, whatever the field. -/
inductive Change where
  | assignment
  | deletion
deriving DecidableEq, Repr

def Change.refusal (change : Change) (field : Text) : Text :=
  (match change with
    | .assignment => "cannot assign to field ".toList
    | .deletion => "cannot delete field ".toList) ++ field.quoted

end LoxLex
