import LoxLex.Text.Basic

namespace LoxLex

inductive Mark where
  | leftParen | rightParen | leftBrace | rightBrace
  | comma | dot | minus | plus | semicolon | slash | star
  | bang | bangEqual | equal | equalEqual
  | greater | greaterEqual | less | lessEqual
deriving DecidableEq, Repr

namespace Mark

def all : List Mark :=
  [.leftParen, .rightParen, .leftBrace, .rightBrace, .comma, .dot, .minus, .plus, .semicolon,
   .slash, .star, .bang, .bangEqual, .equal, .equalEqual, .greater, .greaterEqual, .less,
   .lessEqual]

def spelling : Mark → Text
  | leftParen => ['(']
  | rightParen => [')']
  | leftBrace => ['{']
  | rightBrace => ['}']
  | comma => [',']
  | dot => ['.']
  | minus => ['-']
  | plus => ['+']
  | semicolon => [';']
  | slash => ['/']
  | star => ['*']
  | bang => ['!']
  | bangEqual => ['!', '=']
  | equal => ['=']
  | equalEqual => ['=', '=']
  | greater => ['>']
  | greaterEqual => ['>', '=']
  | less => ['<']
  | lessEqual => ['<', '=']

def name : Mark → Text
  | leftParen => "LEFT_PAREN".toList
  | rightParen => "RIGHT_PAREN".toList
  | leftBrace => "LEFT_BRACE".toList
  | rightBrace => "RIGHT_BRACE".toList
  | comma => "COMMA".toList
  | dot => "DOT".toList
  | minus => "MINUS".toList
  | plus => "PLUS".toList
  | semicolon => "SEMICOLON".toList
  | slash => "SLASH".toList
  | star => "STAR".toList
  | bang => "BANG".toList
  | bangEqual => "BANG_EQUAL".toList
  | equal => "EQUAL".toList
  | equalEqual => "EQUAL_EQUAL".toList
  | greater => "GREATER".toList
  | greaterEqual => "GREATER_EQUAL".toList
  | less => "LESS".toList
  | lessEqual => "LESS_EQUAL".toList

/-- The characters that are a whole mark whatever follows them. -/
def singles : List (Char × Mark) :=
  [('(', leftParen), (')', rightParen), ('{', leftBrace), ('}', rightBrace), (',', comma),
   ('.', dot), ('-', minus), ('+', plus), (';', semicolon), ('*', star)]

/-- The characters that are one mark alone and another with an equals sign behind them. -/
def comparisons : List (Char × Mark × Mark) :=
  [('!', bang, bangEqual), ('=', equal, equalEqual), ('<', less, lessEqual),
   ('>', greater, greaterEqual)]

end Mark

inductive Keyword where
  | andWord | classWord | elseWord | falseWord | funWord | forWord | ifWord | nilWord | orWord
  | printWord | returnWord | superWord | thisWord | trueWord | varWord | whileWord
deriving DecidableEq, Repr

namespace Keyword

def all : List Keyword :=
  [.andWord, .classWord, .elseWord, .falseWord, .funWord, .forWord, .ifWord, .nilWord, .orWord,
   .printWord, .returnWord, .superWord, .thisWord, .trueWord, .varWord, .whileWord]

def spelling : Keyword → Text
  | andWord => ['a', 'n', 'd']
  | classWord => ['c', 'l', 'a', 's', 's']
  | elseWord => ['e', 'l', 's', 'e']
  | falseWord => ['f', 'a', 'l', 's', 'e']
  | funWord => ['f', 'u', 'n']
  | forWord => ['f', 'o', 'r']
  | ifWord => ['i', 'f']
  | nilWord => ['n', 'i', 'l']
  | orWord => ['o', 'r']
  | printWord => ['p', 'r', 'i', 'n', 't']
  | returnWord => ['r', 'e', 't', 'u', 'r', 'n']
  | superWord => ['s', 'u', 'p', 'e', 'r']
  | thisWord => ['t', 'h', 'i', 's']
  | trueWord => ['t', 'r', 'u', 'e']
  | varWord => ['v', 'a', 'r']
  | whileWord => ['w', 'h', 'i', 'l', 'e']

def name (word : Keyword) : Text := word.spelling.map Char.toUpper

def dictionary : List Keyword :=
  [.andWord, .classWord, .elseWord, .falseWord, .forWord, .funWord, .ifWord, .nilWord, .orWord,
   .printWord, .returnWord, .superWord, .thisWord, .trueWord, .varWord, .whileWord]

def ofSpelling? (text : Text) : Option Keyword := dictionary.find? (·.spelling = text)

end Keyword

inductive Kind where
  | mark (mark : Mark)
  | identifier
  | string
  | number
  | keyword (word : Keyword)
  | endOfInput
deriving DecidableEq, Repr

namespace Kind

def all : List Kind :=
  Mark.all.map mark ++ [identifier, string, number] ++ Keyword.all.map keyword ++ [endOfInput]

def name : Kind → Text
  | mark m => m.name
  | identifier => "IDENTIFIER".toList
  | string => "STRING".toList
  | number => "NUMBER".toList
  | keyword word => word.name
  | endOfInput => "EOF".toList

/-- The place of a kind in `all`, counted from one. -/
def ordinal (kind : Kind) : Nat := all.idxOf kind + 1

def ofName? (name : Text) : Option Kind := all.find? (·.name = name)

def ofOrdinal? (ordinal : Int) : Option Kind := all.find? fun kind => (kind.ordinal : Int) = ordinal

/-- The kind of a word: its keyword if it is one, and an identifier otherwise. -/
def ofWord (word : Text) : Kind :=
  match Keyword.ofSpelling? word with
  | some reserved => .keyword reserved
  | none => .identifier

end Kind

end LoxLex
