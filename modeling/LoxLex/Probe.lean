import LoxLex.Scan

/-! Scanning by offsets.

A probe looks the characters of its source up by their offsets and consumes them one by one.
Whatever could go wrong stops it: a character that is looked up outside of the source, a text
that is taken for a number and is none, a loop that goes on for more rounds than it may.  Behind
the last character a sentinel is seen, which the source itself may hold anywhere.  The tokens
and reports are those of `tokens` and `reports`.
-/

namespace LoxLex

/-- What stops a probe. -/
inductive Mishap where
  | outside (offset : Nat)
  | notNumeral (text : Text)
  | endless
deriving DecidableEq, Repr

/-- The offset and the line where the lexeme in hand starts, the number of characters consumed
and the line that they end on, and the tokens and reports so far, the latest first in both. -/
structure Probe where
  start : Nat := 0
  current : Nat := 0
  line : Int := 1
  startLine : Int := 1
  found : List Token := []
  reports : List Report := []
deriving DecidableEq, Repr

/-- Starts a new lexeme where the last one has ended. -/
def Probe.begun (probe : Probe) : Probe :=
  { probe with start := probe.current, startLine := probe.line }

abbrev Probing (α : Type) := EStateM Mishap Probe α

namespace Probing

def sentinel : Char := '\x00'

/-- A loop of a number of rounds at most. -/
def loop (condition : Probing Bool) (body : Probing Unit) : Nat → Probing Unit
  | 0 => do
    if ← condition then throw .endless
  | limit + 1 => do
    if ← condition then
      body
      loop condition body limit

def nextLine : Probing Unit := modify fun probe => { probe with line := probe.line + 1 }

def report (fault : Fault) : Probing Unit :=
  modify fun probe => { probe with reports := ⟨probe.line, fault.message⟩ :: probe.reports }

/-- The value of a numeral.  No other text is taken for a number. -/
def toNumber (text : Text) : Probing Literal :=
  if text.head?.any Char.isDigit && (Numeral.split text).2.isEmpty then
    pure (.number (Decimal.ofNumeral text).toDouble)
  else throw (.notNumeral text)

section Source

variable (source : Text) (limit : Nat)

def lookUp (offset : Nat) : Probing Char :=
  match source[offset]? with
  | some c => pure c
  | none => throw (.outside offset)

def isAtEnd : Probing Bool := do
  return decide (source.length ≤ (← get).current)

def consume : Probing Unit := modify fun probe => { probe with current := probe.current + 1 }

def advance : Probing Char := do
  let c ← lookUp source (← get).current
  consume
  return c

/-- Consumes the next character only if it is the expected one. -/
def accept (expected : Char) : Probing Bool := do
  if ← isAtEnd source then return false
  let c ← lookUp source (← get).current
  if c ≠ expected then return false
  consume
  return true

def peek : Probing Char := do
  if ← isAtEnd source then return sentinel
  lookUp source (← get).current

def peekNext : Probing Char := do
  let next := (← get).current + 1
  if source.length ≤ next then return sentinel
  lookUp source next

def slice (start stop : Nat) : Text := (source.take stop).drop start

/-- Adds the lexeme in hand as a token. -/
def addToken (kind : Kind) (literal : Option Literal) : Probing Unit :=
  modify fun probe =>
    let lexeme := slice source probe.start probe.current
    { probe with found := ⟨kind, lexeme, literal, probe.startLine⟩ :: probe.found }

/-- Whether the source goes on with another character than a given one. -/
def goesOnWithout (last : Char) : Probing Bool := do
  let c ← peek source
  let ended ← isAtEnd source
  return c != last && !ended

def comparison (alone doubled : Mark) : Probing Unit := do
  let kind := if ← accept source '=' then doubled else alone
  addToken source (.mark kind) none

def slash : Probing Unit := do
  if ← accept source '/' then
    loop (goesOnWithout source '\n') (discard (advance source)) limit
  else addToken source (.mark .slash) none

/-- Consumes a character of a string, which may be a line break. -/
def stringCharacter : Probing Unit := do
  if (← peek source) = '\n' then nextLine
  discard (advance source)

def string : Probing Unit := do
  loop (goesOnWithout source '"') (stringCharacter source) limit
  if ← isAtEnd source then report .unterminatedString
  else
    discard (advance source)
    let probe ← get
    addToken source .string (some (.text (slice source (probe.start + 1) (probe.current - 1))))

/-- Consumes the characters of a class that come next. -/
def span (inside : Char → Bool) : Probing Unit :=
  loop (do return inside (← peek source)) (discard (advance source)) limit

/-- A point belongs to a numeral only if a digit follows it. -/
def fraction : Probing Unit := do
  if (← peek source) = '.' then
    if (← peekNext source).isDigit then
      discard (advance source)
      span source limit Char.isDigit

def number : Probing Unit := do
  span source limit Char.isDigit
  fraction source limit
  let probe ← get
  let value ← toNumber (slice source probe.start probe.current)
  addToken source .number (some value)

def word : Probing Unit := do
  span source limit Text.isWordChar
  let probe ← get
  addToken source (Kind.ofWord (slice source probe.start probe.current)) none

/-- What is done behind the first character of a lexeme. -/
def dispatch (c : Char) : Probing Unit :=
  match Mark.singles.lookup c with
  | some mark => addToken source (.mark mark) none
  | none =>
    match Mark.comparisons.lookup c with
    | some (alone, doubled) => comparison source alone doubled
    | none =>
      if c = '/' then slash source limit
      else if c = ' ' ∨ c = '\r' ∨ c = '\t' then pure ()
      else if c = '\n' then nextLine
      else if c = '"' then string source limit
      else if c.isDigit then number source limit
      else if Text.isLetter c then word source limit
      else report .unsupportedCharacter

def scanToken : Probing Unit := do
  let c ← advance source
  dispatch source limit c

/-- One round of the main loop. -/
def round : Probing Unit := do
  modify Probe.begun
  scanToken source limit

/-- Scans the source from its start, in at most `limit` rounds of every loop.  What was reported
before is kept. -/
def scan : Probing (List Token) := do
  modify fun probe => { reports := probe.reports }
  loop (do return !(← isAtEnd source)) (round source limit) limit
  modifyGet fun probe =>
    ((.endOfInput probe.line :: probe.found).reverse, { probe with found := [] })

end Source

end Probing

end LoxLex
