import LoxLex.Diagnostic
import LoxLex.Number.Numeral
import LoxLex.Token.Basic

/-! Reading one piece of a text.

A piece is the stretch that one reading step takes from the head of a text: the
lexeme of a token, a stretch that is skipped, or one that is at fault.  No piece
is empty, and the pieces of a text put together are the text.  What a piece is
does not depend on what stands before it.
-/

namespace LoxLex

inductive Item where
  | token (kind : Kind) (literal : Option Literal)
  | skipped
  | fault (fault : Fault)
deriving DecidableEq, Repr

structure Piece where
  text : Text
  item : Item
deriving DecidableEq, Repr

namespace Piece

def mark (m : Mark) (text : Text) : Piece := ⟨text, .token (.mark m) none⟩

/-- The piece of a character that is one mark alone and another with an equals
sign behind it, and the text behind the piece. -/
def readComparison (c : Char) (alone doubled : Mark) : Text → Piece × Text
  | '=' :: rest => (mark doubled [c, '='], rest)
  | rest => (mark alone [c], rest)

/-- A comment up to the end of its line, or a slash. -/
def readSlash : Text → Piece × Text
  | '/' :: rest =>
    (⟨'/' :: '/' :: rest.takeWhile (· ≠ '\n'), .skipped⟩, rest.dropWhile (· ≠ '\n'))
  | rest => (mark .slash ['/'], rest)

/-- A string up to its closing quote, or the whole rest if there is none. -/
def readString (rest : Text) : Piece × Text :=
  let body := rest.takeWhile (· ≠ '"')
  match rest.dropWhile (· ≠ '"') with
  | [] => (⟨'"' :: body, .fault .unterminatedString⟩, [])
  | quote :: behind => (⟨'"' :: body ++ [quote], .token .string (some (.text body))⟩, behind)

def readNumber (text : Text) : Piece × Text :=
  let (numeral, behind) := Numeral.split text
  (⟨numeral, .token .number (some (.number (Decimal.ofNumeral numeral).toDouble))⟩, behind)

def readWord (text : Text) : Piece × Text :=
  let word := text.takeWhile Text.isWordChar
  (⟨word, .token (Kind.ofWord word) none⟩, text.dropWhile Text.isWordChar)

/-- The piece at the head of a text that starts with `c`, and the text behind it. -/
def read (c : Char) (rest : Text) : Piece × Text :=
  match Mark.singles.lookup c with
  | some m => (mark m [c], rest)
  | none =>
    match Mark.comparisons.lookup c with
    | some (alone, doubled) => readComparison c alone doubled rest
    | none =>
      if c = '/' then readSlash rest
      else if Text.isBlank c then (⟨[c], .skipped⟩, rest)
      else if c = '"' then readString rest
      else if c.isDigit then readNumber (c :: rest)
      else if Text.isLetter c then readWord (c :: rest)
      else (⟨[c], .fault .unsupportedCharacter⟩, rest)

theorem readComparison_append (c : Char) (alone doubled : Mark) (rest : Text) :
    (readComparison c alone doubled rest).1.text ++ (readComparison c alone doubled rest).2 =
      c :: rest := by
  unfold readComparison
  split <;> rfl

theorem readSlash_append (rest : Text) :
    (readSlash rest).1.text ++ (readSlash rest).2 = '/' :: rest := by
  unfold readSlash
  split
  · simp [List.takeWhile_append_dropWhile]
  · rfl

theorem readString_append (rest : Text) :
    (readString rest).1.text ++ (readString rest).2 = '"' :: rest := by
  have parts := List.takeWhile_append_dropWhile (p := fun c : Char => decide (c ≠ '"')) (l := rest)
  unfold readString
  split
  · rename_i found
    rw [found] at parts
    simpa using parts
  · rename_i quote behind found
    rw [found] at parts
    simpa using parts

theorem readWord_append (text : Text) : (readWord text).1.text ++ (readWord text).2 = text :=
  List.takeWhile_append_dropWhile

theorem isWordChar_of_isLetter {c : Char} (letter : Text.isLetter c = true) :
    Text.isWordChar c = true := by
  simp only [Text.isLetter, Text.isWordChar, Char.isAlphanum, Bool.or_eq_true] at *
  rcases letter with alpha | underscore
  · exact Or.inl (Or.inl alpha)
  · exact Or.inr underscore

/-- Nothing is lost: a piece and the text behind it make up the text that was read. -/
theorem read_append (c : Char) (rest : Text) :
    (read c rest).1.text ++ (read c rest).2 = c :: rest := by
  unfold read
  split
  · rfl
  · split
    · exact readComparison_append ..
    · split
      · rename_i slash
        subst slash
        exact readSlash_append rest
      · split
        · rfl
        · split
          · rename_i quote
            subst quote
            exact readString_append rest
          · split
            · exact Numeral.split_append _
            · split
              · exact readWord_append _
              · rfl

theorem read_nonempty (c : Char) (rest : Text) : (read c rest).1.text ≠ [] := by
  unfold read
  split
  · simp [mark]
  · split
    · unfold readComparison
      split <;> simp [mark]
    · split
      · unfold readSlash
        split <;> simp [mark]
      · split
        · simp
        · split
          · unfold readString
            split <;> simp
          · split
            · rename_i digit
              exact Numeral.split_nonempty rest digit
            · split
              · rename_i letter
                simp [readWord, isWordChar_of_isLetter letter]
              · simp

theorem read_length (c : Char) (rest : Text) :
    (read c rest).1.text.length + (read c rest).2.length = rest.length + 1 := by
  have whole := congrArg List.length (read_append c rest)
  simpa using whole

theorem read_shorter (c : Char) (rest : Text) : (read c rest).2.length < (c :: rest).length := by
  have whole := read_length c rest
  have positive := List.length_pos_iff.mpr (read_nonempty c rest)
  simp only [List.length_cons]
  omega

end Piece

end LoxLex
