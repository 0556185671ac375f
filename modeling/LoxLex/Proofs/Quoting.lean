import LoxLex.Text.Quoted
import Mathlib.Algebra.Group.Nat.Defs
import Mathlib.Data.List.Basic

namespace LoxLex.Text

/-- The value of a hexadecimal digit. -/
def hexDigitValue (c : Char) : Nat := if c.isDigit then c.toNat - 48 else c.toNat - 87

def hexValue (digits : Text) : Nat := digits.foldl (fun value c => value * 16 + hexDigitValue c) 0

def quotes : Text := ['\'', '"']

/-- The character that the first ones of a quoted text stand for, and what is behind them. -/
def unescape : Text → Option (Char × Text)
  | '\\' :: 't' :: rest => some ('\t', rest)
  | '\\' :: 'n' :: rest => some ('\n', rest)
  | '\\' :: 'r' :: rest => some ('\r', rest)
  | '\\' :: 'x' :: rest => some (Char.ofNat (hexValue (rest.take 2)), rest.drop 2)
  | '\\' :: 'u' :: rest => some (Char.ofNat (hexValue (rest.take 4)), rest.drop 4)
  | '\\' :: 'U' :: rest => some (Char.ofNat (hexValue (rest.take 8)), rest.drop 8)
  | '\\' :: c :: rest => some (c, rest)
  | c :: rest => some (c, rest)
  | [] => none

section Hexadecimal

variable {n width : Nat} {c : Char} {rest : Text}

theorem hexDigitValue_digitChar (small : n < 16) : hexDigitValue n.digitChar = n := by
  have values : ∀ n < 16, hexDigitValue n.digitChar = n := by decide
  exact values n small

theorem hexValue_append (digits : Text) (c : Char) :
    hexValue (digits ++ [c]) = hexValue digits * 16 + hexDigitValue c := by
  rw [hexValue, hexValue, List.foldl_append]
  rfl

theorem hexValue_toDigits (n : Nat) : hexValue (Nat.toDigits 16 n) = n := by
  induction n using Nat.strongRecOn with
  | _ n ih =>
      rcases Nat.lt_or_ge n 16 with small | large
      · rw [Nat.toDigits_of_lt_base small]
        exact (Nat.zero_add _).trans (hexDigitValue_digitChar small)
      · rw [Nat.toDigits_of_base_le (by decide) large, hexValue_append, ih (n / 16) (by omega),
          hexDigitValue_digitChar (Nat.mod_lt n (by decide))]
        omega

theorem hexValue_zeros (width : Nat) (digits : Text) :
    hexValue (List.replicate width '0' ++ digits) = hexValue digits := by
  induction width with
  | zero => rfl
  | succ width ih => exact ih

theorem hexValue_hexadecimal (width n : Nat) : hexValue (hexadecimal width n) = n := by
  rw [hexadecimal, List.leftpad, hexValue_zeros, hexValue_toDigits]

theorem length_hexadecimal (some : 0 < width) (small : n < 16 ^ width) :
    (hexadecimal width n).length = width := by
  have short := (Nat.length_toDigits_le_iff (by decide) some).mpr small
  rw [hexadecimal, List.length_leftpad, Nat.max_eq_left short]

theorem mem_toDigits (member : c ∈ Nat.toDigits 16 n) : ∃ d < 16, c = d.digitChar := by
  induction n using Nat.strongRecOn with
  | _ n ih =>
      rcases Nat.lt_or_ge n 16 with small | large
      · rw [Nat.toDigits_of_lt_base small] at member
        exact ⟨n, small, List.mem_singleton.mp member⟩
      · rw [Nat.toDigits_of_base_le (by decide) large] at member
        rcases List.mem_append.mp member with front | last
        · exact ih (n / 16) (by omega) front
        · exact ⟨n % 16, Nat.mod_lt n (by decide), List.mem_singleton.mp last⟩

end Hexadecimal

section Escape

variable {quote c : Char} {text other rest behind : Text}

theorem unescape_digits {width : Nat} (some : 0 < width) (small : c.toNat < 16 ^ width)
    (rest : Text) :
    Char.ofNat (hexValue ((hexadecimal width c.toNat ++ rest).take width)) = c ∧
      (hexadecimal width c.toNat ++ rest).drop width = rest := by
  have length := length_hexadecimal some small
  rw [List.take_left' length, List.drop_left' length, hexValue_hexadecimal, Char.ofNat_toNat]
  exact ⟨rfl, rfl⟩

theorem unescape_escapeByCode (c : Char) (rest : Text) :
    unescape (escapeByCode c ++ rest) = some (c, rest) := by
  have bound : c.toNat < 16 ^ 8 := c.val.toNat_lt
  unfold escapeByCode
  split
  · rename_i small
    obtain ⟨same, back⟩ := unescape_digits (by decide : 0 < 2) small rest
    rw [List.cons_append, List.cons_append, unescape, same, back]
  · split
    · rename_i small
      obtain ⟨same, back⟩ := unescape_digits (by decide : 0 < 4) small rest
      rw [List.cons_append, List.cons_append, unescape, same, back]
    · obtain ⟨same, back⟩ := unescape_digits (by decide : 0 < 8) bound rest
      rw [List.cons_append, List.cons_append, unescape, same, back]

theorem unescape_raw (plain : c ≠ '\\') (rest : Text) : unescape (c :: rest) = some (c, rest) := by
  unfold unescape
  split <;> simp_all

theorem mem_quotes : quote ∈ quotes ↔ quote = '\'' ∨ quote = '"' := by
  simp [quotes]

/-- The characters that are written behind a backslash as they are. -/
theorem mem_escaped (isQuote : quote ∈ quotes) (escaped : c = quote ∨ c = '\\') :
    c = '\'' ∨ c = '"' ∨ c = '\\' := by
  rcases escaped with rfl | backslash
  · exact (mem_quotes.mp isQuote).imp_right .inl
  · exact .inr (.inr backslash)

/-- Every character is read back from its escaped form, whatever is behind it. -/
theorem unescape_escape (isQuote : quote ∈ quotes) (c : Char) (rest : Text) :
    unescape (escape quote c ++ rest) = some (c, rest) := by
  unfold escape
  split
  · rename_i escaped
    rcases mem_escaped isQuote escaped with rfl | rfl | rfl <;> rfl
  · rename_i unescaped
    split
    · rename_i tab
      rw [tab]
      rfl
    · split
      · rename_i newline
        rw [newline]
        rfl
      · split
        · rename_i carriage
          rw [carriage]
          rfl
        · split
          · exact unescape_raw (fun same => unescaped (.inr same)) rest
          · exact unescape_escapeByCode c rest

theorem quote_ne_backslash (isQuote : quote ∈ quotes) : quote ≠ '\\' := by
  rcases mem_quotes.mp isQuote with rfl | rfl <;> decide

/-- The quote in use ends a quoted text, since in front of its own escaped form is a backslash. -/
theorem quote_ne_escape (isQuote : quote ∈ quotes) (c : Char) (rest behind : Text) :
    quote :: rest ≠ escape quote c ++ behind := by
  intro same
  have plain := quote_ne_backslash isQuote
  have read := congrArg unescape same
  rw [unescape_raw plain, unescape_escape isQuote] at read
  cases read
  have escaped : escape quote quote = ['\\', quote] := if_pos (.inl rfl)
  rw [escaped] at same
  exact plain (List.cons.inj same).1

theorem escaped_cancel (isQuote : quote ∈ quotes)
    (same : text.flatMap (escape quote) ++ quote :: rest =
      other.flatMap (escape quote) ++ quote :: behind) :
    text = other ∧ rest = behind := by
  induction text generalizing other with
  | nil =>
      cases other with
      | nil => exact ⟨rfl, (List.cons.inj same).2⟩
      | cons d more =>
          rw [List.flatMap_cons, List.append_assoc] at same
          exact absurd same (quote_ne_escape isQuote d _ _)
  | cons c tail ih =>
      rw [List.flatMap_cons, List.append_assoc] at same
      cases other with
      | nil => exact absurd same.symm (quote_ne_escape isQuote c _ _)
      | cons d more =>
          rw [List.flatMap_cons, List.append_assoc] at same
          have read := congrArg unescape same
          rw [unescape_escape isQuote, unescape_escape isQuote] at read
          obtain ⟨first, tails⟩ := Prod.mk.inj (Option.some.inj read)
          obtain ⟨rfl, behinds⟩ := ih tails
          exact ⟨congrArg (· :: tail) first, behinds⟩

theorem quoteOf_mem (text : Text) : quoteOf text ∈ quotes := by
  unfold quoteOf
  split <;> decide

/-- A quoted text is cut off in front of whatever is behind it. -/
theorem quoted_cancel (same : text.quoted ++ rest = other.quoted ++ behind) :
    text = other ∧ rest = behind := by
  simp only [quoted, List.cons_append, List.append_assoc, List.nil_append] at same
  obtain ⟨quotes, tails⟩ := List.cons.inj same
  rw [← quotes] at tails
  exact escaped_cancel (quoteOf_mem text) tails

end Escape

section Printable

variable {quote c d : Char} {width n : Nat}

theorem isPrintable_digitChar (small : n < 16) : isPrintable n.digitChar = true := by
  have shown : ∀ n < 16, isPrintable n.digitChar = true := by decide
  exact shown n small

theorem isPrintable_hexadecimal (member : c ∈ hexadecimal width n) : isPrintable c = true := by
  rcases List.mem_append.mp member with zero | digit
  · rw [List.eq_of_mem_replicate zero]
    rfl
  · obtain ⟨d, small, rfl⟩ := mem_toDigits digit
    exact isPrintable_digitChar small

theorem isPrintable_escapeByCode (member : d ∈ escapeByCode c) : isPrintable d = true := by
  have shown (mark : Char) (printable : isPrintable mark = true) (width : Nat)
      (within : d ∈ '\\' :: mark :: hexadecimal width c.toNat) : isPrintable d = true := by
    rcases List.mem_cons.mp within with rfl | behind
    · rfl
    · rcases List.mem_cons.mp behind with rfl | digit
      · exact printable
      · exact isPrintable_hexadecimal digit
  unfold escapeByCode at member
  split at member
  · exact shown 'x' rfl 2 member
  · split at member
    · exact shown 'u' rfl 4 member
    · exact shown 'U' rfl 8 member

theorem isPrintable_escape (isQuote : quote ∈ quotes) (member : d ∈ escape quote c) :
    isPrintable d = true := by
  have all (text : Text) (shown : text.all isPrintable = true) (within : d ∈ text) :
      isPrintable d = true := List.all_eq_true.mp shown d within
  unfold escape at member
  split at member
  · rename_i escaped
    rcases mem_escaped isQuote escaped with rfl | rfl | rfl <;> exact all _ rfl member
  · split at member
    · exact all _ rfl member
    · split at member
      · exact all _ rfl member
      · split at member
        · exact all _ rfl member
        · split at member
          · rename_i printable
            rw [List.mem_singleton.mp member]
            exact printable
          · exact isPrintable_escapeByCode member

theorem isPrintable_quoted {text : Text} (member : c ∈ text.quoted) : isPrintable c = true := by
  have isQuote := quoteOf_mem text
  have shown : ∀ d ∈ quotes, isPrintable d = true := List.all_eq_true.mp rfl
  rcases List.mem_cons.mp member with rfl | behind
  · exact shown _ isQuote
  · rcases List.mem_append.mp behind with body | last
    · obtain ⟨d, _, escaped⟩ := List.mem_flatMap.mp body
      exact isPrintable_escape isQuote escaped
    · rw [List.mem_singleton.mp last]
      exact shown _ isQuote

end Printable

end LoxLex.Text
