import TruthExpr.Text.Character

/-! # Notation — numbers and texts as they are written

    A numeral that is read is a row of decimal digits, of any script, in which
    two digits may have one underscore between them.  A sign may stand directly
    in front of it, and blanks around both.  The number of digits is limited.

    A text that is shown in a message stands on one line and between quotes.
    These are single ones unless the text has a single quote and no double one.
    The quote in use and the backslash are escaped, and so is what cannot be
    printed: by a letter if there is one, else by two, four or eight hexadecimal
    digits. -/

namespace TruthExpr

/-! ## Hexadecimal digits of a fixed number -/

/-- The lower-case hexadecimal digit of a number below 16. -/
def hexDigit (n : Nat) : Char :=
  if n < 10 then Char.ofNat (48 + n) else Char.ofNat (87 + n)

/-- The last `width` hexadecimal digits of a number. -/
def hexDigits : (width : Nat) → Nat → List Char
  | 0, _ => []
  | width + 1, n => hexDigits width (n / 16) ++ [hexDigit (n % 16)]

/-! ## Whole numbers in texts -/

namespace Numeral

/-- A character in plain ASCII: every blank becomes the ordinary one and a
    digit the one of the same value.  What is neither becomes a question
    mark, with which no number can be written. -/
def plain (c : Char) : Char :=
  if c.toNat < 127 then c
  else if isBlank c then ' '
  else
    match digitValue? c with
    | some d => Char.ofNat (48 + d)
    | none => '?'

/-- A text in plain ASCII.  A text that is plain already stays as it is. -/
def plainChars (s : List Char) : List Char :=
  if s.all fun c => c.toNat < 128 then s else s.map plain

/-- Why a text stands for no number. -/
inductive Error where
  | malformed
  | tooLong (digits : Nat)
deriving DecidableEq, Repr

/-- How many digits a number may be written with. -/
def digitLimit : Nat := 4300

/-- A character that a row of digits is made of. -/
def isPart (c : Char) : Bool := c.isDigit || c = '_'

/-- The row ends in a digit and every underscore in it follows one;
    `afterDigit` tells whether a digit stands in front of the row. -/
def isRow (afterDigit : Bool) : List Char → Bool
  | [] => afterDigit
  | '_' :: rest => afterDigit && isRow false rest
  | _ :: rest => isRow true rest

/-- The value of digits in decimal notation. -/
def ofDigits (digits : List Char) : Nat :=
  digits.foldl (fun value c => 10 * value + (c.toNat - 48)) 0

/-- A number without a sign, and nothing but blanks behind it.  The digits
    are counted before it is looked what stands behind them. -/
def unsigned (s : List Char) : Except Error Nat :=
  let row := s.takeWhile isPart
  let digits := row.filter (· ≠ '_')
  if !isRow false row then .error .malformed
  else if digits.length > digitLimit then .error (.tooLong digits.length)
  else if (s.dropWhile isPart).all isPlainBlank then .ok (ofDigits digits)
  else .error .malformed

/-- A number with or without a sign. -/
def signed : List Char → Except Error Int
  | '-' :: rest => (unsigned rest).map fun n => -(n : Int)
  | '+' :: rest => (unsigned rest).map Int.ofNat
  | s => (unsigned s).map Int.ofNat

end Numeral

/-- The whole number that a text stands for. -/
def readInt (s : String) : Except Numeral.Error Int :=
  Numeral.signed ((Numeral.plainChars s.toList).dropWhile isPlainBlank)

/-! ## Quoted texts -/

namespace Quoted

/-- The quote that surrounds a text. -/
def mark (s : List Char) : Char :=
  if s.contains '\'' && !s.contains '"' then '"' else '\''

/-- The escape of a character that cannot be printed. -/
def numbered (n : Nat) : List Char :=
  if n < 0x100 then '\\' :: 'x' :: hexDigits 2 n
  else if n < 0x10000 then '\\' :: 'u' :: hexDigits 4 n
  else '\\' :: 'U' :: hexDigits 8 n

/-- How a character is written between the given quotes. -/
def escaped (quote : Char) (c : Char) : List Char :=
  if c = quote ∨ c = '\\' then ['\\', c]
  else if c = '\n' then ['\\', 'n']
  else if c = '\r' then ['\\', 'r']
  else if c = '\t' then ['\\', 't']
  else if isPrintable c then [c]
  else numbered c.toNat

end Quoted

/-- A text in quotes. -/
def quoted (s : String) : String :=
  let quote := Quoted.mark s.toList
  String.ofList (quote :: s.toList.flatMap (Quoted.escaped quote) ++ [quote])

end TruthExpr
