/-! # Tokens — the seven words a text is made of

    No token is a beginning of another, so a text falls into tokens in one
    way only, and scanning needs to know nothing about what came before. -/

namespace TruthExpr

/-- The words and signs of a text. -/
inductive Token where
  | trueWord
  | falseWord
  | bang
  | opening
  | closing
  | orSign
  | andSign
deriving DecidableEq, Repr

/-- A token and how many characters stand before it. -/
structure Lexeme where
  token : Token
  position : Nat
deriving DecidableEq, Repr

/-- A text as far as it falls into tokens. -/
structure Scan where
  lexemes : List Lexeme
  /-- Where no token begins, and the character that stands there. -/
  stop : Option (Nat × Char)
deriving DecidableEq, Repr

namespace Token

/-- How the token is written. -/
def text : Token → String
  | .trueWord => "true"
  | .falseWord => "false"
  | .bang => "!"
  | .opening => "("
  | .closing => ")"
  | .orSign => "||"
  | .andSign => "&&"

/-- What the token is called when it is met. -/
def name : Token → String
  | .trueWord => "TRUE"
  | .falseWord => "FALSE"
  | .bang => "BANG"
  | .opening => "LPAR"
  | .closing => "RPAR"
  | .orSign => "__ANON_0"
  | .andSign => "__ANON_1"

/-- The token with its name and its text. -/
def shown (t : Token) : String :=
  "Token('" ++ t.name ++ "', '" ++ t.text ++ "')"

end Token

namespace Scan

/-- One more token in front. -/
def push (token : Token) (position : Nat) (s : Scan) : Scan :=
  { s with lexemes := ⟨token, position⟩ :: s.lexemes }

/-- Scans what is left of a text behind `position` characters. -/
def ofChars (position : Nat) : List Char → Scan
  | [] => ⟨[], none⟩
  | 't' :: 'r' :: 'u' :: 'e' :: rest => push .trueWord position (ofChars (position + 4) rest)
  | 'f' :: 'a' :: 'l' :: 's' :: 'e' :: rest =>
      push .falseWord position (ofChars (position + 5) rest)
  | '!' :: rest => push .bang position (ofChars (position + 1) rest)
  | '(' :: rest => push .opening position (ofChars (position + 1) rest)
  | ')' :: rest => push .closing position (ofChars (position + 1) rest)
  | '|' :: '|' :: rest => push .orSign position (ofChars (position + 2) rest)
  | '&' :: '&' :: rest => push .andSign position (ofChars (position + 2) rest)
  | c :: _ => ⟨[], some (position, c)⟩

end Scan

end TruthExpr
