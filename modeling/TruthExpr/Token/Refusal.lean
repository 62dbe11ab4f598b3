import TruthExpr.Token.Machine

/-! # Refusals of the token machine, and their wording

    A refusal names what the machine could not take: a token, a character
    with which no token begins, or the end of the text.  What it would have
    taken instead is read off the machine; the names are listed by code
    point. -/

namespace TruthExpr

/-- What the machine could not take. -/
inductive Obstacle where
  | token (lexeme : Lexeme)
  | character (position : Nat) (value : Char)
  | endOfText
deriving DecidableEq, Repr

/-- The end of reading before a tree was complete. -/
structure Refusal where
  obstacle : Obstacle
  machine : Machine
  /-- The token before the obstacle. -/
  last : Option Lexeme
deriving DecidableEq, Repr

namespace Refusal

/-- How many characters of the text were fine. -/
def position (size : Nat) (r : Refusal) : Nat :=
  match r.obstacle with
  | .token lexeme => lexeme.position
  | .character position _ => position
  | .endOfText => size

/-- The tokens that begin or are an operand. -/
def operandNames : List String := ["BANG", "FALSE", "LPAR", "TRUE"]

/-- The signs that go on behind an operand. -/
def operatorNames : List String := ["\"&&\"", "\"||\""]

/-- What the machine would have taken.  A character is looked up before the
    parentheses are counted, so there a closing one always counts as
    possible. -/
def expected (r : Refusal) : List String :=
  match r.machine, r.obstacle with
  | .wantsOperand _, _ => operandNames
  | .wantsOperator _ _, .endOfText => ["RPAR"]
  | .wantsOperator _ _, .character _ _ => operatorNames ++ ["RPAR"]
  | .wantsOperator _ _, .token ⟨.closing, _⟩ => ["$END"]
  | .wantsOperator _ _, .token _ =>
      operatorNames ++ [if r.machine.inGroup then "RPAR" else "$END"]

/-- A list of names, one to a line. -/
def listed (names : List String) : String :=
  "Expected one of: \n\t* " ++ "\n\t* ".intercalate names ++ "\n"

/-- The surroundings of a position, at most 40 characters on each side and
    on one line, with a mark below it. -/
def excerpt (text : List Char) (position : Nat) : String :=
  let before := (text.take position).drop (position - 40)
  let after := ((text.drop position).take 40).takeWhile (· ≠ '\n')
  String.ofList (before ++ after ++ '\n' :: List.replicate before.length ' ' ++ ['^', '\n'])

/-- A token that was not wanted, and where it stands. -/
def unexpected (shown : String) (column : Nat) : String :=
  "Unexpected token " ++ shown ++ " at line 1, column " ++ toString column ++ ".\n"

/-- The refusal in words. -/
def message (text : List Char) (r : Refusal) : String :=
  match r.obstacle with
  | .endOfText =>
      let column := 1 + (r.last.map Lexeme.position).getD 0
      unexpected "Token('$END', '')" column ++ listed r.expected
  | .character position c =>
      "No terminal matches '" ++ String.ofList [c] ++
        "' in the current parser context, at line 1 col " ++ toString (position + 1) ++
        "\n\n" ++ excerpt text position ++ listed r.expected ++
        match r.last with
        | some lexeme => "\nPrevious tokens: " ++ lexeme.token.shown ++ "\n"
        | none => ""
  | .token lexeme =>
      unexpected lexeme.token.shown (lexeme.position + 1) ++ listed r.expected ++
        match r.machine, lexeme.token with
        | .wantsOperator _ _, .closing => ""
        | _, _ =>
            "Previous tokens: [" ++
              ((r.last.map fun l => l.token.shown).getD "None") ++ "]\n"

end Refusal

end TruthExpr
