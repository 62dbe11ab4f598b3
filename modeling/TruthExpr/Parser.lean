import TruthExpr.Outcome

/-! # Parsers — small readers, and how to put them together

    A parser looks at a cursor and answers an outcome.  It changes nothing,
    so trying another alternative is running the next parser on the same
    cursor.  Every combinator but `separated` runs each of its parts at most
    once; `separated` repeats an operator and an operand as long as both
    match, and is given as many rounds as there are characters ahead of it,
    which is enough for parts that consume text. -/

namespace TruthExpr

/-- A reader of part of a text. -/
abbrev Parser (α : Type) := Cursor → Outcome α

namespace Parser

variable {α β : Type}

/-- The label of a literal that is given none: its text in double quotes. -/
def quotedLabel (text : String) : String :=
  "\"" ++ text ++ "\""

/-- Matches `text`; a failure expects `label`. -/
def labelled (text : String) (value : α) (label : String) : Parser α := fun c =>
  if c.startsWith text then .parsed value (c.advance text.length)
  else .failed { expected := [label], position := c.pos }

/-- Matches `text`; a failure expects it by name. -/
def literal (text : String) (value : α) : Parser α :=
  labelled text value (quotedLabel text)

/-- Matches nothing. -/
def succeed (value : α) : Parser α := fun c => .parsed value c

/-- Always fails in one and the same way. -/
def fail (failure : Failure) : Parser α := fun _ => .failed failure

/-- Always gives the run up. -/
def abort (fault : Fault) : Parser α := fun _ => .aborted fault

/-- Runs a parser and then the one its value calls for. -/
def bind (p : Parser α) (next : α → Parser β) : Parser β := fun c =>
  match p c with
  | .parsed value c' => next value c'
  | .failed failure => .failed failure
  | .aborted fault => .aborted fault

/-- Runs two parsers in a row and keeps the value of the second. -/
def andThen (p : Parser α) (q : Parser β) : Parser β :=
  p.bind fun _ => q

/-- Runs two parsers in a row and keeps the value of the first. -/
def followedBy (p : Parser α) (q : Parser β) : Parser α :=
  p.bind fun value => q.bind fun _ => succeed value

/-- Changes the value of a match. -/
def map (f : α → β) (p : Parser α) : Parser β := fun c => (p c).map f

/-- Changes the value of a match by a function that may be at fault. -/
def tryMap (f : α → Except Fault β) (p : Parser α) : Parser β := fun c => (p c).tryMap f

/-- Commits every failure. -/
def committing (p : Parser α) : Parser α := fun c => (p c).mapFailure Failure.commit

/-- Reports every failure as one expectation where the parser began. -/
def label (name : String) (p : Parser α) : Parser α := fun c =>
  (p c).mapFailure fun _ => { expected := [name], position := c.pos }

/-- Adds a frame to every failure. -/
def rule (name : String) (p : Parser α) : Parser α := fun c =>
  (p c).mapFailure fun f => f.within name c.pos

/-- Tries the alternatives in order, `failures` being those of the ones
    before.  The first match wins, and so does a committed failure, which is
    released here; when all have failed their failures are merged. -/
def tryAll : List (Parser α) → List Failure → Parser α
  | [], failures, _ =>
      match Failure.merge? failures with
      | some f => .failed f
      | none => .aborted .noAlternatives
  | p :: rest, failures, c =>
      match p c with
      | .parsed value next => .parsed value next
      | .failed f =>
          if f.committed then .failed f.release
          else tryAll rest (failures ++ [f]) c
      | .aborted fault => .aborted fault

/-- The first alternative that matches. -/
def choice (alternatives : List (Parser α)) : Parser α := tryAll alternatives []

/-- Runs all parsers in a row; the first failure is the outcome. -/
def sequence : List (Parser α) → Parser (List α)
  | [] => succeed []
  | p :: rest => p.bind fun value => (sequence rest).map (value :: ·)

/-- Operators and operands as long as both match, in one row.  The repetition
    ends before the first operator or operand that does not match, committed
    or not; it is at fault if it does not end within the given number of
    rounds. -/
def rounds (operand : Parser α) (operator : Parser β) : Nat → Parser (List (α ⊕ β))
  | fuel, c =>
      match operator c with
      | .failed _ => .parsed [] c
      | .aborted fault => .aborted fault
      | .parsed op c' =>
          match operand c' with
          | .failed _ => .parsed [] c
          | .aborted fault => .aborted fault
          | .parsed x next =>
              match fuel with
              | 0 => .aborted .endlessRepetition
              | fuel + 1 =>
                  (rounds operand operator fuel next).map fun items =>
                    .inr op :: .inl x :: items

/-- An operand, and then operators and operands as long as both match, in one
    row. -/
def separated (operand : Parser α) (operator : Parser β) : Parser (List (α ⊕ β)) :=
  operand.bind fun first c =>
    (rounds operand operator c.distance c).map fun items => .inl first :: items

end Parser

end TruthExpr
