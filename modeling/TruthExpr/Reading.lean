import TruthExpr.Grammar
import TruthExpr.Token.Refusal

/-! # Reading — whole texts, by descent or by tokens

    A text must be one expression from its beginning to its end.  There are two
    ways to read it:

    * by descent over the characters.  The nesting allowance grows with the
      text, so that a text whose parentheses are closed is never refused for
      its depth;
    * by tokens.  The text is scanned, and the machine takes the tokens in
      order.  What it cannot take ends the reading, and so does a character at
      which no token begins once all tokens before it have been taken.

    Both refuse a text with a message and a position.  The kind tells a text
    that begins with a complete expression from one that does not begin with
    any.

    An engine is one of the two ways, by name.  What reads tokens may as well be
    another reader, so the engines take it as an argument. -/

namespace TruthExpr

/-! ## Refused texts -/

/-- What kind of refusal a read error is. -/
inductive ReadError.Kind where
  /-- No more is known than the message and the position. -/
  | general
  /-- The text does not fit the grammar; the failure is kept if there is one. -/
  | malformed (failure : Option Failure)
  /-- A complete expression is followed by `remainder`. -/
  | trailing (remainder : String)
deriving DecidableEq, Repr

/-- The refusal of a text. -/
structure ReadError where
  kind : ReadError.Kind
  message : String
  position : Int
deriving DecidableEq, Repr

/-- The short name of a kind, as it appears in answers. -/
def ReadError.Kind.name : ReadError.Kind → String
  | .general => "parse"
  | .malformed _ => "syntax"
  | .trailing _ => "trailing_input"

/-- The refusal that a failure of the whole text amounts to. -/
def Failure.toError (f : Failure) : ReadError :=
  match f.remainder with
  | some rest => ⟨.trailing rest, f.message, f.position⟩
  | none => ⟨.malformed (some f), f.message, f.position⟩

/-! ## By descent -/

namespace Reading

/-- The allowance of an empty text: the number of frames that the stack of an
    interpreter may hold when nobody has changed it. -/
def baseAllowance : Nat := 1000

/-- The number of frames that every character of a text adds to it. -/
def allowancePerChar : Nat := 6

/-- The nesting allowance for a text of `size` characters, in frames. -/
def allowance (size : Nat) : Nat :=
  baseAllowance + size * allowancePerChar

/-- An abort, as a failure at the beginning of the text. -/
def ofFault (fault : Fault) : Failure :=
  { expected := [fault.message], position := 0 }

/-- Reads one expression and nothing behind it; the cursor is where reading
    ended. -/
def parse (text : String) : Except Failure (Expr × Cursor) :=
  match Grammar.expr (allowance text.length) (Cursor.ofString text) with
  | .parsed e c =>
      if c.atEnd then .ok (e, c) else .error (Failure.trailing c.rest c.pos)
  | .failed f => .error f
  | .aborted fault => .error (ofFault fault)

/-- The expression that a text is. -/
def readExpr (text : String) : Except ReadError Expr :=
  match parse text with
  | .ok (e, _) => .ok e
  | .error f => .error f.toError

end Reading

/-! ## By tokens -/

namespace Machine

/-- Takes lexemes in order; `last` is the one before them, and `stop` is
    where the text behind them cannot be scanned. -/
def run (stop : Option (Nat × Char)) :
    Machine → Option Lexeme → List Lexeme → Except Refusal Expr
  | m, last, [] =>
      match stop with
      | some (position, c) => .error ⟨.character position c, m, last⟩
      | none =>
          match m.finish with
          | some e => .ok e
          | none => .error ⟨.endOfText, m, last⟩
  | m, last, lexeme :: rest =>
      match m.step lexeme.token with
      | some next => run stop next (some lexeme) rest
      | none => .error ⟨.token lexeme, m, last⟩

/-- The tree of a text, or why it has none. -/
def read (text : List Char) : Except Refusal Expr :=
  let scan := Scan.ofChars 0 text
  run scan.stop start none scan.lexemes

end Machine

/-- The refusal of a text of which nothing else is known. -/
def Refusal.toError (text : List Char) (r : Refusal) : ReadError :=
  ⟨.malformed none, r.message text, r.position text.length⟩

/-- The expression that a text is. -/
def Machine.readExpr (text : String) : Except ReadError Expr :=
  (Machine.read text.toList).mapError (Refusal.toError text.toList)

/-! ## Engines -/

/-- A reader of whole texts. -/
abbrev Reader := String → Except ReadError Expr

/-- A way to read a text. -/
inductive Engine where
  /-- By descent over the characters. -/
  | descent
  /-- By a reader of tokens, which may come from elsewhere. -/
  | tokens
deriving DecidableEq, Repr

namespace Engine

/-- What the engine is called on the command line. -/
def name : Engine → String
  | .descent => "combinator"
  | .tokens => "lark"

/-- All engines, sorted by name. -/
def all : List Engine := [.descent, .tokens]

/-- The engine of a name. -/
def ofName? (name : String) : Option Engine := all.find? fun e => e.name == name

/-- Reads a text with the engine.  Where no other reader of tokens is given, it
    is the token machine. -/
def read (engine : Engine) (text : String) (tokenReader : Reader := Machine.readExpr) :
    Except ReadError Expr :=
  match engine with
  | .descent => Reading.readExpr text
  | .tokens => tokenReader text

end Engine

end TruthExpr
