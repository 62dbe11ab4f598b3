import TruthExpr.Text.Notation

/-! # JSON values — what trees and answers are made of, and how they are written

    Members of an object keep the order in which they were written.  A
    number is a whole number divided by a power of ten, so that every JSON
    numeral has a value.

    A value is written as one line of ASCII.  A comma and a colon are followed
    by a blank, members come in their order, and every character that is not
    printable ASCII becomes an escape with four hexadecimal digits, or two of
    them for a character beyond the first 65536. -/

namespace TruthExpr

/-- A JSON value. -/
inductive Json where
  | null
  | bool (value : Bool)
  /-- `mantissa` divided by ten to the power of `scale`. -/
  | number (mantissa : Int) (scale : Nat)
  | string (value : String)
  | array (items : List Json)
  | object (members : List (String × Json))
deriving Inhabited, Repr

namespace Json

/-- A whole number. -/
def int (value : Int) : Json := .number value 0

/-- The last member of an object that has the given name. -/
def member? (name : String) : List (String × Json) → Option Json
  | [] => none
  | (key, value) :: rest =>
      match member? name rest with
      | some later => some later
      | none => if key = name then some value else none

mutual

/-- How deep objects nest in a value; a value without objects has depth 0. -/
def objectDepth : Json → Nat
  | .array items => depthOfItems items
  | .object members => depthOfMembers members + 1
  | _ => 0

/-- The greatest object depth among items. -/
def depthOfItems : List Json → Nat
  | [] => 0
  | value :: rest => max (objectDepth value) (depthOfItems rest)

/-- The greatest object depth among members. -/
def depthOfMembers : List (String × Json) → Nat
  | [] => 0
  | (_, value) :: rest => max (objectDepth value) (depthOfMembers rest)

end

/-! ## Written values -/

/-- An escape for a 16-bit unit. -/
def unitEscape (n : Nat) : List Char :=
  '\\' :: 'u' :: hexDigits 4 n

/-- How a character is written between quotes. -/
def escaped (c : Char) : List Char :=
  if c = '"' then ['\\', '"']
  else if c = '\\' then ['\\', '\\']
  else if c = '\n' then ['\\', 'n']
  else if c = '\r' then ['\\', 'r']
  else if c = '\t' then ['\\', 't']
  else if c = '\x08' then ['\\', 'b']
  else if c = '\x0c' then ['\\', 'f']
  else if 32 ≤ c.toNat ∧ c.toNat < 127 then [c]
  else if c.toNat < 0x10000 then unitEscape c.toNat
  else
    unitEscape (0xd800 + (c.toNat - 0x10000) / 0x400) ++
      unitEscape (0xdc00 + (c.toNat - 0x10000) % 0x400)

/-- A string between quotes. -/
def quoted (s : String) : String :=
  String.ofList ('"' :: s.toList.flatMap escaped ++ ['"'])

/-- A number in positional notation. -/
def numeral (mantissa : Int) (scale : Nat) : String :=
  if scale = 0 then toString mantissa
  else
    let size := mantissa.natAbs
    let fraction := toString (size % Nat.pow 10 scale)
    (if mantissa < 0 then "-" else "") ++ toString (size / Nat.pow 10 scale) ++ "." ++
      String.ofList (List.replicate (scale - fraction.length) '0') ++ fraction

mutual

/-- A value as one line of text. -/
def written : Json → String
  | .null => "null"
  | .bool true => "true"
  | .bool false => "false"
  | .number mantissa scale => numeral mantissa scale
  | .string s => quoted s
  | .array items => "[" ++ writtenItems items ++ "]"
  | .object members => "\x7b" ++ writtenMembers members ++ "\x7d"

/-- Items with commas between them. -/
def writtenItems : List Json → String
  | [] => ""
  | [value] => written value
  | value :: rest => written value ++ ", " ++ writtenItems rest

/-- Members with commas between them. -/
def writtenMembers : List (String × Json) → String
  | [] => ""
  | [(name, value)] => quoted name ++ ": " ++ written value
  | (name, value) :: rest => quoted name ++ ": " ++ written value ++ ", " ++ writtenMembers rest

end

end Json

end TruthExpr
