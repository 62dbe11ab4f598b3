import TruthExpr.Expr.View
import TruthExpr.Reading
import TruthExpr.Service.Config

/-! # Endpoints of the service — a summary of an expression, or its tree

    Both endpoints first look at the length of the expression, then read
    it.  The summary is given for every tree; the tree itself only when it
    is not deeper than the service allows.  What happens on the way is
    noted as events, of which the log shows those of its level.

    An answer is what a handler gives back or raises.  How a request gets to its
    handler, and how an answer is sent, is left to the framework: that a body
    is checked before the handler sees it is taken as given, and so is that
    what the handler gives back can be encoded, however deep the tree in it
    nests. -/

namespace TruthExpr

namespace Service

/-- Something the service takes a note of. -/
inductive Event where
  | rejected (size : Nat) (limit : Int)
  | unreadable (position : Int) (message : String)
  | parsed (text : String)
  | refused (depth : Nat) (limit : Int)
deriving DecidableEq, Repr

namespace Event

/-- The level of the note. -/
def level : Event → Level
  | .parsed _ => .debug
  | _ => .info

/-- The note in words. -/
def message : Event → String
  | .rejected size limit =>
      "rejected expression of " ++ toString size ++ " chars (limit " ++ toString limit ++ ")"
  | .unreadable position message =>
      "parse failed at " ++ toString position ++ ": " ++ message
  | .parsed text => "parsed " ++ quoted text
  | .refused depth limit =>
      "refused tree of depth " ++ toString depth ++ " (limit " ++ toString limit ++ ")"

/-- The note as a line of the log. -/
def line (e : Event) : String := e.level.name ++ " " ++ e.message

end Event

/-- What is wrong with the body of a request, as the check of bodies finds it
    before a handler runs. -/
inductive BodyFault where
  | notAnObject
  | noExpression
  | notAString
deriving DecidableEq, Repr

/-- Why a request is denied. -/
inductive Denial where
  | badBody (fault : BodyFault)
  | tooLong (limit : Int)
  | unreadable (error : ReadError)
  | tooDeep (limit : Int)
deriving DecidableEq, Repr

namespace BodyFault

/-- The fault as an object: its type, where it is, and what it is. -/
def toJson : BodyFault → Json
  | .notAnObject =>
      .object [("type", .string "model_type"), ("loc", .array []),
        ("msg", .string "Input should be a valid dictionary or instance of ParseBody")]
  | .noExpression =>
      .object [("type", .string "missing"), ("loc", .array [.string "expression"]),
        ("msg", .string "Field required")]
  | .notAString =>
      .object [("type", .string "string_type"), ("loc", .array [.string "expression"]),
        ("msg", .string "Input should be a valid string")]

end BodyFault

namespace Denial

/-- The status of the answer. -/
def status : Denial → Nat
  | .badBody _ => 422
  | .tooLong _ => 413
  | .unreadable _ => 400
  | .tooDeep _ => 413

/-- The details of the answer. -/
def detail : Denial → Json
  | .badBody fault => .array [fault.toJson]
  | .tooLong limit =>
      .string ("expression longer than " ++ toString limit ++ " characters")
  | .unreadable e =>
      .object [("error", .string e.kind.name), ("message", .string e.message),
        ("position", .int e.position)]
  | .tooDeep limit => .string ("tree deeper than " ++ toString limit ++ " levels")

end Denial

/-- What dealing with a request comes to, and what was noted on the way. -/
structure Dealt (α : Type) where
  result : Except Denial α
  events : List Event

/-- A tree in its three forms. -/
structure View where
  outline : String
  tree : Json
  source : String

/-- The summary as an object. -/
def summaryJson (m : Measure) : Json :=
  .object [("ok", .bool true),
    ("literals", .array (m.literals.map .bool)),
    ("operators", .object (m.operators.map fun (sign, n) => (sign, .int n))),
    ("nodes", .int m.nodes),
    ("depth", .int m.depth)]

/-- The view as an object. -/
def View.toJson (v : View) : Json :=
  .object [("ok", .bool true), ("pretty", .string v.outline), ("tree", v.tree),
    ("source", .string v.source)]

/-- Reads an expression that is not too long. -/
def read (config : Config) (text : String) : Dealt Expr :=
  if (text.length : Int) > config.maxInput then
    ⟨.error (.tooLong config.maxInput), [.rejected text.length config.maxInput]⟩
  else
    match Reading.readExpr text with
    | .ok e => ⟨.ok e, [.parsed text]⟩
    | .error e => ⟨.error (.unreadable e), [.unreadable e.position e.message]⟩

/-- The summary of an expression. -/
def summarise (config : Config) (text : String) : Dealt Measure :=
  let dealt := read config text
  ⟨dealt.result.map Expr.measure, dealt.events⟩

/-- The tree of an expression. -/
def view (config : Config) (text : String) : Dealt View :=
  let dealt := read config text
  match dealt.result with
  | .error denial => ⟨.error denial, dealt.events⟩
  | .ok e =>
      let depth := e.measure.depth
      if (depth : Int) > config.maxTreeDepth then
        ⟨.error (.tooDeep config.maxTreeDepth),
          dealt.events ++ [.refused depth config.maxTreeDepth]⟩
      else ⟨.ok ⟨e.outline Expr.usualIndent, e.toJson, e.source⟩, dealt.events⟩

/-- The two questions that can be asked. -/
inductive Endpoint where
  | summary
  | tree
deriving DecidableEq, Repr

/-- The endpoint at a path. -/
def Endpoint.ofPath? : String → Option Endpoint
  | "/parse" => some .summary
  | "/ast" => some .tree
  | _ => none

/-- The expression that a request asks about.  This is the check that a body has
    to pass on its own, whatever else may be wrong with the request around it. -/
def bodyText : Json → Except BodyFault String
  | .object members =>
      match Json.member? "expression" members with
      | some (.string text) => .ok text
      | some _ => .error .notAString
      | none => .error .noExpression
  | _ => .error .notAnObject

/-- What an endpoint answers to an expression. -/
def Endpoint.deal (endpoint : Endpoint) (config : Config) (text : String) : Dealt Json :=
  match endpoint with
  | .summary =>
      let dealt := summarise config text
      ⟨dealt.result.map summaryJson, dealt.events⟩
  | .tree =>
      let dealt := view config text
      ⟨dealt.result.map View.toJson, dealt.events⟩

/-- The answer of a handler to a request. -/
structure Answer where
  result : Except Denial Json
  log : List String

/-- The status of an answer, as the handler gives it.  Encoding a tree that is
    given back may still fail if it nests too deep for the encoder; that comes
    after the answer and has no part in it. -/
def Answer.status (a : Answer) : Nat :=
  match a.result with
  | .ok _ => 200
  | .error denial => denial.status

/-- The lines that a log of the given level shows. -/
def logLines (level : Level) (events : List Event) : List String :=
  (events.filter fun e => level.admits e.level).map Event.line

/-- What an endpoint answers to a request body. -/
def Endpoint.answer (endpoint : Endpoint) (config : Config) (body : Json) : Answer :=
  match bodyText body with
  | .error fault => ⟨.error (.badBody fault), []⟩
  | .ok text =>
      let dealt := endpoint.deal config text
      ⟨dealt.result, logLines config.logLevel dealt.events⟩

end Service

end TruthExpr
