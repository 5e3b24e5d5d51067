import BoundaryTag.Text.Numeral
import BoundaryTag.Text.Quoted
import BoundaryTag.Trace.Basic
import BoundaryTag.Word

/-!
# Trace files

A trace file has a request on each line:

```text
  a <id> <bytes>    allocate
  r <id> <bytes>    resize (allocates when <id> is not live)
  f <id>            release
```

A number sign and what is behind it on the line are a comment, and lines without words are skipped.
Lines before the first request that start with a real number are a heading and are skipped too.
-/
namespace BoundaryTag

/-- What a number of a request stands for. -/
inductive Operand where
  | id
  | size
deriving DecidableEq, Repr

def Operand.label : Operand → String
  | .id => "id"
  | .size => "size"

/-- What is wrong with a line. -/
inductive LineError where
  | missing (operand : Operand)
  /-- A word is not a number, or not one that a machine word holds. -/
  | invalid (operand : Operand) (token : List Char)
  /-- The first word is no request. -/
  | unknownOperation (token : List Char)
  /-- The line goes on after the request. -/
  | unexpectedToken (token : List Char)
deriving DecidableEq, Repr

open Text in
def LineError.message : LineError → String
  | .missing operand => s!"missing {operand.label}"
  | .invalid operand token => s!"invalid {operand.label} {quoted token}"
  | .unknownOperation token => s!"unknown operation {quoted token}"
  | .unexpectedToken token => s!"unexpected token {quoted token}"

/-- The first line of a text that is wrong, counted from one. -/
structure ParseError where
  line : Nat
  problem : LineError
deriving DecidableEq, Repr

def ParseError.message (error : ParseError) : String :=
  s!"line {error.line}: {error.problem.message}"

namespace Trace

open Text

def word? (token : List Char) : Option Nat :=
  (natural? token).filter (· < wordLimit)

/-- Reads a number off the words of a line. -/
def takeNumber (operand : Operand) (tokens : List (List Char)) :
    Except LineError (Nat × List (List Char)) :=
  match tokens with
  | [] => .error (.missing operand)
  | token :: rest =>
    match word? token with
    | some number => .ok (number, rest)
    | none => .error (.invalid operand token)

/-- Reads the request that a line starts with, whose first word is `kind`. -/
def takeRequest (kind : List Char) (tokens : List (List Char)) :
    Except LineError (Request × List (List Char)) :=
  match kind with
  | ['a'] => do
    let (id, tokens) ← takeNumber .id tokens
    let (size, tokens) ← takeNumber .size tokens
    return (.allocate id size, tokens)
  | ['r'] => do
    let (id, tokens) ← takeNumber .id tokens
    let (size, tokens) ← takeNumber .size tokens
    return (.resize id size, tokens)
  | ['f'] => do
    let (id, tokens) ← takeNumber .id tokens
    return (.release id, tokens)
  | _ => .error (.unknownOperation kind)

/-- The words of a line before its comment. -/
def contentWords (line : List Char) : List (List Char) :=
  words (line.takeWhile (· != '#'))

/-- Reads a line, on which there need not be a request. Before the first request of a trace a line
may start with a real number. -/
def parseLine (headingAllowed : Bool) (line : List Char) : Except LineError (Option Request) :=
  match contentWords line with
  | [] => .ok none
  | kind :: tokens =>
    if headingAllowed && isReal kind then .ok none
    else do
      match ← takeRequest kind tokens with
      | (request, []) => return some request
      | (_, token :: _) => throw (.unexpectedToken token)

/-- Reads lines, the first of which has the given number. A heading is allowed until a request has
been read. -/
def parseLines (number : Nat) (headingAllowed : Bool) (lines : List (List Char)) :
    Except ParseError Trace :=
  match lines with
  | [] => .ok []
  | line :: rest =>
    match parseLine headingAllowed line with
    | .error problem => .error ⟨number, problem⟩
    | .ok none => parseLines (number + 1) headingAllowed rest
    | .ok (some request) => (request :: ·) <$> parseLines (number + 1) false rest

def parse (text : String) : Except ParseError Trace :=
  parseLines 1 true (lines text.toList)

end Trace

end BoundaryTag
