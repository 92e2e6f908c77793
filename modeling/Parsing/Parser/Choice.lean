import Parsing.Parser.Basic

/-!
# Choice

Alternatives are tried in order, each from the same cursor, and the first one
that succeeds decides. `firstOf` keeps the error of the last alternative;
`choice` drops all errors and fails where the cursor is.
-/

namespace Parsing.Parser

variable {α : Type}

/-- The message of a choice that has no error to report. -/
def noMoreParsers : String := "no more parsers"

/-- The first parser, or the second where the first one fails. -/
def orElse (first second : Parser α) : Parser α where
  parse cursor := do
    match ← (first.parse cursor).attempt with
    | .ok parsed => return parsed
    | .error _ => second.parse cursor

/-- Try parsers in order. The answer is the first success, or the error of the
last parser, which is `last` if there is none left. -/
def tryEach (cursor : Cursor) (last : Option ParseError) :
    List (Parser α) → Outcome (Except (Option ParseError) (Parsed α))
  | [] => return .error last
  | p :: ps => do
    match ← (p.parse cursor).attempt with
    | .ok parsed => return .ok parsed
    | .error error => tryEach cursor (some error) ps

/-- The first alternative that succeeds, or the error of the last one. -/
def firstOf (alternatives : List (Parser α)) : Parser α where
  parse cursor := do
    match ← tryEach cursor none alternatives with
    | .ok parsed => return parsed
    | .error last =>
      .record (.firstOfExhausted cursor.idx alternatives.length)
      .fail (last.getD ⟨cursor.idx, noMoreParsers⟩)

/-- The first alternative that succeeds; no error of an alternative is kept. -/
def choice (alternatives : List (Parser α)) : Parser α where
  parse cursor := do
    match ← tryEach cursor none alternatives with
    | .ok parsed => return parsed
    | .error _ =>
      .record (.choiceExhausted cursor.idx alternatives.length)
      .fail ⟨cursor.idx, noMoreParsers⟩

end Parsing.Parser
