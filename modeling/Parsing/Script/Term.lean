import Parsing.Script.Expr

/-!
# Terms and statements of a script

The written form of grammars and bodies. Where a `Grammar` holds a function, a
term holds data: a `CharSet` for a predicate, a `Rewording` for a change of an
error, a named variable for the value of an earlier parser.
-/

namespace Parsing.Script

/-- Sets of characters. -/
inductive CharSet where
  | among (chars : List Char)
  | except (chars : List Char)
  | between (first last : Char)
  deriving DecidableEq, Repr

/-- Whether a character is in the set. -/
def CharSet.contains : CharSet → Char → Bool
  | .among chars, c => chars.contains c
  | .except chars, c => !chars.contains c
  | .between first last, c => first ≤ c && c ≤ last

/-- A message with a character in each of its gaps, which are written as an empty
pair of braces. -/
def fillGaps (c : Char) : List Char → List Char
  | '\x7b' :: '\x7d' :: template => c :: fillGaps c template
  | d :: template => d :: fillGaps c template
  | [] => []

/-- Changes of an error. -/
inductive Rewording where
  /-- Put a text in front of the message. -/
  | lead (text : String)
  /-- Say the offset in the message. -/
  | display
  /-- Report another error. -/
  | replace (idx : Nat) (text : String)
  /-- Report the error further on. -/
  | shift (n : Nat)
  deriving DecidableEq, Repr

/-- The error after a change; an offset that cannot be named is a fault. -/
def Rewording.apply : Rewording → ParseError → Except Fault ParseError
  | .lead text, e => .ok (e.withMessage (text ++ e.message))
  | .display, e => .ok (e.withMessage e.display)
  | .replace idx text, _ => .ok ⟨idx, text⟩
  | .shift n, e => (addOffsets e.idx n).map fun idx => { e with idx }

mutual

/-- Written grammars. -/
inductive Term where
  | literal (text : Expr)
  | anyChar
  | satisfy (set : CharSet) (template : String)
  | endOfInput
  | moveTo (offset : Expr)
  | pure (value : Expr)
  | fail (message : Expr)
  /-- Report a range and a value whatever the text is; a `relative` range counts
  from the cursor. -/
  | report (start stop : Int) (value : Value) (relative : Bool)
  /-- Report a failure whatever the text is. -/
  | reportFailure (idx : Nat) (message : String)
  | bind (first : Term) (name : String) (next : Term)
  | map (f : Fn) (of : Term)
  | mapError (change : Rewording) (of : Term)
  | label (message : String) (of : Term)
  | both (first second : Term)
  | keepLeft (first second : Term)
  | keepRight (first second : Term)
  | orElse (first second : Term)
  | firstOf (alternatives : List Term)
  | choice (alternatives : List Term)
  | many (of : Term)
  | many1 (of : Term)
  | atLeast (min : Expr) (of : Term)
  | joined (of : Term)
  | lookahead (of : Term)
  | optional (of : Term)
  | succeeds (of : Term)
  | fails (of : Term)
  | notFollowedBy (of : Term)
  | withRange (of : Term)
  | sequence (body : List Statement)
  | forEach (condition : Term) (name : Option String) (body : List Statement)
  | ref (name : String)
  | ite (condition : Expr) (yes no : Term)

/-- Written statements; a name, where there is one, is bound to the value. -/
inductive Statement where
  | parse (of : Term) (name : Option String)
  | parseRanged (of : Term) (name : Option String)
  | tryParse (of : Term) (name : Option String)
  | assign (value : Expr) (name : String)
  | fail (message : Expr)
  | done (value : Expr)
  | ite (condition : Expr) (yes no : List Statement)
  | save
  | restore
  | stop
  | append (value : Expr)
  | yield (value : Expr)
  | snapshot

end

end Parsing.Script
