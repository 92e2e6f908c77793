import Parsing.Script.Term

/-!
# The grammar that a script stands for

`Term.grammar` gives a written term its meaning in a scope: names become
functions of the values that will be parsed. A reference carries the scope it
was written in, so the definition it leads to is read with those names. The
statements of a body share one scope, which each run of the body begins anew,
and before each statement the body looks where it is.
-/

namespace Parsing.Script

/-- A reference to a definition, with the scope it stands in. -/
structure Reference where
  name : String
  scope : Scope

/-- An end of a range that is counted from `base`; ends before the text are moved
to its start. -/
def endFrom (base : Option Nat) (n : Int) : Except Fault Nat :=
  match base with
  | some base => (Value.addInts n base).map Int.toNat
  | none => .ok n.toNat

/-- A parser that reports a range, counted from the cursor if `relative`, and a
value whatever the text is. -/
def reporting (start stop : Int) (value : Value) (relative : Bool) : Parser Value where
  parse cursor := do
    let base := if relative then some cursor.idx else none
    let start ← .ofChecked (endFrom base start)
    let stop ← .ofChecked (endFrom base stop)
    (Parser.report start stop value).parse cursor

/-- A parser that fails with an error whatever the text is. -/
def failing (error : ParseError) : Parser Value where
  parse _ := .fail error

/-- A value for which the grammar that follows it can be made. That grammar is made
before the cursor moves. -/
def following (next : Value → Except Fault (Grammar Reference)) (value : Value) :
    Except Fault Value :=
  (next value).map fun _ => value

/-- The number under which a script keeps places; it keeps one at a time. -/
def onlySlot : Nat := 0

mutual

/-- The grammar of a term in a scope. The expressions of a term are evaluated when
its grammar is made, those behind a `bind`, in a body or in a definition not
before the parse has come there. -/
def Term.grammar (scope : Scope) : Term → Except Fault (Grammar Reference)
  | .literal text => return .literal (← text.eval scope).text
  | .anyChar => return .anyChar
  | .satisfy set template =>
    return .satisfy set.contains fun c => String.ofList (fillGaps c template.toList)
  | .endOfInput => return .endOfInput
  | .moveTo offset => return .moveTo (← offset.eval scope).toOffset
  | .pure value => return .pure (← value.eval scope)
  | .fail message => return .fail (← message.eval scope).text
  | .report start stop value relative => return .foreign (reporting start stop value relative)
  | .reportFailure idx message => return .foreign (failing ⟨idx, message⟩)
  | .bind first name next => do
    let first ← first.grammar scope
    return .bind (.map (following fun value => next.grammar (scope.bind (some name) value)) first)
      fun value => .ofChecked (next.grammar (scope.bind (some name) value))
  | .map f of => return .map f.apply (← of.grammar scope)
  | .mapError change of => return .mapError change.apply (← of.grammar scope)
  | .label message of => return .label message (← of.grammar scope)
  | .both first second => return .both (← first.grammar scope) (← second.grammar scope)
  | .keepLeft first second => return .keepLeft (← first.grammar scope) (← second.grammar scope)
  | .keepRight first second => return .keepRight (← first.grammar scope) (← second.grammar scope)
  | .orElse first second => return .orElse (← first.grammar scope) (← second.grammar scope)
  | .firstOf alternatives => return .firstOf (← Term.grammars scope alternatives)
  | .choice alternatives => return .choice (← Term.grammars scope alternatives)
  | .many of => return .many (← of.grammar scope)
  | .many1 of => return .many1 (← of.grammar scope)
  | .atLeast min of => return .atLeast (← min.eval scope).toOffset (← of.grammar scope)
  | .joined of => return .joined (← of.grammar scope)
  | .lookahead of => return .lookahead (← of.grammar scope)
  | .optional of => return .optional (← of.grammar scope)
  | .succeeds of => return .succeeds (← of.grammar scope)
  | .fails of => return .fails (← of.grammar scope)
  | .notFollowedBy of => return .notFollowedBy (← of.grammar scope)
  | .withRange of => return .withRange (← of.grammar scope)
  | .sequence body => return .sequence (Statement.body scope body fun _ => .done .unit)
  | .forEach condition name body => do
    let condition ← condition.grammar scope
    return .forEach condition fun value =>
      Statement.body (scope.bind name value) body fun _ => .done .unit
  | .ref name => return .ref ⟨name, scope⟩
  | .ite condition yes no => do
    if (← condition.eval scope).truthy then yes.grammar scope else no.grammar scope

/-- The grammars of terms, in order. -/
def Term.grammars (scope : Scope) : List Term → Except Fault (List (Grammar Reference))
  | [] => return []
  | term :: terms => return (← term.grammar scope) :: (← Term.grammars scope terms)

/-- The body of statements, with what follows them. -/
def Statement.body (scope : Scope) : List Statement → (Scope → Body Reference) → Body Reference
  | [], next => next scope
  | statement :: more, next =>
    Statement.bodyOne scope statement fun scope => Statement.body scope more next

/-- The body of one statement, with what follows it. -/
def Statement.bodyOne (scope : Scope) : Statement → (Scope → Body Reference) → Body Reference
  | .parse of name, next => .look fun view => .ofChecked do
    return .parse (← of.grammar (scope.within view)) fun value => next (scope.bind name value)
  | .parseRanged of name, next => .look fun view => .ofChecked do
    return .parseRanged (← of.grammar (scope.within view)) fun parsed =>
      next (scope.bind name (.pair parsed.value (.range parsed.range)))
  | .tryParse of name, next => .look fun view => .ofChecked do
    return .tryParse (← of.grammar (scope.within view)) fun attempted =>
      next (scope.bind name (.ofOption attempted.toOption))
  | .assign value name, next => .look fun view => .ofChecked do
    return next (scope.bind (some name) (← value.eval (scope.within view)))
  | .fail message, _ => .look fun view => .ofChecked do
    return .fail (← message.eval (scope.within view)).text
  | .done value, _ => .look fun view => .ofChecked do
    return .done (← value.eval (scope.within view))
  | .ite condition yes no, next => .look fun view => .ofChecked do
    if (← condition.eval (scope.within view)).truthy then return Statement.body scope yes next
    else return Statement.body scope no next
  | .save, next => .save onlySlot (next scope)
  | .restore, next => .restore onlySlot (next scope)
  | .stop, next => .act .stop (next scope)
  | .append value, next => .look fun view => .ofChecked do
    return .act (.append (← value.eval (scope.within view)).text) (next scope)
  | .yield value, next => .look fun view => .ofChecked do
    return .act (.yield (← value.eval (scope.within view))) (next scope)
  | .snapshot, next => .act (.snapshot .str) (next scope)

end

/-- A written grammar with its definitions. -/
structure Program where
  definitions : List (String × Term)
  main : Term

namespace Program

/-- The grammar of the definition that a reference leads to. -/
def definition (program : Program) (reference : Reference) : Grammar Reference :=
  match program.definitions.lookup reference.name with
  | some term => .ofChecked (term.grammar reference.scope)
  | none => .fail "undefined reference"

/-- How deep references are followed. -/
def maxDepth : Nat := 0x100000

/-- The parser of a program, if it can be made. -/
def parser (program : Program) : Except Fault (Parser Value) :=
  (program.main.grammar .empty).map (Grammar.parser program.definition maxDepth)

end Program

end Parsing.Script
