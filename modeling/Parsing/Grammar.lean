import Parsing.Parser.Choice
import Parsing.Parser.Lookahead
import Parsing.Parser.Loop
import Parsing.Parser.Primitive
import Parsing.Parser.Repeat
import Parsing.Value

/-!
# Grammars

A `Grammar` is a parser of values as a term: one constructor for each way to
build a parser, and `ref` for a reference to a definition of the same kind. The
bodies of sequences and loops are terms as well, a `Body`. Terms are what
statements about *all* parsers are about, by induction; `parserWith` is the
parser that a term stands for once its references have one.

References are resolved by `parser`, which follows them to a given depth. A
parse that needs a greater depth is `exhausted`; what it answers within some
depth does not change with a greater one.
-/

namespace Parsing

/-- What a body can see when it looks: its place in the text and its loop. -/
structure View where
  cursor : Cursor
  loop : LoopState Value

mutual

/-- Terms for parsers of values. References are of type `ρ`. -/
inductive Grammar (ρ : Type) : Type where
  | literal (expected : String)
  | anyChar
  | satisfy (accepts : Char → Bool) (describe : Char → String)
  | endOfInput
  | moveTo (idx : Nat)
  | pure (value : Value)
  | fail (message : String)
  /-- A parser from outside, about which nothing is known. -/
  | foreign (p : Parser Value)
  | bind (first : Grammar ρ) (next : Value → Grammar ρ)
  | map (f : Value → Except Fault Value) (g : Grammar ρ)
  | mapError (change : ParseError → Except Fault ParseError) (g : Grammar ρ)
  | label (message : String) (g : Grammar ρ)
  | both (first second : Grammar ρ)
  | keepLeft (first second : Grammar ρ)
  | keepRight (first second : Grammar ρ)
  | orElse (first second : Grammar ρ)
  | firstOf (alternatives : List (Grammar ρ))
  | choice (alternatives : List (Grammar ρ))
  | atLeast (min : Nat) (g : Grammar ρ)
  | many1 (g : Grammar ρ)
  | joined (g : Grammar ρ)
  | lookahead (g : Grammar ρ)
  | optional (g : Grammar ρ)
  | succeeds (g : Grammar ρ)
  | fails (g : Grammar ρ)
  | notFollowedBy (g : Grammar ρ)
  | withRange (g : Grammar ρ)
  | sequence (body : Body ρ)
  | forEach (condition : Grammar ρ) (body : Value → Body ρ)
  | ref (name : ρ)

/-- Terms for the bodies of sequences and loops, statement by statement. -/
inductive Body (ρ : Type) : Type where
  /-- The end of the body, with its value. -/
  | done (value : Value)
  /-- Fail where the body is. -/
  | fail (message : String)
  /-- Fail with an error that the body caught or made. -/
  | raise (error : ParseError)
  | parse (g : Grammar ρ) (next : Value → Body ρ)
  | parseRanged (g : Grammar ρ) (next : Parsed Value → Body ρ)
  /-- Run a parser and go on even if it fails, which counts as nothing read. -/
  | tryParse (g : Grammar ρ) (next : Except ParseError Value → Body ρ)
  /-- Keep the present place under a number. -/
  | save (slot : Nat) (next : Body ρ)
  /-- Go back to the place kept under a number, or else to the beginning. -/
  | restore (slot : Nat) (next : Body ρ)
  | act (action : LoopAction Value) (next : Body ρ)
  | look (next : View → Body ρ)

end

/-- A body whose making may have broken a promise; its steps break it then. -/
def Body.ofChecked {ρ : Type} : Except Fault (Body ρ) → Body ρ
  | .ok body => body
  | .error cause => .parse (.foreign (.faulty cause)) .done

/-- The places that a body keeps, by number. -/
def Places (start : Cursor) : Type := Nat → Ahead start

namespace Places

variable {start : Cursor}

/-- Nothing kept: every number stands for the beginning. -/
def origin (start : Cursor) : Places start := fun _ => .origin start

/-- Keep a place under a number. -/
def put (kept : Places start) (slot : Nat) (here : Ahead start) : Places start := fun n =>
  if n = slot then here else kept n

@[simp] theorem put_self (kept : Places start) (slot : Nat) (here : Ahead start) :
    kept.put slot here slot = here := if_pos rfl

theorem put_of_ne (kept : Places start) {slot n : Nat} (here : Ahead start) (h : n ≠ slot) :
    kept.put slot here n = kept n := if_neg h

end Places

namespace Grammar

variable {ρ : Type}

/-- Any number of values. -/
def many (g : Grammar ρ) : Grammar ρ := .atLeast 0 g

/-- A grammar whose making may have broken a promise; its parser breaks it then. -/
def ofChecked : Except Fault (Grammar ρ) → Grammar ρ
  | .ok g => g
  | .error cause => .foreign (.faulty cause)

/-- A pair of values, as a value. -/
def pairValue (p : Value × Value) : Value := .pair p.1 p.2

/-- A value beside its range, as a value. -/
def rangedValue (p : Value × Range) : Value := .pair p.1 (.range p.2)

/-- What a loop leaves behind, as a value. -/
def loopValue (out : LoopOutput Value) : Value := .loop out.accumulated out.items

mutual

/-- The parser that a grammar stands for, when `call` resolves its references. -/
def parserWith (call : ρ → Parser Value) : Grammar ρ → Parser Value
  | .literal expected => (Parser.literal expected).map .str
  | .anyChar => Parser.anyChar.map .char
  | .satisfy accepts describe => (Parser.satisfy accepts describe).map .char
  | .endOfInput => Parser.endOfInput.map fun _ => .unit
  | .moveTo idx => (Parser.moveTo idx).map fun _ => .unit
  | .pure value => Parser.pure value
  | .fail message => Parser.fail message
  | .foreign p => p
  | .bind first next => (parserWith call first).bind fun value => parserWith call (next value)
  | .map f g => (parserWith call g).mapChecked f
  | .mapError change g => (parserWith call g).mapError change
  | .label message g => (parserWith call g).label message
  | .both first second => ((parserWith call first).both (parserWith call second)).map pairValue
  | .keepLeft first second => (parserWith call first).keepLeft (parserWith call second)
  | .keepRight first second => (parserWith call first).keepRight (parserWith call second)
  | .orElse first second => (parserWith call first).orElse (parserWith call second)
  | .firstOf alternatives => Parser.firstOf (parsersWith call alternatives)
  | .choice alternatives => Parser.choice (parsersWith call alternatives)
  | .atLeast min g => ((parserWith call g).atLeast min).map .list
  | .many1 g => (parserWith call g).many1.map .list
  | .joined g =>
    (((parserWith call g).map fun value => value.items.map Value.text).joined).map .str
  | .lookahead g => (parserWith call g).lookahead.map .ofOption
  | .optional g => (parserWith call g).optional.map .ofOption
  | .succeeds g => (parserWith call g).succeeds.map .bool
  | .fails g => (parserWith call g).fails.map .bool
  | .notFollowedBy g => (parserWith call g).notFollowedBy.map fun _ => .unit
  | .withRange g => (parserWith call g).withRange.map rangedValue
  | .sequence body => Parser.sequence fun start => do
    let (value, _) ← stepsWith call body start (.origin start) .initial
    return value
  | .forEach condition body =>
    (Parser.forEach (parserWith call condition) fun value state start => do
      let (_, state) ← stepsWith call (body value) start (.origin start) state
      return state).map loopValue
  | .ref name => call name

/-- The parsers that grammars stand for. -/
def parsersWith (call : ρ → Parser Value) : List (Grammar ρ) → List (Parser Value)
  | [] => []
  | g :: gs => parserWith call g :: parsersWith call gs

/-- The steps that a body stands for: its value, and the state of its loop. The
places kept so far are `kept`. -/
def stepsWith (call : ρ → Parser Value) : Body ρ → (start : Cursor) → (kept : Places start) →
    LoopState Value → Steps start (Value × LoopState Value)
  | .done value, _, _, state => return (value, state)
  | .fail message, _, _, _ => Steps.fail message
  | .raise error, _, _, _ => Steps.raise error
  | .parse g next, start, kept, state => do
    let value ← Steps.parse (parserWith call g)
    stepsWith call (next value) start kept state
  | .parseRanged g next, start, kept, state => do
    let parsed ← Steps.parseRanged (parserWith call g)
    stepsWith call (next parsed) start kept state
  | .tryParse g next, start, kept, state => do
    let attempted ← (Steps.parse (parserWith call g)).attempt
    stepsWith call (next attempted) start kept state
  | .save slot next, start, kept, state => do
    let here ← get
    stepsWith call next start (kept.put slot here) state
  | .restore slot next, start, kept, state => do
    set (kept slot)
    stepsWith call next start kept state
  | .act action next, start, kept, state => stepsWith call next start kept (state.act action)
  | .look next, start, kept, state => do
    let here ← get
    stepsWith call (next ⟨here.cursor, state⟩) start kept state

end

theorem parsersWith_eq_map (call : ρ → Parser Value) (gs : List (Grammar ρ)) :
    parsersWith call gs = gs.map (parserWith call) := by
  induction gs with
  | nil => rfl
  | cons g gs ih => rw [parsersWith, List.map_cons, ih]

/-- The parser of a grammar whose references are followed to depth `depth`. -/
def parser (definitions : ρ → Grammar ρ) : (depth : Nat) → Grammar ρ → Parser Value
  | 0, g => g.parserWith fun _ => ⟨fun _ => .exhausted⟩
  | depth + 1, g => g.parserWith fun name => parser definitions depth (definitions name)

end Grammar

end Parsing
