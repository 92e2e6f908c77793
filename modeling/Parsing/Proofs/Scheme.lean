import Parsing.Grammar
import Parsing.Proofs.Correspondence.Loops

/-!
# Grammars that are built alike

A `Scheme` says which parts a grammar may have, and `T.Pairs g g'` that `g` and
`g'` are built in the same way from parts that `T` pairs with each other. A class
of grammars is what a scheme pairs with itself, `T.Admits g`; a way to change
grammars is what it pairs with something else.

> `Pairs.parsers`: if the parts that `T` pairs go in step, then so do the parsers
> of all grammars that it pairs.

This is the one induction over grammars and bodies behind the statements about
two runs, and behind those about a single one: what is left for each of them is
to say what corresponds to what, and to look at the parts.
-/

namespace Parsing

/-- The body that runs a parser and fails under a message of its own where that fails. -/
def Body.labelled {ρ : Type} (message : String) (g : Grammar ρ) : Body ρ :=
  .tryParse g fun
    | .ok value => .done value
    | .error error => .raise (error.withMessage message)

/-- What grammars that are built alike may hold and differ in. What is known of what bodies
are given, and which errors they may make, goes by the place where they began. -/
structure Scheme (ρ : Type) where
  /-- The parsers from outside that may stand opposite each other. -/
  foreign : Parser Value → Parser Value → Prop
  /-- Whether there are moves to given offsets. -/
  moves : Prop
  /-- Whether there are references. -/
  refs : Prop
  /-- Grammars that are paired as a whole. -/
  given : Grammar ρ → Grammar ρ → Prop := fun _ _ => False
  /-- The changes of values. -/
  maps : (Value → Except Fault Value) → Prop
  /-- The changes of errors in both grammars. -/
  changes : (ParseError → Except Fault ParseError) → Prop
  /-- The changes of errors that the second grammar may have and the first does not. -/
  inserts : (ParseError → Except Fault ParseError) → Prop := fun _ => False
  /-- Whether ranges may become values. -/
  ranged : Prop
  /-- The places at which sequences, and the iterations of loops, begin. -/
  begins : Cursor → Prop := fun _ => True
  /-- What is known of the ranges that bodies are given. -/
  spans : Cursor → Range → Prop := fun _ _ => True
  /-- The errors that bodies may make in a sequence, or an iteration, that began at a place. -/
  raises : Cursor → ParseError → ParseError → Prop
  /-- What is known of the errors that bodies catch. -/
  caught : Cursor → ParseError → ParseError → Prop
  /-- How a body may go on after a look at where it is. -/
  looks : (View → Body ρ) → Prop

/-- What a grammar can report at a place, whatever its references are. -/
def Grammar.CanReport {ρ : Type} (g : Grammar ρ) (c : Cursor) (parsed : Parsed Value) : Prop :=
  ∃ call : ρ → Parser Value, ((g.parserWith call).parse c).result = .ok parsed

namespace Scheme

variable {ρ : Type}

/-- What a body that began at `start` is told by the grammars it runs. -/
structure Told (T : Scheme ρ) (g : Grammar ρ) (start : Cursor) (parsed : Parsed Value) : Prop where
  spans : T.spans start parsed.range
  canReport : ∃ here, start.LeadsTo here ∧ g.CanReport here parsed

/-- What the body of a loop begins with, in an iteration that began at `start` and whose
condition led inside. -/
structure Enters (T : Scheme ρ) (condition : Grammar ρ) (start : Cursor) (parsed : Parsed Value)
    (inside : Cursor) : Prop where
  begins : T.begins start
  spans : T.spans start parsed.range
  canReport : condition.CanReport start parsed
  goto : start.goto parsed.range.stop = .ok inside

/-- The errors that a body has in hand behind a catch, as they stand opposite each other:
those from before, and the one it caught, as it is or under another message. -/
inductive Held (inHand : ParseError → ParseError → Prop) (e e' : ParseError) :
    ParseError → ParseError → Prop where
  | before {d d'} (h : inHand d d') : Held inHand e e' d d'
  | caught : Held inHand e e' e e'
  | reworded (message : String) :
    Held inHand e e' (e.withMessage message) (e'.withMessage message)

mutual

/-- Grammars that are built alike from parts that are paired. -/
inductive Pairs (T : Scheme ρ) : Grammar ρ → Grammar ρ → Prop where
  | foreign {p p'} (h : T.foreign p p') : Pairs T (.foreign p) (.foreign p')
  | moveTo (h : T.moves) (idx) : Pairs T (.moveTo idx) (.moveTo idx)
  | ref (h : T.refs) (name) : Pairs T (.ref name) (.ref name)
  | given {g g'} (h : T.given g g') : Pairs T g g'
  | literal (expected) : Pairs T (.literal expected) (.literal expected)
  | anyChar : Pairs T .anyChar .anyChar
  | satisfy (accepts describe) : Pairs T (.satisfy accepts describe) (.satisfy accepts describe)
  | endOfInput : Pairs T .endOfInput .endOfInput
  | pure (value) : Pairs T (.pure value) (.pure value)
  | fail (message) : Pairs T (.fail message) (.fail message)
  | bind {first first' next next'} (h : Pairs T first first')
    (hnext : ∀ value, Pairs T (next value) (next' value)) :
    Pairs T (.bind first next) (.bind first' next')
  | map {f g g'} (hf : T.maps f) (h : Pairs T g g') : Pairs T (.map f g) (.map f g')
  | mapError {change g g'} (hchange : T.changes change) (h : Pairs T g g') :
    Pairs T (.mapError change g) (.mapError change g')
  | insert {change g g'} (hchange : T.inserts change) (h : Pairs T g g') :
    Pairs T g (.mapError change g')
  | label {g g'} (message) (h : Pairs T g g') : Pairs T (.label message g) (.label message g')
  | insertLabel {message g g'} (hlabel : T.inserts fun e => .ok (e.withMessage message))
    (h : Pairs T g g') : Pairs T g (.label message g')
  | both {first first' second second'} (h : Pairs T first first') (hs : Pairs T second second') :
    Pairs T (.both first second) (.both first' second')
  | keepLeft {first first' second second'} (h : Pairs T first first')
    (hs : Pairs T second second') : Pairs T (.keepLeft first second) (.keepLeft first' second')
  | keepRight {first first' second second'} (h : Pairs T first first')
    (hs : Pairs T second second') : Pairs T (.keepRight first second) (.keepRight first' second')
  | orElse {first first' second second'} (h : Pairs T first first')
    (hs : Pairs T second second') : Pairs T (.orElse first second) (.orElse first' second')
  | firstOf {gs gs'} (h : PairsAll T gs gs') : Pairs T (.firstOf gs) (.firstOf gs')
  | choice {gs gs'} (h : PairsAll T gs gs') : Pairs T (.choice gs) (.choice gs')
  | atLeast {g g'} (min) (h : Pairs T g g') : Pairs T (.atLeast min g) (.atLeast min g')
  | many1 {g g'} (h : Pairs T g g') : Pairs T (.many1 g) (.many1 g')
  | joined {g g'} (h : Pairs T g g') : Pairs T (.joined g) (.joined g')
  | lookahead {g g'} (h : Pairs T g g') : Pairs T (.lookahead g) (.lookahead g')
  | optional {g g'} (h : Pairs T g g') : Pairs T (.optional g) (.optional g')
  | succeeds {g g'} (h : Pairs T g g') : Pairs T (.succeeds g) (.succeeds g')
  | fails {g g'} (h : Pairs T g g') : Pairs T (.fails g) (.fails g')
  | notFollowedBy {g g'} (h : Pairs T g g') : Pairs T (.notFollowedBy g) (.notFollowedBy g')
  | withRange {g g'} (hranged : T.ranged) (h : Pairs T g g') :
    Pairs T (.withRange g) (.withRange g')
  | sequence {body body'}
    (h : ∀ start, T.begins start → PairsBody T start (T.raises start) body body') :
    Pairs T (.sequence body) (.sequence body')
  | forEach {condition condition' body body'} (h : Pairs T condition condition')
    (hbody : ∀ start parsed inside, T.Enters condition start parsed inside →
      PairsBody T inside (T.raises start) (body parsed.value) (body' parsed.value)) :
    Pairs T (.forEach condition body) (.forEach condition' body')

/-- Grammars that are paired one by one. -/
inductive PairsAll (T : Scheme ρ) : List (Grammar ρ) → List (Grammar ρ) → Prop where
  | nil : PairsAll T [] []
  | cons {g g' gs gs'} (h : Pairs T g g') (hs : PairsAll T gs gs') :
    PairsAll T (g :: gs) (g' :: gs')

/-- Bodies that are built alike from parts that are paired, when they begin at `start`.
The errors in hand are those that the bodies may make, or caught, as they stand
opposite each other. What a body sees when it looks lies ahead of where it began, and
what it is told is what its parsers can report there. -/
inductive PairsBody (T : Scheme ρ) :
    Cursor → (ParseError → ParseError → Prop) → Body ρ → Body ρ → Prop where
  | done {start inHand} (value) : PairsBody T start inHand (.done value) (.done value)
  | fail {start inHand} (message) : PairsBody T start inHand (.fail message) (.fail message)
  | raise {start inHand e e'} (h : inHand e e') : PairsBody T start inHand (.raise e) (.raise e')
  | parse {start inHand g g' next next'} (h : Pairs T g g')
    (hnext : ∀ parsed, T.Told g start parsed →
      PairsBody T start inHand (next parsed.value) (next' parsed.value)) :
    PairsBody T start inHand (.parse g next) (.parse g' next')
  | parseRanged {start inHand g g' next next'} (hranged : T.ranged) (h : Pairs T g g')
    (hnext : ∀ parsed, T.Told g start parsed →
      PairsBody T start inHand (next parsed) (next' parsed)) :
    PairsBody T start inHand (.parseRanged g next) (.parseRanged g' next')
  | tryParse {start inHand g g' next next'} (h : Pairs T g g')
    (hnext : ∀ parsed, T.Told g start parsed →
      PairsBody T start inHand (next (.ok parsed.value)) (next' (.ok parsed.value)))
    (hcatch : ∀ e e', T.caught start e e' →
      PairsBody T start (Held inHand e e') (next (.error e)) (next' (.error e'))) :
    PairsBody T start inHand (.tryParse g next) (.tryParse g' next')
  | save {start inHand next next'} (slot) (h : PairsBody T start inHand next next') :
    PairsBody T start inHand (.save slot next) (.save slot next')
  | restore {start inHand next next'} (slot) (h : PairsBody T start inHand next next') :
    PairsBody T start inHand (.restore slot next) (.restore slot next')
  | act {start inHand next next'} (action) (h : PairsBody T start inHand next next') :
    PairsBody T start inHand (.act action next) (.act action next')
  | look {start inHand next next'} (hlooks : T.looks next')
    (h : ∀ view, start.LeadsTo view.cursor →
      PairsBody T start inHand (next view) (next' view)) :
    PairsBody T start inHand (.look next) (.look next')

end

/-- A grammar is made of parts that the scheme pairs with themselves. -/
def Admits (T : Scheme ρ) (g : Grammar ρ) : Prop := T.Pairs g g

/-- Whether what a scheme pairs goes in step, when `call` and `call'` resolve the
references of the two grammars. -/
structure InStep (T : Scheme ρ) (S : Correspondence) (call call' : ρ → Parser Value) : Prop where
  foreign : ∀ {p p'}, T.foreign p p' → S.Parsers p p'
  moves : T.moves → ∀ idx, S.Parsers (Parser.moveTo idx) (Parser.moveTo idx)
  refs : T.refs → ∀ name, S.Parsers (call name) (call' name)
  given : ∀ {g g'}, T.given g g' → S.Parsers (g.parserWith call) (g'.parserWith call')
  maps : ∀ {f}, T.maps f → ∀ value,
    RelatedExcept S.faults (fun b b' => b' = b) (f value) (f value)
  changes : ∀ {change c c' e e'}, T.changes change → S.errors c c' e e' →
    RelatedExcept S.faults (S.errors c c') (change e) (change e')
  inserts : ∀ {change c c' e e'}, T.inserts change → S.errors c c' e e' →
    ∃ d, change e' = .ok d ∧ S.errors c c' e d
  ranges_eq : ∀ {c c' r r'}, T.ranged → S.ranges c c' r r' → r' = r
  begins : ∀ {c c'}, S.cursors c c' → T.begins c
  spans : ∀ {c c' r r'}, S.ranges c c' r r' → T.spans c r
  raises : ∀ {e e' c c'}, T.raises c e e' → S.cursors c c' → S.errors c c' e e'
  caught : ∀ {c c' e e'}, S.errors c c' e e' → T.caught c e e'
  looks : ∀ {next c c'}, T.looks next → S.cursors c c' →
    ∀ loop, next ⟨c', loop⟩ = next ⟨c, loop⟩

variable {T : Scheme ρ} {S : Correspondence} {call call' : ρ → Parser Value}

theorem InStep.told (hT : T.InStep S call call') {g : Grammar ρ} {start start' : Cursor}
    {a a' : Parsed Value} (h : S.Ran (g.parserWith call) start start' a a') :
    T.Told g start a where
  spans := hT.spans h.reports.1
  canReport := by
    obtain ⟨here, hahead, hparsed⟩ := h.parsed
    exact ⟨here, hahead, call, hparsed⟩

theorem InStep.enters (hT : T.InStep S call call') {condition : Grammar ρ}
    {start start' inside inside' : Cursor} {a a' : Parsed Value} (hstart : S.cursors start start')
    (h : S.Entered (condition.parserWith call) start start' a a' inside inside') :
    T.Enters condition start a inside where
  begins := hT.begins hstart
  spans := hT.spans h.reports.1
  canReport := ⟨call, h.parsed⟩
  goto := h.goto

mutual

/-- The parsers of paired grammars go in step. -/
theorem Pairs.parsers (hT : T.InStep S call call') :
    ∀ {g g' : Grammar ρ}, T.Pairs g g' → S.Parsers (g.parserWith call) (g'.parserWith call')
  | _, _, .foreign h => hT.foreign h
  | _, _, .moveTo h idx => (hT.moves h idx).map _
  | _, _, .ref h name => hT.refs h name
  | _, _, .given h => hT.given h
  | _, _, .literal expected => (Correspondence.Parsers.literal expected).map _
  | _, _, .anyChar => Correspondence.Parsers.anyChar.map _
  | _, _, .satisfy accepts describe => (Correspondence.Parsers.satisfy accepts describe).map _
  | _, _, .endOfInput => Correspondence.Parsers.endOfInput.map _
  | _, _, .pure value => .pure value
  | _, _, .fail message => .fail message
  | _, _, .bind h hnext => (h.parsers hT).bind fun value => (hnext value).parsers hT
  | _, _, .map hf h => (h.parsers hT).mapChecked (hT.maps hf)
  | _, _, .mapError hchange h => (h.parsers hT).mapError (hT.changes hchange)
  | _, _, .insert hchange h => (h.parsers hT).mapError_right (hT.inserts hchange)
  | _, _, .label message h => (h.parsers hT).label message
  | _, _, .insertLabel hlabel h => (h.parsers hT).mapError_right (hT.inserts hlabel)
  | _, _, .both h hs => ((h.parsers hT).both (hs.parsers hT)).map _
  | _, _, .keepLeft h hs => (h.parsers hT).keepLeft (hs.parsers hT)
  | _, _, .keepRight h hs => (h.parsers hT).keepRight (hs.parsers hT)
  | _, _, .orElse h hs => (h.parsers hT).orElse (hs.parsers hT)
  | _, _, .firstOf h => .firstOf (h.parsersAll hT)
  | _, _, .choice h => .choice (h.parsersAll hT)
  | _, _, .atLeast min h => ((h.parsers hT).atLeast min).map _
  | _, _, .many1 h => (h.parsers hT).many1.map _
  | _, _, .joined h => ((h.parsers hT).map _).joined.map _
  | _, _, .lookahead h => (h.parsers hT).lookahead.map _
  | _, _, .optional h => (h.parsers hT).optional.map _
  | _, _, .succeeds h => (h.parsers hT).succeeds.map _
  | _, _, .fails h => (h.parsers hT).fails.map _
  | _, _, .notFollowedBy h => (h.parsers hT).notFollowedBy.map _
  | _, _, .withRange hranged h => ((h.parsers hT).withRange (hT.ranges_eq hranged)).map _
  | _, _, .sequence h => by
    -- A body begins with its start in every slot and with the errors of its own making.
    refine .sequence fun {start _} hstart => ?_
    have hmade := fun e e' (he : T.raises start e e') => hT.raises he hstart
    have hbody := h start (hT.begins hstart)
    refine (hbody.steps hT hstart (Correspondence.onward_refl hstart) hmade (fun _ => hstart)
      .initial).bind fun a b hab => ?_
    rw [hab]
    exact .pure rfl
  | _, _, .forEach h hbody => by
    -- The errors of its own making are judged from where the iteration began.
    refine ((h.parsers hT).forEach fun {start _ _ _ _ _} hstart hentered state => ?_).map _
    have hmade := fun e e' (he : T.raises start e e') => hT.raises he hstart
    have hinside := hbody _ _ _ (hT.enters hstart hentered)
    refine (hinside.steps hT hstart hentered.onward hmade (fun _ => hentered.onward.cursors)
      state).bind fun a b hab => ?_
    rw [hab]
    exact .pure rfl

theorem PairsAll.parsersAll (hT : T.InStep S call call') :
    ∀ {gs gs' : List (Grammar ρ)}, T.PairsAll gs gs' →
      List.Forall₂ S.Parsers (Grammar.parsersWith call gs) (Grammar.parsersWith call' gs')
  | _, _, .nil => .nil
  | _, _, .cons h hs => .cons (h.parsers hT) (hs.parsersAll hT)

/-- The steps of paired bodies go in step while their places and the errors in hand
correspond. -/
theorem PairsBody.steps (hT : T.InStep S call call') :
    ∀ {start : Cursor} {inHand : ParseError → ParseError → Prop} {body body' : Body ρ},
      T.PairsBody start inHand body body' → ∀ {c c' start' : Cursor}, S.cursors c c' →
      Onward S.cursors c c' start start' → (∀ e e', inHand e e' → S.errors c c' e e') →
      ∀ {kept : Places start} {kept' : Places start'},
      (∀ slot, S.cursors (kept slot).cursor (kept' slot).cursor) → ∀ state,
      S.Steps c c' (fun a a' => a' = a) (Grammar.stepsWith call body start kept state)
        (Grammar.stepsWith call' body' start' kept' state)
  | _, _, _, _, .done value, _, _, _, _, _, _, _, _, _, _ => .pure rfl
  | _, _, _, _, .fail message, _, _, _, hc, hstart, _, _, _, _, _ => .fail hc hstart message
  | _, _, _, _, .raise h, _, _, _, _, _, hhand, _, _, _, _ => .raise (hhand _ _ h)
  | _, _, _, _, .parse h hnext, _, _, _, hc, hstart, hhand, _, _, hkept, state => by
    refine (Correspondence.Steps.parse hc hstart (h.parsers hT)).bind fun value value' hvalue => ?_
    obtain ⟨rfl, a, a', hran, rfl⟩ := hvalue
    exact (hnext a (hT.told hran)).steps hT hc hstart hhand hkept state
  | _, _, _, _, .parseRanged hranged h hnext, _, _, _, hc, hstart, hhand, _, _, hkept, state => by
    refine (Correspondence.Steps.parseRanged hc hstart (h.parsers hT)).bind fun a a' hran => ?_
    have htold := hT.told hran
    obtain ⟨hr, hvalue⟩ := hran.reports
    obtain ⟨range, value⟩ := a
    obtain ⟨range', value'⟩ := a'
    obtain rfl : range' = range := hT.ranges_eq hranged hr
    obtain rfl : value' = value := hvalue
    exact (hnext _ htold).steps hT hc hstart hhand hkept state
  | _, _, _, _, .tryParse h hnext hcatch, _, _, _, hc, hstart, hhand, _, _, hkept, state => by
    have hparse := Correspondence.Steps.parse hstart.cursors
      (Correspondence.onward_refl hstart.cursors) (h.parsers hT)
    refine hparse.attempt.bind fun a a' ha => ?_
    cases ha with
    | ok hvalue =>
      obtain ⟨rfl, a, a', hran, rfl⟩ := hvalue
      exact (hnext a (hT.told hran)).steps hT hc hstart hhand hkept state
    | @error e e' he =>
      refine (hcatch e e' (hT.caught he)).steps hT hc hstart (fun d d' hd => ?_) hkept state
      -- What was in hand before corresponds still, and what was caught does as well.
      have hcaught := S.errors_onward hc hstart he
      cases hd with
      | before hd => exact hhand d d' hd
      | caught => exact hcaught
      | reworded message => exact S.withMessage message hcaught
  | _, _, _, _, .save slot h, _, _, _, hc, hstart, hhand, kept, kept', hkept, state => by
    refine Correspondence.Steps.get.bind fun here here' hhere => ?_
    -- The place that is kept now corresponds, and those kept before did.
    refine h.steps hT hc hstart hhand (fun n => ?_) state
    by_cases hn : n = slot
    · subst hn
      rw [Places.put_self, Places.put_self]
      exact hhere
    · rw [Places.put_of_ne _ _ hn, Places.put_of_ne _ _ hn]
      exact hkept n
  | _, _, _, _, .restore slot h, _, _, _, hc, hstart, hhand, _, _, hkept, state =>
    (Correspondence.Steps.set (hkept slot)).bind fun _ _ _ =>
      h.steps hT hc hstart hhand hkept state
  | _, _, _, _, .act action h, _, _, _, hc, hstart, hhand, _, _, hkept, state =>
    h.steps hT hc hstart hhand hkept _
  | _, _, _, _, .look hlooks h, _, _, _, hc, hstart, hhand, _, _, hkept, state => by
    refine Correspondence.Steps.get.bind fun here here' hhere => ?_
    rw [hT.looks hlooks hhere]
    exact (h _ here.leadsTo).steps hT hc hstart hhand hkept state

end

/-- A body may rename what it catches in every scheme. -/
theorem PairsBody.labelled {start : Cursor} {inHand : ParseError → ParseError → Prop}
    {g g' : Grammar ρ} (message : String) (h : T.Pairs g g') :
    T.PairsBody start inHand (.labelled message g) (.labelled message g') :=
  .tryParse h (fun _ _ => .done _) fun _ _ _ => .raise (.reworded message)

/-! ## Schemes that take everything -/

/-- A scheme that turns no part away. -/
structure TakesAll (T : Scheme ρ) : Prop where
  foreign : ∀ p, T.foreign p p
  moves : T.moves
  refs : T.refs
  maps : ∀ f, T.maps f
  changes : ∀ change, T.changes change
  ranged : T.ranged
  raises : ∀ start e, T.raises start e e
  caught : ∀ {start e e'}, T.caught start e e' → e' = e
  looks : ∀ next, T.looks next

mutual

/-- A scheme that takes every part admits every grammar. -/
theorem TakesAll.pairs (hT : T.TakesAll) : ∀ g : Grammar ρ, T.Pairs g g
  | .literal expected => .literal expected
  | .anyChar => .anyChar
  | .satisfy accepts describe => .satisfy accepts describe
  | .endOfInput => .endOfInput
  | .moveTo idx => .moveTo hT.moves idx
  | .pure value => .pure value
  | .fail message => .fail message
  | .foreign p => .foreign (hT.foreign p)
  | .bind first next => .bind (hT.pairs first) fun value => hT.pairs (next value)
  | .map f g => .map (hT.maps f) (hT.pairs g)
  | .mapError change g => .mapError (hT.changes change) (hT.pairs g)
  | .label message g => .label message (hT.pairs g)
  | .both first second => .both (hT.pairs first) (hT.pairs second)
  | .keepLeft first second => .keepLeft (hT.pairs first) (hT.pairs second)
  | .keepRight first second => .keepRight (hT.pairs first) (hT.pairs second)
  | .orElse first second => .orElse (hT.pairs first) (hT.pairs second)
  | .firstOf alternatives => .firstOf (hT.pairsAll alternatives)
  | .choice alternatives => .choice (hT.pairsAll alternatives)
  | .atLeast min g => .atLeast min (hT.pairs g)
  | .many1 g => .many1 (hT.pairs g)
  | .joined g => .joined (hT.pairs g)
  | .lookahead g => .lookahead (hT.pairs g)
  | .optional g => .optional (hT.pairs g)
  | .succeeds g => .succeeds (hT.pairs g)
  | .fails g => .fails (hT.pairs g)
  | .notFollowedBy g => .notFollowedBy (hT.pairs g)
  | .withRange g => .withRange hT.ranged (hT.pairs g)
  | .sequence body => .sequence fun start _ => hT.pairsBody (hT.raises start) body
  | .forEach condition body =>
    .forEach (hT.pairs condition) fun start _ _ _ => hT.pairsBody (hT.raises start) (body _)
  | .ref name => .ref hT.refs name

theorem TakesAll.pairsAll (hT : T.TakesAll) : ∀ gs : List (Grammar ρ), T.PairsAll gs gs
  | [] => .nil
  | g :: gs => .cons (hT.pairs g) (hT.pairsAll gs)

theorem TakesAll.pairsBody (hT : T.TakesAll) :
    ∀ {start : Cursor} {inHand : ParseError → ParseError → Prop}, (∀ e, inHand e e) →
      ∀ body : Body ρ, T.PairsBody start inHand body body
  | _, _, _, .done value => .done value
  | _, _, _, .fail message => .fail message
  | _, _, hhand, .raise error => .raise (hhand error)
  | _, _, hhand, .parse g next => .parse (hT.pairs g) fun _ _ => hT.pairsBody hhand (next _)
  | _, _, hhand, .parseRanged g next =>
    .parseRanged hT.ranged (hT.pairs g) fun parsed _ => hT.pairsBody hhand (next parsed)
  | _, _, hhand, .tryParse g next => by
    -- A caught error is the same on both sides, so it may be raised like any other.
    refine .tryParse (hT.pairs g) (fun _ _ => hT.pairsBody hhand (next (.ok _))) ?_
    intro e e' he
    rw [hT.caught he]
    exact hT.pairsBody (fun d => .before (hhand d)) (next (.error e))
  | _, _, hhand, .save slot next => .save slot (hT.pairsBody hhand next)
  | _, _, hhand, .restore slot next => .restore slot (hT.pairsBody hhand next)
  | _, _, hhand, .act action next => .act action (hT.pairsBody hhand next)
  | _, _, hhand, .look next => .look (hT.looks next) fun view _ => hT.pairsBody hhand (next view)

end

end Scheme

end Parsing
