import Parsing.Proofs.Iteration
import Parsing.Proofs.Repetition

/-!
# Parsers that lie

A parser from outside can report what it likes: a range that begins before the cursor
it was given, one that ends there, or one that ends past the text. Whatever is built
from such parsers keeps to the places ahead:

> `runs_stay_ahead`: parsers that answer alike at all places ahead of a cursor can
> stand for each other in every run from there, and what repetitions, sequences and
> loops report, and lookaheads, are ranges that begin at the cursor.

The first part says which cursors a parser or a body is ever given, without a word
about how: a run that gave it any other could tell the two apart.
-/

namespace Parsing

/-- A place that a program can hold and that lies on the same text, no earlier. -/
structure Cursor.Reaches (c d : Cursor) : Prop where
  reachable : d.Reachable
  leadsTo : c.LeadsTo d

/-- Parsers that answer alike at every place from a cursor on. -/
def Parser.AlikeFrom {α : Type} (c : Cursor) (p p' : Parser α) : Prop :=
  ∀ d, c.Reaches d → (p'.parse d).result = (p.parse d).result

namespace Cursor

variable {c d e : Cursor} {idx : Nat}

theorem Reachable.reaches_self (hc : c.Reachable) : c.Reaches c := ⟨hc, .refl c⟩

theorem Reaches.goto (hd : c.Reaches d) (hgo : d.goto idx = .ok e) : c.Reaches e :=
  ⟨.goto hd.reachable hgo, hd.leadsTo.trans (leadsTo_of_goto hgo)⟩

/-- The places ahead are the offsets of the text from here on. -/
theorem Reachable.reaches_atOffset (hc : c.Reachable) (hlo : c.idx ≤ idx)
    (hhi : idx ≤ c.text.length) : c.Reaches (atOffset c.text idx) where
  reachable := reachable_atOffset hhi hc.sound.size_le
  leadsTo := .inr ⟨rfl, hc.sound.len_eq.symm, hlo, hc.sound.len_eq ▸ hhi⟩

end Cursor

/-! ## Other parsers in the place of leaves -/

/-- Runs from places ahead of a cursor. -/
def SameRuns.onwards (c : Cursor) : SameRuns :=
  .withSameErrors c.Reaches (fun hd hgo => hd.goto hgo) True False

/-- Grammars that differ in their parsers from outside only, which answer alike from a
cursor on. -/
def Scheme.alikeFrom {ρ : Type} (c : Cursor) : Scheme ρ :=
  { everything with foreign := Parser.AlikeFrom c }

section

variable {ρ : Type} {c : Cursor}

/-- Parsers that answer alike from a cursor on go in step on the places ahead of it. -/
theorem Parser.AlikeFrom.parsers {α : Type} {p p' : Parser α} (h : p.AlikeFrom c p') :
    (SameRuns.onwards c).correspondence.Parsers p p' := by
  intro d d' hd
  obtain ⟨hsame, hplace⟩ := hd
  have hself : (SameRuns.onwards c).correspondence.Parsers p p :=
    (SameRuns.onwards c).parsers_self fun _ _ _ => trivial
  have hrelated := hself ⟨rfl, hplace⟩
  unfold Outcome.Related at hrelated ⊢
  rw [hsame, h d hplace]
  exact hrelated

theorem Scheme.inStep_alikeFrom {call call' : ρ → Parser Value}
    (hcall : ∀ name, (SameRuns.onwards c).correspondence.Parsers (call name) (call' name)) :
    (Scheme.alikeFrom c).InStep (SameRuns.onwards c).correspondence call call' :=
  (SameRuns.onwards c).inStep_self id (fun h => h.parsers) (fun _ => hcall)
    (fun h => h.elim) id (fun _ => trivial) (fun _ _ => trivial) id fun _ _ => rfl

/-- Nobody is given a place that does not lie ahead. -/
theorem Grammar.resultAt_of_alikeFrom {definitions definitions' : ρ → Grammar ρ}
    {g g' : Grammar ρ} (hc : c.Reachable)
    (hdefinitions : ∀ name, (Scheme.alikeFrom c).Pairs (definitions name) (definitions' name))
    (hg : (Scheme.alikeFrom c).Pairs g g') (depth : Nat) :
    g'.resultAt definitions' depth c = g.resultAt definitions depth c := by
  have hplace : (SameRuns.onwards c).correspondence.cursors c c := ⟨rfl, hc.reaches_self⟩
  have hrelated := Scheme.related_resultAt trivial Scheme.inStep_alikeFrom hdefinitions hg depth
    hplace
  exact hrelated.eq (fun _ _ hf => hf) id (fun _ _ he => he)
    fun _ _ hreport => (SameRuns.onwards c).eq_of_reports hreport

end

/-! ## Other bodies -/

namespace Parser

variable {α ι : Type} {c : Cursor}

theorem result_sequence_of_alikeFrom {body body' : (start : Cursor) → Steps start α}
    (hc : c.Reachable) (hbody : ∀ start, c.Reaches start →
      ((body' start).run (.origin start)).result = ((body start).run (.origin start)).result) :
    ((sequence body').parse c).result = ((sequence body).parse c).result := by
  rw [sequence, sequence, Outcome.result_bind, Outcome.result_bind, hbody c hc.reaches_self]

/-- Bodies that do alike from whatever place ahead of a cursor they begin at. -/
def BodiesAlikeFrom (c : Cursor)
    (body body' : α → LoopState ι → (start : Cursor) → Steps start (LoopState ι)) : Prop :=
  ∀ value state start, c.Reaches start →
    ((body' value state start).run (.origin start)).result =
      ((body value state start).run (.origin start)).result

section

variable {condition condition' : Parser α}
  {body body' : α → LoopState ι → (start : Cursor) → Steps start (LoopState ι)}
  {state : LoopState ι} {start : Nat}

theorem turn_of_alikeFrom (hc : c.Reachable) (hcondition : condition.AlikeFrom c condition')
    (hbody : BodiesAlikeFrom c body body') (hlo : c.idx ≤ start) (hhi : start ≤ c.text.length) :
    turn condition' body' c.text state start = turn condition body c.text state start := by
  unfold turn
  rw [hcondition _ (hc.reaches_atOffset hlo hhi)]
  cases (condition.parse (.atOffset c.text start)).result with
  | ok matched =>
    dsimp only
    by_cases hin : start ≤ matched.range.stop ∧ matched.range.stop ≤ c.text.length
    · obtain ⟨hforward, hwithin⟩ := hin
      have hplace := hc.reaches_atOffset (Nat.le_trans hlo hforward) hwithin
      rw [if_pos ⟨hforward, hwithin⟩, if_pos ⟨hforward, hwithin⟩, ranFrom, ranFrom,
        hbody matched.value state _ hplace]
    · rw [if_neg hin, if_neg hin]
  | fail error => rfl
  | fault cause => rfl
  | exhausted => rfl

/-- Every turn of a course is at a place ahead. -/
theorem Course.of_alikeFrom {starts : List Nat} {result : Result (LoopState ι × Nat)}
    (h : Course condition body c.text state start starts result) (hc : c.Reachable)
    (hcondition : condition.AlikeFrom c condition') (hbody : BodiesAlikeFrom c body body')
    (hlo : c.idx ≤ start) (hhi : start ≤ c.text.length) :
    Course condition' body' c.text state start starts result := by
  induction h with
  | last hlast =>
    rw [← turn_of_alikeFrom hc hcondition hbody hlo hhi] at hlast
    exact .last hlast
  | again hagain _ ih =>
    obtain ⟨hlt, hle⟩ := bounds_of_again hhi hagain
    rw [← turn_of_alikeFrom hc hcondition hbody hlo hhi] at hagain
    exact .again hagain (ih (by omega) hle)

theorem result_forEach_of_alikeFrom (hc : c.Reachable) (hkeeps : KeepsPlaces body)
    (hkeeps' : KeepsPlaces body') (hcondition : condition.AlikeFrom c condition')
    (hbody : BodiesAlikeFrom c body body') :
    ((forEach condition' body').parse c).result = ((forEach condition body).parse c).result := by
  have hidx := hc.sound.idx_le
  have hsize := hc.sound.size_le
  obtain ⟨starts, result, hcourse⟩ :=
    Course.exists_course condition body c.text .initial c.idx hidx
  have hcourse' := hcourse.of_alikeFrom hc hcondition hbody (Nat.le_refl _) hidx
  rw [hc.sound.eq_atOffset]
  calc ((forEach condition' body').parse (.atOffset c.text c.idx)).result
    _ = reported c.idx <$> result := result_forEach_of_course hcourse' hkeeps' hsize hidx
    _ = ((forEach condition body).parse (.atOffset c.text c.idx)).result :=
      (result_forEach_of_course hcourse hkeeps hsize hidx).symm

end

/-! ## Reports -/

/-- A range that begins at a cursor and ends on its text, no earlier. -/
structure Frames (c : Cursor) (range : Range) : Prop where
  start_eq : range.start = c.idx
  idx_le : c.idx ≤ range.stop
  stop_le : range.stop ≤ c.len

theorem frames_of_leadsTo {last : Cursor} (hc : c.Reachable) (h : c.LeadsTo last) :
    Frames c ⟨c.idx, last.idx⟩ where
  start_eq := rfl
  idx_le := h.idx_le
  stop_le := h.len_eq ▸ h.idx_le_len hc.sound.idx_le_len

theorem frames_of_atLeast {p : Parser α} {min : Nat} {parsed : Parsed (List α)} (hc : c.Reachable)
    (h : ((p.atLeast min).parse c).result = .ok parsed) : Frames c parsed.range := by
  obtain ⟨last, hrounds, -, hrange⟩ := atLeast_eq_ok h
  rw [hrange]
  exact frames_of_leadsTo hc hrounds.leadsTo

theorem frames_of_sequence {body : (start : Cursor) → Steps start α} {parsed : Parsed α}
    (hc : c.Reachable) (h : ((sequence body).parse c).result = .ok parsed) :
    Frames c parsed.range := by
  obtain ⟨⟨value, behind⟩, -, hend⟩ := Outcome.bind_eq_ok h
  obtain ⟨hparsed, -⟩ := Parsed.new_eq_ok (Result.ofChecked_eq_ok hend)
  rw [hparsed]
  exact frames_of_leadsTo hc behind.leadsTo

theorem frames_of_forEach {condition : Parser α}
    {body : α → LoopState ι → (start : Cursor) → Steps start (LoopState ι)}
    {parsed : Parsed (LoopOutput ι)} (hc : c.Reachable) (hkeeps : KeepsPlaces body)
    (h : ((forEach condition body).parse c).result = .ok parsed) : Frames c parsed.range := by
  have hidx := hc.sound.idx_le
  obtain ⟨starts, result, hcourse⟩ :=
    Course.exists_course condition body c.text .initial c.idx hidx
  have hresult := result_forEach_of_course hcourse hkeeps hc.sound.size_le hidx
  have hplace : Cursor.atOffset c.text c.idx = c := hc.sound.eq_atOffset.symm
  rw [hplace, h] at hresult
  obtain ⟨⟨state, stop⟩, rfl, hreported⟩ := Result.bind_eq_ok hresult.symm
  obtain ⟨hlo, hhi⟩ := hcourse.stop_bounds hidx
  rw [← Result.ok.inj hreported]
  exact ⟨rfl, hlo, hc.sound.len_eq ▸ hhi⟩

end Parser

namespace Grammar

variable {ρ : Type}

/-- The grammars that report from where they were to where they have come. -/
def Walks : Grammar ρ → Prop
  | .atLeast _ _ | .many1 _ | .sequence _ | .forEach _ _ => True
  | _ => False

/-- The grammars that only look ahead. -/
def Peeks : Grammar ρ → Prop
  | .lookahead _ | .fails _ | .notFollowedBy _ => True
  | _ => False

variable {call : ρ → Parser Value} {c : Cursor} {parsed : Parsed Value}

theorem Walks.frames {g : Grammar ρ} (hg : g.Walks) (hc : c.Reachable)
    (h : ((g.parserWith call).parse c).result = .ok parsed) : Parser.Frames c parsed.range := by
  cases g with
  | atLeast min g =>
    obtain ⟨a, ha, rfl⟩ := Parser.map_eq_ok h
    exact Parser.frames_of_atLeast hc ha
  | many1 g =>
    obtain ⟨a, ha, rfl⟩ := Parser.map_eq_ok h
    exact Parser.frames_of_atLeast hc (Parser.many1_eq_ok ha)
  | sequence body => exact Parser.frames_of_sequence hc h
  | forEach condition body =>
    rw [parserWith_forEach] at h
    obtain ⟨a, ha, rfl⟩ := Parser.map_eq_ok h
    exact Parser.frames_of_forEach hc (keepsPlaces_loopSteps call body) ha
  | _ => exact hg.elim

theorem Peeks.range_eq {g : Grammar ρ} (hg : g.Peeks)
    (h : ((g.parserWith call).parse c).result = .ok parsed) : parsed.range = .empty c.idx := by
  cases g with
  | lookahead g =>
    obtain ⟨a, ha, rfl⟩ := Parser.map_eq_ok h
    exact Parser.range_of_lookahead ha
  | fails g =>
    obtain ⟨a, ha, rfl⟩ := Parser.map_eq_ok h
    exact Parser.range_of_fails ha
  | notFollowedBy g =>
    obtain ⟨a, ha, rfl⟩ := Parser.map_eq_ok h
    rw [Parser.notFollowedBy_eq_ok ha]
    rfl
  | _ => exact hg.elim

end Grammar

/-- Whatever the parsers from outside report, a run gives them no other places than those
ahead of where it began: there they can be replaced by parsers, and bodies by bodies,
that answer alike. What walks over the text reports from where it began to a place
ahead, and what peeks reports that nothing was read. -/
theorem runs_stay_ahead {c : Cursor} (hc : c.Reachable) :
    (∀ {ρ : Type} (definitions definitions' : ρ → Grammar ρ) (g g' : Grammar ρ),
      (∀ name, (Scheme.alikeFrom c).Pairs (definitions name) (definitions' name)) →
      (Scheme.alikeFrom c).Pairs g g' →
      ∀ depth, g'.resultAt definitions' depth c = g.resultAt definitions depth c) ∧
    (∀ {α : Type} (body body' : (start : Cursor) → Steps start α),
      (∀ start, c.Reaches start → ((body' start).run (.origin start)).result =
        ((body start).run (.origin start)).result) →
      ((Parser.sequence body').parse c).result = ((Parser.sequence body).parse c).result) ∧
    (∀ {α ι : Type} (condition condition' : Parser α)
      (body body' : α → LoopState ι → (start : Cursor) → Steps start (LoopState ι)),
      Parser.KeepsPlaces body → Parser.KeepsPlaces body' → condition.AlikeFrom c condition' →
      Parser.BodiesAlikeFrom c body body' →
      ((Parser.forEach condition' body').parse c).result =
        ((Parser.forEach condition body).parse c).result) ∧
    (∀ {ρ : Type} (definitions : ρ → Grammar ρ) (g : Grammar ρ) (parsed : Parsed Value),
      g.Answers definitions c (.ok parsed) →
      (g.Walks → Parser.Frames c parsed.range) ∧ (g.Peeks → parsed.range = .empty c.idx)) := by
  refine ⟨?_, ?_, ?_, ?_⟩
  · intro ρ definitions definitions' g g' hdefinitions hg depth
    exact Grammar.resultAt_of_alikeFrom hc hdefinitions hg depth
  · intro α body body' hbody
    exact Parser.result_sequence_of_alikeFrom hc hbody
  · intro α ι condition condition' body body' hkeeps hkeeps' hcondition hbody
    exact Parser.result_forEach_of_alikeFrom hc hkeeps hkeeps' hcondition hbody
  · intro ρ definitions g parsed h
    obtain ⟨-, depth, hdepth⟩ := h
    obtain ⟨call, hcall⟩ := Grammar.exists_parserWith definitions depth
    rw [Grammar.resultAt, hcall] at hdepth
    exact ⟨fun hg => hg.frames hc hdepth, fun hg => hg.range_eq hdepth⟩

/-- Parsers that report ends behind the cursor and past the text. One of them breaks a
promise before the cursor, where nobody asks it. -/
theorem runs_stay_ahead_of_liars :
    let liar : Parser Value := ⟨fun d => .ofResult <| .ok <|
      if d.idx = 1 then ⟨⟨0, 3⟩, .int 1⟩ else ⟨⟨0, 0⟩, .int 2⟩⟩
    let liar' : Parser Value := ⟨fun d => if d.idx = 0 then .fault .badStep else liar.parse d⟩
    let past : Grammar Unit := .foreign (.report 5 99 .unit)
    let c : Cursor := .atOffset ['é', 'a', '\n', 'b'] 1
    let definitions : Parser Value → Unit → Grammar Unit := fun p _ => .foreign p
    let repeated : Grammar Unit := .atLeast 1 (.ref ())
    let steps := Grammar.loopSteps (fun () => liar) fun value => .act (.yield value) (.done .unit)
    repeated.Answers (definitions liar) c (.ok ⟨⟨1, 3⟩, .list [.int 1, .int 2]⟩) ∧
      repeated.Answers (definitions liar') c (.ok ⟨⟨1, 3⟩, .list [.int 1, .int 2]⟩) ∧
      Parser.Frames c ⟨1, 3⟩ ∧
      ((Parser.forEach liar steps).parse c).result = .fault (.outOfRange ⟨0, 3, 4⟩) ∧
      ((Parser.forEach liar' steps).parse c).result = .fault (.outOfRange ⟨0, 3, 4⟩) ∧
      (Grammar.lookahead past).Answers (definitions liar) c (.ok ⟨⟨1, 1⟩, .some .unit⟩) ∧
      (⟨1, 1⟩ : Range) = .empty c.idx := by
  intro liar liar' past c definitions repeated steps
  have hc : c.Reachable := Cursor.reachable_atOffset (by decide) (by decide)
  have halike : liar.AlikeFrom c liar' := by
    intro d hd
    have hidx : 1 ≤ d.idx := hd.leadsTo.idx_le
    show (if d.idx = 0 then Outcome.fault .badStep else liar.parse d).result = _
    rw [if_neg (by omega)]
  have hkeeps : Parser.KeepsPlaces steps := Grammar.keepsPlaces_loopSteps _ _
  obtain ⟨hleaves, -, hloops, hreports⟩ := runs_stay_ahead hc
  have hrepeated : repeated.Answers (definitions liar) c
      (.ok ⟨⟨1, 3⟩, .list [.int 1, .int 2]⟩) := ⟨nofun, 1, by decide +kernel⟩
  have hsame := hleaves (definitions liar) (definitions liar') repeated repeated
    (fun _ => .foreign halike) (.atLeast 1 (.ref trivial ()))
  have hpast : (Grammar.lookahead past).Answers (definitions liar) c
      (.ok ⟨⟨1, 1⟩, .some .unit⟩) := ⟨nofun, 0, by decide +kernel⟩
  have hloop : ((Parser.forEach liar steps).parse c).result = .fault (.outOfRange ⟨0, 3, 4⟩) := by
    decide +kernel
  have hloop' := hloops liar liar' steps steps hkeeps hkeeps halike fun _ _ _ _ => rfl
  obtain ⟨hframes, -⟩ := hreports _ _ _ hrepeated
  obtain ⟨-, hpeeks⟩ := hreports _ _ _ hpast
  obtain ⟨-, depth, hdepth⟩ := hrepeated
  exact ⟨⟨nofun, depth, hdepth⟩, ⟨nofun, depth, (hsame depth).trans hdepth⟩, hframes trivial,
    hloop, hloop'.trans hloop, hpast, hpeeks trivial⟩

end Parsing
