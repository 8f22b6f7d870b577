import Stencil.Proofs.Agreement
import Stencil.Proofs.DepthLimit
import Stencil.Proofs.FaithfulParse
import Stencil.Proofs.LastNode
import Stencil.Proofs.ReadBackBody
import Stencil.Proofs.ScanMoved

/-!
# Templates one after the other

A template that ends with literal text may be followed by another one.  Unless the
second one completes what that text begins, it is parsed as if it stood alone, and
it is evaluated after the first one.
-/

namespace Stencil

def TextRun.nodes (run : TextRun) (span : Span) : List Node :=
  if run.content = [] then [] else [.text (String.ofList run.content) span]

theorem TextRun.nodes_spelled (run : TextRun) (offset : Nat) :
    BodySpelledBy (run.nodes ⟨offset, offset + byteLength run.written⟩)
      (run.tokens offset) := by
  unfold TextRun.nodes TextRun.tokens
  split
  · rfl
  · exact ⟨_, [], rfl, rfl, rfl⟩

theorem TextRun.nodes_nesting (run : TextRun) (span : Span) :
    bodyNesting (run.nodes span) = 0 := by
  unfold TextRun.nodes
  split <;> rfl

theorem BodySpelledBy.append {first second : List Node} {tokens others : List Token}
    (spelled : BodySpelledBy first tokens) (further : BodySpelledBy second others) :
    BodySpelledBy (first ++ second) (tokens ++ others) := by
  induction first generalizing tokens with
  | nil =>
      obtain rfl := spelled
      exact further
  | cons node first ih =>
      obtain ⟨own, rest, rfl, nodeSpelled, restSpelled⟩ := spelled
      exact ⟨own, rest ++ others, List.append_assoc .., nodeSpelled, ih restSpelled⟩

theorem BeginsBody.pathEnds {tokens : List Token} (begins : BeginsBody tokens) :
    PathEnds tokens :=
  ⟨begins.nextKind_ne rfl rfl, begins.nextKind_ne rfl rfl⟩

/-- A template that others may follow: nothing is wrong with it, and it is empty or
ends with literal text that could not go on with a sigil. -/
structure Continuable (settings : Settings) (template : String) : Prop where
  clean : (parseTemplate settings template).diagnostics = []
  ends : template = "" ∨ ∃ front content span endSpan,
    (tokenize settings.trimLineBreaks template).1 =
      front ++ [⟨.text content, span⟩, ⟨.endOfInput, endSpan⟩]
  lastPlain : ∀ character ∈ template.toList.getLast?, isSigil character = false

theorem lastPlain_of_getLast? {text : List Char} (last : Char)
    (ends : text.getLast? = some last) (plain : isSigil last = false) :
    ∀ character ∈ text.getLast?, isSigil character = false := by
  intro character member
  rw [ends, Option.mem_some_iff] at member
  exact member ▸ plain

theorem parseTemplate_last_text {settings : Settings} {text : String}
    (clean : (parseTemplate settings text).diagnostics = []) {front : List Token}
    {content : String} {span endSpan : Span}
    (ends : (tokenize settings.trimLineBreaks text).1 =
      front ++ [⟨.text content, span⟩, ⟨.endOfInput, endSpan⟩]) :
    BodySpelledBy (parseTemplate settings text).program.nodes
        (front ++ [⟨.text content, span⟩]) ∧
      ∃ earlier, (parseTemplate settings text).program.nodes =
          earlier ++ [.text content span] ∧ BodySpelledBy earlier front := by
  obtain ⟨tokens, tokensEnd, split, spelled⟩ := parseTemplate_spelled clean
  obtain rfl : tokens = front ++ [⟨.text content, span⟩] := by
    rw [ends] at split
    exact append_last_cancel split.symm
  exact ⟨spelled, spelled.last_text⟩

/-- A program goes on with the nodes of another one a distance further on: the
literal texts between them are joined. -/
def Program.ContinuedBy (program other whole : Program) (distance : Nat) : Prop :=
  ∃ earlier content span run others runSpan joinedSpan,
    program.nodes = earlier ++ [.text content span] ∧
    other.nodes = TextRun.nodes run runSpan ++ others ∧
    whole.nodes = earlier ++ .text (content ++ String.ofList run.content) joinedSpan ::
      mapBodySpans (Span.moved distance) others

/-- The scan of a template after its first run of literal text. -/
def scanAfterRun (trim : Bool) (text : String) : Scan :=
  let run := TextRun.ofFront text.toList
  scanAfterText trim (byteLength run.written) run.rest

theorem tokenize_eq (trim : Bool) (text : String) :
    tokenize trim text =
      ((TextRun.ofFront text.toList).tokens 0 ++ (scanAfterRun trim text).tokens,
        (scanAfterRun trim text).reports) := by
  simp [tokenize, scanBody_eq, Scan.prepend, scanAfterRun]

/-- Across a free seam the literal texts on both sides are joined, and what follows is
scanned as it would be alone, a distance further on. -/
theorem tokenize_append {trim : Bool} {first : String} (second : String)
    (clean : (tokenize trim first).2 = []) {front : List Token} {content : String}
    {span endSpan : Span}
    (ends : (tokenize trim first).1 =
      front ++ [⟨.text content, span⟩, ⟨.endOfInput, endSpan⟩])
    (lastPlain : ∀ character ∈ first.toList.getLast?, isSigil character = false)
    (free : SeamFree trim second.toList (tokenize trim first).1) :
    ∃ joinedSpan, tokenize trim (first ++ second) =
      (front ++ ⟨.text (content ++
          String.ofList (TextRun.ofFront second.toList).content), joinedSpan⟩ ::
        (scanAfterRun trim second).tokens.map (Token.moved (byteLength first.toList)),
      (scanAfterRun trim second).reports.map
        (Report.moved (byteLength first.toList))) := by
  let run := TextRun.ofFront second.toList
  obtain ⟨stop, scan⟩ := scanBody_followedBy trim second.toList 0 first.toList clean
    lastPlain free front content span _ ends
  rw [Nat.zero_add] at stop
  have after : scanAfterText trim (span.stop + byteLength run.written) run.rest =
      (scanAfterRun trim second).moved (byteLength first.toList) := by
    rw [stop, Nat.add_comm]
    exact scanAfterText_moved _ trim _ run.rest
  refine ⟨⟨span.start, span.stop + byteLength run.written⟩, ?_⟩
  rw [tokenize, String.toList_append, scan]
  simp [scanAfterSeam, Scan.prepend, run, after]

/-- A second template is parsed as if it stood alone, a distance further on. -/
theorem parseTemplate_append {settings : Settings} {first : String} (second : String)
    (clean : (parseTemplate settings first).diagnostics = [])
    {front : List Token} {content : String} {span endSpan : Span}
    (ends : (tokenize settings.trimLineBreaks first).1 =
      front ++ [⟨.text content, span⟩, ⟨.endOfInput, endSpan⟩])
    (lastPlain : ∀ character ∈ first.toList.getLast?, isSigil character = false)
    (apart : (parseTemplate settings first).program.StandsApart settings.trimLineBreaks
      second.toList) :
    templateReports settings (first ++ second) =
        (templateReports settings second).map
          (Report.moved (byteLength first.toList)) ∧
      (parseTemplate settings first).program.ContinuedBy
        (parseTemplate settings second).program
        (parseTemplate settings (first ++ second)).program
        (byteLength first.toList) := by
  let trim := settings.trimLineBreaks
  let limit := settings.maxDepth
  let distance := byteLength first.toList
  let run := TextRun.ofFront second.toList
  let after := scanAfterRun trim second
  obtain ⟨spelled, earlier, nodes, earlierSpelled⟩ := parseTemplate_last_text clean ends
  have scanClean : (tokenize trim first).2 = [] :=
    (List.append_eq_nil_iff.mp (templateReports_eq_nil.mpr clean)).1
  have free : SeamFree trim second.toList (tokenize trim first).1 := by
    rw [ends, List.append_cons]
    exact spelled.seamFree rfl apart
  obtain ⟨joinedSpan, whole⟩ := tokenize_append second scanClean ends lastPlain free
  have begins : PathEnds after.tokens := (scanAfterText_begins trim _ run.rest).pathEnds
  have within : bodyNesting (parseTemplate settings first).program.nodes ≤ limit :=
    parseTemplate_nesting_le settings first
  have readSecond : templateReading limit (tokenize trim second).1 =
      (templateReading limit after.tokens).map
        (run.nodes ⟨0, 0 + byteLength run.written⟩ ++ ·) := by
    rw [tokenize_eq]
    exact templateReading_append (run.nodes_spelled 0) (by simp [run.nodes_nesting])
      begins
  -- The nodes of the first template are read back from its tokens, except the last one,
  -- which is joined with the text that the second template begins with.
  have readWhole : templateReading limit (tokenize trim (first ++ second)).1 =
      (moved distance (templateReading limit after.tokens)).map
        (earlier ++ [.text (content ++ String.ofList run.content) joinedSpan] ++ ·) := by
    rw [whole, ← templateReading_moved, List.append_cons]
    refine templateReading_append ?_ ?_ ?_
    · exact earlierSpelled.append ⟨_, [], rfl, rfl, rfl⟩
    · simpa [nodes, bodyNesting_append, bodyNesting, Node.nesting] using within
    · simpa [PathEnds] using begins
  constructor
  · change (tokenize trim (first ++ second)).2 ++
        (templateReading limit (tokenize trim (first ++ second)).1).reports =
      ((tokenize trim second).2 ++
        (templateReading limit (tokenize trim second).1).reports).map
          (Report.moved distance)
    rw [readWhole, readSecond, whole, tokenize_eq, List.map_append]
    rfl
  · refine ⟨earlier, content, span, run,
      (templateReading limit after.tokens).value, ⟨0, 0 + byteLength run.written⟩,
      joinedSpan, nodes, ?_, ?_⟩
    · exact congrArg Reading.value readSecond
    · exact (congrArg Reading.value readWhole).trans (List.append_assoc ..)

/-- A position a distance further on, of which only the offset is kept. -/
def Position.offsetMoved (distance : Nat) (position : Position) : Position :=
  ⟨0, 0, position.offset + distance⟩

/-- A diagnostic a distance further on, of whose extent only the offsets are kept. -/
def Diagnostic.offsetsMoved (distance : Nat) (diagnostic : Diagnostic) : Diagnostic :=
  { diagnostic with
    extent := ⟨diagnostic.extent.start.offsetMoved distance,
      diagnostic.extent.stop.offsetMoved distance⟩ }

theorem Source.positionAt_append (name : String) (first second : String)
    (offset : Nat) :
    (Source.positionAt ⟨name, first ++ second⟩
      (offset + byteLength first.toList)).offsetMoved 0 =
        (Source.positionAt ⟨name, second⟩ offset).offsetMoved
          (byteLength first.toList) := by
  simp only [Source.positionAt, Position.offsetMoved, Source.byteSize, Source.characters,
    String.toList_append, byteLength_append, Position.mk.injEq, true_and]
  omega

theorem Report.diagnostic_append (report : Report) (name : String)
    (first second : String) :
    ((report.moved (byteLength first.toList)).diagnostic
      ⟨name, first ++ second⟩).offsetsMoved 0 =
        (report.diagnostic ⟨name, second⟩).offsetsMoved (byteLength first.toList) := by
  have start := Source.positionAt_append name first second report.span.start
  have stop := Source.positionAt_append name first second
    (max report.span.stop report.span.start)
  have later : max (report.span.stop + byteLength first.toList)
      (report.span.start + byteLength first.toList) =
        max report.span.stop report.span.start + byteLength first.toList := by
    omega
  simp only [Report.diagnostic, Fault.diagnosticAt, Diagnostic.offsetsMoved, Source.extentOf,
    Source.extent, Report.moved, Span.moved_start, Span.moved_stop, later, start, stop]

theorem Diagnostic.sortByStart_offsetsMoved (distance : Nat)
    (diagnostics : List Diagnostic) :
    (sortByStart diagnostics).map (offsetsMoved distance) =
      sortByStart (diagnostics.map (offsetsMoved distance)) := by
  apply List.map_mergeSort
  intro left _ right _
  simp [offsetsMoved, Position.offsetMoved]

/-- The diagnostics of a template whose reports are those of another one, a distance
further on. -/
theorem diagnostics_append {settings : Settings} {first second : String}
    (same : templateReports settings (first ++ second) =
      (templateReports settings second).map (Report.moved (byteLength first.toList))) :
    (parseTemplate settings (first ++ second)).diagnostics.map
        (Diagnostic.offsetsMoved 0) =
      (parseTemplate settings second).diagnostics.map
        (Diagnostic.offsetsMoved (byteLength first.toList)) := by
  simp only [parseTemplate_diagnostics, Diagnostic.sortByStart_offsetsMoved, same,
    List.map_map]
  refine congrArg Diagnostic.sortByStart (List.map_congr_left fun report _ => ?_)
  exact report.diagnostic_append templateName first second

theorem Evaluator.evaluateBody_self (evaluator : Evaluator) (nodes : List Node) :
    (evaluator.evaluateBody nodes).Agrees (evaluator.evaluateBody nodes) := by
  have agrees := evaluator.evaluateBody_agrees evaluator.source id nodes
  rwa [mapBodySpans_id] at agrees

/-- A program that goes on with another one writes what both write. -/
theorem Program.ContinuedBy.evaluate_agrees {program other whole : Program}
    {distance : Nat} (continued : program.ContinuedBy other whole distance)
    (evaluator : Evaluator) :
    (evaluator.evaluateBody whole.nodes).Agrees
      (evaluator.evaluateBody (program.nodes ++ other.nodes)) := by
  obtain ⟨earlier, content, span, run, others, runSpan, joinedSpan, nodes, otherNodes,
    wholeNodes⟩ := continued
  have further : (evaluator.evaluateBody (mapBodySpans (Span.moved distance) others)).Agrees
      (evaluator.evaluateBody others) :=
    evaluator.evaluateBody_agrees evaluator.source (Span.moved distance) others
  rw [nodes, otherNodes, wholeNodes, List.append_assoc, Evaluator.evaluateBody_append,
    Evaluator.evaluateBody_append]
  refine .bind (evaluator.evaluateBody_self earlier) fun written => .bind ?_ fun _ =>
    .pure _
  rw [List.singleton_append, Evaluator.evaluateBody_text, Evaluator.evaluateBody_text]
  unfold TextRun.nodes
  split
  · rename_i empty
    simp only [empty, List.nil_append, String.ofList_nil, String.append_empty]
    exact .bind further fun _ => .pure _
  · rw [List.singleton_append, Evaluator.evaluateBody_text]
    simp only [bind_assoc, pure_bind, ← String.append_assoc]
    exact .bind further fun _ => .pure _

/-- The reason for which an evaluation stopped, if it was begun at all. -/
def TemplateError.fault? : TemplateError → Option EvaluationFault
  | .malformed _ _ => none
  | .stopped error => some error.fault

namespace Engine

/-- Evaluate two parsed templates one after the other; the second one sees what the
first one has defined. -/
def evaluateInSequence (engine : Engine) (first second : ParsedTemplate) :
    Evaluation String := do
  let written ← (engine.evaluatorFor first).evaluate first.program
  let further ← (engine.evaluatorFor second).evaluate second.program
  pure (written ++ further)

/-- Two templates in a row write what they write in sequence, or stop for the reason for
which the first one of them stops that does. -/
def ResolvesInSequence (engine : Engine) (first second : String) (data : Fields) : Prop :=
  (engine.resolve (first ++ second) data).answer.mapError TemplateError.fault? =
    ((engine.evaluateInSequence (engine.parse first) (engine.parse second)).answer
      { environment := { data } }).mapError some

theorem evaluateInSequence_agrees (engine : Engine) (first second whole : ParsedTemplate) :
    (engine.evaluateInSequence first second).Agrees
      ((engine.evaluatorFor whole).evaluateBody
        (first.program.nodes ++ second.program.nodes)) := by
  rw [Evaluator.evaluateBody_append]
  have evaluates (parsed : ParsedTemplate) :=
    (engine.evaluatorFor whole).evaluate_agrees parsed.source parsed.program
  exact .bind (evaluates first) fun _ => .bind (evaluates second) fun _ => .pure _

theorem mapError_fault? (result : Except EvaluationError String) :
    (result.mapError TemplateError.stopped).mapError TemplateError.fault? =
      (result.mapError EvaluationError.fault).mapError some := by
  cases result <;> rfl

theorem resolve_of_agrees {engine : Engine} {template : String}
    (clean : (engine.parse template).diagnostics = []) {sequence : Evaluation String}
    (agrees : ((engine.evaluatorFor (engine.parse template)).evaluateBody
      (engine.parse template).program.nodes).Agrees sequence) (data : Fields) :
    (engine.resolve template data).answer.mapError TemplateError.fault? =
      (sequence.answer { environment := { data } }).mapError some := by
  let parsed := engine.parse template
  have evaluates : ((engine.evaluatorFor parsed).evaluate parsed.program).Agrees
      ((engine.evaluatorFor parsed).evaluateBody parsed.program.nodes) :=
    (engine.evaluatorFor parsed).evaluate_agrees parsed.source parsed.program
  obtain ⟨answers, -⟩ := (evaluates.trans agrees) { environment := { data } }
    { environment := { data } } ⟨rfl, rfl⟩
  rw [resolve_of_clean clean, ← answers]
  exact mapError_fault? _

theorem parse_nodes_of_empty {engine : Engine}
    (clean : (engine.parse "").diagnostics = []) :
    (engine.parse "").program.nodes = [] := by
  obtain ⟨tokens, span, split, spelled⟩ := parseTemplate_spelled clean
  have single : (tokenize engine.settings.trimLineBreaks "").1 = [⟨.endOfInput, ⟨0, 0⟩⟩] := by
    simp [tokenize_eq, scanAfterRun, TextRun.ofFront, TextRun.tokens, scanAfterText]
  have short := congrArg List.length split
  rw [single, List.length_append] at short
  obtain rfl : tokens = [] := List.eq_nil_of_length_eq_zero (by simpa using short.symm)
  exact spelled.eq_nil

/-- What parsing says about a template after one that others may follow. -/
theorem parse_append (engine : Engine) {first : String} (second : String)
    (continuable : Continuable engine.settings first)
    (apart : (engine.parse first).program.StandsApart engine.settings.trimLineBreaks
      second.toList) :
    templateReports engine.settings (first ++ second) =
        (templateReports engine.settings second).map
          (Report.moved (byteLength first.toList)) ∧
      ∀ evaluator : Evaluator,
        (evaluator.evaluateBody (engine.parse (first ++ second)).program.nodes).Agrees
          (evaluator.evaluateBody ((engine.parse first).program.nodes ++
            (engine.parse second).program.nodes)) := by
  obtain ⟨clean, rfl | ⟨front, content, span, endSpan, ends⟩, lastPlain⟩ := continuable
  · rw [String.empty_append]
    refine ⟨?_, fun evaluator => ?_⟩
    · exact (List.map_id _).symm
    · rw [parse_nodes_of_empty clean, List.nil_append]
      exact evaluator.evaluateBody_self _
  · obtain ⟨reports, continued⟩ := parseTemplate_append second clean ends lastPlain apart
    exact ⟨reports, continued.evaluate_agrees⟩

/-- A template after one that ends with literal text is parsed and evaluated as if the
two stood alone, one after the other, unless it completes what that text begins: its
diagnostics are the same, further on, and the two write together what each of them
writes, or stop for the reason for which the first one of them stops that does. -/
theorem resolve_append (engine : Engine) (first second : String)
    (continuable : Continuable engine.settings first)
    (apart : (engine.parse first).program.StandsApart engine.settings.trimLineBreaks
      second.toList) :
    (engine.parse (first ++ second)).diagnostics.map (Diagnostic.offsetsMoved 0) =
        (engine.parse second).diagnostics.map
          (Diagnostic.offsetsMoved (byteLength first.toList)) ∧
      ((engine.parse second).diagnostics = [] → ∀ data : Fields,
        engine.ResolvesInSequence first second data) := by
  obtain ⟨reports, agrees⟩ := engine.parse_append second continuable apart
  refine ⟨diagnostics_append reports, fun secondClean data => ?_⟩
  have clean : (engine.parse (first ++ second)).diagnostics = [] := by
    have nothing := templateReports_eq_nil.mpr secondClean
    apply templateReports_eq_nil.mp
    rw [reports, nothing, List.map_nil]
  refine resolve_of_agrees clean (.trans (agrees _) ?_) data
  exact (engine.evaluateInSequence_agrees _ _ (engine.parse (first ++ second))).symm

/-- What a binding defines is visible in a second template. -/
theorem resolve_append_binding :
    let engine := create {}
    let first := "#let (v = 'a')$v."
    let second := " $v"
    Continuable engine.settings first ∧
      (engine.parse first).program.StandsApart engine.settings.trimLineBreaks
        second.toList ∧
      (engine.parse second).diagnostics = [] ∧
      ∀ data, engine.ResolvesInSequence first second data := by
  intro engine first second
  let header : List Token := [⟨.directive "let", ⟨0, 4⟩⟩, ⟨.leftParen, ⟨5, 6⟩⟩,
    ⟨.name "v", ⟨6, 7⟩⟩, ⟨.assign, ⟨8, 9⟩⟩, ⟨.string "a", ⟨10, 13⟩⟩,
    ⟨.rightParen, ⟨13, 14⟩⟩]
  have firstClean : (engine.parse first).diagnostics = [] := by decide +kernel
  have ends : (tokenize engine.settings.trimLineBreaks first).1 =
      (header ++ [⟨.dollar, ⟨14, 15⟩⟩, ⟨.name "v", ⟨15, 16⟩⟩]) ++
        [⟨.text ".", ⟨16, 17⟩⟩, ⟨.endOfInput, ⟨17, 17⟩⟩] := by
    decide +kernel
  have continuable : Continuable engine.settings first :=
    ⟨firstClean, .inr ⟨_, _, _, _, ends⟩, lastPlain_of_getLast? '.' (by decide) rfl⟩
  have apart : (engine.parse first).program.StandsApart engine.settings.trimLineBreaks
      second.toList := by
    obtain ⟨-, earlier, nodes, -⟩ := parseTemplate_last_text firstClean ends
    exact Program.standsApart_of_text nodes (by decide) (by decide)
  have clean : (engine.parse second).diagnostics = [] := by decide +kernel
  exact ⟨continuable, apart, clean,
    (engine.resolve_append first second continuable apart).2 clean⟩

/-- A second template that completes the last step of a path, or a line break that is
trimmed, changes what the first one means. -/
theorem resolve_append_completed :
    let engine := create {}
    let data : Fields := .ofPairs [("x", .object (.ofPairs [("y", .string "v")]))]
    (Continuable engine.settings "$x." ∧ (engine.parse "y").diagnostics = [] ∧
      ¬engine.ResolvesInSequence "$x." "y" data) ∧
    (Continuable engine.settings "#let (n = 1)\r" ∧
      (engine.parse "\n").diagnostics = [] ∧
      ¬engine.ResolvesInSequence "#let (n = 1)\r" "\n" data) := by
  intro engine data
  refine ⟨⟨⟨by decide +kernel, .inr ?_, lastPlain_of_getLast? '.' (by decide) rfl⟩,
      by decide +kernel, ?_⟩,
    ⟨⟨by decide +kernel, .inr ?_, lastPlain_of_getLast? '\r' (by decide) rfl⟩,
      by decide +kernel, ?_⟩⟩
  · exact ⟨[⟨.dollar, ⟨0, 1⟩⟩, ⟨.name "x", ⟨1, 2⟩⟩], ".", ⟨2, 3⟩, ⟨3, 3⟩,
      by decide +kernel⟩
  · intro same
    have outputs := congrArg Except.toOption same
    revert outputs
    decide +kernel
  · exact ⟨[⟨.directive "let", ⟨0, 4⟩⟩, ⟨.leftParen, ⟨5, 6⟩⟩, ⟨.name "n", ⟨6, 7⟩⟩,
      ⟨.assign, ⟨8, 9⟩⟩, ⟨.integer 1, ⟨10, 11⟩⟩, ⟨.rightParen, ⟨11, 12⟩⟩], "\r",
      ⟨12, 13⟩, ⟨13, 13⟩, by decide +kernel⟩
  · intro same
    have outputs := congrArg Except.toOption same
    revert outputs
    decide +kernel

end Engine

end Stencil
