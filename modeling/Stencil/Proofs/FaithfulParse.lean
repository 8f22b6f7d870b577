import Stencil.Proofs.FaithfulBody
import Stencil.Proofs.Following
import Stencil.Proofs.HeadersFollow

/-!
# A clean parse is a faithful parse

If nothing is wrong with a template, its program spells its tokens: none of them
is lost, read twice or moved.  And wherever a reader fails while a template is
parsed, something is reported.
-/

namespace Stencil

/-- A body goes on until the input ends or, inside a block, until a keyword
continues or closes the block. -/
theorem readBody_stops (limit : Nat) (expression : TokenReader (Option Expression))
    (nested? : Option NestedReaders) (inBlock : Bool) (tokens : List Token) :
    ∀ token rest,
      (readBody limit expression nested? inBlock tokens).rest = token :: rest →
        endsBody inBlock token.kind := by
  fun_induction readBody limit expression nested? inBlock tokens with
  | case1 => simp
  | case2 token rest ended =>
      intro next others same
      obtain ⟨rfl, rfl⟩ := List.cons.inj same
      exact ended
  | case3 token rest _ piece ih => exact ih

theorem kind_of_endsBody {kind : TokenKind} (ends : endsBody false kind) :
    kind = .endOfInput := by
  unfold endsBody at ends
  split at ends
  · rfl
  · split at ends <;> simp at ends

/-- The reports of a template, in the order in which they are made. -/
def templateReports (settings : Settings) (text : String) : List Report :=
  (tokenize settings.trimLineBreaks text).2 ++
    (templateReading settings.maxDepth (tokenize settings.trimLineBreaks text).1).reports

theorem parseTemplate_diagnostics (settings : Settings) (text : String) :
    (parseTemplate settings text).diagnostics =
      Diagnostic.sortByStart ((templateReports settings text).map fun report =>
        report.diagnostic ⟨templateName, text⟩) :=
  rfl

/-- A diagnostic begins where its report does, if that is inside the template. -/
theorem Report.diagnostic_start {report : Report} {text : String}
    (inside : report.span.start ≤ byteLength text.toList) :
    (report.diagnostic ⟨templateName, text⟩).extent.start.offset = report.span.start :=
  Nat.min_eq_left inside

/-- Reports in the order of the template become its diagnostics in that order. -/
theorem parseTemplate_diagnostics_of_sorted {settings : Settings} {text : String}
    (inside : ∀ report ∈ templateReports settings text,
      report.span.start ≤ byteLength text.toList)
    (sorted : (templateReports settings text).Pairwise fun left right =>
      left.span.start ≤ right.span.start) :
    (parseTemplate settings text).diagnostics =
      (templateReports settings text).map (·.diagnostic ⟨templateName, text⟩) := by
  rw [parseTemplate_diagnostics, Diagnostic.sortByStart]
  apply List.mergeSort_of_pairwise
  rw [List.pairwise_map]
  refine sorted.imp_of_mem fun {left right} leftMember rightMember before => ?_
  rw [Report.diagnostic_start (inside left leftMember),
    Report.diagnostic_start (inside right rightMember)]
  exact decide_eq_true before

/-- Nothing is wrong with a template if there is nothing to report. -/
theorem templateReports_eq_nil {settings : Settings} {text : String} :
    templateReports settings text = [] ↔
      (parseTemplate settings text).diagnostics = [] := by
  rw [← List.length_eq_zero_iff, ← List.length_eq_zero_iff, parseTemplate_diagnostics,
    Diagnostic.sortByStart, List.length_mergeSort, List.length_map]

/-- The first token that marks the end of the input is the last token. -/
theorem split_at_end {front consumed rest : List Token} {last token : Token}
    (unended : Unended front) (ended : token.kind = .endOfInput)
    (same : front ++ [last] = consumed ++ token :: rest) : front = consumed := by
  rcases List.append_eq_append_iff.mp same with ⟨more, rfl, tail⟩ | ⟨more, rfl, tail⟩
  · have := congrArg List.length tail
    simp only [List.length_append, List.length_cons, List.length_nil] at this
    have : more = [] := List.eq_nil_of_length_eq_zero (by omega)
    simp [this]
  · cases more with
    | nil => simp
    | cons first more =>
        obtain ⟨rfl, -⟩ := List.cons.inj tail
        exact absurd ended (unended token (by simp))

/-- If nothing is wrong with a template, its tokens apart from the last one spell
its program. -/
theorem parseTemplate_spelled {settings : Settings} {text : String}
    (clean : (parseTemplate settings text).diagnostics = []) :
    ∃ tokens span,
      (tokenize settings.trimLineBreaks text).1 = tokens ++ [⟨.endOfInput, span⟩] ∧
        BodySpelledBy (parseTemplate settings text).program.nodes tokens := by
  let scanned := tokenize settings.trimLineBreaks text
  let reading := templateReading settings.maxDepth scanned.1
  obtain ⟨scanClean, readClean⟩ : scanned.2 = [] ∧ reading.reports = [] :=
    List.append_eq_nil_iff.mp (templateReports_eq_nil.mpr clean)
  have lexed : WellLexed scanned.1 :=
    scanBody_wellLexed settings.trimLineBreaks 0 text.toList scanClean
  obtain ⟨front, span, ends, unended⟩ : ∃ front span,
      scanned.1 = front ++ [⟨.endOfInput, span⟩] ∧ Unended front :=
    scanBody_ends settings.trimLineBreaks 0 text.toList
  have faithful : reading.Faithful BodySpelledBy scanned.1 :=
    readBody_faithful (expressionReader_faithful settings.maxDepth settings.maxDepth)
      (nestedReaders?_faithful settings.maxDepth settings.maxDepth) false scanned.1 lexed
  have stops : ∀ token rest, reading.rest = token :: rest → endsBody false token.kind :=
    readBody_stops _ _ _ _ _
  obtain ⟨consumed, split, spelled⟩ := faithful readClean
  refine ⟨front, span, ends, ?_⟩
  rw [ends] at split
  cases stopsAt : reading.rest with
  | nil =>
      rw [stopsAt, List.append_nil] at split
      have ended := spelled.unended ⟨.endOfInput, span⟩ (by simp [← split])
      exact absurd rfl ended
  | cons token rest =>
      rw [stopsAt] at split
      rw [split_at_end unended (kind_of_endsBody (stops token rest stopsAt)) split]
      exact spelled

/-- A reading that gives nothing makes a report. -/
def Reading.Loud {α : Type} (reading : Reading (Option α)) : Prop :=
  reading.value = none → reading.reports ≠ []

/-- Every reader that is applied to tokens, with given tokens before them, makes a
report if it fails.  The insides of parentheses are read only where a group is
open, and a path is read only after its sigil. -/
structure FailuresReported (limit levels : Nat) (before tokens : List Token) :
    Prop where
  expression : groupCloses 0 tokens → ((expressionReader limit levels).read tokens).Loud
  arguments : groupCloses 0 tokens →
    (readArgumentList (expressionReader limit levels) tokens).Loud
  loopHeader : groupCloses 0 tokens →
    ((loopHeaderReader (expressionReader limit levels)).read tokens).Loud
  bindingHeader : groupCloses 0 tokens →
    ((bindingHeaderReader (expressionReader limit levels)).read tokens).Loud
  path : ∀ earlier span, before = earlier ++ [⟨.dollar, span⟩] →
    (readPath span.start tokens).Loud
  call : ∀ name span, (readCall limit
    ((nestedReaders? limit levels).map NestedReaders.expression) name span tokens).Loud
  condition : ∀ directive,
    (readHeader directive (expressionReader limit levels) tokens).Loud
  loop : ∀ directive,
    (readHeader directive (loopHeaderReader (expressionReader limit levels)) tokens).Loud
  binding : ∀ directive,
    (readHeader directive (bindingHeaderReader (expressionReader limit levels))
      tokens).Loud
  closedBody : ∀ opener keyword,
    (readClosedBody (blockBodyReader limit levels) opener keyword tokens).Loud
  branches : ∀ opener directive,
    (readBranches ⟨expressionReader limit levels, blockBodyReader limit levels⟩ opener
      directive tokens).Loud
  piece : ∀ token rest, tokens = token :: rest → token.kind ≠ .endOfInput →
    (readPiece limit (expressionReader limit levels) (nestedReaders? limit levels) token
      rest).value = [] →
    (readPiece limit (expressionReader limit levels) (nestedReaders? limit levels) token
      rest).reports ≠ []

theorem Reading.Faithful.loud {α : Type} {spells : α → List Token → Prop}
    {tokens : List Token} {reading : Reading (Option α)}
    (faithful : reading.Faithful (SpellsGiven spells) tokens) : reading.Loud :=
  faithful.reports_ne_nil

theorem failuresReported (limit levels : Nat) {before tokens : List Token}
    (lexed : WellLexed (before ++ tokens)) :
    FailuresReported limit levels before tokens := by
  have expression := expressionReader_faithful limit levels
  have nested := nestedReaders?_faithful limit levels
  have body := blockBodyReader_faithful limit levels
  have here : WellLexed tokens := lexed.of_append
  constructor
  case expression =>
    intro closes
    exact (expression tokens here closes).loud
  case arguments =>
    intro closes
    exact (readArgumentList_faithful expression tokens here closes).loud
  case loopHeader =>
    intro closes
    exact (loopHeaderReader_faithful expression tokens here closes).loud
  case bindingHeader =>
    intro closes
    exact (bindingHeaderReader_faithful expression tokens here closes).loud
  case path =>
    rintro earlier span rfl
    rw [List.append_assoc] at lexed
    exact (readPath_faithful span lexed.of_append).loud
  case call =>
    intro name span
    refine (readCall_faithful ?_ name span here).loud
    intro argument given
    obtain ⟨readers, found, rfl⟩ := Option.map_eq_some_iff.mp given
    exact (nested readers found).expression
  case condition =>
    intro directive
    exact (readHeader_faithful expression expression_neutral directive here).loud
  case loop =>
    intro directive
    exact (readHeader_faithful (loopHeaderReader_faithful expression) loopHeader_neutral
      directive here).loud
  case binding =>
    intro directive
    exact (readHeader_faithful (bindingHeaderReader_faithful expression)
      bindingHeader_neutral directive here).loud
  case closedBody =>
    intro opener keyword
    exact (readClosedBody_faithful body opener keyword tokens here).loud
  case branches =>
    intro opener directive
    exact (readBranches_faithful ⟨expression, body⟩ opener directive tokens here).loud
  case piece =>
    rintro token rest rfl proper nothing clean
    obtain ⟨_, _, node, given, _⟩ :=
      readPiece_faithful expression nested proper here clean
    simp [nothing] at given

/-- A clean parse is faithful: the program spells exactly the tokens of the
template, up to the one that marks its end.  And whatever a template is, once it
is scanned without a report, no reader fails anywhere in its tokens without one. -/
theorem parseTemplate_faithful (settings : Settings) (text : String) :
    ((parseTemplate settings text).diagnostics = [] →
      (tokenize settings.trimLineBreaks text).1.map Token.kind =
        bodyKinds (parseTemplate settings text).program.nodes ++ [.endOfInput]) ∧
    ((tokenize settings.trimLineBreaks text).2 = [] →
      ∀ before tokens levels,
        (tokenize settings.trimLineBreaks text).1 = before ++ tokens →
          FailuresReported settings.maxDepth levels before tokens) := by
  constructor
  · intro clean
    obtain ⟨tokens, span, split, spelled⟩ := parseTemplate_spelled clean
    rw [split, List.map_append, spelled.kinds]
    rfl
  · intro scanClean before tokens levels split
    have lexed : WellLexed (tokenize settings.trimLineBreaks text).1 :=
      scanBody_wellLexed settings.trimLineBreaks 0 text.toList scanClean
    rw [split] at lexed
    exact failuresReported settings.maxDepth levels lexed

/-- The tokens of a conditional are spelled by its program. -/
theorem parseTemplate_faithful_conditional :
    let text := "a#if ($b[0])@c(1, 'd')#else#let (e = null)#end"
    (parseTemplate {} text).diagnostics = [] ∧
      (tokenize true text).1.map Token.kind =
        bodyKinds (parseTemplate {} text).program.nodes ++ [.endOfInput] ∧
      ∀ levels, FailuresReported 256 levels [] (tokenize true text).1 := by
  intro text
  have clean : (parseTemplate {} text).diagnostics = [] :=
    templateReports_eq_nil.mp (by decide +kernel)
  have scanClean : (tokenize true text).2 = [] := by decide +kernel
  have trims : ({} : Settings).trimLineBreaks = true := rfl
  have limit : ({} : Settings).maxDepth = 256 := rfl
  obtain ⟨spelled, reported⟩ := parseTemplate_faithful {} text
  rw [trims] at spelled reported
  rw [limit] at reported
  exact ⟨clean, spelled clean,
    fun levels => reported scanClean [] _ levels (List.nil_append _).symm⟩

end Stencil
