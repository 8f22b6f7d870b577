import Stencil.Proofs.LocatedExpressions
import Stencil.Proofs.OpenBlocks

/-!
# Diagnostics of unclosed blocks

Every block that a template leaves open has a diagnostic at its opener.  There is one
exception, at the end of the input: when a template ends with the header of the innermost
block and that header is malformed, only the header has one.
-/

namespace Stencil

/-- A diagnostic begins where a token does. -/
def DiagnosedAt (diagnostics : List Diagnostic) (token : Token) : Prop :=
  ∃ diagnostic ∈ diagnostics, diagnostic.extent.start.offset = token.span.start

instance (diagnostics : List Diagnostic) (token : Token) :
    Decidable (DiagnosedAt diagnostics token) :=
  inferInstanceAs (Decidable (∃ diagnostic ∈ diagnostics, _))

/-- Tokens end with a directive of a block and its header, with a diagnostic at one of
them. -/
def EndsDiagnosed (tokens : List Token) (diagnostics : List Diagnostic) : Prop :=
  ∃ front directive header ending, tokens = front ++ directive :: (header ++ [ending]) ∧
    directive.kind.keyword?.any Keyword.headsBlock ∧ HeaderGroup header ∧
      ∃ token ∈ directive :: header, DiagnosedAt diagnostics token

section Template

variable {settings : Settings} {text : String}

theorem mem_parseTemplate_diagnostics {diagnostic : Diagnostic} :
    diagnostic ∈ (parseTemplate settings text).diagnostics ↔
      diagnostic ∈ (templateReports settings text).map (·.diagnostic ⟨templateName, text⟩) := by
  rw [parseTemplate_diagnostics, Diagnostic.sortByStart, List.mem_mergeSort]

/-- The tokens of a template begin inside it. -/
theorem tokenize_start_le {trim : Bool} (scanned : (tokenize trim text).2 = [])
    {token : Token} (member : token ∈ (tokenize trim text).1) :
    token.span.start ≤ byteLength text.toList := by
  have covered := tokenize_covered scanned
  obtain ⟨earlier, later, split⟩ := List.append_of_mem member
  rw [split] at covered
  obtain ⟨front, rest, isText, fromToken⟩ := covered.split
  obtain ⟨gap, slice, last, rfl, place, -⟩ := fromToken.head
  rw [place, isText]
  simp only [byteLength_append]
  omega

/-- Where a report begins at a token, so does a diagnostic. -/
theorem diagnosedAt_of_report (scanned : (tokenize settings.trimLineBreaks text).2 = [])
    {token : Token} (isToken : token ∈ (tokenize settings.trimLineBreaks text).1)
    {report : Report} (member : report ∈ templateReports settings text)
    (same : report.span.start = token.span.start) :
    DiagnosedAt (parseTemplate settings text).diagnostics token := by
  have within := tokenize_start_le scanned isToken
  refine ⟨report.diagnostic ⟨templateName, text⟩,
    mem_parseTemplate_diagnostics.mpr (List.mem_map_of_mem member), ?_⟩
  rw [← same] at within ⊢
  exact Report.diagnostic_start within

theorem shallow_of_diagnostics
    (shallow : ∀ diagnostic ∈ (parseTemplate settings text).diagnostics,
      diagnostic.code ≠ some "E0014") : Shallow (templateReports settings text) := by
  intro report member limit tooDeep
  refine shallow (report.diagnostic ⟨templateName, text⟩)
    (mem_parseTemplate_diagnostics.mpr (List.mem_map_of_mem member)) ?_
  simp [Report.diagnostic, Fault.diagnosticAt, tooDeep, Fault.code]

theorem templateReading_settles {limit : Nat} {tokens : List Token}
    (grouped : WellGrouped tokens) (shallow : Shallow (templateReading limit tokens).reports) :
    Settles [] [] tokens (templateReading limit tokens).reports
      (templateReading limit tokens).rest :=
  readBody_settles (expressionReader_blames limit limit) (expressionReader_faithful limit limit)
    (nestedReaders_settleBlocks limit limit) false (fun _ => rfl) tokens grouped shallow

/-- The end of the input is not part of a header. -/
theorem not_endsMalformed_ended (front : List Token) (span : Span) (reports : List Report) :
    ¬EndsMalformed (front ++ [⟨.endOfInput, span⟩]) reports := by
  rintro ⟨earlier, directive, header, split, heads, group, -⟩
  rcases group with rfl | ⟨openSpan, inside, closeSpan, rfl, -⟩
  · obtain rfl : ⟨.endOfInput, span⟩ = directive :=
      (List.cons.inj (List.append_inj' split rfl).2).1
    cases heads
  · have whole : earlier ++ directive :: ⟨.leftParen, openSpan⟩ ::
        (inside ++ [⟨.rightParen, closeSpan⟩]) =
          (earlier ++ directive :: ⟨.leftParen, openSpan⟩ :: inside) ++
            [⟨.rightParen, closeSpan⟩] := by
      simp
    rw [whole] at split
    have last := (List.append_inj' split rfl).2
    cases last

/-- What a template leaves open is what its tokens before the end leave open. -/
theorem unclosed_reported {limit : Nat} {front : List Token} {span : Span}
    (unended : Unended front) (grouped : WellGrouped (front ++ [⟨.endOfInput, span⟩]))
    (shallow : Shallow (templateReading limit (front ++ [⟨.endOfInput, span⟩])).reports) :
    UnclosedReported (openBlocks [] (front ++ [⟨.endOfInput, span⟩])) front
      (templateReading limit (front ++ [⟨.endOfInput, span⟩])).reports := by
  have stops : ∀ token rest, (templateReading limit (front ++ [⟨.endOfInput, span⟩])).rest =
      token :: rest → endsBody false token.kind := readBody_stops _ _ _ _ _
  have settles := templateReading_settles grouped shallow
  generalize templateReading limit (front ++ [⟨.endOfInput, span⟩]) = reading at *
  obtain ⟨consumed, unclosed, split, leads, -, outer, innermost⟩ := settles
  rw [List.append_nil] at leads
  cases left : reading.rest with
  | nil =>
      rw [left, List.append_nil] at split
      rw [split, leads]
      refine ⟨outer, fun opener member => (innermost opener member).imp_right fun malformed => ?_⟩
      rw [← split] at malformed
      exact absurd malformed (not_endsMalformed_ended front span _)
  | cons token rest =>
      rw [left] at split
      obtain rfl := split_at_end unended (kind_of_endsBody (stops token rest left)) split
      rw [openBlocks_append, leads]
      exact ⟨outer, innermost⟩

/-- Of the blocks that a template leaves open, every one is diagnosed at its opener, with
one exception: the innermost one is not, if the template ends with the malformed header of
one of its directives, which then has a diagnostic. -/
theorem unclosed_blocks_diagnosed
    (scanned : (tokenize settings.trimLineBreaks text).2 = [])
    (shallow : ∀ diagnostic ∈ (parseTemplate settings text).diagnostics,
      diagnostic.code ≠ some "E0014") :
    let tokens := (tokenize settings.trimLineBreaks text).1
    let diagnostics := (parseTemplate settings text).diagnostics
    (∀ opener ∈ (openBlocks [] tokens).tail, DiagnosedAt diagnostics opener) ∧
      ∀ opener ∈ (openBlocks [] tokens).head?,
        DiagnosedAt diagnostics opener ∨ EndsDiagnosed tokens diagnostics := by
  intro tokens diagnostics
  have grouped : WellGrouped tokens := tokenize_wellGrouped scanned
  have isShallow := shallow_of_diagnostics shallow
  have reports : templateReports settings text =
      (templateReading settings.maxDepth tokens).reports := by
    rw [templateReports, scanned, List.nil_append]
  obtain ⟨front, span, split, unended⟩ :=
    scanBody_ends settings.trimLineBreaks 0 text.toList
  have isTokens : tokens = front ++ [⟨.endOfInput, span⟩] := split
  rw [reports, isTokens] at isShallow
  obtain ⟨outer, innermost⟩ := unclosed_reported unended (isTokens ▸ grouped) isShallow
  rw [← isTokens, ← reports] at outer innermost
  have opened {opener : Token} (member : opener ∈ openBlocks [] tokens)
      (reported : ReportedAt (templateReports settings text) opener) :
      DiagnosedAt diagnostics opener := by
    obtain ⟨report, isReport, same⟩ := reported
    exact diagnosedAt_of_report scanned (openBlocks_subset tokens member) isReport same
  refine ⟨fun opener member => opened (List.mem_of_mem_tail member) (outer opener member), ?_⟩
  intro opener member
  refine (innermost opener member).imp (opened (List.mem_of_mem_head? member)) ?_
  rintro ⟨earlier, directive, header, rfl, heads, group, report, isReport, token, inHeader, same⟩
  refine ⟨earlier, directive, header, ⟨.endOfInput, span⟩, by simp [isTokens], heads, group,
    token, inHeader, diagnosedAt_of_report scanned ?_ isReport (congrArg Span.start same)⟩
  change token ∈ tokens
  rw [isTokens]
  exact List.mem_append_left _ (List.mem_append_right _ inHeader)

end Template

/-- Three blocks are left open, and the template ends with the malformed header of the
innermost one: the outer two are diagnosed where they open. -/
theorem unclosed_blocks_diagnosed_nested :
    let settings : Settings := ⟨256, true⟩
    let text := "#if (true) #for (x in $y) #if (1 2)"
    let diagnostics := (parseTemplate settings text).diagnostics
    let unclosed := openBlocks [] (tokenize settings.trimLineBreaks text).1
    (tokenize settings.trimLineBreaks text).2 = [] ∧
      (∀ diagnostic ∈ diagnostics, diagnostic.code ≠ some "E0014") ∧
      unclosed.map (·.span.start) = [26, 11, 0] ∧
      ∀ opener ∈ unclosed.tail, DiagnosedAt diagnostics opener := by
  intro settings text diagnostics unclosed
  have scanned : (tokenize settings.trimLineBreaks text).2 = [] := by decide +kernel
  have unsorted : ∀ diagnostic ∈ (templateReports settings text).map
      (·.diagnostic ⟨templateName, text⟩), diagnostic.code ≠ some "E0014" := by
    decide +kernel
  have shallow : ∀ diagnostic ∈ diagnostics, diagnostic.code ≠ some "E0014" :=
    fun diagnostic member => unsorted diagnostic (mem_parseTemplate_diagnostics.mp member)
  exact ⟨scanned, shallow, by decide +kernel, (unclosed_blocks_diagnosed scanned shallow).1⟩

/-- The exception is needed: a template may leave a block open without a diagnostic at its
opener. -/
theorem unclosed_block_undiagnosed :
    ¬∀ (settings : Settings) (text : String),
      (tokenize settings.trimLineBreaks text).2 = [] →
      (∀ diagnostic ∈ (parseTemplate settings text).diagnostics,
        diagnostic.code ≠ some "E0014") →
      ∀ opener ∈ openBlocks [] (tokenize settings.trimLineBreaks text).1,
        DiagnosedAt (parseTemplate settings text).diagnostics opener := by
  intro always
  have diagnosed := always ⟨256, true⟩ "#if (1 2)" (by decide +kernel) (by decide +kernel)
    ⟨.directive "if", ⟨0, 3⟩⟩ (by decide +kernel)
  have undiagnosed : ¬DiagnosedAt (parseTemplate ⟨256, true⟩ "#if (1 2)").diagnostics
      ⟨.directive "if", ⟨0, 3⟩⟩ := by
    decide +kernel
  exact undiagnosed diagnosed

end Stencil
