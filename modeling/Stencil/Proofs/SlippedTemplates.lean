import Stencil.Proofs.SlipReports

/-!
# Templates made of slips

A template made of slips, with literal text after each of them, has one diagnostic for each
slip, in the order of the text, and each of them begins inside its slip.
-/

namespace Stencil

/-- A slip and the literal text after it. -/
structure SpacedSlip where
  slip : Slip
  separator : List Char
  deriving DecidableEq, Repr

namespace SpacedSlip

def written (spaced : SpacedSlip) : List Char :=
  spaced.slip.written ++ spaced.separator

structure WellFormed (spaced : SpacedSlip) : Prop where
  slip : spaced.slip.WellFormed
  spaceFirst : spaced.separator.head? = some ' '
  sigilFree : SigilFree spaced.separator

end SpacedSlip

/-- The template that consists of slips one after the other. -/
def slipsWritten (slips : List SpacedSlip) : List Char :=
  slips.flatMap SpacedSlip.written

theorem slipsWritten_cons (spaced : SpacedSlip) (others : List SpacedSlip) :
    slipsWritten (spaced :: others) =
      spaced.slip.written ++ (spaced.separator ++ slipsWritten others) := by
  simp [slipsWritten, SpacedSlip.written]

theorem Slip.WellFormed.beginsPiece {slip : Slip} (wellFormed : slip.WellFormed)
    (following : List Char) : BeginsPiece (slip.written ++ following) := by
  have macroCall {name : String} (proper : isName name) (rest : List Char) :
      BeginsPiece ('@' :: (name.toList ++ rest)) := by
    obtain ⟨first, others, split, starts, -⟩ := exists_of_isName proper
    refine .inr ⟨'@', first, others ++ rest, by rw [split]; rfl, ?_⟩
    simpa [startsDirective, isSigil] using starts
  have headed (keyword : Keyword) (inside rest : List Char) :
      BeginsPiece (keyword.headed inside ++ rest) := by
    rw [Keyword.headed, List.append_assoc]
    exact keyword.beginsPiece _
  cases slip with
  | unknownDirective word =>
      obtain ⟨proper, letter, -⟩ := wellFormed
      obtain ⟨first, others, split, -, -⟩ := exists_of_isName proper
      rw [split] at letter
      refine .inr ⟨'#', first, others ++ following, ?_, ?_⟩
      · simp [Slip.written, split]
      · simpa [startsDirective, startsWith] using letter
  | orphanKeyword keyword => exact keyword.beginsPiece following
  | missingArguments name => exact macroCall wellFormed following
  | missingComma name first second =>
      have begins := macroCall wellFormed.1
        ('(' :: (first ++ ' ' :: second ++ [')']) ++ following)
      rwa [← List.append_assoc] at begins
  | secondCondition first second body =>
      rw [Slip.written, List.append_assoc]
      exact headed _ _ _
  | missingLoopWord item iterable body =>
      rw [Slip.written, List.append_assoc]
      exact headed _ _ _
  | missingAssign name value => exact headed _ _ _

theorem beginsPiece_slipsWritten {slips : List SpacedSlip}
    (wellFormed : ∀ spaced ∈ slips, spaced.WellFormed) : BeginsPiece (slipsWritten slips) := by
  cases slips with
  | nil => exact .inl rfl
  | cons spaced others =>
      rw [slipsWritten_cons]
      exact (wellFormed spaced List.mem_cons_self).slip.beginsPiece _

/-- There is one report for each of the slips that are written from an offset on: it has the
code of the slip and begins inside it. -/
inductive ReportedInOrder : Nat → List SpacedSlip → List Report → Prop where
  | nil (offset : Nat) : ReportedInOrder offset [] []
  | cons {offset : Nat} {spaced : SpacedSlip} {others : List SpacedSlip} {report : Report}
      {reports : List Report} :
      report.fault.code = spaced.slip.code →
        offset ≤ report.span.start ∧
          report.span.start < offset + byteLength spaced.slip.written →
            ReportedInOrder (offset + byteLength spaced.written) others reports →
              ReportedInOrder offset (spaced :: others) (report :: reports)

namespace ReportedInOrder

variable {offset : Nat} {slips : List SpacedSlip} {reports : List Report}

theorem length_eq (reported : ReportedInOrder offset slips reports) :
    reports.length = slips.length := by
  induction reported with
  | nil => rfl
  | cons _ _ _ ih => rw [List.length_cons, List.length_cons, ih]

/-- Every report begins in the text of the slips. -/
theorem within (reported : ReportedInOrder offset slips reports) :
    ∀ report ∈ reports, offset ≤ report.span.start ∧
      report.span.start < offset + byteLength (slipsWritten slips) := by
  induction reported with
  | nil => exact fun _ member => absurd member List.not_mem_nil
  | @cons offset spaced others report reports _ inside _ ih =>
      have bytes : byteLength (slipsWritten (spaced :: others)) =
          byteLength spaced.written + byteLength (slipsWritten others) := by
        simp [slipsWritten]
      have ownBytes : byteLength spaced.written =
          byteLength spaced.slip.written + byteLength spaced.separator :=
        byteLength_append _ _
      intro other member
      rcases List.mem_cons.mp member with rfl | member
      · omega
      · have := ih other member
        omega

/-- The reports stand in the order in which they begin. -/
theorem sorted (reported : ReportedInOrder offset slips reports) :
    reports.Pairwise fun left right => left.span.start ≤ right.span.start := by
  induction reported with
  | nil => exact .nil
  | @cons offset spaced others report reports _ inside further ih =>
      refine .cons (fun other member => ?_) ih
      have ownBytes : byteLength spaced.written =
          byteLength spaced.slip.written + byteLength spaced.separator :=
        byteLength_append _ _
      have := further.within other member
      omega

/-- The report of one slip. -/
theorem report_of_slip (reported : ReportedInOrder offset slips reports) :
    ∀ {index : Nat} {spaced : SpacedSlip}, slips[index]? = some spaced →
      ∃ report, reports[index]? = some report ∧ report.fault.code = spaced.slip.code ∧
        offset + byteLength (slipsWritten (slips.take index)) ≤ report.span.start ∧
        report.span.start < offset + byteLength (slipsWritten (slips.take index)) +
          byteLength spaced.slip.written := by
  induction reported with
  | nil => simp
  | @cons offset first others report reports sameCode inside _ ih =>
      intro index spaced found
      cases index with
      | zero =>
          obtain rfl : first = spaced := by simpa using found
          exact ⟨report, rfl, sameCode, by simpa [slipsWritten] using inside⟩
      | succ index =>
          obtain ⟨other, otherFound, otherCode, bounds⟩ := ih (by simpa using found)
          have bytes : byteLength (slipsWritten ((first :: others).take (index + 1))) =
              byteLength first.written + byteLength (slipsWritten (others.take index)) := by
            simp [slipsWritten]
          rw [bytes, ← Nat.add_assoc]
          exact ⟨other, by simpa using otherFound, otherCode, bounds⟩

end ReportedInOrder

theorem templateReading_piece {limit : Nat} {token : Token} {tokens : List Token}
    (continues : token.kind ≠ .endOfInput) {piece : Reading (List Node)}
    (reads : readPiece limit (expressionReader limit limit) (nestedReaders? limit limit)
      token tokens = piece) :
    templateReading limit (token :: tokens) =
      ((templateReading limit piece.rest).precededBy piece.reports).map (piece.value ++ ·) := by
  rw [templateReading, readBody, if_neg (fun ends => continues (kind_of_endsBody ends)), reads]
  rfl

/-- Literal text is read without a report. -/
theorem templateReading_text (limit : Nat) (content : String) (span : Span)
    (tokens : List Token) :
    (templateReading limit (⟨.text content, span⟩ :: tokens)).reports =
      (templateReading limit tokens).reports := by
  rw [templateReading_piece (by simp) rfl]
  rfl

/-- The token of the literal text after a slip. -/
def SpacedSlip.separatorToken (spaced : SpacedSlip) (offset : Nat) : Token :=
  ⟨.text (String.ofList spaced.separator), ⟨offset, offset + byteLength spaced.separator⟩⟩

theorem SpacedSlip.WellFormed.scanBody_separator {spaced : SpacedSlip}
    (wellFormed : spaced.WellFormed) {others : List SpacedSlip}
    (othersFormed : ∀ spaced ∈ others, spaced.WellFormed) (trim : Bool) (offset : Nat) :
    ScansInto (scanBody trim) (scanAfterText trim) offset spaced.separator
      (slipsWritten others) [spaced.separatorToken offset] := by
  obtain ⟨blanks, separator⟩ := List.head?_eq_some_iff.mp wellFormed.spaceFirst
  have nonempty : spaced.separator ≠ [] := by simp [separator]
  have scan := scansInto_sigilFree trim wellFormed.sigilFree offset
    (beginsPiece_slipsWritten othersFormed)
  rwa [TextRun.tokens, if_neg nonempty] at scan

/-- The tokens of slips are made without a report, and then each slip is reported. -/
theorem slips_reported (trim : Bool) {limit : Nat} (positive : 1 ≤ limit)
    {slips : List SpacedSlip} (wellFormed : ∀ spaced ∈ slips, spaced.WellFormed)
    (offset : Nat) :
    (scanAfterText trim offset (slipsWritten slips)).reports = [] ∧
      ReportedInOrder offset slips (templateReading limit
        (scanAfterText trim offset (slipsWritten slips)).tokens).reports := by
  induction slips generalizing offset with
  | nil =>
      refine ⟨rfl, ?_⟩
      rw [show slipsWritten [] = [] from rfl, scanAfterText, templateReading,
        readBody_ended false rfl]
      exact .nil offset
  | cons spaced others ih =>
      obtain ⟨formed, othersFormed⟩ := List.forall_mem_cons.mp wellFormed
      obtain ⟨blanks, separator⟩ := List.head?_eq_some_iff.mp formed.spaceFirst
      obtain ⟨token, tokens, report, reported⟩ := formed.slip.reportedOnce trim positive offset
        (blanks ++ slipsWritten others)
      let text := spaced.separatorToken (offset + byteLength spaced.slip.written)
      have bytes : offset + byteLength spaced.slip.written + byteLength spaced.separator =
          offset + byteLength spaced.written := by
        simp [SpacedSlip.written, Nat.add_assoc]
      have scan : scanAfterText trim offset (slipsWritten (spaced :: others)) =
          (scanAfterText trim (offset + byteLength spaced.written) (slipsWritten others)).prepend
            (token :: tokens ++ [text]) [] := by
        have slipScan := reported.scans
        rw [← List.cons_append, ← separator] at slipScan
        have whole := slipScan.append (formed.scanBody_separator othersFormed trim _)
        rwa [ScansInto, List.append_assoc, ← slipsWritten_cons, byteLength_append,
          ← Nat.add_assoc, bytes] at whole
      obtain ⟨clean, othersReported⟩ := ih othersFormed (offset + byteLength spaced.written)
      rw [scan]
      refine ⟨clean, ?_⟩
      have isText : nextKind (text :: (scanAfterText trim (offset + byteLength spaced.written)
          (slipsWritten others)).tokens) ≠ .leftParen := by
        simp [nextKind, text, SpacedSlip.separatorToken]
      simp only [Scan.prepend, List.append_assoc, List.cons_append, List.nil_append]
      rw [templateReading_piece reported.continues (reported.reads _ isText)]
      refine .cons reported.sameCode reported.inside ?_
      rwa [← templateReading_text] at othersReported

/-- However many slips a template is made of, there is exactly one diagnostic for each of
them: those of all slips come in the order of the text, each with the code of its slip and
with a start inside it. -/
theorem slips_diagnosed (settings : Settings) (positive : 1 ≤ settings.maxDepth)
    {slips : List SpacedSlip} (wellFormed : ∀ spaced ∈ slips, spaced.WellFormed) :
    let diagnostics := (parseTemplate settings (String.ofList (slipsWritten slips))).diagnostics
    diagnostics.length = slips.length ∧
      ∀ index spaced, slips[index]? = some spaced →
        let start := byteLength (slipsWritten (slips.take index))
        ∃ diagnostic, diagnostics[index]? = some diagnostic ∧
          diagnostic.code = some spaced.slip.code ∧
          start ≤ diagnostic.extent.start.offset ∧
          diagnostic.extent.start.offset < start + byteLength spaced.slip.written := by
  let text := String.ofList (slipsWritten slips)
  obtain ⟨clean, reported⟩ := slips_reported settings.trimLineBreaks positive wellFormed 0
  have scan : tokenize settings.trimLineBreaks text =
      ((scanAfterText settings.trimLineBreaks 0 (slipsWritten slips)).tokens, []) := by
    rw [tokenize, String.toList_ofList,
      scanBody_of_beginsPiece _ _ (beginsPiece_slipsWritten wellFormed), clean]
  have reports : templateReports settings text = (templateReading settings.maxDepth
      (scanAfterText settings.trimLineBreaks 0 (slipsWritten slips)).tokens).reports := by
    rw [templateReports, scan]
    rfl
  rw [← reports] at reported
  have inside : ∀ report ∈ templateReports settings text,
      report.span.start ≤ byteLength text.toList := by
    intro report member
    have := (reported.within report member).2
    rw [String.toList_ofList]
    omega
  have sorted := parseTemplate_diagnostics_of_sorted inside reported.sorted
  refine ⟨?_, fun index spaced found => ?_⟩
  · rw [sorted, List.length_map, reported.length_eq]
  · obtain ⟨report, reportFound, sameCode, bounds⟩ := reported.report_of_slip found
    refine ⟨report.diagnostic ⟨templateName, text⟩, ?_, ?_, ?_⟩
    · rw [sorted, List.getElem?_map, reportFound]
      rfl
    · exact congrArg some sameCode
    · rw [Report.diagnostic_start (inside report (List.mem_of_getElem? reportFound))]
      simpa using bounds

/-- One slip of each kind. -/
def oneSlipOfEachKind : List SpacedSlip :=
  [⟨.unknownDirective "endif", [' ']⟩,
    ⟨.orphanKeyword .endBlock, [' ', 'a']⟩,
    ⟨.missingArguments "m", [' ', '\n']⟩,
    ⟨.missingComma "join" ['1'] ['\'', 'b', '\''], [' ']⟩,
    ⟨.secondCondition ['t', 'r', 'u', 'e'] ['2', '.', '5'] ['\n'], [' ']⟩,
    ⟨.missingLoopWord "in" ['n', 'u', 'l', 'l'] [], [' ', ')']⟩,
    ⟨.missingAssign "x" ['-', '7'], [' ']⟩]

theorem oneSlipOfEachKind_wellFormed : ∀ spaced ∈ oneSlipOfEachKind, spaced.WellFormed := by
  have digits (digit : Char) (isDigit : digit.isDigit) : IsDigits [digit] :=
    ⟨by simp, by simpa using isDigit⟩
  have one : WritesConstant ['1'] :=
    .integer ⟨['1'], by simp, by decide, .inl ⟨rfl, rfl⟩⟩ (by decide)
  have minusSeven : WritesConstant ['-', '7'] :=
    .integer ⟨['7'], by simp, by decide, .inr ⟨rfl, rfl⟩⟩ (by decide)
  have quoted : WritesConstant ['\'', 'b', '\''] :=
    .string (.inr rfl) (.plain (by decide) (by decide) .nil)
  have twoAndAHalf : WritesConstant (([] : List Char) ++ ['2'] ++ ['.', '5'] ++ []) :=
    .float (.inl rfl) (digits '2' rfl) (.inr ⟨['5'], digits '5' rfl, rfl⟩) (.inl rfl) (by simp)
  have word (spelling : String) (constant : spelling ∈ ["true", "false", "null"]) :
      WritesConstant spelling.toList :=
    .word constant
  have free (separator : List Char) (plain : separator.all fun c => !isSigil c) :
      SigilFree separator := by
    simpa [SigilFree] using plain
  simp only [oneSlipOfEachKind, List.forall_mem_cons]
  refine ⟨⟨⟨by decide, rfl, by decide⟩, rfl, free _ rfl⟩, ⟨.inl rfl, rfl, free _ rfl⟩,
    ⟨show isName "m" by decide, rfl, free _ rfl⟩, ⟨⟨by decide, one, quoted⟩, rfl, free _ rfl⟩,
    ⟨⟨word "true" (by simp), twoAndAHalf, free _ rfl⟩, rfl, free _ rfl⟩,
    ⟨⟨by decide, word "null" (by simp), free _ rfl⟩, rfl, free _ rfl⟩,
    ⟨⟨by decide, minusSeven⟩, rfl, free _ rfl⟩, by simp⟩

theorem slips_diagnosed_each_kind :
    let diagnostics := (parseTemplate ⟨1, true⟩
      (String.ofList (slipsWritten oneSlipOfEachKind))).diagnostics
    1 ≤ (⟨1, true⟩ : Settings).maxDepth ∧
      (∀ spaced ∈ oneSlipOfEachKind, spaced.WellFormed) ∧ diagnostics.length = 7 ∧
        ∃ diagnostic, diagnostics[4]? = some diagnostic ∧ diagnostic.code = some "E0001" ∧
          30 ≤ diagnostic.extent.start.offset ∧ diagnostic.extent.start.offset < 49 := by
  obtain ⟨count, each⟩ := slips_diagnosed ⟨1, true⟩ (by decide) oneSlipOfEachKind_wellFormed
  exact ⟨by decide, oneSlipOfEachKind_wellFormed, count, each 4 _ rfl⟩

end Stencil
