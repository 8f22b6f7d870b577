import Stencil.Proofs.ExactSpans
import Stencil.Proofs.LineCounts
import Stencil.Proofs.ReportedTokens
import Stencil.Proofs.UnclosedBlocks
import Stencil.Proofs.VisibleSpans

/-!
# Carets underline what is reported

A diagnostic is shown with the line on which it starts and with carets below that line.  They
stand below the characters that the diagnostic concerns, as far as these are on the line.
-/

namespace Stencil

/-- A line of a text as it is shown, without the carriage returns and the line feed at its
end. -/
structure ShownLine (text earlier shown later : List Char) : Prop where
  split : text = earlier ++ (shown ++ later)
  begins : earlier = [] ∨ ∃ front, earlier = front ++ ['\n']
  noFeed : '\n' ∉ shown
  noReturn : shown.getLast? ≠ some '\r'
  ends : ∃ returns rest, later = returns ++ rest ∧ (∀ character ∈ returns, character = '\r') ∧
    (rest = [] ∨ ∃ further, rest = '\n' :: further)

theorem dropTrailingReturns_concat (line : List Char) (character : Char) :
    dropTrailingReturns (line ++ [character]) =
      if character = '\r' then dropTrailingReturns line else line ++ [character] := by
  rw [← if_congr beq_iff_eq rfl rfl]
  exact List.rdropWhile_concat (· == '\r') line character

/-- Returns are dropped behind every character that does not end a line. -/
theorem dropTrailingReturns_append {character : Char} (visible : isLineEnd character = false)
    (front back : List Char) :
    dropTrailingReturns (front ++ character :: back) =
      front ++ character :: dropTrailingReturns back := by
  induction back using List.reverseRecOn with
  | nil =>
      have other : character ≠ '\r' := by
        rintro rfl
        cases visible
      rw [dropTrailingReturns_concat, if_neg other]
      rfl
  | append_singleton back last ih =>
      have regrouped : front ++ character :: (back ++ [last]) =
          (front ++ character :: back) ++ [last] := by
        rw [List.append_assoc, List.cons_append]
      rw [regrouped, dropTrailingReturns_concat, dropTrailingReturns_concat, ih]
      split
      · rfl
      · exact regrouped.symm

theorem dropTrailingReturns_isPrefix (line : List Char) : dropTrailingReturns line <+: line :=
  List.rdropWhile_prefix (· == '\r') line

theorem beforeLine_begins (before : List Char) :
    beforeLine before = [] ∨ ∃ front, beforeLine before = front ++ ['\n'] := by
  induction before using List.reverseRecOn with
  | nil => exact .inl rfl
  | append_singleton before character ih =>
      rw [beforeLine_concat]
      split
      · rename_i isFeed
        exact .inr ⟨before, by rw [isFeed]⟩
      · exact ih

/-- What has no line feed and stands at the beginning of a line does not go on behind it. -/
theorem exists_more_of_noFeed {line back first rest : List Char}
    (same : line ++ back = first ++ rest) (ended : back = [] ∨ ∃ further, back = '\n' :: further)
    (noFeed : '\n' ∉ first) : ∃ more, line = first ++ more ∧ rest = more ++ back := by
  obtain ⟨beyond, isFirst, isBack⟩ | ⟨more, isLine, isRest⟩ := List.append_eq_append_iff.mp same
  · rcases beyond with _ | ⟨character, beyond⟩
    · refine ⟨[], ?_, isBack.symm⟩
      rw [isFirst, List.append_nil, List.append_nil]
    · obtain rfl | ⟨further, rfl⟩ := ended
      · cases isBack
      · obtain ⟨rfl, -⟩ := List.cons.inj isBack
        exact absurd (isFirst ▸ List.mem_append_right line List.mem_cons_self) noFeed
  · exact ⟨more, isLine, isRest⟩

theorem not_mem_onLine (before : List Char) : '\n' ∉ onLine before := by
  intro member
  have other := List.mem_rtakeWhile_imp member
  simp at other

theorem count_beforeLine (before : List Char) :
    (beforeLine before).count '\n' = before.count '\n' := by
  have whole := congrArg (List.count '\n') (beforeLine_append_onLine before)
  rwa [List.count_append, List.count_eq_zero.mpr (not_mem_onLine before), Nat.add_zero] at whole

/-- The line on which a place is, shown as far as it goes. -/
theorem shownLine_of_split {text before front back : List Char}
    (split : text = before ++ (front ++ back)) (noFeed : '\n' ∉ front)
    (ends : back = [] ∨ ∃ further, back = '\n' :: further) :
    ShownLine text (beforeLine before) (dropTrailingReturns (onLine before ++ front))
      ((onLine before ++ front).rtakeWhile (· == '\r') ++ back) where
  split := by
    have whole : dropTrailingReturns (onLine before ++ front) ++
        (onLine before ++ front).rtakeWhile (· == '\r') = onLine before ++ front :=
      List.rdropWhile_append_rtakeWhile
    rw [← List.append_assoc (dropTrailingReturns _), whole, List.append_assoc,
      ← List.append_assoc (beforeLine before), beforeLine_append_onLine, split]
  begins := beforeLine_begins before
  noFeed member := by
    rcases List.mem_append.mp ((dropTrailingReturns_isPrefix _).mem member) with earlier | later
    · exact not_mem_onLine before earlier
    · exact noFeed later
  noReturn isReturn := by
    obtain ⟨nonempty, isLast⟩ := List.mem_getLast?_eq_getLast isReturn
    refine List.rdropWhile_last_not (· == '\r') (onLine before ++ front) nonempty ?_
    exact beq_iff_eq.mpr isLast.symm
  ends :=
    ⟨_, back, rfl, fun character member => by simpa using List.mem_rtakeWhile_imp member, ends⟩

namespace Source

variable {source : Source} {before after : List Char}

/-- The line on which a place is goes on up to the next line feed. -/
theorem line?_of_split (split : source.characters = before ++ after) :
    ∃ front back, after = front ++ back ∧ '\n' ∉ front ∧
      (back = [] ∨ ∃ further, back = '\n' :: further) ∧
        source.line? (1 + before.count '\n') =
          some (String.ofList (dropTrailingReturns (onLine before ++ front))) := by
  have isLine : before.count '\n' < (splitLines source.characters).length := by
    rw [length_splitLines, split, List.count_append]
    omega
  obtain ⟨piece, isPiece⟩ : ∃ piece, (splitLines source.characters)[before.count '\n']? =
      some piece := ⟨_, List.getElem?_eq_getElem isLine⟩
  obtain ⟨front, back, cut, noFeed, begins, ends⟩ :=
    lineStartsFrom_piece 0 source.characters isPiece
  have start := lineStarts_line split
  rw [lineStarts, List.getD_eq_getElem?_getD, begins, Option.getD_some, Nat.zero_add] at start
  have whole : front ++ (piece ++ back) = beforeLine before ++ (onLine before ++ after) := by
    rw [← cut, split, ← List.append_assoc, beforeLine_append_onLine]
  obtain ⟨rfl, same⟩ := append_inj_of_byteLength whole start
  have ended : back = [] ∨ ∃ further, back = '\n' :: further :=
    ends.imp And.left (Exists.imp fun _ => And.left)
  obtain ⟨inside, isLine, isAfter⟩ := exists_more_of_noFeed same ended (not_mem_onLine before)
  refine ⟨inside, back, isAfter, fun isFeed => noFeed ?_, ended, ?_⟩
  · rw [isLine]
    exact List.mem_append_right _ isFeed
  · rw [Nat.add_comm, line?, isPiece, isLine]
    rfl

end Source

/-- On a shown line of a text the characters `marked` are those of an extent, from its start up
to its end or to the end of the line. -/
structure MarkedLine (text : List Char) (extent : Extent)
    (earlier lead marked trail later : List Char) : Prop where
  line : ShownLine text earlier (lead ++ (marked ++ trail)) later
  nonempty : marked ≠ []
  start : extent.start =
    ⟨1 + earlier.count '\n', 1 + lead.length, byteLength (earlier ++ lead)⟩
  covers : ∃ inside after, marked ++ (trail ++ later) = inside ++ after ∧
    extent.stop.offset = byteLength (earlier ++ (lead ++ inside)) ∧
    marked <+: inside ∧ (inside = marked ∨ trail = [])

/-- The extent of a span between two characters. -/
theorem Source.extentOf_boundary {source : Source} {before inside after : List Char}
    (split : source.characters = before ++ (inside ++ after)) :
    source.extentOf ⟨byteLength before, byteLength before + byteLength inside⟩ =
      ⟨⟨1 + before.count '\n', 1 + (onLine before).length, byteLength before⟩,
        ⟨1 + (before ++ inside).count '\n', 1 + (onLine (before ++ inside)).length,
          byteLength (before ++ inside)⟩⟩ := by
  rw [← positionAt_boundary split,
    ← positionAt_boundary (split.trans (List.append_assoc before inside after).symm),
    byteLength_append]
  simp only [extentOf, extent]
  rw [Nat.max_eq_left (Nat.le_add_right _ _)]

section Marks

variable {source : Source} {before inside after : List Char}
variable (split : source.characters = before ++ (inside ++ after))

include split

/-- Characters up to their end or to the end of a shown line are marked on it. -/
theorem markedLine_of_split {marked trail later : List Char}
    (shown : ShownLine source.characters (beforeLine before) (onLine before ++ (marked ++ trail))
      later)
    (nonempty : marked ≠ []) (isFront : marked <+: inside) (upTo : inside = marked ∨ trail = []) :
    MarkedLine source.characters
      (source.extentOf ⟨byteLength before, byteLength before + byteLength inside⟩)
      (beforeLine before) (onLine before) marked trail later := by
  have regrouped : beforeLine before ++ ((onLine before ++ (marked ++ trail)) ++ later) =
      before ++ (marked ++ (trail ++ later)) := by
    rw [List.append_assoc (onLine before), ← List.append_assoc (beforeLine before),
      beforeLine_append_onLine, List.append_assoc marked]
  refine ⟨shown, nonempty, ?_, inside, after, ?_, ?_, isFront, upTo⟩
  · rw [Source.extentOf_boundary split, count_beforeLine, beforeLine_append_onLine]
  · exact List.append_cancel_left (regrouped.symm.trans (shown.split.symm.trans split))
  · rw [Source.extentOf_boundary split, ← List.append_assoc, beforeLine_append_onLine]

variable {diagnostic : Diagnostic}
variable (isExtent : diagnostic.extent =
  source.extentOf ⟨byteLength before, byteLength before + byteLength inside⟩)

include isExtent

theorem caretCount_of_noFeed (noFeed : '\n' ∉ inside) (nonempty : inside ≠ []) (line : String) :
    diagnostic.caretCount line = inside.length := by
  have positive := List.length_pos_iff.mpr nonempty
  rw [Source.extentOf_boundary split, onLine_append before noFeed, List.count_append,
    List.count_eq_zero.mpr noFeed, Nat.add_zero, List.length_append] at isExtent
  simp only [Diagnostic.caretCount, isExtent, Extent.isSingleLine, beq_self_eq_true, if_true]
  omega

theorem caretCount_of_feed (feed : '\n' ∈ inside) {marked : List Char} (nonempty : marked ≠ []) :
    diagnostic.caretCount (String.ofList (onLine before ++ marked)) = marked.length := by
  have positive := List.length_pos_iff.mpr nonempty
  have below : (1 + before.count '\n' == 1 + (before.count '\n' + inside.count '\n')) = false :=
    beq_eq_false_iff_ne.mpr (by have := List.count_pos_iff.mpr feed; omega)
  rw [Source.extentOf_boundary split, List.count_append] at isExtent
  simp only [Diagnostic.caretCount, isExtent, Extent.isSingleLine, below, Bool.false_eq_true,
    if_false, String.length_ofList, List.length_append]
  omega

end Marks

section Shown

variable {inside after front back : List Char} (ends : VisibleEnds inside)
variable (goesOn : inside ++ after = front ++ back)
variable (ended : back = [] ∨ ∃ further, back = '\n' :: further)

include ends goesOn ended

/-- Characters that end on the line on which they start are all shown. -/
theorem VisibleEnds.shown_of_noFeed (noFeed : '\n' ∉ inside) (lead : List Char) :
    ∃ trail, dropTrailingReturns (lead ++ front) = lead ++ (inside ++ trail) := by
  obtain ⟨more, rfl, -⟩ := exists_more_of_noFeed goesOn.symm ended noFeed
  obtain ⟨init, last, rfl, visible⟩ := ends.last
  refine ⟨dropTrailingReturns more, ?_⟩
  have kept := dropTrailingReturns_append visible (lead ++ init) more
  simpa using kept

/-- Of characters that go on behind the line on which they start, those on the line are shown,
from the first one on. -/
theorem VisibleEnds.shown_of_feed (noFeed : '\n' ∉ front) (feed : '\n' ∈ inside)
    (lead : List Char) :
    ∃ marked, marked ≠ [] ∧ marked <+: inside ∧
      dropTrailingReturns (lead ++ front) = lead ++ marked := by
  obtain ⟨first, others, rfl, visible⟩ := ends.first
  have firstNoFeed : '\n' ∉ [first] := by
    intro isFeed
    rw [← List.mem_singleton.mp isFeed] at visible
    cases visible
  have begins : front ++ back = [first] ++ (others ++ after) := goesOn.symm
  obtain ⟨frontRest, rfl⟩ : ∃ frontRest, front = first :: frontRest :=
    (exists_more_of_noFeed begins ended firstNoFeed).imp fun _ => And.left
  obtain ⟨more, isFront, -⟩ | ⟨beyond, isInside, -⟩ := List.append_eq_append_iff.mp goesOn
  · rw [isFront] at noFeed
    exact absurd (List.mem_append_left more feed) noFeed
  · refine ⟨first :: dropTrailingReturns frontRest, List.cons_ne_nil _ _, ?_,
      dropTrailingReturns_append visible lead frontRest⟩
    rw [isInside, List.cons_append, List.prefix_cons_inj]
    exact (dropTrailingReturns_isPrefix frontRest).trans (List.prefix_append _ _)

end Shown

/-- Characters with visible ends are marked on the line where they start, and there are as many
carets as characters are marked. -/
theorem VisibleEnds.marked {source : Source} {before inside after : List Char}
    (ends : VisibleEnds inside) (split : source.characters = before ++ (inside ++ after)) :
    ∃ marked trail later,
      let extent := source.extentOf ⟨byteLength before, byteLength before + byteLength inside⟩
      let line := onLine before ++ (marked ++ trail)
      MarkedLine source.characters extent (beforeLine before) (onLine before) marked trail later ∧
        source.line? extent.start.line = some (String.ofList line) ∧
        ∀ diagnostic : Diagnostic, diagnostic.extent = extent →
          diagnostic.caretCount (String.ofList line) = marked.length := by
  obtain ⟨front, back, goesOn, noFeed, ended, isLine⟩ := Source.line?_of_split split
  have shown := shownLine_of_split (split.trans (congrArg _ goesOn)) noFeed ended
  have isStart : (source.extentOf ⟨byteLength before, byteLength before +
      byteLength inside⟩).start.line = 1 + before.count '\n' := by
    rw [Source.extentOf_boundary split]
  rw [← isStart] at isLine
  by_cases feed : '\n' ∈ inside
  · obtain ⟨marked, nonempty, isFront, isShown⟩ :=
      ends.shown_of_feed goesOn ended noFeed feed (onLine before)
    rw [isShown, ← List.append_nil marked] at shown isLine
    refine ⟨marked, [], _, markedLine_of_split split shown nonempty isFront (.inr rfl), isLine,
      fun diagnostic isExtent => ?_⟩
    rw [List.append_nil]
    exact caretCount_of_feed split isExtent feed nonempty
  · obtain ⟨trail, isShown⟩ := ends.shown_of_noFeed goesOn ended feed (onLine before)
    obtain ⟨first, others, isFirst, -⟩ := ends.first
    have nonempty : inside ≠ [] := isFirst ▸ List.cons_ne_nil first others
    rw [isShown] at shown isLine
    exact ⟨inside, trail, _, markedLine_of_split split shown nonempty List.prefix_rfl (.inl rfl),
      isLine, fun diagnostic isExtent => caretCount_of_noFeed split isExtent feed nonempty _⟩

/-- The text of a diagnostic without colours: what is wrong and where, a source line under its
number, so many carets below the line, and the remarks.  The gutter is as wide as the number. -/
def Diagnostic.plainText (diagnostic : Diagnostic) (name : String) (line : List Char)
    (carets : Nat) : String :=
  let start := diagnostic.extent.start
  let number := toString start.line
  let gutter := run ' ' number.length
  let label := (diagnostic.label.map (" " ++ ·)).getD ""
  diagnostic.heading ++ ": " ++ diagnostic.message ++ "\n" ++
    "  --> " ++ name ++ ":" ++ start.text ++ "\n" ++
    gutter ++ " |\n" ++
    number ++ " | " ++ String.ofList line ++ "\n" ++
    gutter ++ " | " ++ run ' ' (start.column - 1) ++ run '^' carets ++ label ++ "\n" ++
    remark false .green "help" diagnostic.help ++ remark false .blue "note" diagnostic.note

theorem paint_uncolored (style : Style) (text : String) : paint false style text = text := rfl

theorem Diagnostic.render_eq_plainText {diagnostic : Diagnostic} {source : Source}
    {line : List Char}
    (isLine : source.line? diagnostic.extent.start.line = some (String.ofList line)) :
    diagnostic.render false source =
      diagnostic.plainText source.name line (diagnostic.caretCount (String.ofList line)) := by
  have arrow (rest : String) : "  " ++ ("-->" ++ (" " ++ rest)) = "  --> " ++ rest := by
    rw [← String.append_assoc, ← String.append_assoc]
    rfl
  have barAlone (rest : String) : " " ++ ("|" ++ ("\n" ++ rest)) = " |\n" ++ rest := by
    rw [← String.append_assoc, ← String.append_assoc]
    rfl
  have bar (rest : String) : " " ++ ("|" ++ (" " ++ rest)) = " | " ++ rest := by
    rw [← String.append_assoc, ← String.append_assoc]
    rfl
  rw [render, isLine]
  unfold plainText snippet
  simp only [paint_uncolored]
  cases diagnostic.label with
  | none =>
      simp only [String.append_assoc, arrow, barAlone, bar, Option.map_none, Option.getD_none]
  | some label =>
      simp only [String.append_assoc, arrow, barAlone, bar, Option.map_some, Option.getD_some]

/-- A report about characters with visible ends is shown with carets below these characters. -/
theorem Report.underlined {report : Report} {source : Source}
    (visible : report.span.VisibleIn 0 source.characters) :
    ∃ earlier lead marked trail later,
      MarkedLine source.characters (report.diagnostic source).extent earlier lead marked trail
          later ∧
        (report.diagnostic source).render false source =
          (report.diagnostic source).plainText source.name (lead ++ (marked ++ trail))
            marked.length := by
  obtain ⟨before, inside, after, split, isSpan, ends⟩ := visible
  obtain ⟨marked, trail, later, marks, isLine, carets⟩ := ends.marked split
  have isExtent : (report.diagnostic source).extent =
      source.extentOf ⟨byteLength before, byteLength before + byteLength inside⟩ := by
    rw [← Nat.zero_add (byteLength before), ← isSpan]
    rfl
  rw [← isExtent] at marks isLine
  refine ⟨beforeLine before, onLine before, marked, trail, later, marks, ?_⟩
  rw [Diagnostic.render_eq_plainText isLine, carets _ isExtent]

/-- Whatever is reported of a template has visible ends. -/
theorem templateReports_visible (settings : Settings) (text : String) :
    ∀ report ∈ templateReports settings text, report.span.VisibleIn 0 text.toList := by
  obtain ⟨tokensVisible, reportsVisible⟩ :=
    scanBody_visible settings.trimLineBreaks 0 text.toList
  refine List.forall_mem_append.mpr ⟨reportsVisible, fun report member => ?_⟩
  obtain ⟨token, isToken, isMarkup, isSpan⟩ :=
    ofTokens_blamesMarkup settings.maxDepth settings.trimLineBreaks text report member
  rw [isSpan]
  exact tokensVisible token isToken isMarkup

/-- Carets underline exactly what is reported: whatever is wrong with a template, its diagnostic
concerns characters of the template, at least one.  It is shown with the line on which they
start and with one caret below each of these characters that is on the line. -/
theorem diagnostics_underlined (settings : Settings) (text : String) :
    let parsed := parseTemplate settings text
    ∀ diagnostic ∈ parsed.diagnostics, ∃ earlier lead marked trail later,
      MarkedLine text.toList diagnostic.extent earlier lead marked trail later ∧
        diagnostic.render false parsed.source =
          diagnostic.plainText parsed.source.name (lead ++ (marked ++ trail)) marked.length := by
  intro parsed diagnostic member
  obtain ⟨report, isReport, rfl⟩ := List.mem_map.mp (mem_parseTemplate_diagnostics.mp member)
  have visible : report.span.VisibleIn 0 parsed.source.characters :=
    templateReports_visible settings text report isReport
  exact Report.underlined visible

/-- A string that goes on over a line break is underlined up to the break. -/
theorem diagnostics_underlined_string :
    let parsed := parseTemplate ⟨4, true⟩ "@f(1 \"b\r\nc\")"
    ∃ diagnostic ∈ parsed.diagnostics,
      diagnostic.render false parsed.source =
          "error[E0001]: unexpected string literal\n  --> <template>:1:6\n" ++
            "  |\n1 | @f(1 \"b\n  |      ^^ expected ',' or ')'\n" ∧
        ∃ earlier lead marked trail later, MarkedLine parsed.source.characters diagnostic.extent
          earlier lead marked trail later := by
  intro parsed
  have reported : ⟨.unexpected "string literal" ["','", "')'"], ⟨5, 11⟩⟩ ∈
      templateReports ⟨4, true⟩ "@f(1 \"b\r\nc\")" := by decide +kernel
  have member := mem_parseTemplate_diagnostics.mpr (List.mem_map_of_mem reported)
  obtain ⟨earlier, lead, marked, trail, later, marks, -⟩ := diagnostics_underlined _ _ _ member
  exact ⟨_, member, by decide +kernel, earlier, lead, marked, trail, later, marks⟩

end Stencil
