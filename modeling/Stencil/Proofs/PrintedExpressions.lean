import Stencil.Proofs.PrintedItems

/-!
# Scanning printed expressions

A printed expression is scanned into tokens that spell it.  Where it stands decides
only about the spans.
-/

namespace Stencil

/-- The span that stands for every span where spans do not matter. -/
def nowhere : Span → Span :=
  fun _ => ⟨0, 0⟩

/-- Tokens spell an expression that stands anywhere. -/
def Expression.SpelledSomewhere (expression : Expression) (tokens : List Token) : Prop :=
  ∃ located : Expression, located.SpelledBy tokens ∧
    located.mapSpans nowhere = expression.mapSpans nowhere

/-- Tokens spell arguments that stand anywhere. -/
def ArgumentsSpelledSomewhere (arguments : List Expression) (tokens : List Token) :
    Prop :=
  ∃ located, ArgumentsSpelledBy located tokens ∧
    mapArgumentSpans nowhere located = mapArgumentSpans nowhere arguments

/-- Tokens spell further arguments that stand anywhere. -/
def FurtherArgumentsSpelledSomewhere (arguments : List Expression)
    (tokens : List Token) : Prop :=
  ∃ located, FurtherArgumentsSpelledBy located tokens ∧
    mapArgumentSpans nowhere located = mapArgumentSpans nowhere arguments

/-- Wherever a text stands in a header, before something that ends its last token, it
is scanned into tokens of a given form. -/
def ScansInHeader (form : List Token → Prop) (own : List Char) : Prop :=
  ∀ offset following, startsWith endsItem following →
    ∃ tokens, HeaderScans offset own following tokens ∧ form tokens

theorem Blanks.startsWith_endsItem {blanks : List Char} (run : Blanks blanks)
    (nonempty : blanks ≠ []) (following : List Char) :
    startsWith endsItem (blanks ++ following) := by
  obtain ⟨blank, others, rfl⟩ := List.exists_cons_of_ne_nil nonempty
  have isBlank := run blank List.mem_cons_self
  simp [startsWith, endsItem, isBlank]

theorem startsWith_endsItem_blanks {blanks following : List Char} (run : Blanks blanks)
    (stops : startsWith endsItem following) :
    startsWith endsItem (blanks ++ following) := by
  cases blanks with
  | nil => exact stops
  | cons blank others =>
      exact run.startsWith_endsItem (List.cons_ne_nil blank others) following

/-- Blanks on both sides change nothing. -/
theorem Padded.scansInHeader {printed : List Char → Prop} {form : List Token → Prop}
    {text : List Char} (padded : Padded printed text)
    (scans : ∀ own, printed own → ScansInHeader form own) : ScansInHeader form text := by
  obtain ⟨before, own, after, rfl, blanksBefore, blanksAfter, prints⟩ := padded
  intro offset following stops
  obtain ⟨tokens, scan, formed⟩ := scans own prints (offset + byteLength before)
    (after ++ following) (startsWith_endsItem_blanks blanksAfter stops)
  refine ⟨tokens, ?_, formed⟩
  rw [← List.nil_append tokens, ← List.append_nil tokens]
  exact .append (.blanks blanksBefore offset _)
    (.append scan (.blanks blanksAfter _ following))

/-- What stands between parentheses is a group. -/
theorem HeaderScans.group {offset : Nat} {inside following : List Char}
    {tokens : List Token}
    (scans : HeaderScans (offset + 1) inside (')' :: following) tokens) :
    HeaderScans offset ('(' :: (inside ++ [')'])) following
      (punctuationToken .leftParen offset :: (tokens ++
        [punctuationToken .rightParen (offset + 1 + byteLength inside)])) := by
  intro opener depth
  have text : '(' :: (inside ++ [')']) ++ following =
      '(' :: (inside ++ ')' :: following) := by
    simp
  have bytes : offset + byteLength ('(' :: (inside ++ [')'])) =
      offset + 1 + byteLength inside + 1 := by
    simp [show '('.utf8Size = 1 by decide, show ')'.utf8Size = 1 by decide]
    omega
  rw [ScansInto, text, scanHeader_opens, scans, scanHeader_closesInner, bytes]
  simp [Scan.prepend]

theorem HeaderScans.macroName {name : String} (proper : isName name) (offset : Nat)
    (following : List Char) :
    HeaderScans offset ('@' :: name.toList) ('(' :: following)
      [⟨.macroName name, ⟨offset, offset + 1 + byteLength name.toList⟩⟩] := by
  obtain ⟨first, rest, split, starts, all⟩ := exists_of_isName proper
  obtain ⟨taken, dropped⟩ := takeName_append_of_stops (split ▸ all)
    (show startsWith isNameCharacter ('(' :: following) = false from rfl)
  refine .item (by decide) (show headerLead _ _ = .item .macroCall from ?_) ?_
  · simp [headerLead, itemLead, headerPunctuation?, split, startsWith, starts]
  · simp [scanItem, scanMacroName, taken, dropped, show '@'.utf8Size = 1 by decide,
      Nat.add_assoc]

theorem startsWith_endsItem_further {arguments : List Expression}
    {own following : List Char} (prints : FurtherArgumentsPrintedAs arguments own)
    (stops : startsWith endsItem following) : startsWith endsItem (own ++ following) := by
  cases arguments with
  | nil =>
      obtain rfl := prints
      exact stops
  | cons argument arguments =>
      obtain ⟨first, others, rfl, -⟩ := prints
      rfl

mutual

/-- A printed expression is scanned into tokens that spell it. -/
theorem Expression.scansInHeader : ∀ (expression : Expression) {own : List Char},
    expression.wellFormed → expression.PrintedAs own →
      ScansInHeader expression.SpelledSomewhere own
  | .path path span, own => by
      rintro wellFormed rfl offset following stops
      obtain ⟨tokens, scan, spelled⟩ := HeaderScans.path wellFormed offset stops
      exact ⟨tokens, scan, _, spelled, rfl⟩
  | .literal value span, own => by
      rintro wellFormed rfl offset following stops
      exact ⟨_, .literal wellFormed offset stops, .literal value _, rfl, rfl⟩
  | .call name arguments span, own => by
      rintro wellFormed ⟨inside, rfl, prints⟩ offset following stops
      obtain ⟨proper, argumentsFormed⟩ := Bool.and_eq_true_iff.mp wellFormed
      obtain ⟨tokens, scan, located, spelled, same⟩ :=
        scansInHeader_arguments arguments argumentsFormed prints
          (offset + byteLength ('@' :: name.toList) + 1) (')' :: following) rfl
      refine ⟨_, .append (.macroName proper offset _) scan.group,
        .call name located _, ⟨_, _, tokens, _, rfl, rfl, spelled⟩, ?_⟩
      simp [Expression.mapSpans, same, nowhere]

theorem scansInHeader_arguments : ∀ (arguments : List Expression) {own : List Char},
    argumentsWellFormed arguments → ArgumentsPrintedAs arguments own →
      ScansInHeader (ArgumentsSpelledSomewhere arguments) own
  | [], own => by
      intro _ blanks offset following _
      exact ⟨[], .blanks blanks offset following, [], rfl, rfl⟩
  | argument :: arguments, own => by
      rintro wellFormed ⟨first, others, rfl, prints, furtherPrint⟩ offset following stops
      obtain ⟨formed, othersFormed⟩ := Bool.and_eq_true_iff.mp wellFormed
      obtain ⟨further, furtherScan, locatedOthers, furtherSpelled, sameOthers⟩ :=
        scansInHeader_furtherArguments arguments othersFormed furtherPrint
          (offset + byteLength first) following stops
      obtain ⟨tokens, scan, located, spelled, same⟩ :=
        prints.scansInHeader (fun own => argument.scansInHeader formed) offset
          (others ++ following) (startsWith_endsItem_further furtherPrint stops)
      refine ⟨_, scan.append furtherScan, located :: locatedOthers,
        ⟨tokens, further, rfl, spelled, furtherSpelled⟩, ?_⟩
      rw [mapArgumentSpans, mapArgumentSpans, same, sameOthers]

theorem scansInHeader_furtherArguments : ∀ (arguments : List Expression)
    {own : List Char}, argumentsWellFormed arguments →
      FurtherArgumentsPrintedAs arguments own →
        ScansInHeader (FurtherArgumentsSpelledSomewhere arguments) own
  | [], own => by
      rintro _ rfl offset following _
      exact ⟨[], .nil offset following, [], rfl, rfl⟩
  | argument :: arguments, own => by
      rintro wellFormed ⟨first, others, rfl, prints, furtherPrint⟩ offset following stops
      obtain ⟨formed, othersFormed⟩ := Bool.and_eq_true_iff.mp wellFormed
      obtain ⟨further, furtherScan, locatedOthers, furtherSpelled, sameOthers⟩ :=
        scansInHeader_furtherArguments arguments othersFormed furtherPrint
          (offset + 1 + byteLength first) following stops
      obtain ⟨tokens, scan, located, spelled, same⟩ :=
        prints.scansInHeader (fun own => argument.scansInHeader formed) (offset + 1)
          (others ++ following) (startsWith_endsItem_further furtherPrint stops)
      refine ⟨_, .append (.comma offset _) (scan.append furtherScan),
        located :: locatedOthers, ⟨_, tokens, further, rfl, spelled, furtherSpelled⟩, ?_⟩
      rw [mapArgumentSpans, mapArgumentSpans, same, sameOthers]

end

end Stencil
