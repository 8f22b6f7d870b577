import Stencil.Proofs.CutTexts
import Stencil.Proofs.PieceBounds
import Stencil.Proofs.WrittenTokens

/-!
# Scanning a part of a template

Where a body begins or goes on among the tokens of a template, the template can be cut: the
part that is scanned into some of its tokens is scanned into the same tokens when it stands
alone.
-/

namespace Stencil

theorem isNameStart_of_startsDirective {sigil next : Char} (starts : startsDirective sigil next) :
    isNameStart next := by
  unfold startsDirective at starts
  split at starts
  · simp [isNameStart, starts]
  · exact (Bool.and_eq_true_iff.mp starts).2

namespace TextRun

/-- What is left behind literal text begins with a sigil and a name. -/
theorem startsWith_of_rest {characters rest : List Char} {sigil : Char}
    (left : (ofFront characters).rest = sigil :: rest) : startsWith isNameStart rest := by
  fun_induction ofFront characters with
  | case1 => cases left
  | case2 => cases left
  | case3 character next rest _ ih => exact ih left
  | case4 character next rest _ starts =>
      obtain ⟨rfl, rfl⟩ := List.cons.inj left
      exact isNameStart_of_startsDirective starts
  | case5 character next rest _ _ ih => exact ih left

theorem ofFront_rest (characters : List Char) :
    ofFront (ofFront characters).rest = ⟨[], [], (ofFront characters).rest⟩ := by
  fun_induction ofFront characters with
  | case1 => rfl
  | case2 => rfl
  | case3 character next rest _ ih => exact ih
  | case4 character next rest notDoubled starts =>
      simp only [ofFront, notDoubled, starts, if_false, if_true]
  | case5 character next rest _ _ ih => exact ih

/-- Literal text stays the same when nothing is left behind it, or only the beginning of
what was left. -/
theorem ofFront_written_append {characters kept more : List Char}
    (left : (ofFront characters).rest = kept ++ more) (proper : kept.length ≠ 1) :
    ofFront ((ofFront characters).written ++ kept) =
      { ofFront characters with rest := kept } := by
  fun_induction ofFront characters with
  | case1 =>
      obtain ⟨rfl, -⟩ := List.append_eq_nil_iff.mp left.symm
      rfl
  | case2 =>
      obtain ⟨rfl, -⟩ := List.append_eq_nil_iff.mp left.symm
      rfl
  | case3 character next rest isDoubled ih =>
      simp only [prepend, List.cons_append, List.nil_append, ofFront, isDoubled.1, isDoubled.2,
        and_self, if_true]
      rw [ih left]
  | case4 character next rest notDoubled starts =>
      rcases kept with _ | ⟨first, _ | ⟨second, kept⟩⟩
      · rfl
      · exact absurd rfl proper
      · obtain ⟨rfl, rfl, rfl⟩ : character = first ∧ next = second ∧ rest = kept ++ more := by
          simpa using left
        simp only [List.nil_append, ofFront, notDoubled, starts, if_false, if_true]
  | case5 character next rest notDoubled starts ih =>
      have split := written_append_rest (next :: rest)
      have inner := ih left
      simp only [prepend] at left ⊢
      rw [left, ← List.append_assoc] at split
      cases whole : (ofFront (next :: rest)).written ++ kept with
      | nil =>
          obtain ⟨unwritten, rfl⟩ := List.append_eq_nil_iff.mp whole
          have empty := (written_eq_nil_iff (next :: rest)).mp unwritten
          simp [unwritten, empty, ofFront]
      | cons first others =>
          rw [whole, List.cons_append] at split
          obtain ⟨rfl, -⟩ := List.cons.inj split
          rw [whole] at inner
          simp only [List.cons_append, List.nil_append, whole, ofFront, notDoubled, starts,
            if_false, inner]
          rfl

end TextRun

/-- After literal text, a template is scanned as from where the text ended. -/
theorem scanBody_rest (trim : Bool) (start : Nat) (characters : List Char) :
    scanBody trim start (TextRun.ofFront characters).rest =
      scanAfterText trim start (TextRun.ofFront characters).rest := by
  rw [scanBody_eq, TextRun.ofFront_rest]
  rfl

theorem scanBody_written (trim : Bool) (offset : Nat) {characters kept more : List Char}
    (left : (TextRun.ofFront characters).rest = kept ++ more) (proper : kept.length ≠ 1) :
    scanBody trim offset ((TextRun.ofFront characters).written ++ kept) =
      (scanAfterText trim (offset + byteLength (TextRun.ofFront characters).written) kept).prepend
        ((TextRun.ofFront characters).tokens offset) [] := by
  rw [scanBody_eq, TextRun.ofFront_written_append left proper]
  rfl

/-- The name after a sigil is consumed with it. -/
theorem length_scanSigil_lt (trim : Bool) (sigil : Char) (start : Nat) {rest : List Char}
    (starts : startsWith isNameStart rest) :
    (scanSigil trim sigil start rest).rest.length < rest.length :=
  Nat.lt_of_le_of_lt (scanSigil_suffix_dropName trim sigil start rest).length_le
    (length_dropName_lt starts)

/-- Where some of what a sigil leaves is cut off, it is scanned as before. -/
theorem scanSigil_cut {trim : Bool} {sigil : Char} {start : Nat} {rest kept more : List Char}
    (starts : startsWith isNameStart rest)
    (left : (scanSigil trim sigil start rest).rest = kept ++ more) :
    ∃ front, rest = front ++ more ∧ front ≠ [] ∧
      (scanSigil trim sigil start rest).offset + byteLength kept =
        start + 1 + byteLength front ∧
      scanSigil trim sigil start front = { scanSigil trim sigil start rest with rest := kept } := by
  have shorter := length_scanSigil_lt trim sigil start starts
  have isSuffix := scanSigil_suffix trim sigil start rest
  rw [left] at isSuffix shorter
  obtain ⟨front, rfl⟩ := (List.suffix_append kept more).trans isSuffix
  have same := scanSigil_ignoresRest trim sigil start front more (by simp [left])
  have ends : (scanSigil trim sigil start front).offset +
      byteLength (scanSigil trim sigil start front).rest = start + 1 + byteLength front :=
    scanSigil_end trim sigil start front
  rw [same] at left ⊢
  obtain rfl : (scanSigil trim sigil start front).rest = kept := List.append_cancel_right left
  refine ⟨front, rfl, ?_, ends, rfl⟩
  rintro rfl
  simp only [List.length_append, List.length_nil] at shorter
  omega

/-- Line breaks are trimmed after the tokens of a directive. -/
theorem scanSigil_untrimmed (trim : Bool) (sigil : Char) (start : Nat) (characters : List Char) :
    (scanSigil trim sigil start characters).tokens =
        (scanSigil false sigil start characters).tokens ∧
      (scanSigil trim sigil start characters).reports =
        (scanSigil false sigil start characters).reports ∧
      ((scanSigil false sigil start characters).rest = [] →
        scanSigil trim sigil start characters = scanSigil false sigil start characters) := by
  unfold scanSigil
  by_cases isPath : sigil = '$'
  · simp only [isPath, if_true, implies_true, and_self]
  by_cases isCall : sigil = '@'
  · simp [isCall]
  simp only [isPath, isCall, if_false]
  cases known : Keyword.ofWord? (String.ofList (takeName characters)) with
  | none => simp [scanDirective_of_unknown _ start known]
  | some keyword =>
      rw [scanDirective_of_keyword trim start known, scanDirective_of_keyword false start known]
      refine ⟨rfl, rfl, fun ended => ?_⟩
      have headerEnded : (scanKeywordHeader keyword
        (start + 1 + byteLength (takeName characters)) (dropName characters)).rest = [] := ended
      simp only [headerEnded]
      cases trim <;> rfl

theorem PathPiece.scan_last (piece : PathPiece) (offset : Nat) :
    ∃ front last, (piece.scan offset).1 = front ++ [last] ∧
      last.span.stop = offset + piece.byteSize := by
  cases piece with
  | field name => exact ⟨[_], _, rfl, by simp only [byteSize]; omega⟩
  | index digits => exact ⟨[_, _], _, rfl, by simp only [byteSize, punctuationToken]; omega⟩

theorem scanPathPieces_lastStop (offset : Nat) (characters : List Char) :
    ∀ token : Token, token.span.stop = offset →
      lastStop (token :: (scanPathPieces offset characters).tokens) =
        (scanPathPieces offset characters).offset := by
  fun_induction scanPathPieces offset characters with
  | case1 => exact fun _ stop => stop
  | case2 offset characters piece rest read scanned ih =>
      intro token _
      obtain ⟨front, last, split, stop⟩ := piece.scan_last offset
      have whole : token :: (scanned.1 ++ (scanPathPieces (offset + piece.byteSize) rest).tokens) =
          (token :: front) ++ last :: (scanPathPieces (offset + piece.byteSize) rest).tokens := by
        simp [scanned, split]
      change lastStop (token :: (scanned.1 ++ _)) = _
      rw [whole, lastStop_append (List.cons_ne_nil _ _)]
      exact ih last stop

/-- The last token of a piece ends where the piece does, before any line break. -/
theorem scanSigil_lastStop {sigil : Char} {start : Nat} {characters : List Char}
    (clean : (scanSigil false sigil start characters).reports = []) :
    lastStop (scanSigil false sigil start characters).tokens =
      (scanSigil false sigil start characters).offset := by
  unfold scanSigil at *
  by_cases isPath : sigil = '$'
  · rw [if_pos isPath]
    exact (scanPathPieces_lastStop (start + 1 + byteLength (takeName characters))
      (dropName characters) ⟨.name (String.ofList (takeName characters)),
        ⟨start + 1, start + 1 + byteLength (takeName characters)⟩⟩ rfl)
  rw [if_neg isPath] at *
  by_cases isCall : sigil = '@'
  · rw [if_pos isCall] at *
    simp only [scanMacroCall, Scan.prepend] at clean ⊢
    by_cases opens : startsWith (· == '(') (scanMacroName start characters).rest
    · obtain ⟨openSpan, inside, closeSpan, split, stop, -⟩ := scanOptionalHeader_group opens clean
      rw [split, ← stop, ← List.cons_append, ← List.append_assoc,
        lastStop_append (List.cons_ne_nil _ _)]
      rfl
    · rw [scanOptionalHeader_idle (Bool.eq_false_iff.mpr opens)]
      rfl
  rw [if_neg isCall] at *
  cases known : Keyword.ofWord? (String.ofList (takeName characters)) with
  | none =>
      rw [scanDirective_of_unknown false start known]
      rfl
  | some keyword =>
      rw [scanDirective_of_keyword false start known] at *
      exact (scanKeywordHeader_group clean _
        (show (directiveToken start characters).span.stop = _ from rfl)).2

/-- A cut between the tokens of a template: before all of them, after the literal text at its
front, or somewhere after the first sigil, where it cuts what is scanned after that. -/
inductive BodyCut (trim : Bool) (offset : Nat) (characters : List Char) :
    (first second : List Token) → Prop
  | atStart : BodyCut trim offset characters [] (scanBody trim offset characters).tokens
  | afterText {start : Nat} : start = offset + byteLength (TextRun.ofFront characters).written →
      (scanBody trim start (TextRun.ofFront characters).rest).reports = [] →
        BodyCut trim offset characters ((TextRun.ofFront characters).tokens offset)
          (scanBody trim start (TextRun.ofFront characters).rest).tokens
  | afterSigil {start : Nat} {sigil : Char} {rest : List Char} {first second : List Token} :
      start = offset + byteLength (TextRun.ofFront characters).written →
      (TextRun.ofFront characters).rest = sigil :: rest →
      (scanSigil trim sigil start rest).reports = [] →
      (scanBody trim (scanSigil trim sigil start rest).offset
        (scanSigil trim sigil start rest).rest).reports = [] →
      (scanBody trim (scanSigil trim sigil start rest).offset
        (scanSigil trim sigil start rest).rest).tokens = first ++ second →
      Balanced first →
        BodyCut trim offset characters ((TextRun.ofFront characters).tokens offset ++
          ((scanSigil trim sigil start rest).tokens ++ first)) second

/-- Where a body goes on, no piece is cut. -/
theorem scanBody_bodyCut {trim : Bool} {offset : Nat} {characters : List Char}
    (clean : (scanBody trim offset characters).reports = []) {first second : List Token}
    (split : (scanBody trim offset characters).tokens = first ++ second)
    (balanced : Balanced first) (begins : BeginsBody second) (left : second ≠ []) :
    BodyCut trim offset characters first second := by
  have whole := split
  rw [scanBody_eq] at split clean
  obtain rfl | ⟨further, rfl, same, furtherBalanced⟩ :=
    (textRun_indivisible (TextRun.ofFront characters) offset).split split balanced begins
  · rw [List.nil_append] at whole
    exact whole ▸ .atStart
  by_cases textOnly : further = []
  · subst textOnly
    rw [List.nil_append, ← scanBody_rest] at same
    rw [List.append_nil, ← same]
    exact .afterText rfl (by rw [scanBody_rest]; exact clean)
  rcases runRest : (TextRun.ofFront characters).rest with _ | ⟨sigil, rest⟩
  · rw [runRest] at same
    have bothLeft := congrArg List.length same
    have := List.length_pos_iff.mpr textOnly
    have := List.length_pos_iff.mpr left
    simp only [scanAfterText, List.length_singleton, List.length_append] at bothLeft
    omega
  · rw [runRest] at same clean
    obtain ⟨scanClean, restClean⟩ : (scanSigil trim sigil _ rest).reports = [] ∧ _ :=
      List.append_eq_nil_iff.mp clean
    obtain nothing | ⟨others, rfl, isLater, othersBalanced⟩ :=
      (scanSigil_indivisible scanClean).split same furtherBalanced begins
    · exact absurd nothing textOnly
    · exact .afterSigil rfl runRest scanClean restClean isLater othersBalanced

theorem byteLength_sigil {characters rest : List Char} {sigil : Char}
    (left : (TextRun.ofFront characters).rest = sigil :: rest) (written front : List Char) :
    byteLength (written ++ sigil :: front) = byteLength written + 1 + byteLength front := by
  rw [byteLength_append, byteLength_cons, utf8Size_of_isSigil (TextRun.isSigil_of_rest left),
    Nat.add_assoc]

theorem length_scanSigil_rest_lt {characters rest : List Char} {sigil : Char}
    (left : (TextRun.ofFront characters).rest = sigil :: rest) (trim : Bool) (start : Nat) :
    (scanSigil trim sigil start rest).rest.length < characters.length := by
  have fewer := TextRun.length_rest_ofFront_le characters
  rw [left, List.length_cons] at fewer
  exact Nat.lt_of_le_of_lt (length_scanSigil_le trim sigil start rest) fewer

/-- Some rest of a template is scanned into tokens. -/
def Resumes (trim : Bool) (offset : Nat) (characters : List Char) (tokens : List Token) : Prop :=
  ∃ front rest, characters = front ++ rest ∧
    (scanBody trim (offset + byteLength front) rest).tokens = tokens ∧
      (scanBody trim (offset + byteLength front) rest).reports = []

section Resuming

variable {trim : Bool} {offset : Nat} {characters : List Char} {tokens : List Token}

theorem Resumes.here (scanned : (scanBody trim offset characters).tokens = tokens)
    (clean : (scanBody trim offset characters).reports = []) :
    Resumes trim offset characters tokens :=
  ⟨[], characters, rfl, scanned, clean⟩

theorem Resumes.later {start : Nat} {rest : List Char}
    (resumes : Resumes trim start rest tokens) (front : List Char)
    (split : front ++ rest = characters) (bytes : start = offset + byteLength front) :
    Resumes trim offset characters tokens := by
  subst split bytes
  obtain ⟨further, last, rfl, scanned⟩ := resumes
  refine ⟨front ++ further, last, (List.append_assoc _ _ _).symm, ?_⟩
  rwa [byteLength_append, ← Nat.add_assoc]

end Resuming

/-- Some rest of a template is scanned into the rest of its tokens, from wherever a body goes
on. -/
theorem scanBody_resumes {trim : Bool} {offset : Nat} {characters : List Char}
    (clean : (scanBody trim offset characters).reports = []) {first second : List Token}
    (split : (scanBody trim offset characters).tokens = first ++ second)
    (balanced : Balanced first) (begins : BeginsBody second) (left : second ≠ []) :
    Resumes trim offset characters second := by
  induction shorter : characters.length using Nat.strongRecOn
    generalizing offset characters first with
  | ind length ih =>
  subst shorter
  have parts := TextRun.written_append_rest characters
  cases scanBody_bodyCut clean split balanced begins left with
  | atStart => exact .here rfl clean
  | afterText place restClean => exact Resumes.later (.here rfl restClean) _ parts place
  | @afterSigil start sigil rest others _ place runRest _ restClean isLater othersBalanced =>
      have resumes := ih _ (length_scanSigil_rest_lt runRest trim start) restClean isLater
        othersBalanced rfl
      obtain ⟨front, consumed, -, bytes, -⟩ := scanSigil_cut (TextRun.startsWith_of_rest runRest)
        (show (scanSigil trim sigil start rest).rest = [] ++ _ from rfl)
      rw [byteLength_nil, Nat.add_zero] at bytes
      refine resumes.later ((TextRun.ofFront characters).written ++ sigil :: front) ?_ ?_
      · rw [List.append_assoc, List.cons_append, ← consumed, ← runRest, parts]
      · rw [byteLength_sigil runRest, ← Nat.add_assoc, ← Nat.add_assoc, ← place]
        exact bytes

/-- A scan that ends with the text, at the last of its tokens. -/
def Scan.complete (tokens : List Token) : Scan :=
  ⟨tokens ++ [⟨.endOfInput, ⟨lastStop tokens, lastStop tokens⟩⟩], [], lastStop tokens, []⟩

theorem Scan.prepend_complete {first tokens : List Token} (nonempty : tokens ≠ []) :
    (complete tokens).prepend first [] = complete (first ++ tokens) := by
  simp only [prepend, complete, lastStop_append nonempty, List.append_assoc, List.nil_append]

theorem scanBody_nil (trim : Bool) (tokens : List Token) :
    (scanBody trim (lastStop tokens) []).prepend tokens [] = Scan.complete tokens := by
  rw [scanBody_eq]
  rfl

theorem scanAfterText_cons (trim : Bool) (start : Nat) (sigil : Char) (rest : List Char)
    (clean : (scanSigil trim sigil start rest).reports = []) :
    scanAfterText trim start (sigil :: rest) =
      (scanBody trim (scanSigil trim sigil start rest).offset
        (scanSigil trim sigil start rest).rest).prepend
          (scanSigil trim sigil start rest).tokens [] := by
  rw [scanAfterText, clean]

/-- Tokens are those of some front of a text, scanned alone. -/
def CutsTo (trim : Bool) (offset : Nat) (characters : List Char) (tokens : List Token) : Prop :=
  ∃ slice rest, characters = slice ++ rest ∧ lastStop tokens = offset + byteLength slice ∧
    scanBody trim offset slice = Scan.complete tokens

/-- Literal text at the end of a part of a template. -/
theorem scanBody_text (trim : Bool) (offset : Nat) (characters : List Char)
    (nonempty : (TextRun.ofFront characters).tokens offset ≠ []) :
    CutsTo trim offset characters ((TextRun.ofFront characters).tokens offset) := by
  have stop : lastStop ((TextRun.ofFront characters).tokens offset) =
      offset + byteLength (TextRun.ofFront characters).written := by
    unfold TextRun.tokens at nonempty ⊢
    split
    · rename_i nothing
      exact absurd (if_pos nothing) nonempty
    · rfl
  have behind : (TextRun.ofFront characters).rest = [] ++ (TextRun.ofFront characters).rest := rfl
  have alone := scanBody_written trim offset behind (by decide)
  rw [List.append_nil, ← stop] at alone
  exact ⟨_, _, (TextRun.written_append_rest characters).symm, stop, alone⟩

/-- A piece at the end of a part of a template. -/
theorem scanSigil_last {trim : Bool} {start : Nat} {sigil : Char} {rest : List Char}
    (starts : startsWith isNameStart rest)
    (clean : (scanSigil trim sigil start rest).reports = []) :
    ∃ front more, rest = front ++ more ∧ front ≠ [] ∧
      lastStop (scanSigil trim sigil start rest).tokens = start + 1 + byteLength front ∧
      scanAfterText trim start (sigil :: front) =
        Scan.complete (scanSigil trim sigil start rest).tokens := by
  obtain ⟨sameTokens, sameReports, -⟩ := scanSigil_untrimmed trim sigil start rest
  rw [sameReports] at clean
  -- The line break behind a directive is cut off as well.
  obtain ⟨front, split, nonempty, bytes, alone⟩ := scanSigil_cut starts
    (show (scanSigil false sigil start rest).rest = [] ++ _ from rfl)
  have trimmed := (scanSigil_untrimmed trim sigil start front).2.2 (congrArg Scan.rest alone)
  rw [alone] at trimmed
  rw [sameTokens, scanSigil_lastStop clean]
  refine ⟨front, _, split, nonempty, bytes, ?_⟩
  rw [scanAfterText_cons trim start sigil front (by rw [trimmed]; exact clean), trimmed]
  dsimp only
  rw [← scanSigil_lastStop clean, scanBody_nil]

/-- A piece that is followed by others in a part of a template. -/
theorem scanSigil_further {trim : Bool} {start : Nat} {sigil : Char} {rest : List Char}
    {tokens : List Token} (starts : startsWith isNameStart rest) (nonempty : tokens ≠ [])
    (clean : (scanSigil trim sigil start rest).reports = [])
    (further : CutsTo trim (scanSigil trim sigil start rest).offset
      (scanSigil trim sigil start rest).rest tokens) :
    ∃ front more, rest = front ++ more ∧ front ≠ [] ∧
      lastStop ((scanSigil trim sigil start rest).tokens ++ tokens) =
        start + 1 + byteLength front ∧
      scanAfterText trim start (sigil :: front) =
        Scan.complete ((scanSigil trim sigil start rest).tokens ++ tokens) := by
  obtain ⟨slice, more, left, stop, complete⟩ := further
  obtain ⟨front, split, consumes, bytes, alone⟩ := scanSigil_cut starts left
  refine ⟨front, more, split, consumes, ?_, ?_⟩
  · rw [lastStop_append nonempty, stop, bytes]
  · rw [scanAfterText_cons trim start sigil front (by rw [alone]; exact clean), alone]
    dsimp only
    rw [complete, Scan.prepend_complete nonempty]

/-- Tokens of a template between places where a body goes on are those of a part of it that
stands alone. -/
theorem scanBody_cut {trim : Bool} {offset : Nat} {characters : List Char}
    (clean : (scanBody trim offset characters).reports = []) {first second : List Token}
    (split : (scanBody trim offset characters).tokens = first ++ second)
    (nonempty : first ≠ []) (balanced : Balanced first) (begins : BeginsBody second)
    (left : second ≠ []) : CutsTo trim offset characters first := by
  induction shorter : characters.length using Nat.strongRecOn
    generalizing offset characters first with
  | ind length ih =>
  subst shorter
  have parts := TextRun.written_append_rest characters
  cases scanBody_bodyCut clean split balanced begins left with
  | atStart => exact absurd rfl nonempty
  | afterText => exact scanBody_text trim offset characters nonempty
  | @afterSigil start sigil rest others _ place runRest scanClean restClean isLater
      othersBalanced =>
      have starts := TextRun.startsWith_of_rest runRest
      have piece : ∃ front more, rest = front ++ more ∧ front ≠ [] ∧
          lastStop ((scanSigil trim sigil start rest).tokens ++ others) =
            start + 1 + byteLength front ∧
          scanAfterText trim start (sigil :: front) =
            Scan.complete ((scanSigil trim sigil start rest).tokens ++ others) := by
        by_cases isLast : others = []
        · subst isLast
          rw [List.append_nil]
          exact scanSigil_last starts scanClean
        · exact scanSigil_further starts isLast scanClean (ih _
            (length_scanSigil_rest_lt runRest trim start) restClean isLater isLast
            othersBalanced rfl)
      obtain ⟨front, more, rfl, consumes, stop, complete⟩ := piece
      have present : (scanSigil trim sigil start (front ++ more)).tokens ++ others ≠ [] := by
        obtain ⟨token, tokens, split, -⟩ := scanSigil_first trim sigil start (front ++ more)
        simp [split]
      refine ⟨(TextRun.ofFront characters).written ++ sigil :: front, more, ?_, ?_, ?_⟩
      · rw [List.append_assoc, List.cons_append, ← runRest, parts]
      · rw [lastStop_append present, stop, byteLength_sigil runRest, place]
        omega
      · have left : (TextRun.ofFront characters).rest = (sigil :: front) ++ more := runRest
        rw [scanBody_written trim offset left (by simpa using consumes), ← place, complete,
          Scan.prepend_complete present]

end Stencil
