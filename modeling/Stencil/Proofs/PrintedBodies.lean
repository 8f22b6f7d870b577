import Stencil.Proofs.PrintedPieces

/-!
# Scanning printed bodies

A printed body is scanned into tokens that spell it, if its literal texts stand apart
from what is before them.
-/

namespace Stencil

theorem wordKind_variable {name : String} (proper : isVariableName name) :
    isName name ∧ wordKind name = .name name ∧ name ≠ loopWord := by
  simp only [isVariableName, reservedWords, Bool.and_eq_true, Bool.not_eq_true',
    List.contains_eq_mem, decide_eq_false_iff_not, List.mem_cons, List.not_mem_nil,
    or_false, not_or] at proper
  obtain ⟨isName, noLoopWord, noTrue, noFalse, noNull⟩ := proper
  exact ⟨isName, by simp [wordKind, noTrue, noFalse, noNull], noLoopWord⟩

theorem HeaderScans.variable {name : String} (proper : isVariableName name)
    (offset : Nat) {following : List Char} (stops : startsWith endsItem following) :
    HeaderScans offset name.toList following
      [⟨.name name, ⟨offset, offset + byteLength name.toList⟩⟩] := by
  obtain ⟨isName, kind, -⟩ := wordKind_variable proper
  rw [← kind]
  exact .word isName offset stops

/-- A variable with blanks on both sides. -/
theorem scansInHeader_variable {name : String} (proper : isVariableName name)
    {text : List Char} (prints : Padded (· = name.toList) text) :
    ScansInHeader (fun tokens => ∃ span, tokens = [⟨.name name, span⟩]) text := by
  apply prints.scansInHeader
  rintro _ rfl offset following stops
  exact ⟨_, .variable proper offset stops, _, rfl⟩

/-- The names of a loop, with the blanks after them. -/
theorem LoopNamesPrintedAs.scans {key : Option String} {item : String}
    {text : List Char} (prints : LoopNamesPrintedAs key item text)
    (keyProper : key.all isVariableName) (itemProper : isVariableName item)
    (offset : Nat) (following : List Char) :
    ∃ tokens, HeaderScans offset text following tokens ∧
      LoopNamesSpelledBy key item tokens := by
  obtain ⟨names, blanks, rfl, run, nonempty, named⟩ := prints
  obtain ⟨-, -, itemDiffers⟩ := wordKind_variable itemProper
  have stops := run.startsWith_endsItem nonempty following
  cases key with
  | none =>
      obtain ⟨before, rfl, blanksBefore⟩ := named
      refine ⟨_, .append (.append (.blanks blanksBefore offset _)
        (.variable itemProper _ stops)) (.blanks run _ following), _, rfl, itemDiffers⟩
  | some key =>
      obtain ⟨own, before, rfl, keyPrints, blanksBefore⟩ := named
      obtain ⟨-, -, keyDiffers⟩ := wordKind_variable keyProper
      obtain ⟨tokens, keyScan, keySpan, rfl⟩ := scansInHeader_variable keyProper keyPrints
        offset (',' :: (before ++ item.toList) ++ (blanks ++ following)) rfl
      have itemScan := HeaderScans.append
        (.blanks blanksBefore (offset + byteLength own + 1) _)
        (.variable itemProper _ stops)
      refine ⟨_, .append (.append keyScan (.append (.comma _ _) itemScan))
        (.blanks run _ following), _, _, _, rfl, keyDiffers, itemDiffers⟩

theorem Keyword.beginsPiece (keyword : Keyword) (following : List Char) :
    BeginsPiece (keyword.written ++ following) := by
  right
  cases keyword <;> exact ⟨_, _, _, rfl, by decide⟩

theorem startsWith_beginsPiece {class? : Char → Bool}
    (noSigil : ∀ sigil, isSigil sigil → class? sigil = false) {characters : List Char}
    (begins : BeginsPiece characters) : startsWith class? characters = false := by
  rcases begins with rfl | ⟨sigil, next, rest, rfl, starts⟩
  · rfl
  · exact noSigil sigil (startsDirective_sigil starts).1

/-- A class of characters without sigils does not see that literal text is written with
its sigils doubled. -/
theorem startsWith_writtenText {class? : Char → Bool}
    (noSigil : ∀ sigil, isSigil sigil → class? sigil = false) {content : List Char}
    (apart : startsWith class? content = false) {following : List Char}
    (begins : BeginsPiece following) :
    startsWith class? (writtenText content ++ following) = false := by
  cases content with
  | nil => exact startsWith_beginsPiece noSigil begins
  | cons character content =>
      by_cases sigil : isSigil character
      · rw [writtenText_sigil sigil]
        exact noSigil character sigil
      · rw [writtenText_plain (Bool.eq_false_iff.mpr sigil)]
        exact apart

theorem noSigil_of_ne {class? : Char → Bool} (dollar : class? '$' = false)
    (macroSigil : class? '@' = false) (hash : class? '#' = false) (sigil : Char)
    (isSigil : isSigil sigil) : class? sigil = false := by
  rcases eq_of_isSigil isSigil with rfl | rfl | rfl <;> assumption

theorem readPathPiece?_field_none {rest : List Char} :
    readPathPiece? ('.' :: rest) = none ↔ startsWith isNameStart rest = false := by
  simp [readPathPiece?]

theorem readPathPiece?_index_none {rest : List Char} :
    readPathPiece? ('[' :: rest) = none ↔ rest.takeWhile Char.isDigit = [] ∨
      startsWith (· == ']') (rest.dropWhile Char.isDigit) = false := by
  rw [readPathPiece?]
  rcases rest.takeWhile Char.isDigit with _ | ⟨digit, digits⟩
  · simp
  · rcases rest.dropWhile Char.isDigit with _ | ⟨closer, tail⟩
    · simp [startsWith]
    · by_cases closes : closer = ']' <;> simp [startsWith, closes]

theorem isDigit_not_sigil (sigil : Char) (isSigil : isSigil sigil) :
    sigil.isDigit = false :=
  noSigil_of_ne (by decide) (by decide) (by decide) sigil isSigil

theorem digits_writtenText (content : List Char) {following : List Char}
    (begins : BeginsPiece following) :
    (writtenText content ++ following).takeWhile Char.isDigit =
        content.takeWhile Char.isDigit ∧
      (writtenText content ++ following).dropWhile Char.isDigit =
        writtenText (content.dropWhile Char.isDigit) ++ following := by
  induction content with
  | nil =>
      obtain ⟨taken, dropped⟩ := takeWhile_append_of_startsWith
        (show ∀ digit ∈ ([] : List Char), digit.isDigit from nofun)
        (startsWith_beginsPiece isDigit_not_sigil begins)
      exact ⟨taken, dropped⟩
  | cons character content ih =>
      by_cases digit : character.isDigit
      · have plain : isSigil character = false :=
          Bool.eq_false_iff.mpr fun sigil => by
            simp [isDigit_not_sigil character sigil] at digit
        simpa [writtenText_plain plain, digit] using ih
      · by_cases sigil : isSigil character
        · simp [writtenText_sigil sigil, digit]
        · simp [writtenText_plain (Bool.eq_false_iff.mpr sigil), digit]

theorem readPathPiece?_other {character : Char} (noDot : character ≠ '.')
    (noBracket : character ≠ '[') (rest : List Char) :
    readPathPiece? (character :: rest) = none := by
  unfold readPathPiece?
  split <;> simp_all

/-- A step of a path that literal text does not begin does not begin with its written
form either. -/
theorem readPathPiece?_writtenText {content following : List Char}
    (noStep : readPathPiece? content = none) (begins : BeginsPiece following) :
    readPathPiece? (writtenText content ++ following) = none := by
  have sigilEnds {sigil : Char} (isSigil : isSigil sigil) (rest : List Char) :
      readPathPiece? (sigil :: rest) = none :=
    readPathPiece?_other (ne_of_class isSigil '.' (by decide))
      (ne_of_class isSigil '[' (by decide)) rest
  cases content with
  | nil =>
      rcases begins with rfl | ⟨sigil, next, rest, rfl, starts⟩
      · rfl
      · exact sigilEnds (startsDirective_sigil starts).1 _
  | cons character content =>
      by_cases sigil : isSigil character
      · rw [writtenText_sigil sigil]
        exact sigilEnds sigil _
      · rw [writtenText_plain (Bool.eq_false_iff.mpr sigil), List.cons_append]
        by_cases isDot : character = '.'
        · subst isDot
          rw [readPathPiece?_field_none] at noStep ⊢
          refine startsWith_writtenText ?_ noStep begins
          exact noSigil_of_ne (by decide) (by decide) (by decide)
        · by_cases isBracket : character = '['
          · subst isBracket
            obtain ⟨taken, dropped⟩ := digits_writtenText content begins
            rw [readPathPiece?_index_none] at noStep ⊢
            rw [taken, dropped]
            refine noStep.imp id fun noCloser => startsWith_writtenText ?_ noCloser begins
            exact noSigil_of_ne (by decide) (by decide) (by decide)
          · exact readPathPiece?_other isDot isBracket _

theorem isNameCharacter_not_sigil (sigil : Char) (isSigil : isSigil sigil) :
    isNameCharacter sigil = false :=
  noSigil_of_ne (by decide) (by decide) (by decide) sigil isSigil

/-- What ends before literal text, and before no text at all, ends before its written
form. -/
def EndsBeforeWritten (endsBefore : List Char → Bool) : Prop :=
  endsBefore [] ∧ ∀ content following, endsBefore content → BeginsPiece following →
    endsBefore (writtenText content ++ following)

theorem wordEndsBefore_written : EndsBeforeWritten wordEndsBefore := by
  refine ⟨rfl, fun content following apart begins => ?_⟩
  have stops : startsWith isNameCharacter content = false := by
    simpa [wordEndsBefore] using apart
  simp [wordEndsBefore, startsWith_writtenText isNameCharacter_not_sigil stops begins]

theorem VariablePath.endsBefore_written (path : VariablePath) :
    EndsBeforeWritten path.endsBefore := by
  refine ⟨by simp [VariablePath.endsBefore, readPathPiece?, startsWith], ?_⟩
  intro content following ends begins
  simp only [VariablePath.endsBefore, Bool.and_eq_true, Option.isNone_iff_eq_none,
    Bool.or_eq_true, Bool.not_eq_true'] at ends ⊢
  refine ⟨readPathPiece?_writtenText ends.1 begins, ends.2.imp id fun stops => ?_⟩
  exact startsWith_writtenText isNameCharacter_not_sigil stops begins

theorem Node.endsBefore_written (node : Node) : EndsBeforeWritten node.endsBefore := by
  cases node with
  | output expression =>
      cases expression with
      | path path span => exact path.endsBefore_written
      | _ => exact ⟨rfl, fun _ _ _ _ => rfl⟩
  | conditional branches otherwise span => exact wordEndsBefore_written
  | loop key item iterable body span => exact wordEndsBefore_written
  | _ => exact ⟨rfl, fun _ _ _ _ => rfl⟩

theorem HeaderPrintedAs.beginsPiece {keyword : Keyword} {inside own : List Char}
    (prints : HeaderPrintedAs keyword inside own) (following : List Char) :
    BeginsPiece (own ++ following) := by
  obtain rfl := prints
  rw [List.append_assoc]
  exact keyword.beginsPiece _

theorem BranchesPrintedAs.beginsPiece {keyword : Keyword} {branches : List Branch}
    {own following : List Char} (prints : BranchesPrintedAs keyword branches own)
    (begins : branches = [] → BeginsPiece following) : BeginsPiece (own ++ following) := by
  cases branches with
  | nil =>
      obtain rfl := prints
      exact begins rfl
  | cons branch branches =>
      obtain ⟨_, others, rfl, branchPrints, -⟩ := prints
      cases branch with
      | mk condition body =>
          obtain ⟨_, header, inside, rfl, headerPrints, -⟩ := branchPrints
          simp only [List.append_assoc]
          exact headerPrints.beginsPiece _

theorem OtherwisePrintedAs.beginsPiece {otherwise : Option (List Node)}
    {own following : List Char} (prints : OtherwisePrintedAs otherwise own)
    (begins : BeginsPiece following) : BeginsPiece (own ++ following) := by
  cases otherwise with
  | none =>
      obtain rfl := prints
      exact begins
  | some body =>
      obtain ⟨inside, rfl, -⟩ := prints
      rw [List.append_assoc]
      exact Keyword.elseBranch.beginsPiece _

theorem beginsPiece_of_isName {sigil : Char} (isSigil : sigil = '$' ∨ sigil = '@')
    {name : String} (proper : isName name) (following : List Char) :
    BeginsPiece (sigil :: (name.toList ++ following)) := by
  obtain ⟨first, rest, split, starts, -⟩ := exists_of_isName proper
  rw [split]
  refine .inr ⟨sigil, first, rest ++ following, rfl, ?_⟩
  rcases isSigil with rfl | rfl <;> simpa [startsDirective, Stencil.isSigil] using starts

/-- A printed node that is not literal text begins with a sigil. -/
theorem Node.PrintedAs.beginsPiece {node : Node} {own : List Char}
    (prints : node.PrintedAs own) (wellFormed : node.wellFormed)
    (noText : node.isText = false) (following : List Char) :
    BeginsPiece (own ++ following) := by
  cases node with
  | text content span => cases noText
  | output expression =>
      obtain ⟨inText, formed⟩ := Bool.and_eq_true_iff.mp wellFormed
      cases expression with
      | path path span =>
          obtain rfl := prints
          rw [VariablePath.text_toList, List.cons_append, List.append_assoc]
          exact beginsPiece_of_isName (.inl rfl) (Bool.and_eq_true_iff.mp formed).1 _
      | literal value span => cases inText
      | call name arguments span =>
          obtain ⟨inside, rfl, -⟩ := prints
          rw [List.cons_append, List.append_assoc]
          exact beginsPiece_of_isName (.inr rfl) (Bool.and_eq_true_iff.mp formed).1 _
  | conditional branches otherwise span =>
      obtain ⟨chain, last, rfl, branchesPrint, -⟩ := prints
      rw [List.append_assoc]
      apply branchesPrint.beginsPiece
      rintro rfl
      simp [Node.wellFormed] at wellFormed
  | loop key item iterable body span =>
      obtain ⟨header, names, before, iterableText, inside, rfl, headerPrints, -⟩ := prints
      rw [List.append_assoc]
      exact headerPrints.beginsPiece _
  | binding name value span =>
      obtain ⟨nameText, others, headerPrints, -⟩ := prints
      exact headerPrints.beginsPiece _

theorem BodyPrintedAs.beginsPiece {nodes : List Node} {own following : List Char}
    (prints : BodyPrintedAs nodes own) (wellFormed : bodyWellFormed nodes)
    (noText : startsWithText nodes = false) (begins : BeginsPiece following) :
    BeginsPiece (own ++ following) := by
  cases nodes with
  | nil =>
      obtain rfl := prints
      exact begins
  | cons node nodes =>
      obtain ⟨nodeText, others, rfl, nodePrints, -⟩ := prints
      simp only [bodyWellFormed, Bool.and_eq_true] at wellFormed
      rw [List.append_assoc]
      refine nodePrints.beginsPiece wellFormed.1.1 ?_ _
      cases node <;> first | rfl | cases noText

/-- What ends before the literal text with which a body begins, if it does, ends before
the printed body. -/
theorem BodyPrintedAs.endsBefore {endsBefore : List Char → Bool}
    (written : EndsBeforeWritten endsBefore) {nodes : List Node}
    {own following : List Char} (prints : BodyPrintedAs nodes own)
    (wellFormed : bodyWellFormed nodes) (apart : endsBeforeText endsBefore nodes)
    (begins : BeginsPiece following) : endsBefore (own ++ following) := by
  by_cases noText : startsWithText nodes = false
  · exact written.2 [] _ written.1 (prints.beginsPiece wellFormed noText begins)
  · cases nodes with
    | nil => exact absurd rfl noText
    | cons node nodes =>
        obtain ⟨nodeText, others, rfl, nodePrints, othersPrint⟩ := prints
        simp only [bodyWellFormed, Bool.and_eq_true] at wellFormed
        cases node with
        | text content span =>
            obtain rfl := nodePrints
            rw [List.append_assoc]
            refine written.2 content.toList _ apart
              (othersPrint.beginsPiece wellFormed.2 ?_ begins)
            simpa [Node.isText] using wellFormed.1.2
        | _ => exact absurd rfl noText

end Stencil
