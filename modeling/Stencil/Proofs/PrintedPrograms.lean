import Stencil.Proofs.FaithfulParse
import Stencil.Proofs.PrintedBodies
import Stencil.Proofs.ReadBackBody

/-!
# Parsing printed programs

Parsing undoes printing.  Every printed text of a well-formed program is scanned into
tokens that spell the program, and from these it is read back, if its literal texts
stand apart from what is before them.
-/

namespace Stencil

/-- Tokens spell a node that stands anywhere. -/
def Node.SpelledSomewhere (node : Node) (tokens : List Token) : Prop :=
  ∃ located : Node, located.SpelledBy tokens ∧
    located.mapSpans nowhere = node.mapSpans nowhere

/-- Tokens spell branches that stand anywhere. -/
def BranchesSpelledSomewhere (keyword : Keyword) (branches : List Branch)
    (tokens : List Token) : Prop :=
  ∃ located, BranchesSpelledBy keyword located tokens ∧
    mapBranchSpans nowhere located = mapBranchSpans nowhere branches

/-- Tokens spell a branch that stands anywhere, after its keyword. -/
def Branch.SpelledSomewhere (branch : Branch) (tokens : List Token) : Prop :=
  ∃ located : Branch, located.SpelledBy tokens ∧
    located.mapSpans nowhere = branch.mapSpans nowhere

/-- Tokens spell the last body of a conditional that stands anywhere. -/
def OtherwiseSpelledSomewhere (otherwise : Option (List Node)) (tokens : List Token) :
    Prop :=
  ∃ located, OtherwiseSpelledBy located tokens ∧
    mapOtherwiseSpans nowhere located = mapOtherwiseSpans nowhere otherwise

/-- Tokens spell a body that stands anywhere. -/
def BodySpelledSomewhere (nodes : List Node) (tokens : List Token) : Prop :=
  ∃ located, BodySpelledBy located tokens ∧
    mapBodySpans nowhere located = mapBodySpans nowhere nodes

/-- A call in the text. -/
theorem scansInto_printedCall (trim : Bool) {name : String} {arguments : List Expression}
    {inside : List Char} (proper : isName name) (argumentsFormed : argumentsWellFormed arguments)
    (prints : ArgumentsPrintedAs arguments inside) (offset : Nat) (following : List Char) :
    ∃ tokens located span,
      ScansInto (scanAfterText trim) (scanBody trim) offset
        ('@' :: (name.toList ++ '(' :: (inside ++ [')']))) following tokens ∧
      (Node.output (.call name located span)).SpelledBy tokens ∧
      mapArgumentSpans nowhere located = mapArgumentSpans nowhere arguments := by
  obtain ⟨tokens, scan, located, spelled, same⟩ :=
    scansInHeader_arguments arguments argumentsFormed prints
      (offset + 1 + byteLength name.toList + 1) (')' :: following) rfl
  obtain ⟨nameSpan, openSpan, closeSpan, call⟩ := scansInto_call trim proper offset scan
  exact ⟨_, located, _, call, ⟨rfl, nameSpan, openSpan, tokens, closeSpan, rfl, rfl, spelled⟩,
    same⟩

/-- A path or a call in the text. -/
theorem Expression.scansInText (expression : Expression) {own : List Char}
    (inText : expression.standsInText) (wellFormed : expression.wellFormed)
    (prints : expression.PrintedAs own) (offset : Nat) {following : List Char}
    (ends : (Node.output expression).endsBefore following) :
    ∃ tokens, PieceScans offset own following tokens ∧
      (Node.output expression).SpelledSomewhere tokens := by
  cases expression with
  | path path span =>
      obtain rfl := prints
      obtain ⟨tokens, scan, spelled⟩ := PieceScans.path wellFormed offset ends
      exact ⟨tokens, scan, .output (.path path _), ⟨rfl, spelled⟩, rfl⟩
  | literal value span => cases inText
  | call name arguments span =>
      obtain ⟨inside, rfl, argumentsPrint⟩ := prints
      obtain ⟨proper, argumentsFormed⟩ := Bool.and_eq_true_iff.mp wellFormed
      obtain ⟨tokens, located, callSpan, scan, spelled, same⟩ :=
        scansInto_printedCall false proper argumentsFormed argumentsPrint offset following
      refine ⟨tokens, scan, .output (.call name located callSpan), spelled, ?_⟩
      simp [Node.mapSpans, Expression.mapSpans, same, nowhere]

/-- A binding. -/
theorem Node.scans_binding (name : String) (value : Expression) (span : Span)
    {own : List Char} (wellFormed : (Node.binding name value span).wellFormed)
    (prints : (Node.binding name value span).PrintedAs own) (offset : Nat)
    (following : List Char) :
    ∃ tokens, PieceScans offset own following tokens ∧
      (Node.binding name value span).SpelledSomewhere tokens := by
  obtain ⟨nameText, valueText, headerPrints, namePrints, valuePrints⟩ := prints
  obtain ⟨proper, valueFormed⟩ := Bool.and_eq_true_iff.mp wellFormed
  obtain ⟨-, -, differs⟩ := wordKind_variable proper
  let start := offset + byteLength Keyword.letBinding.written + 2
  obtain ⟨_, nameScan, nameSpan, rfl⟩ := scansInHeader_variable proper namePrints start
    ('=' :: (valueText ++ ')' :: following)) rfl
  obtain ⟨tokens, valueScan, located, spelled, same⟩ :=
    valuePrints.scansInHeader (fun own => value.scansInHeader valueFormed)
      (start + byteLength nameText + 1) (')' :: following) rfl
  obtain ⟨openSpan, closeSpan, scan⟩ := PieceScans.header rfl headerPrints
    (.append nameScan (.append (.assign _ _) valueScan))
  refine ⟨_, scan, .binding name located _,
    ⟨_, openSpan, nameSpan, _, tokens, closeSpan, rfl, rfl, differs, spelled⟩, ?_⟩
  simp [Node.mapSpans, same, nowhere]

/-- What is between the parentheses of a loop. -/
theorem scans_loopHeader {key : Option String} {item : String} {iterable : Expression}
    {names before own : List Char} (namesPrint : LoopNamesPrintedAs key item names)
    (blanks : Blanks before) (nonempty : before ≠ [])
    (iterablePrints : Padded iterable.PrintedAs own) (keyProper : key.all isVariableName)
    (itemProper : isVariableName item) (iterableFormed : iterable.wellFormed)
    (offset : Nat) {following : List Char} (stops : startsWith endsItem following) :
    ∃ nameTokens wordSpan tokens,
      HeaderScans offset (names ++ (loopWord.toList ++ (before ++ own))) following
        (nameTokens ++ ⟨.name loopWord, wordSpan⟩ :: tokens) ∧
      LoopNamesSpelledBy key item nameTokens ∧ iterable.SpelledSomewhere tokens := by
  obtain ⟨nameTokens, nameScan, named⟩ := namesPrint.scans keyProper itemProper offset
    (loopWord.toList ++ (before ++ own) ++ following)
  let wordStart := offset + byteLength names
  obtain ⟨tokens, scan, spelled⟩ :=
    iterablePrints.scansInHeader (fun own => iterable.scansInHeader iterableFormed)
      (wordStart + byteLength loopWord.toList + byteLength before) following stops
  have wordStops : startsWith endsItem (before ++ own ++ following) := by
    rw [List.append_assoc]
    exact blanks.startsWith_endsItem nonempty _
  have wordScan := HeaderScans.word (show isName loopWord by decide) wordStart wordStops
  refine ⟨nameTokens, ⟨wordStart, wordStart + byteLength loopWord.toList⟩, tokens, ?_,
    named, spelled⟩
  exact .append nameScan (.append wordScan (.append (.blanks blanks _ _) scan))

theorem ScansInto.nil (scan : Nat → List Char → Scan) (offset : Nat)
    (following : List Char) : ScansInto scan scan offset [] following [] :=
  rfl

/-- The text of a node is scanned, together with all that is inside it. -/
def Node.Scans (node : Node) : Prop :=
  ∀ own, node.wellFormed → node.textsApart → node.PrintedAs own → node.isText = false →
    ∀ offset following, node.endsBefore following → ∃ tokens,
      PieceScans offset own following tokens ∧ node.SpelledSomewhere tokens

/-- A printed body is scanned up to a text with which a piece begins. -/
def BodyScans (nodes : List Node) : Prop :=
  ∀ own, bodyWellFormed nodes → bodyTextsApart nodes → BodyPrintedAs nodes own →
    ∀ offset following, BeginsPiece following → ∃ tokens,
      ScansInto (scanBody false) (scanAfterText false) offset own following tokens ∧
        BodySpelledSomewhere nodes tokens

/-- Printed branches are scanned up to a text with which a piece begins. -/
def BranchesScan (branches : List Branch) : Prop :=
  ∀ keyword own, keyword.takesHeader → branchesWellFormed branches →
    branchesTextsApart branches → BranchesPrintedAs keyword branches own →
      ∀ offset following, BeginsPiece following → ∃ tokens,
        ScansInto (scanAfterText false) (scanAfterText false) offset own following tokens ∧
          BranchesSpelledSomewhere keyword branches tokens

/-- A printed branch is scanned up to a text with which a piece begins. -/
def Branch.Scans (branch : Branch) : Prop :=
  ∀ keyword own, keyword.takesHeader → branch.wellFormed → branch.textsApart →
    branch.PrintedAs keyword own →
      ∀ offset following, BeginsPiece following → ∃ span tokens,
        ScansInto (scanAfterText false) (scanAfterText false) offset own following
          (⟨keyword.kind, span⟩ :: tokens) ∧ branch.SpelledSomewhere tokens

/-- The printed last body of a conditional is scanned up to a text with which a piece
begins. -/
def OtherwiseScans (otherwise : Option (List Node)) : Prop :=
  ∀ own, otherwiseWellFormed otherwise → otherwiseTextsApart otherwise →
    OtherwisePrintedAs otherwise own →
      ∀ offset following, BeginsPiece following → ∃ tokens,
        ScansInto (scanAfterText false) (scanAfterText false) offset own following tokens ∧
          OtherwiseSpelledSomewhere otherwise tokens

mutual

theorem Node.scans : ∀ node : Node, node.Scans
  | .text content span => by
      intro _ _ _ _ noText
      cases noText
  | .output expression => by
      intro own wellFormed _ prints _ offset following ends
      obtain ⟨inText, formed⟩ := Bool.and_eq_true_iff.mp wellFormed
      exact expression.scansInText inText formed prints offset ends
  | .conditional branches otherwise span => by
      intro own wellFormed apart prints _ offset following ends
      obtain ⟨chain, last, rfl, branchesPrint, lastPrints⟩ := prints
      simp only [Node.wellFormed, Node.textsApart, Bool.and_eq_true, Bool.not_eq_true',
        List.isEmpty_eq_false_iff] at wellFormed apart
      obtain ⟨⟨nonempty, branchesFormed⟩, lastFormed⟩ := wellFormed
      obtain ⟨branchesApart, lastApart⟩ := apart
      have beginsEnd := Keyword.endBlock.beginsPiece following
      obtain ⟨lastTokens, lastScan, lastLocated, lastSpelled, sameLast⟩ :=
        scansOtherwise otherwise last lastFormed lastApart lastPrints
          (offset + byteLength chain) _ beginsEnd
      obtain ⟨tokens, scan, located, spelled, same⟩ :=
        scansBranches branches .ifBlock chain rfl branchesFormed branchesApart branchesPrint
          offset (last ++ Keyword.endBlock.written ++ following) (by
            rw [List.append_assoc]
            exact lastPrints.beginsPiece beginsEnd)
      let stop := offset + byteLength chain + byteLength last
      have endScan := PieceScans.keyword (show Keyword.endBlock.takesHeader = false from rfl)
        stop ends
      cases located with
      | nil =>
          obtain ⟨branch, others, rfl⟩ := List.exists_cons_of_ne_nil nonempty
          cases same
      | cons branch others =>
          obtain ⟨openSpan, own, further, rfl, -⟩ := id spelled
          refine ⟨_, scan.append (lastScan.append endScan),
            .conditional (branch :: others) lastLocated _,
            ⟨openSpan, own ++ further, lastTokens, (Keyword.endBlock.token stop).span, ?_,
              rfl, List.cons_ne_nil _ _, spelled, lastSpelled⟩, ?_⟩
          · simp [Keyword.token]
          · simp [Node.mapSpans, same, sameLast, nowhere]
  | .loop key item iterable body span => by
      intro own wellFormed apart prints _ offset following ends
      obtain ⟨header, names, before, iterableText, inside, rfl, headerPrints, namesPrint,
        blanks, nonempty, iterablePrints, bodyPrints⟩ := prints
      simp only [Node.wellFormed, Bool.and_eq_true] at wellFormed
      obtain ⟨⟨⟨keyProper, itemProper⟩, iterableFormed⟩, bodyFormed⟩ := wellFormed
      obtain ⟨nameTokens, wordSpan, tokens, headerScan, named, iterableLocated, spelled,
        same⟩ := scans_loopHeader namesPrint blanks nonempty iterablePrints keyProper
          itemProper iterableFormed (offset + byteLength Keyword.forBlock.written + 2)
          (show startsWith endsItem
            (')' :: (inside ++ Keyword.endBlock.written ++ following)) from rfl)
      obtain ⟨openSpan, closeSpan, scan⟩ := PieceScans.header rfl headerPrints headerScan
      obtain ⟨bodyTokens, bodyScan, bodyLocated, bodySpelled, sameBody⟩ :=
        scansBody body inside bodyFormed apart bodyPrints (offset + byteLength header) _
          (Keyword.endBlock.beginsPiece following)
      let stop := offset + byteLength header + byteLength inside
      have endScan := PieceScans.keyword (show Keyword.endBlock.takesHeader = false from rfl)
        stop ends
      refine ⟨_, ScansInto.append scan (bodyScan.append endScan),
        .loop key item iterableLocated bodyLocated _,
        ⟨(Keyword.forBlock.token offset).span, openSpan, nameTokens, wordSpan, tokens,
          closeSpan, bodyTokens, (Keyword.endBlock.token stop).span, ?_, rfl, named, spelled,
          bodySpelled⟩, ?_⟩
      · simp [Keyword.token]
      · simp [Node.mapSpans, same, sameBody, nowhere]
  | .binding name value span => by
      intro own wellFormed _ prints _ offset following _
      exact Node.scans_binding name value span wellFormed prints offset following

theorem scansBranches : ∀ branches : List Branch, BranchesScan branches
  | [] => by
      rintro keyword _ _ _ _ rfl offset following begins
      exact ⟨[], .nil _ offset following, [], rfl, rfl⟩
  | branch :: branches => by
      rintro keyword _ takes wellFormed apart ⟨own, others, rfl, prints, othersPrint⟩ offset
        following begins
      obtain ⟨branchFormed, othersFormed⟩ := Bool.and_eq_true_iff.mp wellFormed
      obtain ⟨branchApart, othersApart⟩ := Bool.and_eq_true_iff.mp apart
      obtain ⟨further, othersScan, othersLocated, othersSpelled, sameOthers⟩ :=
        scansBranches branches .elifBranch others rfl othersFormed othersApart othersPrint
          (offset + byteLength own) following begins
      obtain ⟨span, tokens, scan, located, spelled, same⟩ :=
        branch.scans keyword own takes branchFormed branchApart prints offset
          (others ++ following) (othersPrint.beginsPiece fun _ => begins)
      refine ⟨_, scan.append othersScan, located :: othersLocated,
        ⟨span, tokens, further, rfl, spelled, othersSpelled⟩, ?_⟩
      rw [mapBranchSpans, mapBranchSpans, same, sameOthers]

theorem Branch.scans : ∀ branch : Branch, branch.Scans
  | .mk condition body => by
      intro keyword own takes wellFormed apart prints offset following begins
      obtain ⟨conditionText, header, inside, rfl, headerPrints, conditionPrints,
        bodyPrints⟩ := prints
      obtain ⟨conditionFormed, bodyFormed⟩ := Bool.and_eq_true_iff.mp wellFormed
      obtain ⟨tokens, conditionScan, located, spelled, same⟩ :=
        conditionPrints.scansInHeader (fun own => condition.scansInHeader conditionFormed)
          (offset + byteLength keyword.written + 2) (')' :: (inside ++ following)) rfl
      obtain ⟨openSpan, closeSpan, scan⟩ :=
        PieceScans.header takes headerPrints conditionScan
      obtain ⟨bodyTokens, bodyScan, bodyLocated, bodySpelled, sameBody⟩ :=
        scansBody body inside bodyFormed apart bodyPrints (offset + byteLength header)
          following begins
      refine ⟨_, _, ScansInto.append scan bodyScan, .mk located bodyLocated,
        ⟨openSpan, tokens, closeSpan, bodyTokens, by simp, spelled, bodySpelled⟩, ?_⟩
      simp [Branch.mapSpans, same, sameBody]

theorem scansOtherwise : ∀ otherwise : Option (List Node), OtherwiseScans otherwise
  | none => by
      rintro _ _ _ rfl offset following _
      exact ⟨[], .nil _ offset following, none, rfl, rfl⟩
  | some body => by
      rintro _ wellFormed apart ⟨inside, rfl, bodyPrints⟩ offset following begins
      obtain ⟨ends, bodyApart⟩ := Bool.and_eq_true_iff.mp apart
      have elseScan := PieceScans.keyword
        (show Keyword.elseBranch.takesHeader = false from rfl) offset
        (bodyPrints.endsBefore wordEndsBefore_written wellFormed ends begins)
      obtain ⟨tokens, scan, located, spelled, same⟩ :=
        scansBody body inside wellFormed bodyApart bodyPrints
          (offset + byteLength Keyword.elseBranch.written) following begins
      refine ⟨_, ScansInto.append elseScan scan, some located,
        ⟨_, tokens, rfl, spelled⟩, ?_⟩
      rw [mapOtherwiseSpans, mapOtherwiseSpans, same]

theorem scansBody : ∀ nodes : List Node, BodyScans nodes
  | [] => by
      rintro own _ _ rfl offset following begins
      refine ⟨[], ?_, [], rfl, rfl⟩
      exact scanBody_of_beginsPiece false offset begins
  | node :: nodes => by
      rintro _ wellFormed apart ⟨own, others, rfl, prints, othersPrint⟩ offset following
        begins
      simp only [bodyWellFormed, bodyTextsApart, Bool.and_eq_true] at wellFormed apart
      obtain ⟨⟨nodeFormed, single⟩, othersFormed⟩ := wellFormed
      obtain ⟨⟨nodeApart, ends⟩, othersApart⟩ := apart
      obtain ⟨further, othersScan, othersLocated, othersSpelled, sameOthers⟩ :=
        scansBody nodes others othersFormed othersApart othersPrint
          (offset + byteLength own) following begins
      -- What is scanned after the node is the same for text and for a piece.
      have goOn {tokens : List Token}
          (scan : ScansInto (scanBody false) (scanAfterText false) offset (own ++ others)
            following (tokens ++ further)) (spelled : node.SpelledSomewhere tokens) :
          ∃ tokens, ScansInto (scanBody false) (scanAfterText false) offset (own ++ others)
            following tokens ∧ BodySpelledSomewhere (node :: nodes) tokens := by
        obtain ⟨located, spelled, same⟩ := spelled
        refine ⟨_, scan, located :: othersLocated,
          ⟨tokens, further, rfl, spelled, othersSpelled⟩, ?_⟩
        rw [mapBodySpans, mapBodySpans, same, sameOthers]
      cases noText : node.isText with
      | true =>
          cases node with
          | text content span =>
              obtain rfl := prints
              have nonempty : content.toList ≠ [] := by
                simpa [Node.wellFormed] using nodeFormed
              have beginsOthers : BeginsPiece (others ++ following) :=
                othersPrint.beginsPiece othersFormed (by simpa [noText] using single) begins
              refine goOn (ScansInto.append (scansInto_text nonempty offset beginsOthers) ?_)
                ⟨.text content ⟨offset, offset + byteLength (writtenText content.toList)⟩,
                  by rw [String.ofList_toList]; rfl, rfl⟩
              rw [ScansInto, ← scanBody_of_beginsPiece false _ beginsOthers]
              exact othersScan
          | _ => cases noText
      | false =>
          have beginsHere := prints.beginsPiece nodeFormed noText (others ++ following)
          have endsHere : node.endsBefore (others ++ following) :=
            othersPrint.endsBefore node.endsBefore_written othersFormed ends begins
          obtain ⟨tokens, scan, spelled⟩ :=
            node.scans own nodeFormed nodeApart prints noText offset _ endsHere
          refine goOn (ScansInto.append ?_ othersScan) spelled
          rw [ScansInto, scanBody_of_beginsPiece false offset beginsHere]
          exact scan

end

/-- A template whose tokens spell nodes is parsed to these, and nothing is wrong with it. -/
theorem parseTemplate_of_spelled {settings : Settings} {text : String} {nodes : List Node}
    {tokens : List Token} {span : Span}
    (scan : tokenize settings.trimLineBreaks text = (tokens ++ [⟨.endOfInput, span⟩], []))
    (spelled : BodySpelledBy nodes tokens) (within : bodyNesting nodes ≤ settings.maxDepth) :
    (parseTemplate settings text).diagnostics = [] ∧
      (parseTemplate settings text).program.nodes = nodes := by
  have reading : templateReading settings.maxDepth
      (tokenize settings.trimLineBreaks text).1 = ⟨nodes, [], [⟨.endOfInput, span⟩]⟩ := by
    rw [scan]
    exact templateReading_spelled spelled within span
  refine ⟨?_, congrArg Reading.value reading⟩
  rw [← templateReports_eq_nil, templateReports, reading, scan]
  rfl

/-- A printed program is scanned into tokens that spell it. -/
theorem tokenize_printed {program : Program} {text : String}
    (wellFormed : program.wellFormed) (apart : program.textsApart)
    (prints : program.PrintedAs text) :
    ∃ tokens span, tokenize false text = (tokens ++ [⟨.endOfInput, span⟩], []) ∧
      BodySpelledSomewhere program.nodes tokens := by
  obtain ⟨tokens, scan, spelled⟩ :=
    scansBody program.nodes text.toList wellFormed apart prints 0 [] (.inl rfl)
  rw [ScansInto, List.append_nil, Nat.zero_add] at scan
  let stop := byteLength text.toList
  refine ⟨tokens, ⟨stop, stop⟩, ?_, spelled⟩
  rw [tokenize, scan]
  rfl

/-- Parsing undoes printing.  Whatever blanks a printed text of a well-formed program
has between the tokens of its headers, nothing is wrong with it, and it is parsed to
the program it prints, up to spans, if the literal texts of the program stand apart
from what is before them. -/
theorem parseTemplate_printed (settings : Settings) (program : Program) (text : String)
    (untrimmed : settings.trimLineBreaks = false)
    (within : program.nesting ≤ settings.maxDepth) (wellFormed : program.wellFormed)
    (apart : program.textsApart) (prints : program.PrintedAs text) :
    (parseTemplate settings text).diagnostics = [] ∧
      (parseTemplate settings text).program.withoutSpans = program.withoutSpans := by
  obtain ⟨tokens, span, scan, located, spelled, same⟩ :=
    tokenize_printed wellFormed apart prints
  have sameNesting : bodyNesting located = program.nesting := by
    rw [Program.nesting, ← bodyNesting_mapSpans nowhere, same, bodyNesting_mapSpans]
  have reading : templateReading settings.maxDepth
      (tokenize settings.trimLineBreaks text).1 =
        ⟨located, [], [⟨.endOfInput, span⟩]⟩ := by
    rw [untrimmed, scan]
    exact templateReading_spelled spelled (sameNesting ▸ within) span
  constructor
  · rw [← templateReports_eq_nil, templateReports, reading, untrimmed, scan]
    rfl
  · have nodes : (parseTemplate settings text).program.nodes = located :=
      congrArg Reading.value reading
    change Program.mk (mapBodySpans nowhere (parseTemplate settings text).program.nodes)
      ⟨0, 0⟩ = Program.mk (mapBodySpans nowhere program.nodes) ⟨0, 0⟩
    rw [nodes, same]

/-- Printed with blanks and read back: a conditional with a call in its header. -/
theorem parseTemplate_printed_conditional :
    let span : Span := ⟨0, 0⟩
    let call : Expression :=
      .call "f" [.path ⟨"x", [.field "y", .index 0]⟩ span, .literal (.string "\"") span] span
    let program : Program :=
      ⟨[.text "a$" span, .conditional [.mk call [.output (.path ⟨"x", []⟩ span)]]
        (some [.text "." span]) span], span⟩
    let text := "a$$#if ( @f(\n$x.y[0] ,\"\\\"\"))$x#else.#end"
    let settings : Settings := ⟨2, false⟩
    program.nesting ≤ settings.maxDepth ∧ program.wellFormed ∧ program.textsApart ∧
      program.PrintedAs text ∧ (parseTemplate settings text).diagnostics = [] ∧
      (parseTemplate settings text).program.withoutSpans = program.withoutSpans := by
  intro span call program text settings
  have callPrints : call.PrintedAs "@f(\n$x.y[0] ,\"\\\"\")".toList := by
    refine ⟨"\n$x.y[0] ,\"\\\"\"".toList, by decide, "\n$x.y[0] ".toList,
      ",\"\\\"\"".toList, by decide, ?_, "\"\\\"\"".toList, [], by decide,
      .of (by rw [Expression.PrintedAs]; decide), rfl⟩
    exact ⟨['\n'], "$x.y[0]".toList, [' '], by decide, .single rfl,
      blanks_space, by rw [Expression.PrintedAs]; decide⟩
  have bodyPrints : BodyPrintedAs [.output (.path ⟨"x", []⟩ span)] "$x".toList :=
    ⟨"$x".toList, [], by decide, by rw [Node.PrintedAs, Expression.PrintedAs]; decide, rfl⟩
  have lastPrints : OtherwisePrintedAs (some [.text "." span]) "#else.".toList :=
    ⟨['.'], by decide, ['.'], [], by decide, by rw [Node.PrintedAs]; decide, rfl⟩
  have headerPrints : Padded (call.PrintedAs ·) " @f(\n$x.y[0] ,\"\\\"\")".toList :=
    ⟨[' '], _, [], by decide, blanks_space, .nil, callPrints⟩
  have prints : program.PrintedAs text := by
    refine ⟨"a$$".toList, "#if ( @f(\n$x.y[0] ,\"\\\"\"))$x#else.#end".toList, by decide,
      by rw [Node.PrintedAs]; decide, "#if ( @f(\n$x.y[0] ,\"\\\"\"))$x#else.#end".toList,
      [], by decide, ⟨"#if ( @f(\n$x.y[0] ,\"\\\"\"))$x".toList, "#else.".toList,
        by decide, ?_, lastPrints⟩, rfl⟩
    exact ⟨"#if ( @f(\n$x.y[0] ,\"\\\"\"))$x".toList, [], by decide,
      ⟨" @f(\n$x.y[0] ,\"\\\"\")".toList, "#if ( @f(\n$x.y[0] ,\"\\\"\"))".toList,
        "$x".toList, by decide, by unfold HeaderPrintedAs; decide, headerPrints,
        bodyPrints⟩, rfl⟩
  have within : program.nesting ≤ settings.maxDepth := by decide
  have wellFormed : program.wellFormed := by decide
  have apart : program.textsApart := by decide
  exact ⟨within, wellFormed, apart, prints,
    parseTemplate_printed settings program text rfl within wellFormed apart prints⟩

/-- Literal text that is more of a name, or of a word, is read as that. -/
theorem parseTemplate_printed_joined :
    let span : Span := ⟨0, 0⟩
    let settings : Settings := ⟨256, false⟩
    let name : Program := ⟨[.output (.path ⟨"x", []⟩ span), .text "y" span], span⟩
    let word : Program :=
      ⟨[.conditional [.mk (.literal .null span) []] none span, .text "x" span], span⟩
    (name.wellFormed ∧ name.nesting ≤ settings.maxDepth ∧ name.PrintedAs "$xy" ∧
      (parseTemplate settings "$xy").program.withoutSpans ≠ name.withoutSpans) ∧
    (word.wellFormed ∧ word.nesting ≤ settings.maxDepth ∧
      word.PrintedAs "#if (null)#endx" ∧
      (parseTemplate settings "#if (null)#endx").diagnostics ≠ []) := by
  intro span settings name word
  have namePrints : name.PrintedAs "$xy" :=
    ⟨"$x".toList, "y".toList, by decide,
      by rw [Node.PrintedAs, Expression.PrintedAs]; decide,
      "y".toList, [], by decide, by rw [Node.PrintedAs]; decide, rfl⟩
  have headerPrints : Padded ((Expression.literal .null span).PrintedAs ·) "null".toList :=
    .of (by rw [Expression.PrintedAs]; decide)
  have wordPrints : word.PrintedAs "#if (null)#endx" :=
    ⟨"#if (null)#end".toList, "x".toList, by decide,
      ⟨"#if (null)".toList, [], by decide,
        ⟨"#if (null)".toList, [], by decide,
          ⟨"null".toList, "#if (null)".toList, [], by decide,
            by unfold HeaderPrintedAs; decide, headerPrints, rfl⟩, rfl⟩, rfl⟩,
      "x".toList, [], by decide, by rw [Node.PrintedAs]; decide, rfl⟩
  refine ⟨⟨by decide, by decide, namePrints, fun same => ?_⟩,
    by decide, by decide, wordPrints, fun clean => ?_⟩
  · have lengths := congrArg (fun program => program.nodes.length) same
    revert lengths
    decide +kernel
  · have reports := templateReports_eq_nil.mpr clean
    revert reports
    decide +kernel

end Stencil
