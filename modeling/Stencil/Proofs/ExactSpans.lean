import Stencil.Proofs.CutTemplates
import Stencil.Proofs.DepthLimit
import Stencil.Proofs.FaithfulParse
import Stencil.Proofs.NodePlaces
import Stencil.Proofs.ReadBackBody
import Stencil.Proofs.ScanMoved

/-!
# Spans of nodes are exact

What the span of a node covers is a template of its own, which consists of that node alone.
-/

namespace Stencil

/-- A span covers a slice of a text. -/
def Span.Covers (span : Span) (text slice : List Char) : Prop :=
  ∃ before after, text = before ++ (slice ++ after) ∧ byteLength before = span.start ∧
    byteLength (before ++ slice) = span.stop

/-- Two fronts of a text that have the same number of bytes are the same. -/
theorem append_inj_of_byteLength {first second more others : List Char}
    (same : first ++ more = second ++ others)
    (bytes : byteLength first = byteLength second) : first = second ∧ more = others := by
  induction first generalizing second with
  | nil =>
      cases second with
      | nil => exact ⟨rfl, same⟩
      | cons character second =>
          have := character.utf8Size_pos
          simp only [byteLength_nil, byteLength_cons] at bytes
          omega
  | cons character first ih =>
      cases second with
      | nil =>
          have := character.utf8Size_pos
          simp only [byteLength_nil, byteLength_cons] at bytes
          omega
      | cons other second =>
          simp only [List.cons_append, List.cons.injEq] at same
          obtain ⟨rfl, same⟩ := same
          obtain ⟨rfl, rest⟩ := ih same (Nat.add_left_cancel bytes)
          exact ⟨rfl, rest⟩

/-- A span covers one slice of a text only. -/
theorem Span.Covers.unique {span : Span} {text slice other : List Char}
    (covers : span.Covers text slice) (coversOther : span.Covers text other) :
    slice = other := by
  obtain ⟨before, after, rfl, start, stop⟩ := covers
  obtain ⟨otherBefore, otherAfter, same, otherStart, otherStop⟩ := coversOther
  rw [← List.append_assoc, ← List.append_assoc] at same
  obtain ⟨same, -⟩ := append_inj_of_byteLength same (stop.trans otherStop.symm)
  exact (append_inj_of_byteLength same (start.trans otherStart.symm)).2

theorem scanAfterText_first {trim : Bool} {start : Nat} {characters : List Char}
    {token : Token} {rest : List Token}
    (scanned : (scanAfterText trim start characters).tokens = token :: rest) :
    token.span.start = start := by
  cases characters with
  | nil =>
      obtain ⟨rfl, -⟩ := List.cons.inj scanned
      rfl
  | cons sigil characters =>
      obtain ⟨first, others, split, -, begins⟩ := scanSigil_first trim sigil start characters
      rw [scanAfterText, Scan.prepend, split] at scanned
      obtain ⟨rfl, -⟩ := List.cons.inj scanned
      exact begins

/-- The first token of a template stands at its front. -/
theorem scanBody_first {trim : Bool} {offset : Nat} {characters : List Char} {token : Token}
    {rest : List Token} (scanned : (scanBody trim offset characters).tokens = token :: rest) :
    token.span.start = offset := by
  rw [scanBody_eq, Scan.prepend] at scanned
  by_cases empty : (TextRun.ofFront characters).content = []
  · rw [TextRun.tokens, if_pos empty, (TextRun.written_eq_nil_iff characters).mpr empty] at scanned
    exact scanAfterText_first scanned
  · rw [TextRun.tokens, if_neg empty] at scanned
    obtain ⟨rfl, -⟩ := List.cons.inj scanned
    rfl

/-- A node begins where the first one of its tokens does. -/
theorem Node.SpelledBy.first {node : Node} {tokens : List Token}
    (spelled : node.SpelledBy tokens) :
    ∃ token rest, tokens = token :: rest ∧ token.span.start = node.span.start := by
  cases node with
  | text content span =>
      obtain rfl := spelled
      exact ⟨_, _, rfl, rfl⟩
  | output expression =>
      obtain ⟨inText, spelled⟩ := spelled
      cases expression with
      | path path span =>
          obtain ⟨sigilSpan, nameSpan, steps, rfl, start, -⟩ := spelled
          exact ⟨_, _, rfl, start⟩
      | literal value span => cases inText
      | call name arguments span =>
          obtain ⟨nameSpan, openSpan, inside, closeSpan, rfl, rfl, -⟩ := spelled
          exact ⟨_, _, rfl, rfl⟩
  | conditional branches otherwise span =>
      obtain ⟨openSpan, chain, last, closeSpan, rfl, rfl, -⟩ := spelled
      exact ⟨_, _, rfl, rfl⟩
  | loop key item iterable body span =>
      obtain ⟨openSpan, parenSpan, names, wordSpan, expression, closeSpan, inside, endSpan,
        rfl, rfl, -⟩ := spelled
      exact ⟨_, _, rfl, rfl⟩
  | binding name value span =>
      obtain ⟨openSpan, parenSpan, nameSpan, assignSpan, expression, closeSpan, rfl, rfl, -⟩ :=
        spelled
      exact ⟨_, _, rfl, rfl⟩

theorem Node.SpelledBy.lastStop_eq {node : Node} {tokens : List Token}
    (spelled : node.SpelledBy tokens) : lastStop tokens = node.span.stop := by
  obtain ⟨front, last, rfl, -, stop⟩ := spelled.last
  rw [lastStop_append (List.cons_ne_nil _ _), ← stop]
  rfl

/-- The same span of a text whose first bytes, as many as given, are left out. -/
def Span.movedBack (distance : Nat) (span : Span) : Span :=
  ⟨span.start - distance, span.stop - distance⟩

theorem Node.mapSpans_movedBack (distance : Nat) (node : Node) :
    (node.mapSpans (Span.moved distance)).mapSpans (Span.movedBack distance) = node := by
  have inverse : Span.movedBack distance ∘ Span.moved distance = id := by
    funext span
    simp [Span.movedBack, Span.moved]
  rw [mapSpans_mapSpans, inverse, mapSpans_id]

/-- A node as it stands in a text of its own. -/
def Node.alone (node : Node) : Node :=
  node.mapSpans (Span.movedBack node.span.start)

/-- A slice of a template is read without a diagnostic, and as nothing but one node: a given
one, all spans of which are moved back by where it starts, and none of which is before it. -/
def Node.ReadAlone (node : Node) (settings : Settings) (slice : List Char) : Prop :=
  (parseTemplate settings (String.ofList slice)).diagnostics = [] ∧
    (parseTemplate settings (String.ofList slice)).program =
      ⟨[node.alone], ⟨0, byteLength slice⟩⟩ ∧
    node.alone.mapSpans (Span.moved node.span.start) = node

theorem lastStop_moved (distance : Nat) {tokens : List Token} (nonempty : tokens ≠ []) :
    lastStop (tokens.map (Token.moved distance)) = lastStop tokens + distance := by
  obtain ⟨front, last, rfl⟩ := (List.eq_nil_or_concat tokens).resolve_left nonempty
  simp [lastStop]

/-- A slice that is scanned completely further on in a text is scanned completely alone. -/
theorem scanBody_alone {trim : Bool} {distance : Nat} {slice : List Char} {tokens : List Token}
    (stop : lastStop tokens = distance + byteLength slice)
    (complete : scanBody trim distance slice = Scan.complete tokens) :
    (scanBody trim 0 slice).tokens.map (Token.moved distance) = (Scan.complete tokens).tokens ∧
      (scanBody trim 0 slice).reports = [] ∧
      lastStop (scanBody trim 0 slice).tokens = byteLength slice := by
  have moved := scanBody_moved distance trim 0 slice
  rw [Nat.zero_add, complete] at moved
  have same : (Scan.complete tokens).tokens =
      (scanBody trim 0 slice).tokens.map (Token.moved distance) := congrArg Scan.tokens moved
  have nonempty : (scanBody trim 0 slice).tokens ≠ [] := by
    intro nothing
    simp [nothing, Scan.complete] at same
  have lasts : lastStop (Scan.complete tokens).tokens = lastStop tokens :=
    lastStop_append (List.cons_ne_nil _ _)
  rw [same, lastStop_moved distance nonempty] at lasts
  exact ⟨same.symm, List.map_eq_nil_iff.mp (congrArg Scan.reports moved).symm, by omega⟩

/-- Tokens that spell a node further on in a text are read as that node, moved back. -/
theorem Node.SpelledBy.readMoved {limit : Nat} {node : Node} {tokens moved : List Token}
    {span : Span} (spelled : node.SpelledBy moved) (within : node.nesting ≤ limit)
    (same : tokens.map (Token.moved node.span.start) = moved ++ [⟨.endOfInput, span⟩]) :
    (templateReading limit tokens).reports = [] ∧
      (templateReading limit tokens).value = [node.alone] ∧
      node.alone.mapSpans (Span.moved node.span.start) = node := by
  have spelledBody : BodySpelledBy [node] moved :=
    ⟨moved, [], (List.append_nil moved).symm, spelled, rfl⟩
  have reading := templateReading_moved limit node.span.start tokens
  rw [same, templateReading_spelled spelledBody
    (Nat.max_le.mpr ⟨within, Nat.zero_le _⟩)] at reading
  have clean : (templateReading limit tokens).reports = [] :=
    List.map_eq_nil_iff.mp (congrArg Reading.reports reading).symm
  have nodes : [node] = mapBodySpans (Span.moved node.span.start)
      (templateReading limit tokens).value := congrArg Reading.value reading
  rw [mapBodySpans_eq_map] at nodes
  obtain ⟨read, others, value, isNode, none⟩ := List.map_eq_cons_iff.mp nodes.symm
  obtain rfl := List.map_eq_nil_iff.mp none
  have movedBack : node.alone = read := by
    have back := read.mapSpans_movedBack node.span.start
    rwa [isNode] at back
  rw [movedBack]
  exact ⟨clean, value, isNode⟩

/-- A slice that is scanned into the tokens of a node is read as that node. -/
theorem Node.SpelledBy.readAlone {settings : Settings} {node : Node} {tokens : List Token}
    {slice : List Char} (spelled : node.SpelledBy tokens)
    (within : node.nesting ≤ settings.maxDepth)
    (stop : lastStop tokens = node.span.start + byteLength slice)
    (complete : scanBody settings.trimLineBreaks node.span.start slice = Scan.complete tokens) :
    node.ReadAlone settings slice := by
  obtain ⟨same, scanClean, ends⟩ := scanBody_alone stop complete
  obtain ⟨readClean, nodes, place⟩ := spelled.readMoved within same
  have scanned : tokenize settings.trimLineBreaks (String.ofList slice) =
      ((scanBody settings.trimLineBreaks 0 slice).tokens, []) := by
    simp only [tokenize, String.toList_ofList, scanClean]
  refine ⟨templateReports_eq_nil.mp ?_, ?_, place⟩
  · rw [templateReports, scanned]
    exact readClean
  · have program : (parseTemplate settings (String.ofList slice)).program =
        ⟨(templateReading settings.maxDepth
          (scanBody settings.trimLineBreaks 0 slice).tokens).value,
          ⟨0, lastStop (scanBody settings.trimLineBreaks 0 slice).tokens⟩⟩ := by
      simp only [parseTemplate, scanned]
      rfl
    rw [program, nodes, ends]

/-- Spans of nodes are exact: if a template has no diagnostics, the span of every node of its
program, on whichever level, covers a slice of the template, which is read alone into that
node. -/
theorem parseTemplate_spans_exact {settings : Settings} {text : String}
    (clean : (parseTemplate settings text).diagnostics = []) :
    ∀ node ∈ (parseTemplate settings text).program.parts,
      (∃ slice, node.span.Covers text.toList slice) ∧
        ∀ slice, node.span.Covers text.toList slice → node.ReadAlone settings slice := by
  intro node member
  obtain ⟨tokens, span, scanned, spelled⟩ := parseTemplate_spelled clean
  obtain ⟨scanClean, -⟩ := List.append_eq_nil_iff.mp (templateReports_eq_nil.mpr clean)
  obtain ⟨before, own, after, rfl, ownSpelled, balanced, begins⟩ := spelled.placed node member
  rw [List.append_assoc, List.append_assoc] at scanned
  obtain ⟨token, others, ownFirst, start⟩ := ownSpelled.first
  -- The template is cut before the tokens of the node, and the rest of it after them.
  obtain ⟨front, rest, isText, resumed, restClean⟩ := scanBody_resumes scanClean scanned balanced
    (ownSpelled.begins.append (begins.append (.inr (.inr rfl)))) (by simp)
  obtain ⟨slice, last, rfl, stop, complete⟩ := scanBody_cut restClean resumed
    ownSpelled.ne_nil ownSpelled.balanced (begins.append (.inr (.inr rfl))) (by simp)
  rw [ownFirst, List.cons_append] at resumed
  have place : node.span.start = 0 + byteLength front := start.symm.trans (scanBody_first resumed)
  rw [← place] at stop complete
  have covers : node.span.Covers text.toList slice := by
    refine ⟨front, last, isText, by omega, ?_⟩
    rw [← ownSpelled.lastStop_eq, stop, byteLength_append, place, Nat.zero_add]
  have within : node.nesting ≤ settings.maxDepth :=
    Nat.le_trans (nesting_bodyParts_le _ node member) (parseTemplate_nesting_le settings text)
  refine ⟨⟨slice, covers⟩, fun other coversOther => ?_⟩
  rw [← covers.unique coversOther]
  exact ownSpelled.readAlone within stop complete

/-- Inside a conditional, behind a trimmed line break and a character of several bytes, what
the span of a loop covers is read as that loop. -/
theorem parseTemplate_spans_exact_loop :
    let settings : Settings := ⟨2, true⟩
    let text := "é#if ($b)\r\n  @c(1)#for (v in $xs) $v[0]$$#end#end"
    let slice := "#for (v in $xs) $v[0]$$#end".toList
    (parseTemplate settings text).diagnostics = [] ∧
      ∃ node ∈ (parseTemplate settings text).program.parts, node.span = ⟨19, 46⟩ ∧
        node.span.Covers text.toList slice ∧ node.ReadAlone settings slice := by
  intro settings text slice
  have clean : (parseTemplate settings text).diagnostics = [] :=
    templateReports_eq_nil.mp (by decide +kernel)
  have present : ⟨19, 46⟩ ∈ (parseTemplate settings text).program.parts.map Node.span := by
    decide +kernel
  obtain ⟨node, member, place⟩ := List.mem_map.mp present
  have covers : node.span.Covers text.toList slice := by
    rw [place]
    exact ⟨"é#if ($b)\r\n  @c(1)".toList, "#end".toList, by decide, by decide, by decide⟩
  obtain ⟨-, alone⟩ := parseTemplate_spans_exact clean node member
  exact ⟨clean, node, member, place, covers, alone slice covers⟩

end Stencil
