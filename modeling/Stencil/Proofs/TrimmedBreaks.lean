import Stencil.Proofs.HeaderLocal
import Stencil.Proofs.Pieces
import Stencil.Proofs.ScanBytes

/-!
# Trimmed line breaks

With trimming, a line break directly behind a directive is no text.  Everything else is
scanned as it is without trimming: the two scans are at the same place wherever literal text
ends, so that their tokens differ only in the texts that begin where a directive ends.
-/

namespace Stencil

/-- Where the group closes in which some tokens stand, when `depth` further ones are
open. -/
def groupStop? (depth : Nat) : List Token → Option Nat
  | [] => none
  | token :: tokens =>
      match token.kind with
      | .leftParen => groupStop? (depth + 1) tokens
      | .rightParen =>
          match depth with
          | 0 => some token.span.stop
          | depth + 1 => groupStop? depth tokens
      | _ => groupStop? depth tokens

/-- Where a directive ends that some tokens follow: behind its header, if it has one.  A
header that is not closed has no end. -/
def Token.directiveStop? (directive : Token) (tokens : List Token) : Option Nat :=
  if nextKind tokens = .leftParen then groupStop? 0 tokens.tail
  else some directive.span.stop

/-- Where the known directives among some tokens end. -/
def directiveStops : List Token → List Nat
  | [] => []
  | token :: tokens =>
      match token.kind.keyword? with
      | none => directiveStops tokens
      | some _ => (token.directiveStop? tokens).toList ++ directiveStops tokens

/-- The length of the line break at the front of a text. -/
def lineBreakLength : List Char → Nat
  | '\r' :: '\n' :: _ => 2
  | '\n' :: _ => 1
  | _ => 0

/-- A text without the line break at its front, or nothing if that is all of it.  Other
tokens stay as they are. -/
def Token.withoutLineBreak (token : Token) : List Token :=
  match token.kind with
  | .text content =>
      let length := lineBreakLength content.toList
      match content.toList.drop length with
      | [] => []
      | left => [⟨.text (String.ofList left), ⟨token.span.start + length, token.span.stop⟩⟩]
  | _ => [token]

/-- Tokens without the line breaks at some places. -/
def trimmedAt (stops : List Nat) (tokens : List Token) : List Token :=
  tokens.flatMap fun token =>
    if token.span.start ∈ stops then token.withoutLineBreak else [token]

/-- Tokens without the line breaks directly behind directives. -/
def withoutDirectiveBreaks (tokens : List Token) : List Token :=
  trimmedAt (directiveStops tokens) tokens

theorem trimmedAt_append (stops : List Nat) (first second : List Token) :
    trimmedAt stops (first ++ second) = trimmedAt stops first ++ trimmedAt stops second :=
  List.flatMap_append

theorem Token.withoutLineBreak_of_noText {token : Token}
    (noText : ∀ content, token.kind ≠ .text content) : token.withoutLineBreak = [token] := by
  unfold withoutLineBreak
  split
  · rename_i content isText
    exact absurd isText (noText content)
  · rfl

theorem trimmedAt_of_noText {stops : List Nat} {tokens : List Token}
    (noText : ∀ token ∈ tokens, ∀ content, token.kind ≠ .text content) :
    trimmedAt stops tokens = tokens := by
  induction tokens with
  | nil => rfl
  | cons token tokens ih =>
      have ⟨here, later⟩ := List.forall_mem_cons.mp noText
      rw [trimmedAt, List.flatMap_cons, ← trimmedAt, ih later,
        token.withoutLineBreak_of_noText here, ite_self]
      rfl

theorem Markup.trimmedAt {tokens : List Token} (markup : Markup tokens) (stops : List Nat) :
    trimmedAt stops tokens = tokens := by
  refine trimmedAt_of_noText fun token member content isText => ?_
  have isMarkup := markup token member
  rw [isText] at isMarkup
  cases isMarkup

namespace TextRun

/-- A content that begins with a character that is no sigil was written with it. -/
theorem exists_of_content {characters more : List Char} {character : Char}
    (plain : isSigil character = false)
    (content : (ofFront characters).content = character :: more) :
    ∃ rest, characters = character :: rest ∧ (ofFront rest).content = more := by
  cases characters with
  | nil => cases content
  | cons first rest =>
      cases isFirst : isSigil first with
      | false =>
          rw [ofFront_cons isFirst] at content
          obtain ⟨rfl, rfl⟩ := List.cons.inj content
          exact ⟨rest, rfl, rfl⟩
      | true =>
          have same : first = character := by
            cases rest with
            | nil => exact (List.cons.inj content).1
            | cons next rest =>
                simp only [ofFront] at content
                repeat' split at content
                · exact (List.cons.inj content).1
                · cases content
                · exact (List.cons.inj content).1
          rw [same, plain] at isFirst
          cases isFirst

/-- The line break at the front of a text is the one at the front of its first run. -/
theorem lineBreakLength_content (characters : List Char) :
    lineBreakLength (ofFront characters).content = lineBreakLength characters := by
  fun_cases lineBreakLength characters with
  | case1 rest =>
      rw [ofFront_cons (by decide), ofFront_cons (by decide)]
      rfl
  | case2 rest =>
      rw [ofFront_cons (by decide)]
      rfl
  | case3 characters noCRLF noLF =>
      generalize begins : (ofFront characters).content = content
      fun_cases lineBreakLength content with
      | case1 more =>
          obtain ⟨rest, rfl, further⟩ := exists_of_content (by decide) begins
          obtain ⟨rest, rfl, -⟩ := exists_of_content (by decide) further
          exact absurd rfl (noCRLF rest)
      | case2 more =>
          obtain ⟨rest, rfl, -⟩ := exists_of_content (by decide) begins
          exact absurd rfl (noLF rest)
      | case3 => rfl

/-- Behind a line break a run goes on as it would without it. -/
theorem ofFront_drop_lineBreak (characters : List Char) :
    let run := ofFront characters
    let left := ofFront (characters.drop (lineBreakLength characters))
    left.content = run.content.drop (lineBreakLength characters) ∧
      byteLength run.written = lineBreakLength characters + byteLength left.written ∧
      left.rest = run.rest := by
  fun_cases lineBreakLength characters with
  | case1 rest =>
      rw [ofFront_cons (by decide), ofFront_cons (by decide)]
      refine ⟨rfl, ?_, rfl⟩
      have width : '\r'.utf8Size + '\n'.utf8Size = 2 := by decide
      simp [prepend, ← Nat.add_assoc, width]
  | case2 rest =>
      rw [ofFront_cons (by decide)]
      refine ⟨rfl, ?_, rfl⟩
      have width : '\n'.utf8Size = 1 := by decide
      simp [prepend, width]
  | case3 => simp

/-- What is left of the text of a run without its line break. -/
theorem tokens_withoutLineBreak {run left : TextRun}
    (content : left.content = run.content.drop (lineBreakLength run.content))
    (written : byteLength run.written =
      lineBreakLength run.content + byteLength left.written) (offset : Nat) :
    (run.tokens offset).flatMap Token.withoutLineBreak =
      left.tokens (offset + lineBreakLength run.content) := by
  by_cases empty : run.content = []
  · rw [empty] at content
    simp [tokens, empty, content]
  · rw [tokens, if_neg empty, tokens, content, List.flatMap_singleton,
      Token.withoutLineBreak]
    dsimp only
    rw [String.toList_ofList]
    cases run.content.drop (lineBreakLength run.content) with
    | nil => rfl
    | cons first rest =>
        rw [if_neg (List.cons_ne_nil first rest)]
        simp [written, Nat.add_assoc]

end TextRun

theorem skipLineBreak_eq (offset : Nat) (characters : List Char) :
    skipLineBreak offset characters =
      (offset + lineBreakLength characters, characters.drop (lineBreakLength characters)) := by
  fun_cases lineBreakLength characters with
  | case1 rest => rfl
  | case2 rest => rfl
  | case3 characters noCRLF noLF =>
      unfold skipLineBreak
      split
      · exact absurd rfl (noCRLF _)
      · exact absurd rfl (noLF _)
      · rfl

theorem groupStop?_of_isInner {token : Token} (inner : token.kind.isInner) (depth : Nat)
    (tokens : List Token) : groupStop? depth (token :: tokens) = groupStop? depth tokens := by
  rcases token with ⟨kind, span⟩
  cases kind <;> first | rfl | cases inner

theorem groupStop?_append_of_inner {inside : List Token}
    (inner : ∀ token ∈ inside, token.kind.isInner) (depth : Nat) (tokens : List Token) :
    groupStop? depth (inside ++ tokens) = groupStop? depth tokens := by
  induction inside with
  | nil => rfl
  | cons token inside ih =>
      have ⟨here, later⟩ := List.forall_mem_cons.mp inner
      rw [List.cons_append, groupStop?_of_isInner here, ih later]

/-- A header stops where its scan ends, or it is open up to the end of the text. -/
theorem groupStop?_scanHeader (opener depth offset : Nat) (characters : List Char) :
    let header := scanHeader opener depth offset characters
    (∀ tail, groupStop? depth (header.tokens ++ tail) = some header.offset) ∨
      (header.rest = [] ∧
        ∃ inner, ∀ tail, groupStop? depth (header.tokens ++ tail) = groupStop? inner tail) := by
  fun_induction scanHeader opener depth offset characters with
  | case1 depth => exact .inr ⟨rfl, depth, fun _ => rfl⟩
  | case2 _ _ _ _ _ _ _ _ ih => exact ih
  | case3 => exact .inl fun _ => rfl
  | case4 _ _ _ _ _ _ _ _ ih => exact ih
  | case5 depth => exact .inr ⟨rfl, depth, fun _ => rfl⟩
  | case6 _ _ _ _ _ _ _ _ _ _ _ ih => exact ih
  | case7 depth offset characters start character rest dropped lead announced scan ih =>
      have inner : ∀ token ∈ scan.tokens, token.kind.isInner :=
        (scanItem_plain_of_headerLead announced start).inner
      simp only [Scan.prepend, List.append_assoc, groupStop?_append_of_inner inner]
      exact ih

/-- A directive stops where the scan of its header ends, or its header is open up to the end
of the text. -/
theorem directiveStop?_scanKeywordHeader (keyword : Keyword) {directive : Token}
    {offset : Nat} (stop : directive.span.stop = offset) (characters : List Char) :
    let header := scanKeywordHeader keyword offset characters
    (∀ tail, nextKind tail ≠ .leftParen →
      directive.directiveStop? (header.tokens ++ tail) = some header.offset) ∨
      (header.rest = [] ∧ ∃ inner, ∀ tail,
        directive.directiveStop? (header.tokens ++ tail) = groupStop? inner tail) := by
  have idle : ∀ tail, nextKind tail ≠ .leftParen →
      directive.directiveStop? ((Scan.idle offset characters).tokens ++ tail) =
        some (Scan.idle offset characters).offset := by
    intro tail noHeader
    exact (if_neg noHeader).trans (congrArg some stop)
  unfold scanKeywordHeader
  by_cases takes : keyword.takesHeader
  · rw [if_pos takes]
    unfold scanPaddedHeader
    dsimp only
    by_cases opens : startsWith (· == '(') (characters.dropWhile isPadding)
    · obtain ⟨rest, dropped⟩ := exists_of_startsWith opens
      rw [if_pos opens, dropped]
      exact (groupStop?_scanHeader _ 0 _ rest).imp (fun closed tail _ => closed tail) id
    · rw [if_neg opens]
      exact .inl idle
  · rw [if_neg takes]
    exact .inl idle

theorem directiveStops_cons {token : Token} (noKeyword : token.kind.keyword? = none)
    (tokens : List Token) : directiveStops (token :: tokens) = directiveStops tokens := by
  rw [directiveStops, noKeyword]

theorem Items.directiveStops_append {inside : List Token} (items : Items inside)
    (tokens : List Token) : directiveStops (inside ++ tokens) = directiveStops tokens := by
  induction inside with
  | nil => rfl
  | cons token inside ih =>
      have ⟨here, later⟩ := List.forall_mem_cons.mp items
      rw [List.cons_append, directiveStops_cons (TokenKind.keyword?_of_isItem here), ih later]

theorem TextRun.directiveStops_append (run : TextRun) (offset : Nat) (tokens : List Token) :
    directiveStops (run.tokens offset ++ tokens) = directiveStops tokens := by
  unfold TextRun.tokens
  split
  · rfl
  · exact directiveStops_cons rfl tokens

/-- A known directive with its header stops only where it ends; one that does not stop goes
up to the end of the text. -/
theorem directiveStops_scanKeywordHeader {keyword : Keyword} {directive : Token} {offset : Nat}
    (known : directive.kind.keyword? = some keyword) (stop : directive.span.stop = offset)
    (characters : List Char) :
    let header := scanKeywordHeader keyword offset characters
    let tail := (scanBody false header.offset header.rest).tokens
    directiveStops (directive :: header.tokens ++ tail) = header.offset :: directiveStops tail ∨
      (header.rest = [] ∧
        directiveStops (directive :: header.tokens ++ tail) = directiveStops tail) := by
  intro header tail
  have items : Items header.tokens := scanKeywordHeader_items keyword offset characters
  have stops : directiveStops (directive :: header.tokens ++ tail) =
      (directive.directiveStop? (header.tokens ++ tail)).toList ++ directiveStops tail := by
    rw [List.cons_append, directiveStops, known]
    exact congrArg _ (items.directiveStops_append tail)
  rw [stops]
  rcases directiveStop?_scanKeywordHeader keyword stop characters with
    closed | ⟨ended, inner, opened⟩
  · have begins := scanBody_begins false header.offset header.rest
    rw [closed tail (begins.nextKind_ne rfl rfl)]
    exact .inl rfl
  · have atEnd : groupStop? inner tail = none := by
      simp only [tail, header, ended]
      rw [scanBody_eq]
      rfl
    rw [opened, atEnd]
    exact .inr ⟨ended, rfl⟩

/-- Two scans of the same piece, the first one without trimming, differ at most in the place
where they end: with trimming it is behind the line break at the stop of the piece, if the
piece has one. -/
def Scan.EndsTrimmed (kept trimmed : Scan) : Prop :=
  let tail := (scanBody false kept.offset kept.rest).tokens
  ∃ stops : List Nat, (∀ stop ∈ stops, stop = kept.offset) ∧
    directiveStops (kept.tokens ++ tail) = stops ++ directiveStops tail ∧
    trimmed =
      let resumed := trimLineBreak (decide (kept.offset ∈ stops)) kept.offset kept.rest
      { kept with offset := resumed.1, rest := resumed.2 }

theorem Scan.EndsTrimmed.of_items {scan : Scan} (items : Items scan.tokens) :
    scan.EndsTrimmed scan :=
  ⟨[], by simp, items.directiveStops_append _, rfl⟩

theorem scanDirective_endsTrimmed (offset : Nat) (characters : List Char) :
    (scanDirective false offset characters).EndsTrimmed
      (scanDirective true offset characters) := by
  cases known : Keyword.ofWord? (String.ofList (takeName characters)) with
  | none =>
      rw [scanDirective_of_unknown true offset known,
        scanDirective_of_unknown false offset known]
      have noKeyword : (directiveToken offset characters).kind.keyword? = none := known
      exact ⟨[], by simp, directiveStops_cons noKeyword _, rfl⟩
  | some keyword =>
      rw [scanDirective_of_keyword true offset known,
        scanDirective_of_keyword false offset known]
      have hasKeyword : (directiveToken offset characters).kind.keyword? = some keyword := known
      have wordStop : (directiveToken offset characters).span.stop =
          offset + 1 + byteLength (takeName characters) := rfl
      rcases directiveStops_scanKeywordHeader hasKeyword wordStop (dropName characters) with
        stops | ⟨ended, stops⟩
      · refine ⟨_, List.forall_mem_singleton.mpr rfl, stops, ?_⟩
        simp [trimLineBreak]
      · refine ⟨[], by simp, stops, ?_⟩
        simp [trimLineBreak, skipLineBreak, ended]

theorem scanSigil_endsTrimmed (sigil : Char) (offset : Nat) (characters : List Char) :
    (scanSigil false sigil offset characters).EndsTrimmed
      (scanSigil true sigil offset characters) := by
  unfold scanSigil
  split
  · exact .of_items (scanPath_items offset characters)
  · split
    · exact .of_items ((scanOptionalHeader_items _ _).cons rfl)
    · exact scanDirective_endsTrimmed offset characters

theorem lt_scanSigil_offset (trim : Bool) (sigil : Char) (offset : Nat)
    (characters : List Char) : offset < (scanSigil trim sigil offset characters).offset := by
  have bytes := scanSigil_end trim sigil offset characters
  obtain ⟨taken, split⟩ := scanSigil_suffix trim sigil offset characters
  have length := congrArg byteLength split
  rw [byteLength_append] at length
  rw [Scan.end] at bytes
  omega

/-- Directives stop behind the place from which a body is scanned. -/
theorem lt_of_mem_directiveStops (offset : Nat) (characters : List Char) :
    ∀ stop ∈ directiveStops (scanBody false offset characters).tokens, offset < stop := by
  fun_induction scanBody false offset characters with
  | case1 offset characters run start runRest =>
      intro stop member
      rw [run.directiveStops_append] at member
      cases member
  | case2 offset characters run start sigil rest runRest scan ih =>
      intro stop member
      have behind : start < scan.offset := lt_scanSigil_offset false sigil start rest
      obtain ⟨stops, atEnd, split, -⟩ := scanSigil_endsTrimmed sigil start rest
      simp only [Scan.prepend, List.append_assoc, run.directiveStops_append] at member
      rw [split, List.mem_append] at member
      have within : offset ≤ start := Nat.le_add_right _ _
      rcases member with here | later
      · have isEnd : stop = scan.offset := atEnd stop here
        omega
      · have := ih stop later
        omega

theorem trimmedAt_tokens (stops : List Nat) (run : TextRun) (offset : Nat) :
    trimmedAt stops (run.tokens offset) =
      if offset ∈ stops then (run.tokens offset).flatMap Token.withoutLineBreak
      else run.tokens offset := by
  unfold TextRun.tokens
  by_cases empty : run.content = []
  · simp [empty, trimmedAt]
  · simp only [if_neg empty, trimmedAt, List.flatMap_singleton]

/-- A scan that goes on behind a line break is where the scan with the line break is as soon
as the text ends. -/
theorem scanBody_resumed {earlier stops : List Nat} {offset : Nat}
    (stopsHere : offset ∈ stops ↔ offset ∈ earlier) (characters : List Char) :
    let resumed := trimLineBreak (decide (offset ∈ earlier)) offset characters
    let run := TextRun.ofFront characters
    scanBody true resumed.1 resumed.2 =
      (scanAfterText true (offset + byteLength run.written) run.rest).prepend
        (trimmedAt stops (run.tokens offset)) [] := by
  intro resumed run
  rw [trimmedAt_tokens]
  by_cases here : offset ∈ earlier
  · obtain ⟨content, written, rest⟩ := TextRun.ofFront_drop_lineBreak characters
    rw [← TextRun.lineBreakLength_content] at content written
    simp only [resumed, trimLineBreak, here, decide_true, if_true]
    rw [if_pos (stopsHere.mpr here), skipLineBreak_eq, scanBody_eq, rest,
      ← TextRun.lineBreakLength_content, TextRun.tokens_withoutLineBreak content written,
      written, Nat.add_assoc]
  · simp only [resumed, trimLineBreak, here, decide_false]
    rw [if_neg (mt stopsHere.mp here)]
    exact scanBody_eq true offset characters

/-- A scan without the line breaks at some places. -/
def Scan.trimmedAt (stops : List Nat) (scan : Scan) : Scan :=
  { scan with tokens := Stencil.trimmedAt stops scan.tokens }

theorem Scan.trimmedAt_prepend (stops : List Nat) (tokens : List Token)
    (reports : List Report) (scan : Scan) :
    (scan.prepend tokens reports).trimmedAt stops =
      (scan.trimmedAt stops).prepend (Stencil.trimmedAt stops tokens) reports := by
  simp only [Scan.trimmedAt, Scan.prepend, trimmedAt_append]

/-- Where trimming has gone on behind the directives that stop here, it scans what is scanned
without it, but for the line breaks behind those directives and behind later ones. -/
def TrimsFrom (offset : Nat) (characters : List Char) : Prop :=
  ∀ earlier : List Nat, (∀ stop ∈ earlier, stop ≤ offset) →
    let resumed := trimLineBreak (decide (offset ∈ earlier)) offset characters
    let kept := scanBody false offset characters
    scanBody true resumed.1 resumed.2 = kept.trimmedAt (earlier ++ directiveStops kept.tokens)

/-- What begins with a sigil is scanned with trimming as without, if that is so behind it. -/
theorem scanAfterText_trimmed {start : Nat} {sigil : Char} {rest : List Char}
    (further : TrimsFrom (scanSigil false sigil start rest).offset
      (scanSigil false sigil start rest).rest)
    {earlier : List Nat} (before : ∀ stop ∈ earlier, stop ≤ start) :
    let kept := scanAfterText false start (sigil :: rest)
    scanAfterText true start (sigil :: rest) =
      kept.trimmedAt (earlier ++ directiveStops kept.tokens) := by
  intro kept
  have markup := scanSigil_markup false sigil start rest
  have behind : start < (scanSigil false sigil start rest).offset :=
    lt_scanSigil_offset false sigil start rest
  obtain ⟨stops, atEnd, split, trimmed⟩ := scanSigil_endsTrimmed sigil start rest
  have keptIs : kept = scanAfterText false start (sigil :: rest) := rfl
  rw [scanAfterText] at keptIs
  generalize scanSigil false sigil start rest = piece at *
  have atStops : ∀ stop ∈ earlier ++ stops, stop ≤ piece.offset := by
    intro stop member
    rcases List.mem_append.mp member with earlierStop | here
    · exact Nat.le_trans (before stop earlierStop) (Nat.le_of_lt behind)
    · exact Nat.le_of_eq (atEnd stop here)
  have stopsHere : piece.offset ∈ earlier ++ stops ↔ piece.offset ∈ stops := by
    have notEarlier : piece.offset ∉ earlier := fun member =>
      Nat.not_le_of_lt behind (before piece.offset member)
    simp only [List.mem_append, notEarlier, false_or]
  have later := further (earlier ++ stops) atStops
  simp only [stopsHere, List.append_assoc, ← split] at later
  rw [scanAfterText, trimmed]
  dsimp only
  rw [later, keptIs, Scan.trimmedAt_prepend, markup.trimmedAt]
  rfl

theorem scanBody_trims (offset : Nat) (characters : List Char) :
    TrimsFrom offset characters := by
  induction shorter : characters.length using Nat.strongRecOn
    generalizing offset characters with
  | ind length ih =>
  subst shorter
  intro earlier before resumed kept
  have stopsHere : offset ∈ earlier ++ directiveStops kept.tokens ↔ offset ∈ earlier := by
    have noneHere : offset ∉ directiveStops kept.tokens := fun member =>
      Nat.lt_irrefl offset (lt_of_mem_directiveStops offset characters offset member)
    simp only [List.mem_append, noneHere, or_false]
  have keptIs : kept = _ := scanBody_eq false offset characters
  have runShorter := TextRun.length_rest_ofFront_le characters
  have within : offset ≤ offset + byteLength (TextRun.ofFront characters).written :=
    Nat.le_add_right _ _
  simp only [resumed]
  rw [scanBody_resumed stopsHere]
  generalize offset + byteLength (TextRun.ofFront characters).written = start at *
  have afterText : scanAfterText true start (TextRun.ofFront characters).rest =
      (scanAfterText false start (TextRun.ofFront characters).rest).trimmedAt
        (earlier ++ directiveStops kept.tokens) := by
    rw [keptIs, Scan.prepend]
    dsimp only
    rw [TextRun.directiveStops_append]
    rcases left : (TextRun.ofFront characters).rest with _ | ⟨sigil, rest⟩
    · rw [scanAfterText, scanAfterText, Scan.trimmedAt, trimmedAt_of_noText (by simp)]
    · have pieceShorter := length_scanSigil_le false sigil start rest
      rw [left, List.length_cons] at runShorter
      refine scanAfterText_trimmed (ih _ ?_ _ _ rfl) fun stop member => ?_
      · omega
      · exact Nat.le_trans (before stop member) within
  rw [afterText, ← Scan.trimmedAt_prepend, ← keptIs]

/-- Trimming takes away the line breaks directly behind directives, and nothing else: the
tokens are those without trimming, where each text that begins where a directive ends has
lost the line break at its front, and the reports are the same. -/
theorem tokenize_trim (text : String) :
    tokenize true text =
      (withoutDirectiveBreaks (tokenize false text).1, (tokenize false text).2) := by
  have trims : scanBody true 0 text.toList = _ := scanBody_trims 0 text.toList [] (by simp)
  rw [tokenize, tokenize, trims]
  rfl

example : (tokenize true "#else\n#end\r\n\nx").1 =
    [⟨.directive "else", ⟨0, 5⟩⟩, ⟨.directive "end", ⟨6, 10⟩⟩, ⟨.text "\nx", ⟨12, 14⟩⟩,
      ⟨.endOfInput, ⟨14, 14⟩⟩] := by
  decide +kernel

end Stencil
