import Stencil.Proofs.ConsumedGroups
import Stencil.Proofs.OpenBlocks
import Stencil.Proofs.WrittenTokens

/-!
# Tokens of a body

The tokens of every template, be it malformed or not, are those of a body: texts, paths, calls and
directives, where parentheses stand only behind what may have them.  A group ends with the
parenthesis that closes it or else with the input, whatever was left out inside it, and a path
ends where its steps do.  So whoever steps over a header or a block comes to a body again.
-/

namespace Stencil

/-- The kinds of tokens in the text behind which parentheses may stand. -/
def TokenKind.isHead : TokenKind → Bool
  | .macroName _ | .directive _ => true
  | _ => false

/-- The kinds of tokens in the text with which a group in parentheses is scanned. -/
def TokenKind.takesGroup : TokenKind → Bool
  | .macroName _ => true
  | .directive word => (Keyword.ofWord? word).any Keyword.takesHeader
  | _ => false

/-- What stands between a token in the text and `rest`, which is that of a body: nothing, or a
group that ends there. -/
inductive HeaderBefore (rest : List Token) (kind : TokenKind) : List Token → Prop where
  | nothing : HeaderBefore rest kind []
  | group (span : Span) {inner : List Token} :
      kind.takesGroup → Items inner → closeGroup 0 (inner ++ rest) = rest →
        HeaderBefore rest kind (⟨.leftParen, span⟩ :: inner)

/-- Tokens of a body. -/
inductive BodyTokens : List Token → Prop where
  | ended (span : Span) (rest : List Token) : BodyTokens (⟨.endOfInput, span⟩ :: rest)
  | text (content : String) (span : Span) {rest : List Token} :
      BodyTokens rest → BodyTokens (⟨.text content, span⟩ :: rest)
  | path (span : Span) (name : String) (nameSpan : Span) {steps rest : List Token} :
      Items steps → (readPathTail nameSpan.stop (steps ++ rest)).rest = rest →
        BodyTokens rest → BodyTokens (⟨.dollar, span⟩ :: ⟨.name name, nameSpan⟩ :: (steps ++ rest))
  | head (token : Token) {header rest : List Token} :
      token.kind.isHead → HeaderBefore rest token.kind header →
        BodyTokens rest → BodyTokens (token :: (header ++ rest))

theorem TokenKind.startsPiece_of_isHead {kind : TokenKind} (isHead : kind.isHead) :
    kind.startsPiece := by
  cases kind <;> first | rfl | cases isHead

theorem TokenKind.isHead_of_keyword? {kind : TokenKind} {keyword : Keyword}
    (found : kind.keyword? = some keyword) : kind.isHead := by
  cases kind <;> first | rfl | cases found

theorem closeBlock_cons {token : Token} (proper : token.kind ≠ .endOfInput) (depth : Nat)
    (rest : List Token) :
    (token.kind.keyword? = some .endBlock ∧ closeBlock depth (token :: rest) = rest) ∨
      ∃ further, closeBlock depth (token :: rest) = closeBlock further rest := by
  rw [closeBlock.eq_def]
  dsimp only
  rw [if_neg proper]
  split
  · exact .inr ⟨_, rfl⟩
  · exact .inr ⟨_, rfl⟩
  · split
    · exact .inl ⟨‹_›, rfl⟩
    · exact .inr ⟨_, rfl⟩
  · exact .inr ⟨_, rfl⟩

theorem closeBlock_items {items : List Token} (areItems : Items items) (depth : Nat)
    (rest : List Token) : closeBlock depth (items ++ rest) = closeBlock depth rest := by
  induction items with
  | nil => rfl
  | cons token items ih =>
      obtain ⟨isItem, others⟩ := List.forall_mem_cons.mp areItems
      have proper : token.kind ≠ .endOfInput := by
        intro ended
        rw [ended] at isItem
        cases isItem
      rw [List.cons_append, closeBlock.eq_def]
      dsimp only
      rw [if_neg proper, TokenKind.keyword?_of_isItem isItem]
      exact ih others

namespace BodyTokens

variable {token : Token} {tokens : List Token}

theorem begins (body : BodyTokens tokens) : BeginsBody tokens := by
  cases body with
  | ended => exact .inr (.inr rfl)
  | text content => exact .inl ⟨content, rfl⟩
  | path => exact .inr (.inl rfl)
  | head token isHead => exact .inr (.inl (TokenKind.startsPiece_of_isHead isHead))

theorem skipHeader_eq (body : BodyTokens tokens) : skipHeader tokens = tokens :=
  skipHeader_of_ne (body.begins.nextKind_ne rfl rfl)

/-- Behind a call or a directive and its header there is a body. -/
theorem behindHeader (body : BodyTokens (token :: tokens)) (isHead : token.kind.isHead) :
    BodyTokens (skipHeader tokens) := by
  cases body with
  | head _ _ header rest =>
      cases header with
      | nothing => rwa [List.nil_append, rest.skipHeader_eq]
      | group span _ _ closes => rwa [List.cons_append, skipHeader_leftParen, closes]
  | _ => cases isHead

/-- Behind a directive that takes no header there is a body. -/
theorem behindHead (body : BodyTokens (token :: tokens)) (isHead : token.kind.isHead)
    (bare : token.kind.takesGroup = false) : BodyTokens tokens := by
  cases body with
  | head _ _ header rest =>
      cases header with
      | nothing => exact rest
      | group _ takes =>
          rw [bare] at takes
          cases takes
  | _ => cases isHead

theorem behindKeyword {keyword : Keyword} (body : BodyTokens (token :: tokens))
    (found : token.kind.keyword? = some keyword) (bare : keyword.takesHeader = false) :
    BodyTokens tokens := by
  refine body.behindHead (TokenKind.isHead_of_keyword? found) ?_
  rw [kind_of_keyword? found]
  cases keyword <;> first | rfl | cases bare

theorem behindKeywordHeader {keyword : Keyword} (body : BodyTokens (token :: tokens))
    (found : token.kind.keyword? = some keyword) : BodyTokens (skipHeader tokens) :=
  body.behindHeader (TokenKind.isHead_of_keyword? found)

/-- Behind a block that is stepped over there is a body. -/
theorem closeBlock (body : BodyTokens tokens) (depth : Nat) :
    BodyTokens (closeBlock depth tokens) := by
  induction body generalizing depth with
  | ended span rest => exact .ended span rest
  | text content span rest ih =>
      exact ih depth
  | path span name nameSpan items _ _ ih =>
      rw [← List.cons_append, ← List.cons_append,
        closeBlock_items ((items.cons rfl).cons rfl)]
      exact ih depth
  | @head token _ rest isHead header body ih =>
      have proper : token.kind ≠ .endOfInput := by
        intro ended
        rw [ended] at isHead
        cases isHead
      cases header with
      | nothing =>
          rcases closeBlock_cons proper depth rest with ⟨-, closed⟩ | ⟨further, passed⟩
          · rwa [List.nil_append, closed]
          · rw [List.nil_append, passed]
            exact ih further
      | group span takes items =>
          rcases closeBlock_cons proper depth (_ :: (_ ++ rest)) with ⟨ends, -⟩ | ⟨further, passed⟩
          · rw [kind_of_keyword? ends] at takes
            cases takes
          · rw [List.cons_append, passed, ← List.cons_append, closeBlock_items (items.cons rfl)]
            exact ih further

end BodyTokens

/-- An index without a sign is not negative, also where it is cut down to the greatest one. -/
theorem nonneg_index {digits : List Char} (areDigits : ∀ digit ∈ digits, digit.isDigit) :
    0 ≤ ((readWord? 64 digits).getD greatestIndex).toInt := by
  cases read : readWord? 64 digits with
  | none => decide
  | some number =>
      have noPlus : digits.head? ≠ some '+' := fun plus =>
        absurd (areDigits '+' (List.mem_of_head? plus)) (by decide)
      obtain ⟨magnitude, -, -, ⟨-, same⟩ | ⟨minus, -⟩⟩ := readWord?_denotes read noPlus
      · exact same ▸ Int.natCast_nonneg _
      · exact absurd (areDigits '-' (minus ▸ List.mem_cons_self)) (by decide)

/-- The steps of a path are read as they were scanned. -/
theorem rest_readPathTail_scanPathPieces {tail : List Token} (ends : PathEnds tail) (offset : Nat)
    (characters : List Char) :
    (readPathTail offset ((scanPathPieces offset characters).tokens ++ tail)).rest = tail := by
  fun_induction scanPathPieces offset characters with
  | case1 offset =>
      exact congrArg PathTail.rest (readPathTail_of_pathEnds offset ends)
  | case2 offset characters piece rest read scanned ih =>
      cases piece with
      | field name =>
          have continues : offset + (PathPiece.field name).byteSize =
              offset + 1 + byteLength name := by
            simp only [PathPiece.byteSize]
            omega
          rw [continues] at ih
          simpa [scanned, PathPiece.scan, Scan.prepend, readPathTail, punctuationToken,
            PathTail.prepend, continues] using ih
      | index digits =>
          have continues : offset + (PathPiece.index digits).byteSize =
              offset + 1 + byteLength digits + 1 := by
            simp only [PathPiece.byteSize]
            omega
          rw [continues] at ih
          simpa [scanned, PathPiece.scan, Scan.prepend, readPathTail, punctuationToken,
            PathTail.prepend, continues, nonneg_index (readPathPiece?_isDigit read)] using ih

theorem closeGroup_append_of_isInner {first : List Token}
    (inner : ∀ token ∈ first, token.kind.isInner) (depth : Nat) (tail : List Token) :
    closeGroup depth (first ++ tail) = closeGroup depth tail := by
  induction first with
  | nil => rfl
  | cons token first ih =>
      obtain ⟨here, further⟩ := List.forall_mem_cons.mp inner
      rw [List.cons_append, closeGroup_of_isInner here, ih further]

theorem closeGroup_of_atEnd {tokens : List Token} (ended : atEnd tokens) (depth : Nat) :
    closeGroup depth tokens = tokens := by
  rcases tokens with _ | ⟨⟨kind, span⟩, rest⟩
  · rfl
  · obtain rfl : kind = .endOfInput := by simpa [atEnd, nextKind] using ended
    rfl

/-- A header ends where it is scanned to end: at its parenthesis or with the whole text. -/
theorem closeGroup_scanHeader {tail : List Token} (opener depth offset : Nat)
    (characters : List Char) :
    ((scanHeader opener depth offset characters).rest = [] → atEnd tail) →
      closeGroup depth ((scanHeader opener depth offset characters).tokens ++ tail) = tail := by
  fun_induction scanHeader opener depth offset characters with
  | case1 depth => exact fun ended => closeGroup_of_atEnd (ended rfl) depth
  | case2 _ _ _ _ _ _ _ _ ih => exact ih
  | case3 => exact fun _ => rfl
  | case4 _ _ _ _ _ _ _ _ ih => exact ih
  | case5 depth => exact fun ended => closeGroup_of_atEnd (ended rfl) depth
  | case6 _ _ _ _ _ _ _ _ _ _ _ ih => exact ih
  | case7 depth offset characters start character rest dropped lead announced scan ih =>
      intro ended
      have plain : Plain scan.tokens := scanItem_plain_of_headerLead announced start
      simp only [Scan.prepend, List.append_assoc]
      rw [closeGroup_append_of_isInner plain.inner, ih ended]

/-- A scan of a header that may be absent.  Where it has come to the end of the text, so do the
tokens behind it. -/
def Scan.GivesHeader (kind : TokenKind) (scan : Scan) : Prop :=
  ∀ tail, (scan.rest = [] → atEnd tail) → HeaderBefore tail kind scan.tokens

theorem scanOptionalHeader_givesHeader {kind : TokenKind} (takes : kind.takesGroup) (offset : Nat)
    (characters : List Char) : (scanOptionalHeader offset characters).GivesHeader kind := by
  unfold scanOptionalHeader
  split
  · exact fun _ ended =>
      .group _ takes (scanHeader_items _ _ _ _) (closeGroup_scanHeader _ _ _ _ ended)
  · exact fun _ _ => .nothing

theorem scanKeywordHeader_givesHeader {word : String} {keyword : Keyword}
    (known : Keyword.ofWord? word = some keyword) (offset : Nat) (characters : List Char) :
    (scanKeywordHeader keyword offset characters).GivesHeader (.directive word) := by
  unfold scanKeywordHeader
  split
  · rename_i takes
    have takesGroup : (TokenKind.directive word).takesGroup := by
      rw [TokenKind.takesGroup, known]
      exact takes
    unfold scanPaddedHeader
    dsimp only
    split
    · exact scanOptionalHeader_givesHeader takesGroup _ _
    · exact fun _ _ => .nothing
  · exact fun _ _ => .nothing

theorem BodyTokens.pathEnds {tokens : List Token} (body : BodyTokens tokens) : PathEnds tokens :=
  ⟨body.begins.nextKind_ne rfl rfl, body.begins.nextKind_ne rfl rfl⟩

/-- A scan puts tokens in front of those of a body, which end where the text does. -/
def Scan.KeepsBody (scan : Scan) : Prop :=
  ∀ tail, BodyTokens tail → (scan.rest = [] → atEnd tail) → BodyTokens (scan.tokens ++ tail)

theorem scanPath_keepsBody (offset : Nat) (characters : List Char) :
    (scanPath offset characters).KeepsBody :=
  fun _ body _ => .path _ _ _ (scanPathPieces_items _ _)
    (rest_readPathTail_scanPathPieces body.pathEnds _ _) body

theorem scanMacroCall_keepsBody (offset : Nat) (characters : List Char) :
    (scanMacroCall offset characters).KeepsBody :=
  fun tail body ended => .head ⟨.macroName _, _⟩ rfl
    (scanOptionalHeader_givesHeader rfl _ _ tail ended) body

theorem scanDirective_keepsBody (trim : Bool) (offset : Nat) (characters : List Char) :
    (scanDirective trim offset characters).KeepsBody := by
  cases known : Keyword.ofWord? (String.ofList (takeName characters)) with
  | none =>
      rw [scanDirective_of_unknown trim offset known]
      exact fun _ body _ => .head (directiveToken offset characters) rfl .nothing body
  | some keyword =>
      rw [scanDirective_of_keyword trim offset known]
      intro tail body ended
      refine .head (directiveToken offset characters) rfl
        (scanKeywordHeader_givesHeader known _ _ tail fun isEnd => ended ?_) body
      -- Where the header has reached the end of the text, no line break is left to be trimmed.
      refine List.suffix_nil.mp ?_
      rw [← isEnd]
      exact trimLineBreak_suffix trim _ _

theorem scanSigil_keepsBody (trim : Bool) (sigil : Char) (offset : Nat)
    (characters : List Char) : (scanSigil trim sigil offset characters).KeepsBody := by
  unfold scanSigil
  split
  · exact scanPath_keepsBody offset characters
  split
  · exact scanMacroCall_keepsBody offset characters
  · exact scanDirective_keepsBody trim offset characters

theorem BodyTokens.textRun {tail : List Token} (body : BodyTokens tail) (run : TextRun)
    (offset : Nat) : BodyTokens (run.tokens offset ++ tail) := by
  unfold TextRun.tokens
  split
  · exact body
  · exact body.text _ _

/-- The tokens of every template are those of a body. -/
theorem scanBody_bodyTokens (trim : Bool) (offset : Nat) (characters : List Char) :
    BodyTokens (scanBody trim offset characters).tokens := by
  fun_induction scanBody trim offset characters with
  | case1 offset characters run start runRest =>
      exact (BodyTokens.ended _ _).textRun run offset
  | case2 offset characters run start sigil rest runRest scan ih =>
      simp only [Scan.prepend, List.append_assoc]
      refine (scanSigil_keepsBody trim sigil start rest _ ih fun isEnd => ?_).textRun run offset
      rw [show scan.rest = [] from isEnd, scanBody_eq]
      rfl

end Stencil
