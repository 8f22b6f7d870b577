import Stencil.Proofs.HeaderLocal
import Stencil.Proofs.ReadingSteps

/-!
# Tokens that readers report

Whatever is wrong with the tokens of a template, readers report it at tokens of its markup: no
literal text and no end of the input is ever reported.  They look for something else than text
only inside headers, and no text stands inside a header, even if the header is never closed.
-/

namespace Stencil

variable {α β : Type}

/-- Whether no literal text stands inside the innermost groups, of which `depth` are open.  They
may go on to the end of the input. -/
def groupsAreMarkup : Nat → List Token → Bool
  | 0, _ => true
  | _ + 1, [] => true
  | depth + 1, token :: rest =>
      match token.kind with
      | .endOfInput => true
      | .text _ => false
      | .leftParen => groupsAreMarkup (depth + 2) rest
      | .rightParen => groupsAreMarkup depth rest
      | _ => groupsAreMarkup (depth + 1) rest

theorem groupsAreMarkup_zero (tokens : List Token) : groupsAreMarkup 0 tokens := by
  cases tokens <;> rfl

theorem groupsAreMarkup_of_isInner {token : Token} (inner : token.kind.isInner) (depth : Nat)
    (rest : List Token) : groupsAreMarkup depth (token :: rest) = groupsAreMarkup depth rest := by
  rcases depth with _ | depth
  · exact (groupsAreMarkup_zero _).trans (groupsAreMarkup_zero rest).symm
  · rcases token with ⟨kind, span⟩
    cases kind <;> first | rfl | cases inner

theorem groupsAreMarkup_append {first : List Token} (inner : ∀ token ∈ first, token.kind.isInner)
    (depth : Nat) (tail : List Token) :
    groupsAreMarkup depth (first ++ tail) = groupsAreMarkup depth tail := by
  induction first with
  | nil => rfl
  | cons token first ih =>
      obtain ⟨here, further⟩ := List.forall_mem_cons.mp inner
      rw [List.cons_append, groupsAreMarkup_of_isInner here, ih further]

/-- If no text stands in some open groups, none stands in the inner ones. -/
theorem groupsAreMarkup_of_le {outer inner : Nat} {tokens : List Token} (within : inner ≤ outer)
    (isMarkup : groupsAreMarkup outer tokens) : groupsAreMarkup inner tokens := by
  induction tokens generalizing outer inner with
  | nil => cases inner <;> rfl
  | cons token rest ih =>
      rcases inner with _ | inner
      · exact groupsAreMarkup_zero _
      obtain ⟨outer, rfl⟩ : ∃ less, outer = less + 1 := ⟨outer - 1, by omega⟩
      rcases token with ⟨kind, span⟩
      cases kind with
      | leftParen => exact ih (Nat.succ_le_succ within) isMarkup
      | rightParen => exact ih (Nat.le_of_succ_le_succ within) isMarkup
      | endOfInput => rfl
      | text content => cases isMarkup
      | _ => exact ih within isMarkup

/-- What readers may rely on in the tokens of every template, be it malformed or not: no text
stands inside a group, and a name follows the sigil of a path. -/
structure TextOutsideGroups (tokens : List Token) : Prop where
  groups : ∀ span group, ⟨.leftParen, span⟩ :: group <:+ tokens → groupsAreMarkup 1 group
  sigils : ∀ span rest, ⟨.dollar, span⟩ :: rest <:+ tokens →
    ∃ name, nextKind rest = .name name

namespace TextOutsideGroups

theorem nil : TextOutsideGroups [] where
  groups _ _ suffix := absurd (List.suffix_nil.mp suffix) (List.cons_ne_nil _ _)
  sigils _ _ suffix := absurd (List.suffix_nil.mp suffix) (List.cons_ne_nil _ _)

theorem cons {token : Token} {tokens : List Token} (outside : TextOutsideGroups tokens)
    (isMarkup : token.kind = .leftParen → groupsAreMarkup 1 tokens)
    (named : token.kind = .dollar → ∃ name, nextKind tokens = .name name) :
    TextOutsideGroups (token :: tokens) where
  groups span group suffix := by
    rcases List.suffix_cons_iff.mp suffix with whole | further
    · obtain ⟨rfl, rfl⟩ := List.cons.inj whole
      exact isMarkup rfl
    · exact outside.groups span group further
  sigils span rest suffix := by
    rcases List.suffix_cons_iff.mp suffix with whole | further
    · obtain ⟨rfl, rfl⟩ := List.cons.inj whole
      exact named rfl
    · exact outside.sigils span rest further

/-- Tokens that neither open nor close anything can be put in front. -/
theorem precededBy {first tail : List Token} (outside : TextOutsideGroups tail)
    (plain : Plain first) : TextOutsideGroups (first ++ tail) := by
  -- Alone, the plain tokens are well lexed, so a name follows each of their sigils.
  have lexed := plain.lexed [] .nil
  rw [List.append_nil] at lexed
  have inner := plain.inner
  clear plain
  induction first with
  | nil => exact outside
  | cons token first ih =>
      obtain ⟨here, further⟩ := List.forall_mem_cons.mp inner
      refine (ih lexed.of_cons further).cons (fun opens => ?_) fun isSigil => ?_
      · rw [opens] at here
        cases here
      · rcases token with ⟨kind, span⟩
        obtain rfl : kind = .dollar := isSigil
        obtain ⟨name, next⟩ := lexed.sigils [] span first rfl
        obtain ⟨nameSpan, rest, rfl⟩ := exists_of_nextKind (by simp) next
        exact ⟨name, rfl⟩

end TextOutsideGroups

/-- A scan puts tokens of which readers may rely in front of those of the text that it leaves. -/
def Scan.KeepsTextOutside (scan : Scan) : Prop :=
  ∀ tail, TextOutsideGroups tail → (scan.rest = [] → ∀ depth, groupsAreMarkup depth tail) →
    TextOutsideGroups (scan.tokens ++ tail)

/-- No text stands in a header: it ends with its parenthesis or with the whole text. -/
theorem scanHeader_isMarkup (opener depth offset : Nat) (characters : List Char) :
    ∀ tail, TextOutsideGroups tail →
      ((scanHeader opener depth offset characters).rest = [] →
        ∀ depth, groupsAreMarkup depth tail) →
      TextOutsideGroups ((scanHeader opener depth offset characters).tokens ++ tail) ∧
        groupsAreMarkup (depth + 1)
          ((scanHeader opener depth offset characters).tokens ++ tail) := by
  -- Where the scan stops without a parenthesis, nothing of the text is left.
  fun_induction scanHeader opener depth offset characters with
  | case1 =>
      intro tail outside ended
      exact ⟨outside, ended rfl _⟩
  | case2 depth offset characters start character rest dropped _ ih =>
      intro tail outside ended
      obtain ⟨restOutside, isMarkup⟩ := ih tail outside ended
      exact ⟨restOutside.cons (fun _ => groupsAreMarkup_of_le (Nat.le_add_left 1 _) isMarkup)
        (by simp [punctuationToken]), isMarkup⟩
  | case3 offset characters start character rest dropped _ =>
      intro tail outside ended
      exact ⟨outside.cons (by simp [punctuationToken]) (by simp [punctuationToken]),
        groupsAreMarkup_zero tail⟩
  | case4 offset characters start character rest dropped _ depth ih =>
      intro tail outside ended
      obtain ⟨restOutside, isMarkup⟩ := ih tail outside ended
      exact ⟨restOutside.cons (by simp [punctuationToken]) (by simp [punctuationToken]),
        isMarkup⟩
  | case5 =>
      intro tail outside ended
      exact ⟨outside, ended rfl _⟩
  | case6 depth offset characters start character rest dropped _ body read stop ih =>
      intro tail outside ended
      obtain ⟨restOutside, isMarkup⟩ := ih tail outside ended
      exact ⟨restOutside.cons (by simp) (by simp), isMarkup⟩
  | case7 depth offset characters start character rest dropped lead announced scan ih =>
      intro tail outside ended
      obtain ⟨restOutside, isMarkup⟩ := ih tail outside ended
      have plain : Plain scan.tokens := scanItem_plain_of_headerLead announced start
      simp only [Scan.prepend, List.append_assoc]
      exact ⟨restOutside.precededBy plain,
        (groupsAreMarkup_append plain.inner (depth + 1) _).trans isMarkup⟩

theorem scanOptionalHeader_keepsTextOutside (offset : Nat) (characters : List Char) :
    (scanOptionalHeader offset characters).KeepsTextOutside := by
  unfold scanOptionalHeader
  split
  · rename_i rest
    intro tail outside ended
    obtain ⟨restOutside, isMarkup⟩ :=
      scanHeader_isMarkup offset 0 (offset + 1) rest tail outside ended
    exact restOutside.cons (fun _ => isMarkup) (by simp [punctuationToken])
  · exact fun _ outside _ => outside

theorem scanPaddedHeader_keepsTextOutside (offset : Nat) (characters : List Char) :
    (scanPaddedHeader offset characters).KeepsTextOutside := by
  unfold scanPaddedHeader
  dsimp only
  split
  · exact scanOptionalHeader_keepsTextOutside _ _
  · exact fun _ outside _ => outside

theorem scanKeywordHeader_keepsTextOutside (keyword : Keyword) (offset : Nat)
    (characters : List Char) :
    (scanKeywordHeader keyword offset characters).KeepsTextOutside := by
  unfold scanKeywordHeader
  split
  · exact scanPaddedHeader_keepsTextOutside offset characters
  · exact fun _ outside _ => outside

theorem scanDirective_keepsTextOutside (trim : Bool) (offset : Nat) (characters : List Char) :
    (scanDirective trim offset characters).KeepsTextOutside := by
  cases known : Keyword.ofWord? (String.ofList (takeName characters)) with
  | none =>
      rw [scanDirective_of_unknown trim offset known]
      exact fun _ outside _ => outside.cons (by simp [directiveToken]) (by simp [directiveToken])
  | some keyword =>
      rw [scanDirective_of_keyword trim offset known]
      intro tail outside ended
      refine (scanKeywordHeader_keepsTextOutside keyword _ _ tail outside fun isEnd => ?_).cons
        (by simp [directiveToken]) (by simp [directiveToken])
      -- Where the header has reached the end of the text, no line break is left to be trimmed.
      refine ended (List.suffix_nil.mp ?_)
      rw [← isEnd]
      exact trimLineBreak_suffix trim _ _

theorem scanSigil_keepsTextOutside (trim : Bool) (sigil : Char) (offset : Nat)
    (characters : List Char) : (scanSigil trim sigil offset characters).KeepsTextOutside := by
  unfold scanSigil
  split
  · exact fun _ outside _ => outside.precededBy (scanPath_plain offset characters)
  · split
    · intro tail outside ended
      have headerOutside := scanOptionalHeader_keepsTextOutside
        (scanMacroName offset characters).offset _ tail outside ended
      exact headerOutside.cons (by simp) (by simp)
    · exact scanDirective_keepsTextOutside trim offset characters

theorem TextOutsideGroups.textRun {tail : List Token} (outside : TextOutsideGroups tail)
    (run : TextRun) (offset : Nat) : TextOutsideGroups (run.tokens offset ++ tail) := by
  unfold TextRun.tokens
  split
  · exact outside
  · exact outside.cons (by simp) (by simp)

/-- What readers rely on is true of the tokens of every template. -/
theorem scanBody_textOutsideGroups (trim : Bool) (offset : Nat) (characters : List Char) :
    TextOutsideGroups (scanBody trim offset characters).tokens := by
  fun_induction scanBody trim offset characters with
  | case1 offset characters run start runRest =>
      exact (TextOutsideGroups.nil.cons (by simp) (by simp)).textRun run offset
  | case2 offset characters run start sigil rest runRest scan ih =>
      simp only [Scan.prepend, List.append_assoc]
      refine TextOutsideGroups.textRun ?_ run offset
      refine scanSigil_keepsTextOutside trim sigil start rest _ ih fun isEnd depth => ?_
      rw [show scan.rest = [] from isEnd, scanBody_eq]
      cases depth <;> rfl

/-- Every report concerns a token of the markup in a stream of tokens. -/
def BlamesMarkup (stream : List Token) (reports : List Report) : Prop :=
  ∀ report ∈ reports, ∃ token ∈ stream, token.kind.isMarkup ∧ report.span = token.span

namespace BlamesMarkup

variable {stream : List Token} {reports : List Report}

theorem none : BlamesMarkup stream [] :=
  List.forall_mem_nil _

theorem append {others : List Report} (first : BlamesMarkup stream reports)
    (second : BlamesMarkup stream others) : BlamesMarkup stream (reports ++ others) :=
  List.forall_mem_append.mpr ⟨first, second⟩

theorem single {token : Token} (member : token ∈ stream) (isMarkup : token.kind.isMarkup)
    (fault : Fault) : BlamesMarkup stream [⟨fault, token.span⟩] :=
  List.forall_mem_singleton.mpr ⟨token, member, isMarkup, rfl⟩

end BlamesMarkup

/-- Tokens at the end of a stream, with `depth` open groups in which no literal text stands. -/
structure InsideGroups (stream : List Token) (depth : Nat) (tokens : List Token) : Prop where
  suffix : tokens <:+ stream
  areMarkup : groupsAreMarkup depth tokens

namespace InsideGroups

variable {stream rest : List Token} {token : Token} {depth : Nat}

theorem mem (inside : InsideGroups stream depth (token :: rest)) : token ∈ stream :=
  inside.suffix.mem (List.mem_cons_self ..)

theorem tail (inside : InsideGroups stream depth (token :: rest))
    (inner : token.kind.isInner) : InsideGroups stream depth rest :=
  ⟨(List.suffix_cons token rest).trans inside.suffix,
    (groupsAreMarkup_of_isInner inner depth rest).symm.trans inside.areMarkup⟩

theorem opened {span : Span}
    (inside : InsideGroups stream (depth + 1) (⟨.leftParen, span⟩ :: rest)) :
    InsideGroups stream (depth + 2) rest :=
  ⟨(List.suffix_cons _ rest).trans inside.suffix, inside.areMarkup⟩

theorem closed {span : Span}
    (inside : InsideGroups stream (depth + 1) (⟨.rightParen, span⟩ :: rest)) :
    InsideGroups stream depth rest :=
  ⟨(List.suffix_cons _ rest).trans inside.suffix, inside.areMarkup⟩

theorem blames_next {tokens : List Token} (inside : InsideGroups stream (depth + 1) tokens)
    (expected : List String) : BlamesMarkup stream (unexpectedNext expected tokens) := by
  rcases tokens with _ | ⟨⟨kind, span⟩, rest⟩
  · exact .none
  · cases kind with
    | endOfInput => exact .none
    | text content => exact Bool.noConfusion inside.areMarkup
    | _ => exact .single inside.mem rfl _

end InsideGroups

/-- What a reader does inside groups: its reports concern the markup, and after a value `depth`
groups are still open. -/
structure Reading.StaysInside (stream : List Token) (depth : Nat)
    (reading : Reading (Option α)) : Prop where
  blames : BlamesMarkup stream reading.reports
  left : ∀ value, reading.value = some value → InsideGroups stream depth reading.rest

/-- Inside the groups of a stream a reader blames the markup and leaves them open. -/
def TokenReader.StaysInside (stream : List Token) (reader : TokenReader (Option α)) : Prop :=
  ∀ depth tokens, InsideGroups stream (depth + 1) tokens →
    (reader.read tokens).StaysInside stream (depth + 1)

namespace Reading.StaysInside

variable {stream : List Token} {depth : Nat}

theorem failed {reports : List Report} {rest : List Token} (blames : BlamesMarkup stream reports) :
    (Reading.failed reports rest : Reading (Option α)).StaysInside stream depth :=
  ⟨blames, fun _ given => absurd given (Option.some_ne_none _).symm⟩

theorem given {value : α} {rest : List Token} {reports : List Report}
    (blames : BlamesMarkup stream reports) (inside : InsideGroups stream depth rest) :
    (Reading.mk (some value) reports rest).StaysInside stream depth :=
  ⟨blames, fun _ _ => inside⟩

theorem map {reading : Reading (Option α)} (stays : reading.StaysInside stream depth)
    (change : α → β) : (reading.map (Option.map change)).StaysInside stream depth where
  blames := stays.blames
  left value given := by
    obtain ⟨own, isOwn, -⟩ := Option.map_eq_some_iff.mp given
    exact stays.left own isOwn

theorem precededBy {reading : Reading (Option α)} {reports : List Report}
    (stays : reading.StaysInside stream depth) (blames : BlamesMarkup stream reports) :
    (reading.precededBy reports).StaysInside stream depth :=
  ⟨blames.append stays.blames, stays.left⟩

end Reading.StaysInside

namespace TokenReader.StaysInside

variable {stream : List Token}

theorem next {accept : TokenKind → Option α} (expected : List String)
    (inner : ∀ kind value, accept kind = some value → kind.isInner) :
    (TokenReader.next accept expected).StaysInside stream := by
  intro depth tokens inside
  rcases tokens with _ | ⟨token, rest⟩
  · exact .failed .none
  · simp only [TokenReader.next]
    split
    · rename_i value accepted
      exact .given .none (inside.tail (inner _ value accepted))
    · exact .failed (inside.blames_next expected)

theorem andThen {first : TokenReader (Option α)} {second : α → TokenReader (Option β)}
    (firstStays : first.StaysInside stream)
    (secondStays : ∀ value, (second value).StaysInside stream) :
    (first.andThen second).StaysInside stream := by
  intro depth tokens inside
  have stays := firstStays depth tokens inside
  simp only [TokenReader.andThen]
  split
  · exact .failed stays.blames
  · rename_i value given
    exact (secondStays value depth _ (stays.left value given)).precededBy stays.blames

theorem map {reader : TokenReader (Option α)} (stays : reader.StaysInside stream)
    (change : α → β) : (reader.map change).StaysInside stream :=
  fun depth tokens inside => (stays depth tokens inside).map change

theorem ifNext {kind : TokenKind} {present absent : TokenReader (Option α)} (inner : kind.isInner)
    (presentStays : present.StaysInside stream) (absentStays : absent.StaysInside stream) :
    (TokenReader.ifNext kind present absent).StaysInside stream := by
  intro depth tokens inside
  rcases tokens with _ | ⟨token, rest⟩
  · exact absentStays depth _ inside
  · simp only [TokenReader.ifNext]
    split
    · rename_i same
      exact presentStays depth rest (inside.tail (same ▸ inner))
    · exact absentStays depth _ inside

theorem exactly {kind : TokenKind} (inner : kind.isInner) (expected : List String) :
    (TokenReader.exactly kind expected).StaysInside stream := by
  refine next expected fun found value accepted => ?_
  split at accepted
  · rename_i same
    exact same ▸ inner
  · cases accepted

end TokenReader.StaysInside

section Headers

variable {stream : List Token} {expression : TokenReader (Option Expression)}

theorem nameReader_staysInside (expected : String) : (nameReader expected).StaysInside stream := by
  refine .next _ fun kind value accepted => ?_
  split at accepted
  · rfl
  · cases accepted

theorem iterableReader_staysInside (stays : expression.StaysInside stream)
    (expected : List String) : (iterableReader expression expected).StaysInside stream :=
  .andThen (.exactly rfl expected) fun _ => stays

theorem loopHeaderReader_staysInside (stays : expression.StaysInside stream) :
    (loopHeaderReader expression).StaysInside stream :=
  .andThen (nameReader_staysInside _) fun _ =>
    .ifNext rfl
      (.andThen (nameReader_staysInside _) fun _ => .map (iterableReader_staysInside stays _) _)
      (.map (iterableReader_staysInside stays _) _)

theorem bindingHeaderReader_staysInside (stays : expression.StaysInside stream) :
    (bindingHeaderReader expression).StaysInside stream :=
  .andThen (nameReader_staysInside _) fun _ =>
    .andThen (.exactly rfl _) fun _ => .map stays _

end Headers

section Expressions

variable {stream : List Token}

theorem InsideGroups.readPathTail {depth stop : Nat} {tokens : List Token}
    (inside : InsideGroups stream depth tokens) :
    InsideGroups stream depth (readPathTail stop tokens).rest := by
  fun_induction Stencil.readPathTail stop tokens with
  | case1 dotSpan field span rest ih => exact ih ((inside.tail rfl).tail rfl)
  | case2 => exact inside
  | case3 stop openSpan index indexSpan span rest _ ih =>
      exact ih (((inside.tail rfl).tail rfl).tail rfl)
  | case4 => exact inside
  | case5 => exact inside

theorem readPath_staysInside (start : Nat) {depth : Nat} {tokens : List Token}
    (inside : InsideGroups stream (depth + 1) tokens) :
    (readPath start tokens).StaysInside stream (depth + 1) := by
  unfold readPath
  split
  · exact .given .none (inside.tail rfl).readPathTail
  · exact .failed (inside.blames_next _)

/-- The arguments of a call are followed by what stands in the group around the call. -/
theorem readArguments_staysInside {argument : TokenReader (Option Expression)}
    (stays : argument.StaysInside stream) {depth : Nat} (tokens : List Token)
    (inside : InsideGroups stream (depth + 1) tokens) :
    (readArguments argument tokens).StaysInside stream depth := by
  fun_induction readArguments argument tokens with
  | case1 tokens reading isNone => exact .failed (stays _ tokens inside).blames
  | case2 tokens reading expression isExpression span rest isRest ih =>
      have first := stays _ tokens inside
      have left := first.left expression isExpression
      rw [show (argument.read tokens).rest = _ from isRest] at left
      exact ((ih (left.tail rfl)).precededBy first.blames).map _
  | case3 tokens reading expression isExpression span rest isRest =>
      have first := stays _ tokens inside
      have left := first.left expression isExpression
      rw [show (argument.read tokens).rest = _ from isRest] at left
      exact .given first.blames left.closed
  | case4 tokens reading expression isExpression _ _ =>
      have first := stays _ tokens inside
      exact .failed (first.blames.append ((first.left expression isExpression).blames_next _))

theorem readArgumentList_staysInside {argument : TokenReader (Option Expression)}
    (stays : argument.StaysInside stream) {depth : Nat} {tokens : List Token}
    (inside : InsideGroups stream (depth + 1) tokens) :
    (readArgumentList argument tokens).StaysInside stream depth := by
  unfold readArgumentList
  split
  · exact .given .none inside.closed
  · exact readArguments_staysInside stays _ inside

variable {limit : Nat} {argument? : Option (TokenReader (Option Expression))}
variable (stays : ∀ argument, argument? = some argument → argument.StaysInside stream)

include stays

/-- A call is read inside a group if its arguments, if it has any, are in a group inside. -/
theorem readCall_staysInside (name : String) {nameToken : Token} (member : nameToken ∈ stream)
    (isMarkup : nameToken.kind.isMarkup) {depth : Nat} {tokens : List Token}
    (opens : ∀ span group, tokens = ⟨.leftParen, span⟩ :: group →
      InsideGroups stream (depth + 1) group) :
    (readCall limit argument? name nameToken.span tokens).StaysInside stream depth := by
  unfold readCall
  split
  · rename_i span group
    split
    · exact .failed (.single member isMarkup _)
    · rename_i argument
      exact (readArgumentList_staysInside (stays argument rfl) (opens span group rfl)).map _
  · exact .failed (.single member isMarkup _)

theorem readExpression_staysInside {depth : Nat} {tokens : List Token}
    (inside : InsideGroups stream (depth + 1) tokens) :
    (readExpression limit argument? tokens).StaysInside stream (depth + 1) := by
  unfold readExpression
  split
  · exact .failed .none
  · rename_i token rest
    split
    · rename_i isDollar
      exact readPath_staysInside _ (inside.tail (by rw [isDollar]; rfl))
    · rename_i name isName
      refine readCall_staysInside stays name inside.mem (by rw [isName]; rfl) ?_
      rintro span group rfl
      exact (inside.tail (by rw [isName]; rfl)).opened
    · split
      · rename_i literal isLiteral
        refine .given .none (inside.tail ?_)
        cases isKind : token.kind <;> rw [isKind] at isLiteral <;> first | rfl | cases isLiteral
      · exact .failed (inside.blames_next _)

end Expressions

theorem expressionReader_staysInside {stream : List Token} (limit levels : Nat) :
    (expressionReader limit levels).StaysInside stream := by
  induction levels with
  | zero =>
      intro depth tokens inside
      refine readExpression_staysInside ?_ inside
      rintro argument ⟨⟩
  | succ levels ih =>
      intro depth tokens inside
      refine readExpression_staysInside ?_ inside
      rintro argument ⟨⟩
      exact ih

/-- What a reader does outside of groups: its reports concern the markup of a stream, and it
leaves the end of the stream. -/
structure Reading.StaysInStream (stream : List Token) (reading : Reading α) : Prop where
  blames : BlamesMarkup stream reading.reports
  suffix : reading.rest <:+ stream

def TokenReader.StaysInStream (stream : List Token) (reader : TokenReader α) : Prop :=
  ∀ tokens, tokens <:+ stream → (reader.read tokens).StaysInStream stream

theorem Reading.StaysInStream.precededBy {stream : List Token} {reading : Reading α}
    {reports : List Report} (stays : reading.StaysInStream stream)
    (blames : BlamesMarkup stream reports) : (reading.precededBy reports).StaysInStream stream :=
  ⟨blames.append stays.blames, stays.suffix⟩

theorem Reading.StaysInStream.map {stream : List Token} {reading : Reading α}
    (stays : reading.StaysInStream stream) (change : α → β) :
    (reading.map change).StaysInStream stream :=
  ⟨stays.blames, stays.suffix⟩

section Blocks

variable {stream : List Token}

theorem TokenKind.isMarkup_of_keyword? {kind : TokenKind} {keyword : Keyword}
    (isKeyword : kind.keyword? = some keyword) : kind.isMarkup := by
  cases kind <;> first | rfl | cases isKeyword

theorem readClosedBody_staysInStream {body : TokenReader (List Node)}
    (stays : body.StaysInStream stream) {opener : Token} (member : opener ∈ stream)
    (isMarkup : opener.kind.isMarkup) (keyword : Keyword) (tokens : List Token)
    (suffix : tokens <:+ stream) :
    (readClosedBody body opener keyword tokens).StaysInStream stream := by
  have unclosed : BlamesMarkup stream [unclosedReport opener keyword] :=
    .single member isMarkup _
  fun_induction readClosedBody body opener keyword tokens with
  | case1 tokens reading isRest =>
      have own := stays tokens suffix
      exact ⟨own.blames.append unclosed, List.nil_suffix⟩
  | case2 tokens reading closer rest isRest =>
      have own := stays tokens suffix
      have left := isRest ▸ own.suffix
      exact ⟨own.blames, (List.suffix_cons closer rest).trans left⟩
  | case3 tokens reading closer rest isRest isKeyword stray after ih
  | case4 tokens reading closer rest isRest isKeyword stray after ih =>
      have own := stays tokens suffix
      have left := isRest ▸ own.suffix
      have further :=
        ih ((skipHeader_suffix rest).trans ((List.suffix_cons closer rest).trans left))
      have reported : BlamesMarkup stream [stray] :=
        .single (left.mem (List.mem_cons_self ..)) (TokenKind.isMarkup_of_keyword? isKeyword) _
      exact (further.precededBy (own.blames.append reported)).map _
  | case5 tokens reading closer rest isRest =>
      have own := stays tokens suffix
      have left := isRest ▸ own.suffix
      exact ⟨own.blames.append unclosed, left⟩

/-- The readers below a block keep to a stream. -/
structure NestedReaders.StayInStream (stream : List Token) (nested : NestedReaders) : Prop where
  expression : nested.expression.StaysInside stream
  body : nested.body.StaysInStream stream

theorem rejectBlock_staysInStream (limit : Nat) {opener : Token} (member : opener ∈ stream)
    (isMarkup : opener.kind.isMarkup) {tokens : List Token} (suffix : tokens <:+ stream) :
    (rejectBlock limit opener tokens).StaysInStream stream :=
  ⟨.single member isMarkup _,
    ((closeBlock_suffix 0 _).trans (skipHeader_suffix tokens)).trans suffix⟩

variable (outside : TextOutsideGroups stream)

include outside

theorem TextOutsideGroups.inside {span : Span} {group : List Token}
    (suffix : ⟨.leftParen, span⟩ :: group <:+ stream) : InsideGroups stream 1 group :=
  ⟨(List.suffix_cons _ group).trans suffix, outside.groups span group suffix⟩

theorem readHeader_staysInStream {directive : Token} (member : directive ∈ stream)
    (isMarkup : directive.kind.isMarkup) {inside : TokenReader (Option α)}
    (stays : inside.StaysInside stream) {tokens : List Token} (suffix : tokens <:+ stream) :
    (readHeader directive inside tokens).StaysInStream stream := by
  by_cases opens : nextKind tokens = .leftParen
  · obtain ⟨openSpan, group, rfl⟩ := exists_of_nextKind (by simp) opens
    have isInside := outside.inside suffix
    have content := stays 0 group isInside
    have behind := (closeGroup_suffix 0 group).trans isInside.suffix
    rw [readHeader_of_group]
    split
    · rename_i value closer rest given isRest
      have left := content.left value given
      rw [isRest] at left
      split
      · exact ⟨content.blames, (List.suffix_cons closer rest).trans left.suffix⟩
      · exact ⟨content.blames.append (left.blames_next _), behind⟩
    · exact ⟨content.blames, behind⟩
  · rw [readHeader_of_ne directive inside opens]
    exact ⟨.single member isMarkup _, suffix⟩

/-- A condition and the body behind it. -/
theorem readBranch_staysInStream {nested : NestedReaders} (stay : nested.StayInStream stream)
    {directive : Token} (member : directive ∈ stream) (isMarkup : directive.kind.isMarkup)
    {tokens : List Token} (suffix : tokens <:+ stream) :
    let header := readHeader directive nested.expression tokens
    let body := nested.body.read header.rest
    BlamesMarkup stream (header.reports ++ body.reports) ∧ body.rest <:+ stream := by
  intro header body
  have first : header.StaysInStream stream :=
    readHeader_staysInStream outside member isMarkup stay.expression suffix
  have second : body.StaysInStream stream := stay.body header.rest first.suffix
  exact ⟨first.blames.append second.blames, second.suffix⟩

theorem readBranches_staysInStream {nested : NestedReaders} (stay : nested.StayInStream stream)
    {opener : Token} (openerMember : opener ∈ stream) (openerIsMarkup : opener.kind.isMarkup)
    (directive : Token) (member : directive ∈ stream) (isMarkup : directive.kind.isMarkup)
    (tokens : List Token) (suffix : tokens <:+ stream) :
    (readBranches nested opener directive tokens).StaysInStream stream := by
  have unclosed : BlamesMarkup stream [unclosedReport opener .ifBlock] :=
    .single openerMember openerIsMarkup _
  fun_induction readBranches nested opener directive tokens with
  | case1 directive tokens header _ =>
      have first := readHeader_staysInStream outside member isMarkup stay.expression suffix
      exact ⟨first.blames, first.suffix⟩
  | case2 directive tokens header _ body reports isRest =>
      obtain ⟨blames, -⟩ := readBranch_staysInStream outside stay member isMarkup suffix
      exact ⟨blames.append unclosed, List.nil_suffix⟩
  | case3 directive tokens header _ body reports branch? closer rest isRest isKeyword ih =>
      obtain ⟨blames, left⟩ := readBranch_staysInStream outside stay member isMarkup suffix
      rw [show (nested.body.read _).rest = _ from isRest] at left
      have further := ih (left.mem (List.mem_cons_self ..))
        (TokenKind.isMarkup_of_keyword? isKeyword) ((List.suffix_cons closer rest).trans left)
      exact (further.precededBy blames).map _
  | case4 directive tokens header _ body reports branch? closer rest isRest _ =>
      obtain ⟨blames, left⟩ := readBranch_staysInStream outside stay member isMarkup suffix
      rw [show (nested.body.read _).rest = _ from isRest] at left
      have further := readClosedBody_staysInStream stay.body openerMember openerIsMarkup .ifBlock
        rest ((List.suffix_cons closer rest).trans left)
      exact (further.precededBy blames).map _
  | case5 directive tokens header _ body reports branch? closer rest isRest _ =>
      obtain ⟨blames, left⟩ := readBranch_staysInStream outside stay member isMarkup suffix
      rw [show (nested.body.read _).rest = _ from isRest] at left
      exact ⟨blames, (List.suffix_cons closer rest).trans left⟩
  | case6 directive tokens header _ body reports closer rest isRest =>
      obtain ⟨blames, left⟩ := readBranch_staysInStream outside stay member isMarkup suffix
      rw [show (nested.body.read _).rest = _ from isRest] at left
      exact ⟨blames.append unclosed, left⟩

variable {limit : Nat} {nested? : Option NestedReaders}
variable (stay : ∀ nested, nested? = some nested → nested.StayInStream stream)
variable {opener : Token} (member : opener ∈ stream) (isMarkup : opener.kind.isMarkup)
variable {tokens : List Token} (suffix : tokens <:+ stream)

include stay member isMarkup suffix

theorem readConditional_staysInStream :
    (readConditional limit nested? opener tokens).StaysInStream stream := by
  unfold readConditional
  split
  · exact rejectBlock_staysInStream limit member isMarkup suffix
  · rename_i nested
    exact (readBranches_staysInStream outside (stay nested rfl) member isMarkup opener member
      isMarkup tokens suffix).map _

theorem readLoop_staysInStream :
    (readLoop limit nested? opener tokens).StaysInStream stream := by
  unfold readLoop
  split
  · exact rejectBlock_staysInStream limit member isMarkup suffix
  · rename_i nested
    have stays := stay nested rfl
    have header := readHeader_staysInStream outside member isMarkup
      (loopHeaderReader_staysInside stays.expression) suffix
    dsimp only
    split
    · exact ⟨header.blames, header.suffix⟩
    · have closed := readClosedBody_staysInStream stays.body member isMarkup .forBlock _
        header.suffix
      exact (closed.precededBy header.blames).map _

theorem readOutputCall_staysInStream (name : String) :
    (readOutputCall limit (nested?.map NestedReaders.expression) name opener.span
      tokens).StaysInStream stream := by
  have arguments : ∀ argument, nested?.map NestedReaders.expression = some argument →
      argument.StaysInside stream := by
    intro argument isArgument
    obtain ⟨nested, isNested, rfl⟩ := Option.map_eq_some_iff.mp isArgument
    exact (stay nested isNested).expression
  have call : (readCall limit (nested?.map NestedReaders.expression) name opener.span
      tokens).StaysInside stream 0 := by
    refine readCall_staysInside arguments name member isMarkup ?_
    rintro span group rfl
    exact outside.inside suffix
  unfold readOutputCall
  dsimp only
  split
  · rename_i value given
    exact ⟨call.blames, (call.left value given).suffix⟩
  · exact ⟨call.blames, (skipHeader_suffix tokens).trans suffix⟩

variable {expression : TokenReader (Option Expression)} (stays : expression.StaysInside stream)

include stays

theorem readDirective_staysInStream (word : String) :
    (readDirective limit expression nested? word opener tokens).StaysInStream stream := by
  unfold readDirective
  split
  · exact readConditional_staysInStream outside stay member isMarkup suffix
  · exact readLoop_staysInStream outside stay member isMarkup suffix
  · exact (readHeader_staysInStream outside member isMarkup
      (bindingHeaderReader_staysInside stays) suffix).map _
  · exact ⟨.single member isMarkup _, (skipHeader_suffix tokens).trans suffix⟩
  · exact ⟨.single member isMarkup _, suffix⟩

end Blocks

section Bodies

variable {stream : List Token} (outside : TextOutsideGroups stream)
variable {limit : Nat} {nested? : Option NestedReaders}
variable (stay : ∀ nested, nested? = some nested → nested.StayInStream stream)
variable {expression : TokenReader (Option Expression)} (stays : expression.StaysInside stream)

include outside stay stays

theorem readPiece_staysInStream {token : Token} {tokens : List Token}
    (proper : token.kind ≠ .endOfInput) (suffix : token :: tokens <:+ stream) :
    (readPiece limit expression nested? token tokens).StaysInStream stream := by
  have member : token ∈ stream := suffix.mem (List.mem_cons_self ..)
  have behind := (List.suffix_cons token tokens).trans suffix
  unfold readPiece
  split
  · exact ⟨.none, behind⟩
  · rename_i isSigil
    obtain ⟨name, next⟩ := outside.sigils token.span tokens (by rwa [← isSigil])
    obtain ⟨nameSpan, steps, rfl⟩ := exists_of_nextKind (by simp) next
    have inside : InsideGroups stream 0 (⟨.name name, nameSpan⟩ :: steps) :=
      ⟨behind, groupsAreMarkup_zero _⟩
    exact ⟨.none, (inside.tail rfl).readPathTail.suffix⟩
  · rename_i name isName
    exact readOutputCall_staysInStream outside stay member (by rw [isName]; rfl) behind name
  · rename_i word isDirective
    exact readDirective_staysInStream outside stay member (by rw [isDirective]; rfl) behind stays
      word
  · rename_i noText _ _ _
    have reports : unexpectedNext ["text or a directive"] (token :: tokens) =
        [⟨.unexpected token.kind.description ["text or a directive"], token.span⟩] :=
      if_neg proper
    rw [reports]
    refine ⟨.single member ?_ _, behind⟩
    cases isKind : token.kind with
    | text content => exact absurd isKind (noText content)
    | endOfInput => exact absurd isKind proper
    | _ => rfl

theorem readBody_staysInStream (inBlock : Bool) (tokens : List Token)
    (suffix : tokens <:+ stream) :
    (readBody limit expression nested? inBlock tokens).StaysInStream stream := by
  fun_induction readBody limit expression nested? inBlock tokens with
  | case1 => exact ⟨.none, suffix⟩
  | case2 => exact ⟨.none, suffix⟩
  | case3 token rest goesOn piece ih =>
      have proper : token.kind ≠ .endOfInput := by
        intro ended
        rw [ended] at goesOn
        exact goesOn rfl
      have first : piece.StaysInStream stream :=
        readPiece_staysInStream outside stay stays proper suffix
      exact ((ih first.suffix).precededBy first.blames).map _

end Bodies

theorem blockBodyReader_staysInStream {stream : List Token} (outside : TextOutsideGroups stream)
    (limit levels : Nat) : (blockBodyReader limit levels).StaysInStream stream := by
  induction levels with
  | zero =>
      intro tokens suffix
      refine readBody_staysInStream outside ?_ (expressionReader_staysInside limit 0) true tokens
        suffix
      rintro nested ⟨⟩
  | succ levels ih =>
      intro tokens suffix
      refine readBody_staysInStream outside ?_ (expressionReader_staysInside limit (levels + 1))
        true tokens suffix
      rintro nested ⟨⟩
      exact ⟨expressionReader_staysInside limit levels, ih⟩

theorem nestedReaders?_stayInStream {stream : List Token} (outside : TextOutsideGroups stream)
    (limit levels : Nat) :
    ∀ nested, nestedReaders? limit levels = some nested → nested.StayInStream stream := by
  intro nested isNested
  cases levels with
  | zero => cases isNested
  | succ levels =>
      obtain rfl := Option.some.inj isNested
      exact ⟨expressionReader_staysInside limit levels,
        blockBodyReader_staysInStream outside limit levels⟩

/-- Whatever is reported about the tokens of a template is reported at a token of its markup. -/
theorem ofTokens_blamesMarkup (limit : Nat) (trim : Bool) (text : String) :
    BlamesMarkup (tokenize trim text).1 (Program.ofTokens limit (tokenize trim text).1).2 := by
  have outside : TextOutsideGroups (tokenize trim text).1 :=
    scanBody_textOutsideGroups trim 0 text.toList
  exact (readBody_staysInStream outside (nestedReaders?_stayInStream outside limit limit)
    (expressionReader_staysInside limit limit) false _ (List.suffix_refl _)).blames

end Stencil
