import Stencil.Proofs.Groups
import Stencil.Proofs.ScanningSteps

/-!
# What scanning guarantees

The tokens of a template that is scanned without a report close every group that
they open, and they end with the only token that marks the end of the input.
-/

namespace Stencil

theorem WellLexed.nil : WellLexed [] where
  groups before _ _ split := by simp at split
  sigils before _ _ split := by simp at split

theorem WellLexed.cons {token : Token} {tokens : List Token}
    (lexed : WellLexed tokens)
    (closes : token.kind = .leftParen → groupCloses 0 tokens)
    (named : token.kind = .dollar → ∃ name, nextKind tokens = .name name) :
    WellLexed (token :: tokens) where
  groups before span group split := by
    rcases before with _ | ⟨first, before⟩
    · obtain ⟨rfl, rfl⟩ := List.cons.inj split
      exact closes rfl
    · exact lexed.groups before span group (List.cons.inj split).2
  sigils before span rest split := by
    rcases before with _ | ⟨first, before⟩
    · obtain ⟨rfl, rfl⟩ := List.cons.inj split
      exact named rfl
    · exact lexed.sigils before span rest (List.cons.inj split).2

/-- If the outermost of some open groups closes, so do the inner ones. -/
theorem groupCloses_of_le {outer inner : Nat} {tokens : List Token}
    (within : inner ≤ outer) (closes : groupCloses outer tokens) :
    groupCloses inner tokens := by
  induction tokens generalizing outer inner with
  | nil => simp [groupCloses] at closes
  | cons token rest ih =>
      rcases token with ⟨kind, span⟩
      cases kind with
      | leftParen => exact ih (Nat.succ_le_succ within) closes
      | rightParen =>
          cases inner with
          | zero => rfl
          | succ inner =>
              obtain ⟨outer, rfl⟩ : ∃ less, outer = less + 1 := ⟨outer - 1, by omega⟩
              exact ih (Nat.le_of_succ_le_succ within) closes
      | endOfInput => simp [groupCloses] at closes
      | _ => exact ih within closes

/-- Tokens that can be put in front of others without opening, closing or ending
anything. -/
structure Plain (tokens : List Token) : Prop where
  inner : ∀ token ∈ tokens, token.kind.isInner
  groups : ∀ depth tail, groupCloses depth (tokens ++ tail) = groupCloses depth tail
  lexed : ∀ tail, WellLexed tail → WellLexed (tokens ++ tail)

namespace Plain

theorem nil : Plain [] :=
  ⟨by simp, fun _ _ => rfl, fun _ lexed => lexed⟩

theorem cons {token : Token} {tokens : List Token} (plain : Plain tokens)
    (inner : token.kind.isInner) (proper : token.kind ≠ .dollar) :
    Plain (token :: tokens) where
  inner := List.forall_mem_cons.mpr ⟨inner, plain.inner⟩
  groups depth tail := by
    rw [List.cons_append, groupCloses_of_isInner inner, plain.groups]
  lexed tail lexed := by
    refine (plain.lexed tail lexed).cons (fun opens => ?_) fun sigil => absurd sigil proper
    simp [opens, TokenKind.isInner] at inner

theorem sigil {name : String} {sigilSpan nameSpan : Span} {tokens : List Token}
    (plain : Plain tokens) :
    Plain (⟨.dollar, sigilSpan⟩ :: ⟨.name name, nameSpan⟩ :: tokens) where
  inner := List.forall_mem_cons.mpr ⟨rfl, List.forall_mem_cons.mpr ⟨rfl, plain.inner⟩⟩
  groups depth tail := by
    rw [List.cons_append, groupCloses_of_isInner rfl, List.cons_append,
      groupCloses_of_isInner rfl, plain.groups]
  lexed tail lexed := by
    have named : WellLexed (⟨.name name, nameSpan⟩ :: (tokens ++ tail)) :=
      (plain.lexed tail lexed).cons (by simp) (by simp)
    exact named.cons (by simp) fun _ => ⟨name, rfl⟩

end Plain

theorem scanPathPieces_plain (offset : Nat) (characters : List Char) :
    Plain (scanPathPieces offset characters).tokens := by
  fun_induction scanPathPieces offset characters with
  | case1 => exact .nil
  | case2 offset characters piece rest read scanned ih =>
      cases piece with
      | field name => exact (ih.cons rfl (by simp)).cons rfl (by simp [punctuationToken])
      | index digits =>
          exact ((ih.cons rfl (by simp [punctuationToken])).cons rfl (by simp)).cons rfl
            (by simp [punctuationToken])

theorem scanPath_plain (offset : Nat) (characters : List Char) :
    Plain (scanPath offset characters).tokens :=
  (scanPathPieces_plain _ _).sigil

theorem plain_single {token : Token} (inner : token.kind.isInner)
    (proper : token.kind ≠ .dollar) : Plain [token] :=
  Plain.nil.cons inner proper

theorem headerPunctuation?_isInner {character : Char} {kind : TokenKind}
    (found : headerPunctuation? character = some kind) :
    kind.isInner ∧ kind ≠ .dollar := by
  unfold headerPunctuation? at found
  repeat' split at found
  all_goals cases found
  all_goals decide

theorem headerPunctuation?_of_itemLead {character : Char} {rest : List Char}
    {kind : TokenKind} (announced : itemLead character rest = .punctuation kind) :
    headerPunctuation? character = some kind := by
  unfold itemLead at announced
  cases found : headerPunctuation? character with
  | some other =>
      rw [found] at announced
      cases announced
      rfl
  | none =>
      rw [found] at announced
      dsimp only at announced
      repeat' split at announced
      all_goals cases announced

theorem isInner_wordKind (word : String) :
    (wordKind word).isInner ∧ wordKind word ≠ .dollar := by
  unfold wordKind
  repeat' split
  all_goals simp [TokenKind.isInner]

theorem NumberLiteral.isInner_kind? {literal : NumberLiteral} {kind : TokenKind}
    (found : literal.kind? = some kind) : kind.isInner ∧ kind ≠ .dollar := by
  unfold NumberLiteral.kind? at found
  split at found
  all_goals
    obtain ⟨number, -, rfl⟩ := Option.map_eq_some_iff.mp found
    simp [TokenKind.isInner]

theorem scanNumber_plain (offset : Nat) (first : Char) (rest : List Char) :
    Plain (scanNumber offset first rest).tokens := by
  unfold scanNumber
  dsimp only
  split
  · rename_i kind found
    have ⟨inner, proper⟩ := NumberLiteral.isInner_kind? found
    exact plain_single inner proper
  · exact .nil

theorem scanItem_plain (character : Char) (rest : List Char) (offset : Nat) :
    Plain (scanItem (itemLead character rest) offset character rest).tokens := by
  cases announced : itemLead character rest with
  | punctuation kind =>
      have ⟨inner, proper⟩ := headerPunctuation?_isInner
        (headerPunctuation?_of_itemLead announced)
      exact plain_single inner proper
  | path => exact scanPath_plain offset rest
  | macroCall => exact plain_single rfl (by simp)
  | number => exact scanNumber_plain offset character rest
  | word =>
      have ⟨inner, proper⟩ := isInner_wordKind (String.ofList (character :: takeName rest))
      exact plain_single inner proper
  | stray => exact .nil

theorem headerLead_item {character : Char} {rest : List Char} {lead : ItemLead}
    (announced : headerLead character rest = .item lead) :
    lead = itemLead character rest := by
  unfold headerLead at announced
  repeat' split at announced
  all_goals cases announced
  rfl

theorem scanItem_plain_of_headerLead {character : Char} {rest : List Char} {lead : ItemLead}
    (announced : headerLead character rest = .item lead) (offset : Nat) :
    Plain (scanItem lead offset character rest).tokens := by
  rw [headerLead_item announced]
  exact scanItem_plain character rest offset

/-- The tokens of a header that is scanned without a report close every group
that they open, and those that were open before. -/
theorem scanHeader_closes (opener depth offset : Nat) (characters : List Char) :
    (scanHeader opener depth offset characters).reports = [] →
      ∀ tail, WellLexed tail →
        WellLexed ((scanHeader opener depth offset characters).tokens ++ tail) ∧
          groupCloses depth
            ((scanHeader opener depth offset characters).tokens ++ tail) := by
  fun_induction scanHeader opener depth offset characters with
  | case1 => simp
  | case2 depth offset characters start character rest dropped _ ih =>
      intro clean tail lexed
      obtain ⟨restLexed, closes⟩ := ih clean tail lexed
      exact ⟨restLexed.cons (fun _ => groupCloses_of_le (Nat.zero_le _) closes)
        (by simp [punctuationToken]), closes⟩
  | case3 offset characters start character rest dropped _ =>
      intro _ tail lexed
      exact ⟨lexed.cons (by simp [punctuationToken]) (by simp [punctuationToken]), rfl⟩
  | case4 offset characters start character rest dropped _ depth ih =>
      intro clean tail lexed
      obtain ⟨restLexed, closes⟩ := ih clean tail lexed
      exact ⟨restLexed.cons (by simp [punctuationToken]) (by simp [punctuationToken]),
        closes⟩
  | case5 => simp
  | case6 depth offset characters start character rest dropped _ body read stop ih =>
      intro clean tail lexed
      obtain ⟨restLexed, closes⟩ := ih clean tail lexed
      exact ⟨restLexed.cons (by simp) (by simp), closes⟩
  | case7 depth offset characters start character rest dropped lead announced scan ih =>
      intro clean tail lexed
      obtain ⟨restLexed, closes⟩ := ih (List.append_eq_nil_iff.mp clean).2 tail lexed
      have plain : Plain scan.tokens := scanItem_plain_of_headerLead announced start
      simp only [Scan.prepend, List.append_assoc]
      exact ⟨plain.lexed _ restLexed, by rw [plain.groups]; exact closes⟩

/-- A scan puts tokens of which readers may rely on in front of others. -/
def Scan.KeepsLexed (scan : Scan) : Prop :=
  scan.reports = [] → ∀ tail, WellLexed tail → WellLexed (scan.tokens ++ tail)

theorem scanOptionalHeader_keepsLexed (offset : Nat) (characters : List Char) :
    (scanOptionalHeader offset characters).KeepsLexed := by
  unfold scanOptionalHeader
  split
  · rename_i rest
    intro clean tail lexed
    obtain ⟨restLexed, closes⟩ := scanHeader_closes offset 0 (offset + 1) rest clean tail
      lexed
    exact restLexed.cons (fun _ => closes) (by simp [punctuationToken])
  · exact fun _ _ lexed => lexed

theorem scanPaddedHeader_keepsLexed (offset : Nat) (characters : List Char) :
    (scanPaddedHeader offset characters).KeepsLexed := by
  unfold scanPaddedHeader
  dsimp only
  split
  · exact scanOptionalHeader_keepsLexed _ _
  · exact fun _ _ lexed => lexed

theorem scanKeywordHeader_keepsLexed (keyword : Keyword) (offset : Nat)
    (characters : List Char) :
    (scanKeywordHeader keyword offset characters).KeepsLexed := by
  unfold scanKeywordHeader
  split
  · exact scanPaddedHeader_keepsLexed offset characters
  · exact fun _ _ lexed => lexed

theorem scanDirective_keepsLexed (trim : Bool) (offset : Nat) (characters : List Char) :
    (scanDirective trim offset characters).KeepsLexed := by
  cases known : Keyword.ofWord? (String.ofList (takeName characters)) with
  | none =>
      rw [scanDirective_of_unknown trim offset known]
      exact fun _ _ lexed => lexed.cons (by simp [directiveToken]) (by simp [directiveToken])
  | some keyword =>
      rw [scanDirective_of_keyword trim offset known]
      intro clean tail lexed
      exact (scanKeywordHeader_keepsLexed keyword _ _ clean tail lexed).cons
        (by simp [directiveToken]) (by simp [directiveToken])

theorem scanSigil_keepsLexed (trim : Bool) (sigil : Char) (offset : Nat)
    (characters : List Char) : (scanSigil trim sigil offset characters).KeepsLexed := by
  unfold scanSigil
  split
  · exact fun _ => (scanPath_plain offset characters).lexed
  · split
    · intro clean tail lexed
      have headerLexed := scanOptionalHeader_keepsLexed
        (scanMacroName offset characters).offset _ clean tail lexed
      exact headerLexed.cons (by simp) (by simp)
    · exact scanDirective_keepsLexed trim offset characters

theorem textRun_wellLexed (run : TextRun) (offset : Nat) {tail : List Token}
    (lexed : WellLexed tail) : WellLexed (run.tokens offset ++ tail) := by
  unfold TextRun.tokens
  split
  · exact lexed
  · exact lexed.cons (by simp) (by simp)

/-- What readers rely on is true of every template that is scanned without a
report. -/
theorem scanBody_wellLexed (trim : Bool) (offset : Nat) (characters : List Char)
    (clean : (scanBody trim offset characters).reports = []) :
    WellLexed (scanBody trim offset characters).tokens := by
  fun_induction scanBody trim offset characters with
  | case1 offset characters run start runRest =>
      exact textRun_wellLexed run offset (WellLexed.nil.cons (by simp) (by simp))
  | case2 offset characters run start sigil rest runRest scan ih =>
      obtain ⟨scanClean, restClean⟩ := List.append_eq_nil_iff.mp clean
      simp only [Scan.prepend, List.append_assoc]
      exact textRun_wellLexed run offset
        (scanSigil_keepsLexed trim sigil start rest scanClean _ (ih restClean))

/-- Whether a kind of token belongs to a path, a macro call or a directive. -/
def TokenKind.isMarkup : TokenKind → Bool
  | .text _ | .endOfInput => false
  | _ => true

/-- All tokens belong to paths, macro calls and directives. -/
def Markup (tokens : List Token) : Prop :=
  ∀ token ∈ tokens, token.kind.isMarkup

theorem Markup.cons {token : Token} {tokens : List Token}
    (isMarkup : token.kind.isMarkup) (markup : Markup tokens) :
    Markup (token :: tokens) :=
  List.forall_mem_cons.mpr ⟨isMarkup, markup⟩

theorem Plain.markup {tokens : List Token} (plain : Plain tokens) : Markup tokens := by
  intro token member
  have inner := plain.inner token member
  revert inner
  cases token.kind <;> simp [TokenKind.isInner, TokenKind.isMarkup]

theorem scanHeader_markup (opener depth offset : Nat) (characters : List Char) :
    Markup (scanHeader opener depth offset characters).tokens := by
  fun_induction scanHeader opener depth offset characters with
  | case1 => simp [Markup]
  | case2 _ _ _ _ _ _ _ _ ih => exact ih.cons rfl
  | case3 => simp [Markup, punctuationToken, TokenKind.isMarkup]
  | case4 _ _ _ _ _ _ _ _ ih => exact ih.cons rfl
  | case5 => simp [Markup]
  | case6 _ _ _ _ _ _ _ _ _ _ _ ih => exact ih.cons rfl
  | case7 depth offset characters start character rest dropped lead announced scan ih =>
      have plain : Plain scan.tokens := scanItem_plain_of_headerLead announced start
      exact List.forall_mem_append.mpr ⟨plain.markup, ih⟩

theorem scanOptionalHeader_markup (offset : Nat) (characters : List Char) :
    Markup (scanOptionalHeader offset characters).tokens := by
  unfold scanOptionalHeader
  split
  · exact (scanHeader_markup _ _ _ _).cons rfl
  · simp [Markup, Scan.idle]

theorem scanKeywordHeader_markup (keyword : Keyword) (offset : Nat)
    (characters : List Char) :
    Markup (scanKeywordHeader keyword offset characters).tokens := by
  unfold scanKeywordHeader
  split
  · unfold scanPaddedHeader
    dsimp only
    split
    · exact scanOptionalHeader_markup _ _
    · simp [Markup, Scan.idle]
  · simp [Markup, Scan.idle]

theorem scanDirective_markup (trim : Bool) (offset : Nat) (characters : List Char) :
    Markup (scanDirective trim offset characters).tokens := by
  cases known : Keyword.ofWord? (String.ofList (takeName characters)) with
  | none =>
      rw [scanDirective_of_unknown trim offset known]
      simp [Markup, directiveToken, TokenKind.isMarkup]
  | some keyword =>
      rw [scanDirective_of_keyword trim offset known]
      exact (scanKeywordHeader_markup keyword _ _).cons rfl

theorem scanSigil_markup (trim : Bool) (sigil : Char) (offset : Nat)
    (characters : List Char) : Markup (scanSigil trim sigil offset characters).tokens := by
  unfold scanSigil
  split
  · exact (scanPath_plain offset characters).markup
  · split
    · exact (scanOptionalHeader_markup _ _).cons rfl
    · exact scanDirective_markup trim offset characters

/-- No token marks the end of the input. -/
def Unended (tokens : List Token) : Prop :=
  ∀ token ∈ tokens, token.kind ≠ .endOfInput

theorem Unended.append {first second : List Token} (firstUnended : Unended first)
    (secondUnended : Unended second) : Unended (first ++ second) :=
  List.forall_mem_append.mpr ⟨firstUnended, secondUnended⟩

theorem Markup.unended {tokens : List Token} (markup : Markup tokens) :
    Unended tokens := by
  intro token member ended
  have isMarkup := markup token member
  simp [ended, TokenKind.isMarkup] at isMarkup

theorem textRun_unended (run : TextRun) (offset : Nat) : Unended (run.tokens offset) := by
  unfold TextRun.tokens
  split <;> simp [Unended]

/-- The tokens of a template end with the only one that marks the end of the
input. -/
theorem scanBody_ends (trim : Bool) (offset : Nat) (characters : List Char) :
    ∃ front span, (scanBody trim offset characters).tokens =
      front ++ [⟨.endOfInput, span⟩] ∧ Unended front := by
  fun_induction scanBody trim offset characters with
  | case1 offset characters run start runRest =>
      exact ⟨run.tokens offset, _, rfl, textRun_unended run offset⟩
  | case2 offset characters run start sigil rest runRest scan ih =>
      obtain ⟨front, span, split, unended⟩ := ih
      refine ⟨run.tokens offset ++ scan.tokens ++ front, span, ?_, ?_⟩
      · simp [Scan.prepend, split]
      · exact ((textRun_unended run offset).append
          (scanSigil_markup trim sigil start rest).unended).append unended

end Stencil
