import Stencil.Proofs.HeadersFollow
import Stencil.Proofs.Seam

/-!
# Pieces of tokens

The tokens of a template that is scanned without a report come in pieces: a text, a path, a
macro call or a directive, the last two with their groups.  Only the first token of a piece
can be a directive, so that none stands in a group.
-/

namespace Stencil

/-- All tokens can stand inside an expression. -/
def Items (tokens : List Token) : Prop :=
  ∀ token ∈ tokens, token.kind.isItem

theorem Items.nil : Items [] :=
  fun _ member => absurd member List.not_mem_nil

theorem Items.cons {token : Token} {tokens : List Token} (isItem : token.kind.isItem)
    (items : Items tokens) : Items (token :: tokens) :=
  List.forall_mem_cons.mpr ⟨isItem, items⟩

theorem scanPathPieces_items (offset : Nat) (characters : List Char) :
    Items (scanPathPieces offset characters).tokens := by
  fun_induction scanPathPieces offset characters with
  | case1 => exact .nil
  | case2 offset characters piece rest read scanned ih =>
      cases piece with
      | field name => exact (ih.cons rfl).cons rfl
      | index digits => exact ((ih.cons rfl).cons rfl).cons rfl

theorem scanPath_items (offset : Nat) (characters : List Char) :
    Items (scanPath offset characters).tokens :=
  ((scanPathPieces_items _ _).cons rfl).cons rfl

theorem headerPunctuation?_isItem {character : Char} {kind : TokenKind}
    (found : headerPunctuation? character = some kind) : kind.isItem := by
  unfold headerPunctuation? at found
  repeat' split at found
  all_goals cases found
  all_goals rfl

theorem wordKind_isItem (word : String) : (wordKind word).isItem := by
  unfold wordKind
  repeat' split
  all_goals rfl

theorem NumberLiteral.isItem_kind? {literal : NumberLiteral} {kind : TokenKind}
    (found : literal.kind? = some kind) : kind.isItem := by
  unfold NumberLiteral.kind? at found
  split at found
  all_goals
    obtain ⟨number, -, rfl⟩ := Option.map_eq_some_iff.mp found
    rfl

theorem scanNumber_items (offset : Nat) (first : Char) (rest : List Char) :
    Items (scanNumber offset first rest).tokens := by
  unfold scanNumber
  dsimp only
  split
  · rename_i kind found
    exact Items.nil.cons (NumberLiteral.isItem_kind? found)
  · exact .nil

theorem scanItem_items (character : Char) (rest : List Char) (offset : Nat) :
    Items (scanItem (itemLead character rest) offset character rest).tokens := by
  cases announced : itemLead character rest with
  | punctuation kind =>
      exact Items.nil.cons (headerPunctuation?_isItem (headerPunctuation?_of_itemLead announced))
  | path => exact scanPath_items offset rest
  | macroCall => exact Items.nil.cons rfl
  | number => exact scanNumber_items offset character rest
  | word => exact Items.nil.cons (wordKind_isItem _)
  | stray => exact .nil

/-- Everything inside a header is an item. -/
theorem scanHeader_items (opener depth offset : Nat) (characters : List Char) :
    Items (scanHeader opener depth offset characters).tokens := by
  fun_induction scanHeader opener depth offset characters with
  | case1 => exact .nil
  | case2 _ _ _ _ _ _ _ _ ih => exact ih.cons rfl
  | case3 => exact Items.nil.cons rfl
  | case4 _ _ _ _ _ _ _ _ ih => exact ih.cons rfl
  | case5 => exact .nil
  | case6 _ _ _ _ _ _ _ _ _ _ _ ih => exact ih.cons rfl
  | case7 depth offset characters start character rest dropped lead announced scan ih =>
      have items : Items scan.tokens := by
        have := scanItem_items character rest start
        rwa [← headerLead_item announced] at this
      exact List.forall_mem_append.mpr ⟨items, ih⟩

theorem scanOptionalHeader_items (offset : Nat) (characters : List Char) :
    Items (scanOptionalHeader offset characters).tokens := by
  unfold scanOptionalHeader
  split
  · exact (scanHeader_items _ _ _ _).cons rfl
  · exact .nil

theorem scanKeywordHeader_items (keyword : Keyword) (offset : Nat)
    (characters : List Char) :
    Items (scanKeywordHeader keyword offset characters).tokens := by
  unfold scanKeywordHeader
  split
  · unfold scanPaddedHeader
    dsimp only
    split
    · exact scanOptionalHeader_items _ _
    · exact .nil
  · exact .nil

/-- Tokens of one piece: every group that they open closes, and after the first one there
are only items. -/
structure IsPiece (tokens : List Token) : Prop where
  lexed : WellLexed tokens
  items : Items tokens.tail
  begins : nextKind tokens ≠ .leftParen

theorem scanSigil_items (trim : Bool) (sigil : Char) (offset : Nat)
    (characters : List Char) : Items (scanSigil trim sigil offset characters).tokens.tail := by
  unfold scanSigil
  split
  · exact (scanPathPieces_items _ _).cons rfl
  · split
    · exact scanOptionalHeader_items _ _
    · cases known : Keyword.ofWord? (String.ofList (takeName characters)) with
      | none =>
          rw [scanDirective_of_unknown trim offset known]
          exact .nil
      | some keyword =>
          rw [scanDirective_of_keyword trim offset known]
          exact scanKeywordHeader_items keyword _ _

theorem scanSigil_isPiece {trim : Bool} {sigil : Char} {offset : Nat}
    {characters : List Char}
    (clean : (scanSigil trim sigil offset characters).reports = []) :
    IsPiece (scanSigil trim sigil offset characters).tokens where
  lexed := by
    have lexed := scanSigil_keepsLexed trim sigil offset characters clean [] .nil
    rwa [List.append_nil] at lexed
  items := scanSigil_items trim sigil offset characters
  begins := by
    obtain ⟨token, rest, split, starts, -⟩ := scanSigil_first trim sigil offset characters
    rw [split]
    rintro (opens : token.kind = _)
    rw [opens] at starts
    cases starts

theorem IsPiece.single {token : Token} (noGroup : token.kind ≠ .leftParen)
    (noPath : token.kind ≠ .dollar) : IsPiece [token] where
  lexed := WellLexed.nil.cons (fun opens => absurd opens noGroup) fun path => absurd path noPath
  items := .nil
  begins := noGroup

/-- What is scanned without a report comes in pieces. -/
theorem scanBody_pieces (trim : Bool) (offset : Nat) (characters : List Char)
    (clean : (scanBody trim offset characters).reports = []) :
    ∃ pieces : List (List Token), (scanBody trim offset characters).tokens = pieces.flatten ∧
      ∀ piece ∈ pieces, IsPiece piece := by
  have text (run : TextRun) (offset : Nat) (pieces : List (List Token))
      (arePieces : ∀ piece ∈ pieces, IsPiece piece) :
      ∃ more : List (List Token), run.tokens offset ++ pieces.flatten = more.flatten ∧
        ∀ piece ∈ more, IsPiece piece := by
    unfold TextRun.tokens
    split
    · exact ⟨pieces, rfl, arePieces⟩
    · exact ⟨[_] :: pieces, rfl,
        List.forall_mem_cons.mpr ⟨.single (by simp) (by simp), arePieces⟩⟩
  fun_induction scanBody trim offset characters with
  | case1 offset characters run start runRest =>
      have ended : ∀ piece ∈ [[(⟨.endOfInput, ⟨start, start⟩⟩ : Token)]], IsPiece piece :=
        List.forall_mem_singleton.mpr (.single (by simp) (by simp))
      obtain ⟨pieces, split, arePieces⟩ := text run offset _ ended
      exact ⟨pieces, by simpa using split, arePieces⟩
  | case2 offset characters run start sigil rest runRest scan ih =>
      obtain ⟨scanClean, restClean⟩ := List.append_eq_nil_iff.mp clean
      obtain ⟨pieces, split, arePieces⟩ := ih restClean
      obtain ⟨more, moreSplit, areMore⟩ := text run offset (scan.tokens :: pieces)
        (List.forall_mem_cons.mpr ⟨scanSigil_isPiece scanClean, arePieces⟩)
      refine ⟨more, ?_, areMore⟩
      simpa [Scan.prepend, split] using moreSplit

/-- A group of items ends with the parenthesis that closes it. -/
def ClosesWithItems (group : List Token) : Prop :=
  ∃ inside closeSpan, group = inside ++ ⟨.rightParen, closeSpan⟩ :: closeGroup 0 group ∧
    Items inside ∧ groupCloses 0 inside = false ∧
      groupCloses 0 (inside ++ [⟨.rightParen, closeSpan⟩])

/-- Every group that tokens open is one of items. -/
def GroupsOfItems (tokens : List Token) : Prop :=
  ∀ before span group, tokens = before ++ ⟨.leftParen, span⟩ :: group → ClosesWithItems group

theorem GroupsOfItems.of_append {first second : List Token}
    (groups : GroupsOfItems (first ++ second)) : GroupsOfItems second :=
  fun before span group split =>
    groups (first ++ before) span group (by rw [split, List.append_assoc])

theorem closeGroup_append_of_closes {depth : Nat} {tokens : List Token}
    (closes : groupCloses depth tokens) (tail : List Token) :
    closeGroup depth (tokens ++ tail) = closeGroup depth tokens ++ tail := by
  fun_induction groupCloses depth tokens <;> simp_all [closeGroup]

/-- Where the innermost open group closes. -/
theorem exists_closer {depth : Nat} {tokens : List Token} (closes : groupCloses depth tokens) :
    ∃ inside closeSpan,
      tokens = inside ++ ⟨.rightParen, closeSpan⟩ :: closeGroup depth tokens ∧
        groupCloses depth inside = false ∧
          groupCloses depth (inside ++ [⟨.rightParen, closeSpan⟩]) := by
  induction tokens generalizing depth with
  | nil => cases closes
  | cons token rest ih =>
      -- Every token but the closing one passes the question on to the tokens after it.
      have further (inner : Nat) (closes : groupCloses inner rest)
          (sameGroup : closeGroup depth (token :: rest) = closeGroup inner rest)
          (same : ∀ tail, groupCloses depth (token :: tail) = groupCloses inner tail) :
          ∃ inside closeSpan, token :: rest = inside ++ ⟨.rightParen, closeSpan⟩ ::
              closeGroup depth (token :: rest) ∧ groupCloses depth inside = false ∧
                groupCloses depth (inside ++ [⟨.rightParen, closeSpan⟩]) := by
        obtain ⟨inside, closeSpan, split, opened, closed⟩ := ih closes
        refine ⟨token :: inside, closeSpan, ?_, ?_, ?_⟩
        · rw [sameGroup]
          exact congrArg (token :: ·) split
        · rw [same, opened]
        · rw [List.cons_append, same, closed]
      rcases token with ⟨kind, span⟩
      cases kind with
      | endOfInput => cases closes
      | leftParen => exact further (depth + 1) closes rfl fun _ => rfl
      | rightParen =>
          cases depth with
          | zero => exact ⟨[], span, rfl, rfl, rfl⟩
          | succ depth => exact further depth closes rfl fun _ => rfl
      | _ => exact further depth closes rfl fun _ => rfl

theorem IsPiece.closesWithItems {piece before group : List Token} {span : Span}
    (isPiece : IsPiece piece) (split : piece = before ++ ⟨.leftParen, span⟩ :: group)
    (tail : List Token) : ClosesWithItems (group ++ tail) := by
  have closes := isPiece.lexed.groups before span group split
  obtain ⟨inside, closeSpan, groupSplit, opened, closed⟩ := exists_closer closes
  refine ⟨inside, closeSpan, ?_, ?_, opened, closed⟩
  · rw [closeGroup_append_of_closes closes]
    exact (congrArg (· ++ tail) groupSplit).trans (by simp)
  · intro token member
    apply isPiece.items
    have inGroup : token ∈ group := by
      rw [groupSplit]
      exact List.mem_append_left _ member
    cases before with
    | nil => exact absurd (by rw [split]; rfl) isPiece.begins
    | cons first before =>
        rw [split]
        simp [inGroup]

/-- In pieces every group is one of items. -/
theorem groupsOfItems_flatten {pieces : List (List Token)}
    (arePieces : ∀ piece ∈ pieces, IsPiece piece) : GroupsOfItems pieces.flatten := by
  induction pieces with
  | nil =>
      intro before span group split
      simp at split
  | cons piece pieces ih =>
      obtain ⟨isPiece, others⟩ := List.forall_mem_cons.mp arePieces
      intro before span group split
      rw [List.flatten_cons] at split
      rcases List.append_eq_append_iff.mp split with
        ⟨middle, rfl, further⟩ | ⟨middle, isOwn, further⟩
      · exact ih others middle span group further
      · cases middle with
        | nil => exact ih others [] span group further.symm
        | cons token middle =>
            obtain ⟨rfl, rfl⟩ := List.cons.inj further
            exact isPiece.closesWithItems isOwn pieces.flatten

/-- What readers may rely on in tokens that were made without a report: every group closes
and consists of items, and a name follows every sigil of a path. -/
structure WellGrouped (tokens : List Token) : Prop where
  lexed : WellLexed tokens
  groups : GroupsOfItems tokens

theorem WellGrouped.of_append {first second : List Token}
    (grouped : WellGrouped (first ++ second)) : WellGrouped second :=
  ⟨grouped.lexed.of_append, grouped.groups.of_append⟩

theorem WellGrouped.of_cons {token : Token} {tokens : List Token}
    (grouped : WellGrouped (token :: tokens)) : WellGrouped tokens :=
  .of_append (show WellGrouped ([token] ++ tokens) from grouped)

theorem tokenize_wellGrouped {trim : Bool} {text : String}
    (clean : (tokenize trim text).2 = []) : WellGrouped (tokenize trim text).1 := by
  obtain ⟨pieces, split, arePieces⟩ := scanBody_pieces trim 0 text.toList clean
  refine ⟨scanBody_wellLexed trim 0 text.toList clean, ?_⟩
  rw [tokenize, split]
  exact groupsOfItems_flatten arePieces

end Stencil
