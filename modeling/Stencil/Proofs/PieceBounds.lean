import Stencil.Proofs.Pieces

/-!
# Where pieces begin and end

A body of a template goes on only between pieces: where tokens are cut in two so that the
first part leaves no group open and the second one begins a body, no piece is cut.
-/

namespace Stencil

/-- Tokens close the groups that they open, and no others. -/
def Balanced (tokens : List Token) : Prop :=
  ∀ depth tail, groupCloses depth (tokens ++ tail) = groupCloses depth tail

namespace Balanced

variable {first second : List Token}

theorem nil : Balanced [] :=
  fun _ _ => rfl

theorem append (balanced : Balanced first) (further : Balanced second) :
    Balanced (first ++ second) := by
  intro depth tail
  rw [List.append_assoc, balanced, further]

theorem of_append (balanced : Balanced first) (whole : Balanced (first ++ second)) :
    Balanced second := by
  intro depth tail
  rw [← balanced depth (second ++ tail), ← List.append_assoc, whole]

theorem cons {token : Token} (balanced : Balanced [token]) (further : Balanced second) :
    Balanced (token :: second) :=
  balanced.append further

end Balanced

/-- A group that has not been closed by tokens is not closed by one parenthesis after them
if a further one is open. -/
theorem groupCloses_of_opened {depth : Nat} {tokens : List Token}
    (opened : groupCloses depth tokens = false) (span : Span) :
    groupCloses (depth + 1) (tokens ++ [⟨.rightParen, span⟩]) = false := by
  induction tokens generalizing depth with
  | nil => rfl
  | cons token tokens ih =>
      rcases token with ⟨kind, tokenSpan⟩
      cases kind with
      | endOfInput => rfl
      | leftParen => exact ih opened
      | rightParen =>
          cases depth with
          | zero => cases opened
          | succ depth => exact ih opened
      | _ => exact ih opened

/-- After the parenthesis that closes a group, the groups around it are still open. -/
theorem groupCloses_after_closer {depth : Nat} {inside : List Token} {span : Span}
    (opened : groupCloses depth inside = false)
    (closes : groupCloses depth (inside ++ [⟨.rightParen, span⟩])) (outer : Nat)
    (tail : List Token) :
    groupCloses (depth + outer + 1) (inside ++ ⟨.rightParen, span⟩ :: tail) =
      groupCloses outer tail := by
  induction inside generalizing depth with
  | nil =>
      cases depth with
      | zero => rw [Nat.zero_add]; rfl
      | succ depth => cases closes
  | cons token inside ih =>
      rcases token with ⟨kind, tokenSpan⟩
      cases kind with
      | endOfInput => cases closes
      | leftParen =>
          have inner := @ih (depth + 1) opened closes
          rwa [Nat.add_right_comm depth 1 outer] at inner
      | rightParen =>
          cases depth with
          | zero => cases opened
          | succ depth =>
              have inner := @ih depth opened closes
              rwa [Nat.add_right_comm depth 1 outer]
      | _ => exact ih opened closes

theorem HeaderGroup.balanced {header : List Token} (group : HeaderGroup header) :
    Balanced header := by
  rcases group with rfl | ⟨openSpan, inside, closeSpan, rfl, opened, closes⟩
  · exact .nil
  · intro depth tail
    have closed := groupCloses_after_closer opened closes depth tail
    rw [Nat.zero_add] at closed
    rw [List.cons_append, List.append_assoc, List.singleton_append]
    exact closed

/-- Balanced tokens that cannot be cut in two so that the first part is balanced and a body
goes on with the second one. -/
structure Indivisible (piece : List Token) : Prop where
  balanced : Balanced piece
  uncut : ∀ first second, piece = first ++ second → first ≠ [] → second ≠ [] →
    Balanced first → ¬BeginsBody second

/-- No token begins a body. -/
def Continuing (tokens : List Token) : Prop :=
  ∀ token ∈ tokens, token.kind.isMarkup ∧ token.kind.startsPiece = false

theorem Continuing.not_begins {first second : List Token}
    (continuing : Continuing (first ++ second)) (nonempty : second ≠ []) :
    ¬BeginsBody second := by
  intro begins
  obtain ⟨token, others, rfl⟩ := List.exists_cons_of_ne_nil nonempty
  obtain ⟨isMarkup, notFirst⟩ := continuing token (by simp)
  exact begins.nextKind_ne isMarkup notFirst rfl

theorem BeginsBody.of_append {first second : List Token} (nonempty : first ≠ [])
    (begins : BeginsBody (first ++ second)) : BeginsBody first := by
  obtain ⟨token, others, rfl⟩ := List.exists_cons_of_ne_nil nonempty
  exact begins

theorem BeginsBody.append {first second : List Token} (begins : BeginsBody first)
    (further : BeginsBody second) : BeginsBody (first ++ second) := by
  cases first with
  | nil => exact further
  | cons token others => exact begins

/-- Where a group is cut, a body does not go on. -/
theorem HeaderGroup.uncut {first second : List Token} (group : HeaderGroup (first ++ second))
    (left : second ≠ []) (balanced : Balanced first) : ¬BeginsBody second := by
  rcases group with nothing | ⟨openSpan, inside, closeSpan, split, opened, -⟩
  · exact absurd (List.append_eq_nil_iff.mp nothing).2 left
  cases first with
  | nil =>
      rw [List.nil_append] at split
      intro begins
      rw [split] at begins
      exact begins.nextKind_ne (show TokenKind.leftParen.isMarkup from rfl) rfl rfl
  | cons opener first =>
      -- The first part opens the group and ends inside it, so it is not balanced.
      rw [List.cons_append] at split
      obtain ⟨rfl, isInside⟩ := List.cons.inj split
      obtain ⟨others, last, rfl⟩ := (List.eq_nil_or_concat second).resolve_left left
      rw [List.concat_eq_append, ← List.append_assoc] at isInside
      obtain ⟨rfl, -⟩ := List.append_inj' isInside rfl
      have openedFirst : groupCloses 0 first = false := by
        cases closed : groupCloses 0 first with
        | false => rfl
        | true =>
            rw [groupCloses_append closed] at opened
            cases opened
      have ended := groupCloses_of_opened openedFirst closeSpan
      have same : groupCloses (0 + 1) (first ++ [⟨.rightParen, closeSpan⟩]) = true :=
        balanced 0 [⟨.rightParen, closeSpan⟩]
      rw [ended] at same
      cases same

namespace Indivisible

theorem nil : Indivisible [] where
  balanced := .nil
  uncut first second split nonempty := by
    rw [(List.append_eq_nil_iff.mp split.symm).1] at nonempty
    exact absurd rfl nonempty

theorem of_continuing {token : Token} {tokens : List Token}
    (balanced : Balanced (token :: tokens)) (continuing : Continuing tokens) :
    Indivisible (token :: tokens) where
  balanced := balanced
  uncut first second split nonempty left _ := by
    cases first with
    | nil => exact absurd rfl nonempty
    | cons other first =>
        obtain ⟨-, rfl⟩ := List.cons.inj split
        exact continuing.not_begins left

/-- A token and the group after it. -/
theorem of_group {token : Token} {header : List Token} (own : Balanced [token])
    (group : HeaderGroup header) : Indivisible (token :: header) where
  balanced := own.cons group.balanced
  uncut first second split nonempty left balanced := by
    cases first with
    | nil => exact absurd rfl nonempty
    | cons other first =>
        rw [List.cons_append] at split
        obtain ⟨rfl, rfl⟩ := List.cons.inj split
        exact group.uncut left (own.of_append balanced)

end Indivisible

/-- Where tokens that begin with a piece are cut between pieces, they are cut before the
piece or after it. -/
theorem Indivisible.split {piece later first second : List Token}
    (indivisible : Indivisible piece) (split : piece ++ later = first ++ second)
    (balanced : Balanced first) (begins : BeginsBody second) :
    first = [] ∨ ∃ further, first = piece ++ further ∧ later = further ++ second ∧
      Balanced further := by
  rcases List.append_eq_append_iff.mp split with ⟨further, rfl, rfl⟩ | ⟨cut, rfl, rfl⟩
  · exact .inr ⟨further, rfl, rfl, indivisible.balanced.of_append balanced⟩
  · by_cases nothing : first = []
    · exact .inl nothing
    · by_cases whole : cut = []
      · subst whole
        exact .inr ⟨[], by simp, rfl, .nil⟩
      · exact absurd (begins.of_append whole)
          (indivisible.uncut first cut rfl nothing whole balanced)

theorem Continuing.nil : Continuing [] :=
  fun _ member => absurd member List.not_mem_nil

theorem Continuing.cons {token : Token} {tokens : List Token}
    (isMarkup : token.kind.isMarkup) (notFirst : token.kind.startsPiece = false)
    (continuing : Continuing tokens) : Continuing (token :: tokens) :=
  List.forall_mem_cons.mpr ⟨⟨isMarkup, notFirst⟩, continuing⟩

theorem scanPathPieces_continuing (offset : Nat) (characters : List Char) :
    Continuing (scanPathPieces offset characters).tokens := by
  fun_induction scanPathPieces offset characters with
  | case1 => exact .nil
  | case2 offset characters piece rest read scanned ih =>
      cases piece with
      | field name => exact (ih.cons rfl rfl).cons rfl rfl
      | index digits => exact ((ih.cons rfl rfl).cons rfl rfl).cons rfl rfl

theorem textRun_indivisible (run : TextRun) (offset : Nat) :
    Indivisible (run.tokens offset) := by
  unfold TextRun.tokens
  split
  · exact .nil
  · exact .of_continuing (fun _ _ => rfl) .nil

theorem scanOptionalHeader_headerGroup {offset : Nat} {characters : List Char}
    (clean : (scanOptionalHeader offset characters).reports = []) :
    HeaderGroup (scanOptionalHeader offset characters).tokens := by
  by_cases opens : startsWith (· == '(') characters
  · obtain ⟨openSpan, inside, closeSpan, split, -, opened, closes⟩ :=
      scanOptionalHeader_group opens clean
    exact .inr ⟨openSpan, inside, closeSpan, split, opened, closes⟩
  · rw [scanOptionalHeader_idle (Bool.eq_false_iff.mpr opens)]
    exact .inl rfl

theorem scanSigil_indivisible {trim : Bool} {sigil : Char} {offset : Nat}
    {characters : List Char}
    (clean : (scanSigil trim sigil offset characters).reports = []) :
    Indivisible (scanSigil trim sigil offset characters).tokens := by
  unfold scanSigil at *
  by_cases isPath : sigil = '$'
  · rw [if_pos isPath]
    exact .of_continuing (scanPath_plain offset characters).groups
      ((scanPathPieces_continuing _ _).cons rfl rfl)
  rw [if_neg isPath] at *
  by_cases isCall : sigil = '@'
  · rw [if_pos isCall] at *
    exact .of_group (fun _ _ => rfl) (scanOptionalHeader_headerGroup clean)
  rw [if_neg isCall] at *
  cases known : Keyword.ofWord? (String.ofList (takeName characters)) with
  | none =>
      rw [scanDirective_of_unknown trim offset known]
      exact .of_continuing (fun _ _ => rfl) .nil
  | some keyword =>
      rw [scanDirective_of_keyword trim offset known] at *
      exact .of_group (fun _ _ => rfl)
        (scanKeywordHeader_group clean "" (show (directiveToken offset characters).span.stop = _
          from rfl)).1

end Stencil
