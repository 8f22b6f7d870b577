import Stencil.Proofs.ScanLocal
import Stencil.Proofs.Scanned

/-!
# Headers and directives in a text that goes on

A header that is scanned without a report ends at the parenthesis that closes it,
whatever follows.  A directive depends on what follows only where the line break
after it would be trimmed.
-/

namespace Stencil

theorem headerLead_closing {character : Char} {rest : List Char}
    (announced : headerLead character rest = .closing) : character = ')' := by
  unfold headerLead at announced
  repeat' split at announced
  all_goals first | assumption | cases announced

theorem mem_of_mem_dropWhile_tail {class? : Char → Bool} {characters rest : List Char}
    {first character : Char} (dropped : characters.dropWhile class? = first :: rest)
    (member : character ∈ rest) : character ∈ characters := by
  apply (List.dropWhile_suffix class?).subset
  rw [dropped]
  exact List.mem_cons_of_mem _ member

/-- A header that is scanned without a report has a parenthesis that closes it. -/
theorem scanHeader_mem_closer (opener depth offset : Nat) (characters : List Char) :
    (scanHeader opener depth offset characters).reports = [] → ')' ∈ characters := by
  fun_induction scanHeader opener depth offset characters with
  | case1 => simp
  | case2 depth offset characters start character rest dropped _ ih =>
      exact fun clean => mem_of_mem_dropWhile_tail dropped (ih clean)
  | case3 offset characters start character rest dropped announced =>
      intro _
      apply (List.dropWhile_suffix isBlank).subset
      rw [dropped, headerLead_closing announced]
      exact List.mem_cons_self
  | case4 offset characters start character rest dropped _ depth ih =>
      exact fun clean => mem_of_mem_dropWhile_tail dropped (ih clean)
  | case5 => simp
  | case6 depth offset characters start character rest dropped _ body read stop ih =>
      intro clean
      apply mem_of_mem_dropWhile_tail dropped
      rw [readString?_written read]
      exact List.mem_append_right _ (ih clean)
  | case7 depth offset characters start character rest dropped lead _ scan ih =>
      intro clean
      have inRest := ih (List.append_eq_nil_iff.mp clean).2
      exact mem_of_mem_dropWhile_tail dropped
        ((scanItem_suffix lead start character rest).subset inRest)

theorem scanHeader_append {opener depth offset : Nat} {characters rest : List Char}
    {character : Char} (dropped : characters.dropWhile isBlank = character :: rest)
    (more : List Char) :
    scanHeader opener depth offset (characters ++ more) =
      scanHeaderFrom opener depth (offset + byteLength (characters.takeWhile isBlank))
        (character :: (rest ++ more)) := by
  have left : characters.dropWhile isBlank ≠ [] := by simp [dropped]
  rw [scanHeader_eq, takeWhile_append_of_left left, dropWhile_append_of_left left, dropped,
    List.cons_append]

/-- A header that is scanned without a report does not depend on what follows. -/
theorem scanHeader_followedBy (more : List Char) (opener depth offset : Nat)
    (characters : List Char) :
    (scanHeader opener depth offset characters).reports = [] →
      scanHeader opener depth offset (characters ++ more) =
        (scanHeader opener depth offset characters).followedBy more := by
  fun_induction scanHeader opener depth offset characters with
  | case1 => simp
  | case2 depth offset characters start character rest dropped announced ih =>
      intro clean
      have nonempty : rest ≠ [] :=
        List.ne_nil_of_mem (scanHeader_mem_closer _ _ _ _ clean)
      rw [scanHeader_append dropped]
      simp only [scanHeaderFrom, headerLead_append _ nonempty, announced]
      exact congrArg (Scan.prepend _ _) (ih clean)
  | case3 offset characters start character rest dropped announced =>
      intro _
      have isCloser := headerLead_closing announced
      rw [scanHeader_append dropped, isCloser]
      rfl
  | case4 offset characters start character rest dropped announced depth ih =>
      intro clean
      have nonempty : rest ≠ [] :=
        List.ne_nil_of_mem (scanHeader_mem_closer _ _ _ _ clean)
      rw [scanHeader_append dropped]
      simp only [scanHeaderFrom, headerLead_append _ nonempty, announced]
      exact congrArg (Scan.prepend _ _) (ih clean)
  | case5 => simp
  | case6 depth offset characters start character rest dropped announced body read stop
      ih =>
      intro clean
      have nonempty : rest ≠ [] := by
        rintro rfl
        simp [readString?] at read
      rw [scanHeader_append dropped]
      simp only [scanHeaderFrom, headerLead_append _ nonempty, announced,
        readString?_append read]
      exact congrArg (Scan.prepend _ _) (ih clean)
  | case7 depth offset characters start character rest dropped lead announced scan ih =>
      intro clean
      have restClean := (List.append_eq_nil_iff.mp clean).2
      have closes := scanHeader_mem_closer _ _ _ _ restClean
      have nonempty : rest ≠ [] :=
        List.ne_nil_of_mem ((scanItem_suffix lead start character rest).subset closes)
      rw [scanHeader_append dropped]
      simp only [scanHeaderFrom, headerLead_append _ nonempty, announced]
      have item : scanItem lead start character (rest ++ more) = scan.followedBy more :=
        scanItem_followedBy closes more
      change (scanHeader opener depth (scanItem lead start character (rest ++ more)).offset
        (scanItem lead start character (rest ++ more)).rest).prepend
        (scanItem lead start character (rest ++ more)).tokens
        (scanItem lead start character (rest ++ more)).reports = _
      rw [item]
      exact congrArg (Scan.prepend _ _) (ih restClean)

/-- The tokens of a header that is scanned without a report end with the
parenthesis that closes it, which stands directly before the text that is left. -/
theorem scanHeader_ends (opener depth offset : Nat) (characters : List Char) :
    (scanHeader opener depth offset characters).reports = [] →
      ∃ inside span,
        (scanHeader opener depth offset characters).tokens =
          inside ++ [⟨.rightParen, span⟩] ∧
        span.stop = (scanHeader opener depth offset characters).offset ∧
          groupCloses depth inside = false := by
  fun_induction scanHeader opener depth offset characters with
  | case1 => simp
  | case2 depth offset characters start character rest dropped announced ih =>
      intro clean
      obtain ⟨inside, span, split, stop, opened⟩ := ih clean
      exact ⟨punctuationToken .leftParen start :: inside, span, by
        simp [Scan.prepend, split], stop, opened⟩
  | case3 offset characters start character rest dropped announced =>
      exact fun _ => ⟨[], _, rfl, rfl, rfl⟩
  | case4 offset characters start character rest dropped announced depth ih =>
      intro clean
      obtain ⟨inside, span, split, stop, opened⟩ := ih clean
      exact ⟨punctuationToken .rightParen start :: inside, span, by
        simp [Scan.prepend, split], stop, opened⟩
  | case5 => simp
  | case6 depth offset characters start character rest dropped announced body read stop
      ih =>
      intro clean
      obtain ⟨inside, span, split, ends, opened⟩ := ih clean
      exact ⟨⟨.string (String.ofList body.content), ⟨start, stop⟩⟩ :: inside, span, by
        simp [Scan.prepend, split], ends, opened⟩
  | case7 depth offset characters start character rest dropped lead announced scan ih =>
      intro clean
      obtain ⟨inside, span, split, stop, opened⟩ :=
        ih (List.append_eq_nil_iff.mp clean).2
      have plain : Plain scan.tokens := scanItem_plain_of_headerLead announced start
      exact ⟨scan.tokens ++ inside, span, by simp [Scan.prepend, split], stop,
        by rw [plain.groups]; exact opened⟩

theorem scanOptionalHeader_idle {offset : Nat} {characters : List Char}
    (closed : startsWith (· == '(') characters = false) :
    scanOptionalHeader offset characters = Scan.idle offset characters := by
  unfold scanOptionalHeader
  split
  · cases closed
  · rfl

theorem scanOptionalHeader_followedBy {offset : Nat} {characters : List Char}
    (clean : (scanOptionalHeader offset characters).reports = [])
    (left : (scanOptionalHeader offset characters).rest ≠ []) (more : List Char) :
    scanOptionalHeader offset (characters ++ more) =
      (scanOptionalHeader offset characters).followedBy more := by
  rcases characters with _ | ⟨first, rest⟩
  · exact absurd rfl left
  by_cases opens : first = '('
  · subst opens
    have header := scanHeader_followedBy more offset 0 (offset + 1) rest clean
    simp only [scanOptionalHeader, List.cons_append, header]
    rfl
  · simp [scanOptionalHeader, opens, Scan.idle, Scan.followedBy]

theorem scanMacroCall_followedBy {offset : Nat} {characters : List Char}
    (clean : (scanMacroCall offset characters).reports = [])
    (left : (scanMacroCall offset characters).rest ≠ []) (more : List Char) :
    scanMacroCall offset (characters ++ more) =
      (scanMacroCall offset characters).followedBy more := by
  have nameLeft : characters.dropWhile isNameCharacter ≠ [] := by
    intro nothing
    have after : dropName characters = [] := nothing
    simp only [scanMacroCall, scanMacroName, after] at left
    exact left rfl
  have name : takeName (characters ++ more) = takeName characters :=
    takeWhile_append_of_left nameLeft more
  have after : dropName (characters ++ more) = dropName characters ++ more :=
    dropWhile_append_of_left nameLeft more
  have header := scanOptionalHeader_followedBy clean left more
  simp only [scanMacroName] at header
  simp only [scanMacroCall, scanMacroName, name, after, header]
  rfl

/-- The header of a keyword that takes one does not depend on what follows, if it
is there at all. -/
theorem scanKeywordHeader_followedBy {keyword : Keyword} {offset : Nat}
    {characters : List Char}
    (clean : (scanKeywordHeader keyword offset characters).reports = [])
    (left : (scanKeywordHeader keyword offset characters).rest ≠ [])
    (present : keyword.takesHeader →
      (scanKeywordHeader keyword offset characters).tokens ≠ []) (more : List Char) :
    scanKeywordHeader keyword offset (characters ++ more) =
      (scanKeywordHeader keyword offset characters).followedBy more := by
  unfold scanKeywordHeader at *
  by_cases takes : keyword.takesHeader
  · simp only [takes, if_true] at clean left present ⊢
    have opens : startsWith (· == '(') (characters.dropWhile isPadding) := by
      cases opens : startsWith (· == '(') (characters.dropWhile isPadding) with
      | true => rfl
      | false => exact absurd (by simp [scanPaddedHeader, opens, Scan.idle]) (present trivial)
    have headerLeft : characters.dropWhile isPadding ≠ [] := by
      intro nothing
      simp [nothing, startsWith] at opens
    simp only [scanPaddedHeader, opens, if_true, takeWhile_append_of_left headerLeft,
      dropWhile_append_of_left headerLeft, startsWith_append headerLeft] at clean left ⊢
    exact scanOptionalHeader_followedBy clean left more
  · simp only [takes] at *
    rfl

theorem skipLineBreak_append (offset : Nat) {characters more : List Char}
    (nonempty : characters ≠ [])
    (whole : characters = ['\r'] → startsWith (· == '\n') more = false) :
    skipLineBreak offset (characters ++ more) =
      ((skipLineBreak offset characters).1,
        (skipLineBreak offset characters).2 ++ more) := by
  rcases characters with _ | ⟨first, rest⟩
  · exact absurd rfl nonempty
  by_cases isReturn : first = '\r'
  · subst isReturn
    rcases rest with _ | ⟨second, rest⟩
    · rcases more with _ | ⟨next, more⟩
      · rfl
      · have notFeed : next ≠ '\n' := by simpa [startsWith] using whole rfl
        simp [skipLineBreak, notFeed]
    · by_cases isFeed : second = '\n' <;> simp [skipLineBreak, isFeed]
  · by_cases isFeed : first = '\n' <;> simp [skipLineBreak, isReturn, isFeed]

theorem trimLineBreak_append (trim : Bool) (offset : Nat) {characters more : List Char}
    (nonempty : characters ≠ [])
    (whole : trim → characters = ['\r'] → startsWith (· == '\n') more = false) :
    trimLineBreak trim offset (characters ++ more) =
      ((trimLineBreak trim offset characters).1,
        (trimLineBreak trim offset characters).2 ++ more) := by
  cases trim with
  | false => rfl
  | true => exact skipLineBreak_append offset nonempty (whole rfl)

theorem trimLineBreak_suffix (trim : Bool) (offset : Nat) (characters : List Char) :
    (trimLineBreak trim offset characters).2 <:+ characters := by
  cases trim with
  | false => exact List.suffix_refl _
  | true =>
      simp only [trimLineBreak, if_true, skipLineBreak]
      split
      · exact (List.suffix_cons _ _).trans (List.suffix_cons _ _)
      · exact List.suffix_cons _ _
      · exact List.suffix_refl _

theorem suffix_of_dropWhile {class? : Char → Bool} {characters rest : List Char}
    {character : Char} (dropped : characters.dropWhile class? = character :: rest) :
    rest <:+ characters := by
  apply (List.suffix_cons character rest).trans
  rw [← dropped]
  exact List.dropWhile_suffix class?

theorem scanHeader_suffix (opener depth offset : Nat) (characters : List Char) :
    (scanHeader opener depth offset characters).rest <:+ characters := by
  fun_induction scanHeader opener depth offset characters with
  | case1 => exact List.nil_suffix
  | case2 _ _ _ _ _ _ dropped _ ih => exact ih.trans (suffix_of_dropWhile dropped)
  | case3 _ _ _ _ _ dropped => exact suffix_of_dropWhile dropped
  | case4 _ _ _ _ _ dropped _ _ ih => exact ih.trans (suffix_of_dropWhile dropped)
  | case5 => exact List.nil_suffix
  | case6 _ _ _ _ _ rest dropped _ body read _ ih =>
      have bodyRest : body.rest <:+ rest := by
        rw [readString?_written read]
        exact List.suffix_append _ _
      exact (ih.trans bodyRest).trans (suffix_of_dropWhile dropped)
  | case7 _ _ _ start character rest dropped lead _ _ ih =>
      exact (ih.trans (scanItem_suffix lead start character rest)).trans
        (suffix_of_dropWhile dropped)

theorem scanOptionalHeader_suffix (offset : Nat) (characters : List Char) :
    (scanOptionalHeader offset characters).rest <:+ characters := by
  unfold scanOptionalHeader
  split
  · exact (scanHeader_suffix _ _ _ _).trans (List.suffix_cons _ _)
  · exact List.suffix_refl _

theorem scanKeywordHeader_suffix (keyword : Keyword) (offset : Nat)
    (characters : List Char) :
    (scanKeywordHeader keyword offset characters).rest <:+ characters := by
  unfold scanKeywordHeader
  split
  · unfold scanPaddedHeader
    dsimp only
    split
    · exact (scanOptionalHeader_suffix _ _).trans (List.dropWhile_suffix _)
    · exact List.suffix_refl _
  · exact List.suffix_refl _

theorem scanDirective_suffix (trim : Bool) (offset : Nat) (characters : List Char) :
    (scanDirective trim offset characters).rest <:+ dropName characters := by
  cases known : Keyword.ofWord? (String.ofList (takeName characters)) with
  | none =>
      simp only [scanDirective_of_unknown trim offset known, List.suffix_refl]
  | some keyword =>
      rw [scanDirective_of_keyword trim offset known]
      exact (trimLineBreak_suffix _ _ _).trans (scanKeywordHeader_suffix _ _ _)

/-- A sigil is followed by a name, which is not left. -/
theorem scanSigil_suffix_dropName (trim : Bool) (sigil : Char) (offset : Nat)
    (characters : List Char) :
    (scanSigil trim sigil offset characters).rest <:+ dropName characters := by
  unfold scanSigil
  split
  · exact scanPathPieces_suffix _ _
  · split
    · exact scanOptionalHeader_suffix _ _
    · exact scanDirective_suffix _ _ _

theorem scanSigil_suffix (trim : Bool) (sigil : Char) (offset : Nat)
    (characters : List Char) :
    (scanSigil trim sigil offset characters).rest <:+ characters :=
  (scanSigil_suffix_dropName trim sigil offset characters).trans (List.dropWhile_suffix _)

end Stencil
