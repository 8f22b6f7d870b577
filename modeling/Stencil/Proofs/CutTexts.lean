import Stencil.Proofs.Seam

/-!
# Scanning a text that is cut off

A scan depends only on what it consumes and on how the text goes on directly behind that.
Where the text is cut off there, or anywhere further on, the scan stays the same.
-/

namespace Stencil

/-- Whether a scanner ignores what it leaves: it scans a text in the same way when some of
what it leaves is cut off. -/
def IgnoresRest (scan : List Char → Scan) : Prop :=
  ∀ front more, more.length ≤ (scan (front ++ more)).rest.length →
    scan (front ++ more) = (scan front).followedBy more

section Runs

variable {class? : Char → Bool} {front more : List Char}

theorem takeWhile_of_left (left : ((front ++ more).takeWhile class?).length ≤ front.length) :
    (front ++ more).takeWhile class? = front.takeWhile class? := by
  rw [List.takeWhile_append] at left ⊢
  split at left
  · rename_i whole
    have nothing : more.takeWhile class? = [] := by
      rw [List.length_append] at left
      exact List.eq_nil_of_length_eq_zero (by omega)
    rw [if_pos whole, nothing, List.append_nil]
    exact ((List.takeWhile_prefix class?).eq_of_length whole).symm
  · rename_i partly
    rw [if_neg partly]

theorem dropWhile_of_left (left : more.length ≤ ((front ++ more).dropWhile class?).length) :
    (front ++ more).takeWhile class? = front.takeWhile class? ∧
      (front ++ more).dropWhile class? = front.dropWhile class? ++ more := by
  have parts := congrArg List.length
    (List.takeWhile_append_dropWhile (p := class?) (l := front ++ more))
  simp only [List.length_append] at parts
  have taken : (front ++ more).takeWhile class? = front.takeWhile class? :=
    takeWhile_of_left (by omega)
  refine ⟨taken, ?_⟩
  have split := List.takeWhile_append_dropWhile (p := class?) (l := front ++ more)
  rw [taken] at split
  refine List.append_cancel_left (split.trans ?_)
  rw [← List.append_assoc, List.takeWhile_append_dropWhile]

theorem dropName_of_left (left : more.length ≤ (dropName (front ++ more)).length) :
    takeName (front ++ more) = takeName front ∧
      dropName (front ++ more) = dropName front ++ more :=
  dropWhile_of_left left

/-- Where a text goes on behind blanks, it goes on there when it is cut off later. -/
theorem dropWhile_cons_of_left {character : Char} {rest : List Char}
    (dropped : (front ++ more).dropWhile class? = character :: rest)
    (left : more.length ≤ rest.length) :
    ∃ kept, rest = kept ++ more ∧ front.dropWhile class? = character :: kept ∧
      (front ++ more).takeWhile class? = front.takeWhile class? := by
  have dropLeft : more.length ≤ ((front ++ more).dropWhile class?).length := by
    rw [dropped, List.length_cons]
    omega
  obtain ⟨taken, split⟩ := dropWhile_of_left dropLeft
  rw [dropped] at split
  cases others : front.dropWhile class? with
  | nil =>
      rw [others, List.nil_append] at split
      rw [← split, List.length_cons] at left
      omega
  | cons first kept =>
      rw [others, List.cons_append] at split
      obtain ⟨rfl, rfl⟩ := List.cons.inj split
      exact ⟨kept, rfl, rfl, taken⟩

end Runs

theorem isNameCharacter_of_isNameStart {character : Char} (starts : isNameStart character) :
    isNameCharacter character := by
  simp only [isNameStart, isNameCharacter, Char.isAlphanum, Bool.or_eq_true] at *
  exact starts.imp_left .inl

theorem length_dropName_lt {characters : List Char}
    (starts : startsWith isNameStart characters) :
    (dropName characters).length < characters.length := by
  rcases characters with _ | ⟨first, rest⟩
  · cases starts
  · have shorter := length_dropName_le rest
    have isName : isNameCharacter first := isNameCharacter_of_isNameStart starts
    rw [dropName, List.dropWhile_cons, if_pos isName, List.length_cons]
    exact Nat.lt_succ_of_le shorter

theorem isSome_readPathPiece?_append {front : List Char}
    (read : (readPathPiece? front).isSome) (more : List Char) :
    (readPathPiece? (front ++ more)).isSome := by
  unfold readPathPiece? at read
  split at read
  · rename_i tail
    split at read
    · rename_i named
      have nonempty : tail ≠ [] := by
        rintro rfl
        cases named
      simp [readPathPiece?, startsWith_append nonempty, named]
    · cases read
  · rename_i tail
    split at read
    · rename_i digit digits after taken dropped
      have left : tail.dropWhile Char.isDigit ≠ [] := by simp [dropped]
      simp [readPathPiece?, takeWhile_append_of_left left, dropWhile_append_of_left left, taken,
        dropped]
    · cases read
  · cases read

theorem readPathPiece?_of_left {front more rest : List Char} {piece : PathPiece}
    (read : readPathPiece? (front ++ more) = some (piece, rest))
    (left : more.length ≤ rest.length) :
    ∃ kept, rest = kept ++ more ∧ readPathPiece? front = some (piece, kept) := by
  rcases front with _ | ⟨first, tail⟩
  · have shorter := length_rest_of_readPathPiece? read
    rw [List.nil_append] at shorter
    omega
  rw [List.cons_append] at read
  by_cases isDot : first = '.'
  · subst isDot
    simp only [readPathPiece?] at read
    split at read
    · rename_i named
      obtain ⟨rfl, rfl⟩ := by simpa using read
      obtain ⟨name, after⟩ := dropName_of_left left
      have nonempty : tail ≠ [] := by
        rintro rfl
        have shorter := length_dropName_lt named
        rw [List.nil_append] at left shorter
        omega
      rw [startsWith_append nonempty] at named
      exact ⟨dropName tail, after, by simp [readPathPiece?, named, name]⟩
    · cases read
  by_cases isBracket : first = '['
  · subst isBracket
    simp only [readPathPiece?] at read
    split at read
    · rename_i digit digits after taken dropped
      obtain ⟨rfl, rfl⟩ := by simpa using read
      obtain ⟨kept, rfl, keptDropped, keptTaken⟩ := dropWhile_cons_of_left dropped left
      rw [taken] at keptTaken
      exact ⟨kept, rfl, by simp [readPathPiece?, ← keptTaken, keptDropped]⟩
    · cases read
  · simp [readPathPiece?, isDot, isBracket] at read

theorem scanPathPieces_ignoresRest (offset : Nat) : IgnoresRest (scanPathPieces offset) := by
  intro front more left
  generalize whole : front ++ more = characters at left ⊢
  fun_induction scanPathPieces offset characters generalizing front with
  | case1 offset characters read =>
      subst whole
      have nothing : readPathPiece? front = none := by
        cases found : readPathPiece? front with
        | none => rfl
        | some step =>
            have stillFound := isSome_readPathPiece?_append (Option.isSome_of_eq_some found) more
            rw [read] at stillFound
            cases stillFound
      rw [scanPathPieces_eq, nothing]
      rfl
  | case2 offset characters piece rest read scanned ih =>
      subst whole
      have shorter := length_scanPathPieces_le (offset + piece.byteSize) rest
      obtain ⟨kept, rfl, keptRead⟩ := readPathPiece?_of_left read (Nat.le_trans left shorter)
      rw [scanPathPieces_eq offset front, keptRead]
      exact congrArg (Scan.prepend scanned.1 scanned.2) (ih kept rfl left)

theorem scanPath_ignoresRest (offset : Nat) : IgnoresRest (scanPath offset) := by
  intro front more left
  have shorter := length_scanPathPieces_le (offset + 1 + byteLength (takeName (front ++ more)))
    (dropName (front ++ more))
  obtain ⟨name, after⟩ := dropName_of_left (Nat.le_trans left shorter)
  simp only [scanPath, name, after, Scan.prepend_rest] at left ⊢
  rw [scanPathPieces_ignoresRest _ _ _ left]
  rfl

theorem scanMacroName_ignoresRest (offset : Nat) : IgnoresRest (scanMacroName offset) := by
  intro front more left
  obtain ⟨name, after⟩ := dropName_of_left left
  simp only [scanMacroName, name, after]
  rfl

theorem scanWord_ignoresRest (offset : Nat) (first : Char) :
    IgnoresRest (scanWord offset first) := by
  intro front more left
  obtain ⟨name, after⟩ := dropName_of_left left
  simp only [scanWord, name, after]
  rfl

namespace NumberLiteral

theorem fraction_of_left {front more : List Char}
    (left : (fraction (front ++ more)).length ≤ front.length) :
    fraction (front ++ more) = fraction front := by
  rcases front with _ | ⟨first, tail⟩
  · exact List.eq_nil_of_length_eq_zero (Nat.le_zero.mp left)
  by_cases isPoint : first = '.'
  · subst isPoint
    have within : ((tail ++ more).takeWhile Char.isDigit).length ≤ tail.length := by
      simp only [fraction, List.cons_append] at left
      split at left
      · rename_i nothing
        simp [nothing]
      · simpa using left
    simp only [fraction, List.cons_append, takeWhile_of_left within]
  · simp [fraction, isPoint]

/-- An exponent has at least a mark and a digit. -/
theorem length_exponent (text : List Char) :
    exponent text = [] ∨ 2 ≤ (exponent text).length := by
  have longer (mark : Char) {digits : List Char} (nonempty : digits ≠ []) :
      2 ≤ (mark :: digits).length :=
    Nat.succ_le_succ (List.length_pos_iff.mpr nonempty)
  unfold exponent
  repeat' split
  all_goals first
    | exact .inl rfl
    | exact .inr (longer _ (List.cons_ne_nil _ _))
    | exact .inr (longer _ ‹_›)

theorem exponent_of_left {front more : List Char}
    (left : (exponent (front ++ more)).length ≤ front.length) :
    exponent (front ++ more) = exponent front := by
  rcases front with _ | ⟨mark, rest⟩
  · exact List.eq_nil_of_length_eq_zero (Nat.le_zero.mp left)
  by_cases isMark : mark = 'e' ∨ mark = 'E'
  · rcases rest with _ | ⟨sign, tail⟩
    · rcases length_exponent ([mark] ++ more) with nothing | longer
      · rw [nothing]
        simp [exponent]
      · simp only [List.length_singleton] at left
        omega
    by_cases isSign : sign = '+' ∨ sign = '-'
    · have within : ((tail ++ more).takeWhile Char.isDigit).length ≤ tail.length := by
        simp only [exponent, List.cons_append, isMark, isSign, if_true] at left
        split at left
        · rename_i nothing
          simp [nothing]
        · simpa using left
      simp only [exponent, List.cons_append, isMark, isSign, if_true, takeWhile_of_left within]
    · have within : ((sign :: tail ++ more).takeWhile Char.isDigit).length ≤
          (sign :: tail).length := by
        simp only [exponent, List.cons_append, isMark, isSign, if_true, if_false] at left
        split at left
        · rename_i nothing
          simp [nothing]
        · simpa using left
      have taken := takeWhile_of_left within
      rw [List.cons_append] at taken
      simp only [exponent, List.cons_append, isMark, isSign, if_true, if_false, taken]
  · simp only [exponent, List.cons_append, isMark, if_false]

/-- The part of a number at the front of a text ignores what is left behind it. -/
theorem drop_of_left {part : List Char → List Char} (isPrefix : ∀ text, part text <+: text)
    (ignores : ∀ front more, (part (front ++ more)).length ≤ front.length →
      part (front ++ more) = part front) (front more : List Char)
    (left : more.length ≤ ((front ++ more).drop (part (front ++ more)).length).length) :
    part (front ++ more) = part front ∧
      (front ++ more).drop (part front).length = front.drop (part front).length ++ more := by
  have within := (isPrefix (front ++ more)).length_le
  rw [List.length_append] at within
  rw [List.length_drop, List.length_append] at left
  exact ⟨ignores front more (by omega),
    List.drop_append_of_le_length (isPrefix front).length_le⟩

theorem ofFront_of_left {first : Char} {front more : List Char}
    (left : more.length ≤ (ofFront first (front ++ more)).rest.length) :
    ofFront first (front ++ more) =
      { ofFront first front with rest := (ofFront first front).rest ++ more } := by
  have atDigits : more.length ≤ ((front ++ more).dropWhile Char.isDigit).length := by
    simp only [ofFront, List.length_drop] at left
    omega
  obtain ⟨digits, afterDigits⟩ := dropWhile_of_left atDigits
  simp only [ofFront, digits, afterDigits] at left ⊢
  obtain ⟨fraction_eq, afterFraction⟩ := drop_of_left fraction_isPrefix
    (fun _ _ => fraction_of_left) (front.dropWhile Char.isDigit) more (by
      rw [List.length_drop] at left
      omega)
  simp only [fraction_eq, afterFraction] at left ⊢
  obtain ⟨exponent_eq, afterExponent⟩ := drop_of_left exponent_isPrefix
    (fun _ _ => exponent_of_left) _ more left
  simp only [exponent_eq, afterExponent]

end NumberLiteral

theorem scanNumber_ignoresRest (offset : Nat) (first : Char) :
    IgnoresRest (scanNumber offset first) := by
  intro front more left
  have literalLeft : more.length ≤ (NumberLiteral.ofFront first (front ++ more)).rest.length := by
    unfold scanNumber at left
    dsimp only at left
    split at left <;> exact left
  simp only [scanNumber, NumberLiteral.ofFront_of_left literalLeft]
  have sameKind : NumberLiteral.kind?
      { NumberLiteral.ofFront first front with
        rest := (NumberLiteral.ofFront first front).rest ++ more } =
      (NumberLiteral.ofFront first front).kind? := rfl
  rw [sameKind]
  cases (NumberLiteral.ofFront first front).kind? <;> rfl

theorem scanItem_ignoresRest (lead : ItemLead) (offset : Nat) (character : Char) :
    IgnoresRest (scanItem lead offset character) := by
  cases lead with
  | punctuation kind => exact fun _ _ _ => rfl
  | path => exact scanPath_ignoresRest offset
  | macroCall => exact scanMacroName_ignoresRest offset
  | number => exact scanNumber_ignoresRest offset character
  | word => exact scanWord_ignoresRest offset character
  | stray => exact fun _ _ _ => rfl

theorem length_scanHeaderFrom_lt {opener depth start : Nat} {characters : List Char}
    (left : (scanHeaderFrom opener depth start characters).rest ≠ []) :
    (scanHeaderFrom opener depth start characters).rest.length < characters.length := by
  rcases characters with _ | ⟨character, rest⟩
  · exact absurd rfl left
  refine Nat.lt_succ_of_le ?_
  simp only [scanHeaderFrom] at left ⊢
  cases headerLead character rest with
  | opening => exact length_scanHeader_le _ _ _ _
  | closing =>
      cases depth with
      | zero => exact Nat.le_refl _
      | succ depth => exact length_scanHeader_le _ _ _ _
  | quote =>
      cases read : readString? character rest with
      | none => exact Nat.zero_le _
      | some body =>
          have shorter := length_rest_of_readString? read
          exact Nat.le_trans (length_scanHeader_le _ _ _ _) (Nat.le_of_lt shorter)
  | item lead =>
      exact Nat.le_trans (length_scanHeader_le _ _ _ _) (length_scanItem_le _ _ _ _)

/-- A header has at least the parenthesis that closes it. -/
theorem length_scanHeader_lt {opener depth offset : Nat} {characters : List Char}
    (left : (scanHeader opener depth offset characters).rest ≠ []) :
    (scanHeader opener depth offset characters).rest.length < characters.length := by
  rw [scanHeader_eq] at left ⊢
  exact Nat.lt_of_lt_of_le (length_scanHeaderFrom_lt left) (length_dropWhile_le _ _)

/-- A header that goes on behind a character does so in a text that is cut off later. -/
theorem headerLead_of_left {front more rest : List Char} {character : Char}
    (dropped : (front ++ more).dropWhile isBlank = character :: rest)
    (left : more.length < rest.length) :
    ∃ kept, rest = kept ++ more ∧ front.dropWhile isBlank = character :: kept ∧
      (front ++ more).takeWhile isBlank = front.takeWhile isBlank ∧
        headerLead character kept = headerLead character (kept ++ more) := by
  obtain ⟨kept, rfl, keptDropped, blanks⟩ := dropWhile_cons_of_left dropped (Nat.le_of_lt left)
  have nonempty : kept ≠ [] := by
    rintro rfl
    exact Nat.lt_irrefl _ left
  exact ⟨kept, rfl, keptDropped, blanks, (headerLead_append character nonempty more).symm⟩

theorem readString?_of_left {quote : Char} {front more : List Char} {body : StringBody}
    (read : readString? quote (front ++ more) = some body)
    (left : more.length ≤ body.rest.length) :
    ∃ kept, body.rest = kept ++ more ∧
      readString? quote front = some { body with rest := kept } := by
  have split := readString?_written read
  have restSuffix : body.rest <:+ front ++ more := split ▸ List.suffix_append _ _
  obtain ⟨kept, isRest⟩ :=
    List.suffix_of_suffix_length_le (List.suffix_append front more) restSuffix left
  rw [← isRest, ← List.append_assoc] at split
  refine ⟨kept, isRest.symm, ?_⟩
  rw [List.append_cancel_right split]
  exact readString?_of_written read kept

theorem scanHeader_ignoresRest (opener depth offset : Nat) :
    IgnoresRest (scanHeader opener depth offset) := by
  intro front more left
  by_cases nothing : more = []
  · subst nothing
    simp [Scan.followedBy]
  -- Where something is left, the header has been closed before.
  have shorter {depth offset : Nat} {characters : List Char}
      (left : more.length ≤ (scanHeader opener depth offset characters).rest.length) :
      more.length < characters.length := by
    have present := List.length_pos_iff.mpr nothing
    exact Nat.lt_of_le_of_lt left
      (length_scanHeader_lt (List.length_pos_iff.mp (Nat.lt_of_lt_of_le present left)))
  generalize whole : front ++ more = characters at left ⊢
  fun_induction scanHeader opener depth offset characters generalizing front with
  | case1 =>
      have present := List.length_pos_iff.mpr nothing
      simp only [List.length_nil] at left
      omega
  | case2 depth offset characters start character rest dropped announced ih =>
      subst whole
      obtain ⟨kept, rfl, keptDropped, blanks, lead⟩ := headerLead_of_left dropped (shorter left)
      rw [scanHeader_eq opener depth offset front, keptDropped, ← blanks]
      simp only [scanHeaderFrom, lead, announced]
      exact congrArg (Scan.prepend _ _) (ih kept rfl left)
  | case3 offset characters start character rest dropped announced =>
      subst whole
      obtain ⟨kept, rfl, keptDropped, blanks⟩ := dropWhile_cons_of_left dropped left
      rw [scanHeader_eq opener 0 offset front, keptDropped, ← blanks,
        headerLead_closing announced]
      rfl
  | case4 offset characters start character rest dropped announced depth ih =>
      subst whole
      obtain ⟨kept, rfl, keptDropped, blanks, lead⟩ := headerLead_of_left dropped (shorter left)
      rw [scanHeader_eq opener (depth + 1) offset front, keptDropped, ← blanks]
      simp only [scanHeaderFrom, lead, announced]
      exact congrArg (Scan.prepend _ _) (ih kept rfl left)
  | case5 =>
      have present := List.length_pos_iff.mpr nothing
      simp only [List.length_nil] at left
      omega
  | case6 depth offset characters start character rest dropped announced body read stop ih =>
      subst whole
      have bodyLeft := shorter left
      have bodyShorter := length_rest_of_readString? read
      obtain ⟨kept, rfl, keptDropped, blanks, lead⟩ := headerLead_of_left dropped
        (Nat.lt_trans bodyLeft bodyShorter)
      obtain ⟨after, afterRest, keptRead⟩ := readString?_of_left read (Nat.le_of_lt bodyLeft)
      rw [scanHeader_eq opener depth offset front, keptDropped, ← blanks]
      simp only [scanHeaderFrom, lead, announced, keptRead]
      exact congrArg (Scan.prepend _ _) (ih after afterRest.symm left)
  | case7 depth offset characters start character rest dropped lead announced scan ih =>
      subst whole
      have itemLeft := shorter left
      obtain ⟨kept, rfl, keptDropped, blanks, sameLead⟩ := headerLead_of_left dropped
        (Nat.lt_of_lt_of_le itemLeft (length_scanItem_le lead start character rest))
      have item := scanItem_ignoresRest lead start character kept more (Nat.le_of_lt itemLeft)
      rw [scanHeader_eq opener depth offset front, keptDropped, ← blanks]
      simp only [scanHeaderFrom, sameLead, announced]
      have same : scan = (scanItem lead start character kept).followedBy more := item
      rw [ih _ (congrArg Scan.rest same).symm left, same]
      rfl

theorem length_scanOptionalHeader_lt {offset : Nat} {characters : List Char}
    (opens : startsWith (· == '(') characters) :
    (scanOptionalHeader offset characters).rest.length < characters.length := by
  obtain ⟨rest, rfl⟩ := exists_of_startsWith opens
  exact Nat.lt_succ_of_le (length_scanHeader_le offset 0 (offset + 1) rest)

theorem scanOptionalHeader_ignoresRest (offset : Nat) :
    IgnoresRest (scanOptionalHeader offset) := by
  intro front more left
  rcases front with _ | ⟨first, rest⟩
  · by_cases opens : startsWith (· == '(') more
    · have shorter : (scanOptionalHeader offset more).rest.length < more.length :=
        length_scanOptionalHeader_lt opens
      rw [List.nil_append] at left
      omega
    · rw [List.nil_append, scanOptionalHeader_idle (Bool.eq_false_iff.mpr opens)]
      rfl
  by_cases opens : first = '('
  · subst opens
    have header := scanHeader_ignoresRest offset 0 (offset + 1) rest more left
    simp only [scanOptionalHeader, List.cons_append, header]
    rfl
  · simp [scanOptionalHeader, opens, Scan.idle, Scan.followedBy]

theorem scanMacroCall_ignoresRest (offset : Nat) : IgnoresRest (scanMacroCall offset) := by
  intro front more left
  have shorter := length_scanOptionalHeader_le (scanMacroName offset (front ++ more)).offset
    (scanMacroName offset (front ++ more)).rest
  have name := scanMacroName_ignoresRest offset front more (Nat.le_trans left shorter)
  simp only [scanMacroCall, Scan.prepend_rest, name] at left ⊢
  have header := scanOptionalHeader_ignoresRest (scanMacroName offset front).offset
    (scanMacroName offset front).rest more left
  simp only [Scan.followedBy, header]
  rfl

theorem scanPaddedHeader_ignoresRest (offset : Nat) : IgnoresRest (scanPaddedHeader offset) := by
  intro front more left
  simp only [scanPaddedHeader] at left ⊢
  by_cases opens : startsWith (· == '(') ((front ++ more).dropWhile isPadding)
  · rw [if_pos opens] at left ⊢
    have shorter : more.length < ((front ++ more).dropWhile isPadding).length :=
      Nat.lt_of_le_of_lt left (length_scanOptionalHeader_lt opens)
    obtain ⟨padding, after⟩ := dropWhile_of_left (Nat.le_of_lt shorter)
    rw [after] at left opens shorter ⊢
    have nonempty : front.dropWhile isPadding ≠ [] := by
      intro nothing
      rw [nothing] at shorter
      exact Nat.lt_irrefl _ shorter
    rw [startsWith_append nonempty] at opens
    rw [if_pos opens, padding]
    rw [padding] at left
    exact scanOptionalHeader_ignoresRest _ _ more left
  · have closed : ¬startsWith (· == '(') (front.dropWhile isPadding) := by
      intro opensEarlier
      have nonempty : front.dropWhile isPadding ≠ [] := by
        intro nothing
        rw [nothing] at opensEarlier
        cases opensEarlier
      rw [dropWhile_append_of_left nonempty, startsWith_append nonempty] at opens
      exact opens opensEarlier
    rw [if_neg opens, if_neg closed]
    rfl

theorem scanKeywordHeader_ignoresRest (keyword : Keyword) (offset : Nat) :
    IgnoresRest (scanKeywordHeader keyword offset) := by
  unfold scanKeywordHeader
  split
  · exact scanPaddedHeader_ignoresRest offset
  · exact fun _ _ _ => rfl

/-- A line break is trimmed whole or not at all. -/
theorem trimLineBreak_of_left {trim : Bool} {offset : Nat} {front more : List Char}
    (left : more.length ≤ (trimLineBreak trim offset (front ++ more)).2.length) :
    trimLineBreak trim offset (front ++ more) =
      ((trimLineBreak trim offset front).1, (trimLineBreak trim offset front).2 ++ more) := by
  cases trim with
  | false => rfl
  | true =>
      by_cases nothing : front = []
      · subst nothing
        simp only [trimLineBreak, if_true, List.nil_append] at left ⊢
        unfold skipLineBreak at left ⊢
        split at left
        · simp only [List.length_cons] at left
          omega
        · simp only [List.length_cons] at left
          omega
        · rfl
      · refine trimLineBreak_append true offset nothing fun _ isReturn => ?_
        subst isReturn
        cases feeds : startsWith (· == '\n') more with
        | false => rfl
        | true =>
            obtain ⟨rest, rfl⟩ := exists_of_startsWith feeds
            have skipped : rest.length + 1 ≤ rest.length := left
            omega

theorem scanDirective_ignoresRest (trim : Bool) (offset : Nat) :
    IgnoresRest (scanDirective trim offset) := by
  intro front more left
  have shorter := (scanDirective_suffix trim offset (front ++ more)).length_le
  obtain ⟨name, after⟩ := dropName_of_left (Nat.le_trans left shorter)
  have token : directiveToken offset (front ++ more) = directiveToken offset front := by
    simp only [directiveToken, name]
  cases known : Keyword.ofWord? (String.ofList (takeName front)) with
  | none =>
      rw [scanDirective_of_unknown trim offset known,
        scanDirective_of_unknown trim offset (name ▸ known), name, after, token]
      rfl
  | some keyword =>
      have sameKnown : Keyword.ofWord? (String.ofList (takeName (front ++ more))) =
        some keyword := name ▸ known
      rw [scanDirective_of_keyword trim offset sameKnown] at left ⊢
      rw [scanDirective_of_keyword trim offset known, name, after, token]
      simp only [name, after] at left
      have header := scanKeywordHeader_ignoresRest keyword
        (offset + 1 + byteLength (takeName front)) (dropName front) more
        (Nat.le_trans left (trimLineBreak_suffix trim _ _).length_le)
      simp only [header, Scan.followedBy] at left ⊢
      rw [trimLineBreak_of_left left]

theorem scanSigil_ignoresRest (trim : Bool) (sigil : Char) (offset : Nat) :
    IgnoresRest (scanSigil trim sigil offset) := by
  unfold scanSigil
  split
  · exact scanPath_ignoresRest offset
  · split
    · exact scanMacroCall_ignoresRest offset
    · exact scanDirective_ignoresRest trim offset

end Stencil
