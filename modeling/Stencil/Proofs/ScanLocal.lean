import Stencil.Proofs.ScanningSteps

/-!
# Scanning does not depend on what comes later

What is scanned from the front of a text stays the same when the text goes on, if
something is left that ends the last token.  In a header this is the closing
parenthesis.
-/

namespace Stencil

/-- The same scan of a text that goes on. -/
def Scan.followedBy (more : List Char) (scan : Scan) : Scan :=
  { scan with rest := scan.rest ++ more }

section Runs

variable {class? : Char → Bool} {characters : List Char}

theorem takeWhile_append_of_left (left : characters.dropWhile class? ≠ [])
    (more : List Char) :
    (characters ++ more).takeWhile class? = characters.takeWhile class? := by
  induction characters with
  | nil => exact absurd rfl left
  | cons character rest ih =>
      by_cases inClass : class? character
      · simp only [List.dropWhile_cons, inClass, if_true] at left
        simp [inClass, ih left]
      · simp [inClass]

theorem dropWhile_append_of_left (left : characters.dropWhile class? ≠ [])
    (more : List Char) :
    (characters ++ more).dropWhile class? = characters.dropWhile class? ++ more := by
  induction characters with
  | nil => exact absurd rfl left
  | cons character rest ih =>
      by_cases inClass : class? character
      · simp only [List.dropWhile_cons, inClass, if_true] at left
        simp [inClass, ih left]
      · simp [inClass]

theorem mem_dropWhile {character : Char} (member : character ∈ characters)
    (outside : class? character = false) : character ∈ characters.dropWhile class? := by
  induction characters with
  | nil => cases member
  | cons first rest ih =>
      by_cases inClass : class? first
      · rcases List.mem_cons.mp member with rfl | member
        · simp [outside] at inClass
        · simpa [inClass] using ih member
      · simpa [inClass] using member

theorem startsWith_append (nonempty : characters ≠ []) (more : List Char) :
    startsWith class? (characters ++ more) = startsWith class? characters := by
  cases characters with
  | nil => exact absurd rfl nonempty
  | cons character rest => rfl

end Runs

theorem readPathPiece?_append {characters rest : List Char} {piece : PathPiece}
    (read : readPathPiece? characters = some (piece, rest)) (left : rest ≠ [])
    (more : List Char) :
    readPathPiece? (characters ++ more) = some (piece, rest ++ more) := by
  unfold readPathPiece? at read
  split at read
  · rename_i tail
    split at read
    · rename_i named
      obtain ⟨rfl, rfl⟩ := by simpa using read
      have nonempty : tail ≠ [] := by
        rintro rfl
        simp [startsWith] at named
      have tailLeft : tail.dropWhile isNameCharacter ≠ [] := left
      simp [readPathPiece?, startsWith_append nonempty, named, takeName, dropName,
        takeWhile_append_of_left tailLeft, dropWhile_append_of_left tailLeft]
    · simp at read
  · rename_i tail
    split at read
    · rename_i digit digits after taken dropped
      obtain ⟨rfl, rfl⟩ := by simpa using read
      have tailLeft : tail.dropWhile Char.isDigit ≠ [] := by simp [dropped]
      simp [readPathPiece?, takeWhile_append_of_left tailLeft,
        dropWhile_append_of_left tailLeft, taken, dropped]
    · simp at read
  · simp at read

/-- A character that ends a path wherever it stands: no step of a path can be read
across it. -/
def EndsPath (character : Char) : Prop :=
  character ≠ '.' ∧ character ≠ '[' ∧ character.isDigit = false

theorem readPathPiece?_append_none {characters : List Char} {character : Char}
    (read : readPathPiece? characters = none) (member : character ∈ characters)
    (ends : EndsPath character) (more : List Char) :
    readPathPiece? (characters ++ more) = none := by
  obtain ⟨notDot, notBracket, notDigit⟩ := ends
  rcases characters with _ | ⟨first, tail⟩
  · cases member
  have inTail : first = '.' ∨ first = '[' → character ∈ tail := by
    rintro (rfl | rfl) <;> simpa [notDot, notBracket] using member
  by_cases isDot : first = '.'
  · subst isDot
    have nonempty : tail ≠ [] := List.ne_nil_of_mem (inTail (.inl rfl))
    simpa [readPathPiece?, startsWith_append nonempty] using read
  · by_cases isBracket : first = '['
    · subst isBracket
      have tailLeft : tail.dropWhile Char.isDigit ≠ [] :=
        List.ne_nil_of_mem (mem_dropWhile (inTail (.inr rfl)) notDigit)
      simp only [readPathPiece?, List.cons_append, takeWhile_append_of_left tailLeft,
        dropWhile_append_of_left tailLeft] at read ⊢
      revert read tailLeft
      rcases tail.takeWhile Char.isDigit with _ | ⟨digit, digits⟩
      · simp
      · rcases tail.dropWhile Char.isDigit with _ | ⟨next, after⟩
        · simp
        · by_cases closes : next = ']'
          · subst closes
            simp
          · simp [closes]
    · simp [readPathPiece?, isDot, isBracket]

theorem readPathPiece?_scanPathPieces_rest (offset : Nat) (characters : List Char) :
    readPathPiece? (scanPathPieces offset characters).rest = none := by
  fun_induction scanPathPieces offset characters with
  | case1 offset characters read => exact read
  | case2 offset characters piece rest read scanned ih => exact ih

theorem scanPathPieces_followedBy (offset : Nat) (characters more : List Char) :
    (scanPathPieces offset characters).rest ≠ [] →
      readPathPiece? ((scanPathPieces offset characters).rest ++ more) = none →
        scanPathPieces offset (characters ++ more) =
          (scanPathPieces offset characters).followedBy more := by
  fun_induction scanPathPieces offset characters with
  | case1 offset characters read =>
      intro _ ends
      rw [scanPathPieces_eq]
      simp only [Scan.idle] at ends
      rw [ends]
      rfl
  | case2 offset characters piece rest read scanned ih =>
      intro left ends
      have restLeft : rest ≠ [] := by
        rintro rfl
        have shorter := length_scanPathPieces_le (offset + piece.byteSize) []
        exact left (List.eq_nil_of_length_eq_zero (Nat.le_zero.mp shorter))
      rw [scanPathPieces_eq, readPathPiece?_append read restLeft]
      dsimp only
      rw [ih left ends]
      rfl

theorem scanPath_followedBy {offset : Nat} {characters more : List Char}
    (left : (scanPath offset characters).rest ≠ [])
    (ends : readPathPiece? ((scanPath offset characters).rest ++ more) = none) :
    scanPath offset (characters ++ more) =
      (scanPath offset characters).followedBy more := by
  have nameLeft : characters.dropWhile isNameCharacter ≠ [] := by
    intro nothing
    have shorter := length_scanPathPieces_le
      (offset + 1 + byteLength (takeName characters)) (dropName characters)
    simp only [dropName, nothing, List.length_nil, Nat.le_zero] at shorter
    refine left (List.eq_nil_of_length_eq_zero ?_)
    simpa [scanPath, dropName, nothing] using shorter
  have name : takeName (characters ++ more) = takeName characters :=
    takeWhile_append_of_left nameLeft more
  have after : dropName (characters ++ more) = dropName characters ++ more :=
    dropWhile_append_of_left nameLeft more
  simp only [scanPath, name, after, scanPathPieces_followedBy _ _ _ left ends]
  rfl

theorem endsPath_closer : EndsPath ')' :=
  ⟨by decide, by decide, by decide⟩

namespace NumberLiteral

theorem fraction_isPrefix (text : List Char) : fraction text <+: text := by
  unfold fraction
  split
  · rename_i rest
    split
    · exact List.nil_prefix
    · exact List.cons_prefix_cons.mpr ⟨rfl, List.takeWhile_prefix _⟩
  · exact List.nil_prefix

theorem fraction_append {text : List Char} (closes : ')' ∈ text) (more : List Char) :
    fraction (text ++ more) = fraction text := by
  rcases text with _ | ⟨first, rest⟩
  · cases closes
  by_cases isPoint : first = '.'
  · subst isPoint
    have inRest : ')' ∈ rest := by simpa using closes
    have left : rest.dropWhile Char.isDigit ≠ [] :=
      List.ne_nil_of_mem (mem_dropWhile inRest (by decide))
    simp [fraction, takeWhile_append_of_left left]
  · simp [fraction, isPoint]

theorem exponent_isPrefix (text : List Char) : exponent text <+: text := by
  unfold exponent
  split
  · exact List.nil_prefix
  · rename_i mark rest
    split
    · split
      · exact List.nil_prefix
      · rename_i sign tail
        split
        · split
          · exact List.nil_prefix
          · exact List.cons_prefix_cons.mpr
              ⟨rfl, List.cons_prefix_cons.mpr ⟨rfl, List.takeWhile_prefix _⟩⟩
        · split
          · exact List.nil_prefix
          · exact List.cons_prefix_cons.mpr ⟨rfl, List.takeWhile_prefix _⟩
    · exact List.nil_prefix

theorem exponent_append {text : List Char} (closes : ')' ∈ text) (more : List Char) :
    exponent (text ++ more) = exponent text := by
  rcases text with _ | ⟨mark, rest⟩
  · cases closes
  by_cases isMark : mark = 'e' ∨ mark = 'E'
  · have inRest : ')' ∈ rest := by
      rcases isMark with rfl | rfl <;> simpa using closes
    rcases rest with _ | ⟨sign, tail⟩
    · cases inRest
    by_cases isSign : sign = '+' ∨ sign = '-'
    · have inTail : ')' ∈ tail := by
        rcases isSign with rfl | rfl <;> simpa using inRest
      have left : tail.dropWhile Char.isDigit ≠ [] :=
        List.ne_nil_of_mem (mem_dropWhile inTail (by decide))
      simp only [exponent, List.cons_append, isMark, isSign, if_true,
        takeWhile_append_of_left left]
    · have left : (sign :: tail).dropWhile Char.isDigit ≠ [] :=
        List.ne_nil_of_mem (mem_dropWhile inRest (by decide))
      have digits := takeWhile_append_of_left left more
      simp only [List.cons_append] at digits
      simp only [exponent, List.cons_append, isMark, isSign, if_true, if_false, digits]
  · simp only [exponent, List.cons_append, isMark, if_false]

/-- A number does not depend on what comes after a parenthesis that closes. -/
theorem ofFront_append {first : Char} {text : List Char}
    (closes : ')' ∈ (ofFront first text).rest) (more : List Char) :
    ofFront first (text ++ more) =
      { ofFront first text with rest := (ofFront first text).rest ++ more } := by
  simp only [ofFront] at closes
  have afterFraction := List.mem_of_mem_drop closes
  have afterDigits := List.mem_of_mem_drop afterFraction
  have left := List.ne_nil_of_mem afterDigits
  simp only [ofFront, takeWhile_append_of_left left, dropWhile_append_of_left left,
    fraction_append afterDigits, exponent_append afterFraction,
    List.drop_append_of_le_length (fraction_isPrefix _).length_le,
    List.drop_append_of_le_length (exponent_isPrefix _).length_le]

end NumberLiteral

theorem scanNumber_followedBy {offset : Nat} {first : Char} {text : List Char}
    (closes : ')' ∈ (scanNumber offset first text).rest) (more : List Char) :
    scanNumber offset first (text ++ more) =
      (scanNumber offset first text).followedBy more := by
  have literalCloses : ')' ∈ (NumberLiteral.ofFront first text).rest := by
    unfold scanNumber at closes
    dsimp only at closes
    split at closes <;> exact closes
  simp only [scanNumber, NumberLiteral.ofFront_append literalCloses]
  have sameKind : (NumberLiteral.kind?
      { NumberLiteral.ofFront first text with
        rest := (NumberLiteral.ofFront first text).rest ++ more }) =
      (NumberLiteral.ofFront first text).kind? := rfl
  rw [sameKind]
  cases (NumberLiteral.ofFront first text).kind? <;> rfl

theorem dropName_append {characters : List Char} (closes : ')' ∈ dropName characters)
    (more : List Char) : dropName (characters ++ more) = dropName characters ++ more :=
  dropWhile_append_of_left (List.ne_nil_of_mem closes) more

theorem takeName_append {characters : List Char} (closes : ')' ∈ dropName characters)
    (more : List Char) : takeName (characters ++ more) = takeName characters :=
  takeWhile_append_of_left (List.ne_nil_of_mem closes) more

/-- An item of a header does not depend on what comes after a parenthesis that
closes. -/
theorem scanItem_followedBy {lead : ItemLead} {offset : Nat} {character : Char}
    {rest : List Char} (closes : ')' ∈ (scanItem lead offset character rest).rest)
    (more : List Char) :
    scanItem lead offset character (rest ++ more) =
      (scanItem lead offset character rest).followedBy more := by
  cases lead with
  | punctuation kind => rfl
  | stray => rfl
  | path =>
      have ended : readPathPiece? (scanPath offset rest).rest = none :=
        readPathPiece?_scanPathPieces_rest _ _
      exact scanPath_followedBy (List.ne_nil_of_mem closes)
        (readPathPiece?_append_none ended closes endsPath_closer more)
  | macroCall =>
      have inRest : ')' ∈ dropName rest := closes
      simp only [scanItem, scanMacroName, takeName_append inRest, dropName_append inRest]
      rfl
  | number => exact scanNumber_followedBy closes more
  | word =>
      have inRest : ')' ∈ dropName rest := closes
      simp only [scanItem, scanWord, takeName_append inRest, dropName_append inRest]
      rfl

theorem itemLead_append (character : Char) {rest : List Char} (nonempty : rest ≠ [])
    (more : List Char) : itemLead character (rest ++ more) = itemLead character rest := by
  simp only [itemLead, startsWith_append nonempty]

theorem headerLead_append (character : Char) {rest : List Char} (nonempty : rest ≠ [])
    (more : List Char) :
    headerLead character (rest ++ more) = headerLead character rest := by
  simp only [headerLead, itemLead_append character nonempty]

theorem readString?_written {quote : Char} {characters : List Char} {body : StringBody}
    (read : readString? quote characters = some body) :
    characters = body.written ++ body.rest := by
  fun_induction readString? quote characters generalizing body with
  | case1 => simp at read
  | case2 => simp at read
  | case3 escaped rest ih =>
      obtain ⟨inner, innerRead, rfl⟩ := Option.map_eq_some_iff.mp read
      simp [StringBody.prepend, ih innerRead]
  | case4 rest =>
      simp_all
      subst read
      rfl
  | case5 character rest _ _ _ ih =>
      obtain ⟨inner, innerRead, rfl⟩ := Option.map_eq_some_iff.mp read
      simp [StringBody.prepend, ih innerRead]

theorem readString?_cons (quote : Char) {character : Char}
    (plain : character ≠ '\\') (rest : List Char) :
    readString? quote (character :: rest) =
      if character = quote then some ⟨[], [quote], rest⟩
      else (readString? quote rest).map (StringBody.prepend [character] [character]) := by
  rw [readString?]
  · intro isEscape
    exact absurd isEscape plain
  · intro escaped _ isEscape
    exact absurd isEscape plain

/-- A string is read from its written form, whatever follows. -/
theorem readString?_of_written {quote : Char} {characters : List Char} {body : StringBody}
    (read : readString? quote characters = some body) (others : List Char) :
    readString? quote (body.written ++ others) = some { body with rest := others } := by
  fun_induction readString? quote characters generalizing body with
  | case1 => cases read
  | case2 => cases read
  | case3 escaped rest ih =>
      obtain ⟨inner, innerRead, rfl⟩ := Option.map_eq_some_iff.mp read
      simp [readString?, ih innerRead, StringBody.prepend]
  | case4 rest notLast notEscape =>
      have plain : quote ≠ '\\' := by
        rintro rfl
        cases rest with
        | nil => exact notLast rfl rfl
        | cons escaped rest => exact notEscape escaped rest rfl rfl
      obtain rfl := Option.some.inj read
      rw [List.singleton_append, readString?_cons quote plain, if_pos rfl]
  | case5 character rest notLast notEscape other ih =>
      have plain : character ≠ '\\' := by
        rintro rfl
        cases rest with
        | nil => exact notLast rfl rfl
        | cons escaped rest => exact notEscape escaped rest rfl rfl
      obtain ⟨inner, innerRead, rfl⟩ := Option.map_eq_some_iff.mp read
      simp [StringBody.prepend, readString?_cons quote plain, other, ih innerRead]

theorem readString?_append {quote : Char} {characters : List Char} {body : StringBody}
    (read : readString? quote characters = some body) (more : List Char) :
    readString? quote (characters ++ more) =
      some { body with rest := body.rest ++ more } := by
  rw [readString?_written read, List.append_assoc]
  exact readString?_of_written read (body.rest ++ more)

theorem readPathPiece?_suffix {characters rest : List Char} {piece : PathPiece}
    (read : readPathPiece? characters = some (piece, rest)) : rest <:+ characters := by
  unfold readPathPiece? at read
  split at read
  · rename_i tail
    split at read
    · obtain ⟨-, rfl⟩ := by simpa using read
      exact (List.dropWhile_suffix _).trans (List.suffix_cons _ _)
    · simp at read
  · rename_i tail
    split at read
    · rename_i digit digits after taken dropped
      obtain ⟨-, rfl⟩ := by simpa using read
      have : after <:+ tail.dropWhile Char.isDigit := by
        rw [dropped]
        exact List.suffix_cons _ _
      exact (this.trans (List.dropWhile_suffix _)).trans (List.suffix_cons _ _)
    · simp at read
  · simp at read

theorem scanPathPieces_suffix (offset : Nat) (characters : List Char) :
    (scanPathPieces offset characters).rest <:+ characters := by
  fun_induction scanPathPieces offset characters with
  | case1 => exact List.suffix_refl _
  | case2 offset characters piece rest read scanned ih =>
      exact ih.trans (readPathPiece?_suffix read)

theorem scanItem_suffix (lead : ItemLead) (offset : Nat) (character : Char)
    (rest : List Char) : (scanItem lead offset character rest).rest <:+ rest := by
  cases lead with
  | punctuation kind => exact List.suffix_refl _
  | stray => exact List.suffix_refl _
  | path => exact (scanPathPieces_suffix _ _).trans (List.dropWhile_suffix _)
  | macroCall => exact List.dropWhile_suffix _
  | number =>
      have literal : (NumberLiteral.ofFront character rest).rest <:+ rest :=
        ((List.drop_suffix _ _).trans (List.drop_suffix _ _)).trans
          (List.dropWhile_suffix _)
      unfold scanItem scanNumber
      dsimp only
      split <;> exact literal
  | word => exact List.dropWhile_suffix _

end Stencil
