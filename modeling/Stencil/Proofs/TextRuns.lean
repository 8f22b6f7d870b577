import Stencil.Proofs.ScanLocal

/-!
# Runs of literal text

A run of literal text, how it is written, and how it goes on when more text
follows it.
-/

namespace Stencil

theorem eq_of_isSigil {character : Char} (sigil : isSigil character) :
    character = '$' ∨ character = '@' ∨ character = '#' := by
  simpa [isSigil, or_assoc] using sigil

namespace TextRun

theorem startsDirective_of_plain {character : Char} (plain : isSigil character = false)
    (next : Char) : startsDirective character next = false := by
  unfold startsDirective
  split
  · subst_vars
    cases plain
  · simp [plain]

/-- A text consists of the run at its front and what is left. -/
theorem written_append_rest (characters : List Char) :
    (ofFront characters).written ++ (ofFront characters).rest = characters := by
  fun_induction ofFront characters with
  | case1 => rfl
  | case2 => rfl
  | case3 character next rest isDoubled ih => simp [prepend, ih]
  | case4 => rfl
  | case5 character next rest _ _ ih => simp [prepend, ih]

/-- What is left after a run begins with a sigil. -/
theorem isSigil_of_rest {characters rest : List Char} {sigil : Char}
    (left : (ofFront characters).rest = sigil :: rest) : isSigil sigil := by
  fun_induction ofFront characters with
  | case1 => cases left
  | case2 => cases left
  | case3 character next rest _ ih => exact ih left
  | case4 character next rest _ starts =>
      obtain ⟨rfl, -⟩ := List.cons.inj left
      cases isFirst : isSigil character with
      | true => rfl
      | false =>
          rw [startsDirective_of_plain isFirst] at starts
          cases starts
  | case5 character next rest _ _ ih => exact ih left

/-- A run goes on behind a character that is no sigil. -/
theorem ofFront_cons {character : Char} (plain : isSigil character = false)
    (rest : List Char) :
    ofFront (character :: rest) = (ofFront rest).prepend character [character] := by
  cases rest with
  | nil => rfl
  | cons next rest => simp [ofFront, plain, startsDirective_of_plain plain]

/-- A text without sigils is a run as it stands. -/
theorem ofFront_of_plain {characters : List Char}
    (plain : ∀ character ∈ characters, isSigil character = false) :
    ofFront characters = ⟨characters, characters, []⟩ := by
  induction characters with
  | nil => rfl
  | cons character rest ih =>
      have ⟨here, later⟩ := List.forall_mem_cons.mp plain
      rw [ofFront_cons here, ih later]
      rfl

/-- A run that something ends stays the same when the text goes on. -/
theorem ofFront_append_of_left {characters : List Char}
    (left : (ofFront characters).rest ≠ []) (more : List Char) :
    ofFront (characters ++ more) =
      { ofFront characters with rest := (ofFront characters).rest ++ more } := by
  fun_induction ofFront characters with
  | case1 => exact absurd rfl left
  | case2 => exact absurd rfl left
  | case3 character next rest isDoubled ih =>
      simp only [List.cons_append, ofFront, isDoubled.1, isDoubled.2, and_self, if_true]
      rw [ih left]
      rfl
  | case4 character next rest notDoubled starts =>
      simp only [List.cons_append, ofFront, notDoubled, starts, if_false, if_true]
  | case5 character next rest notDoubled starts ih =>
      simp only [List.cons_append, ofFront, notDoubled, starts, if_false]
      simp only [List.cons_append] at ih
      rw [ih left]
      rfl

/-- A run up to the end of a text goes on with the run that follows, unless the
text ends with a sigil. -/
theorem ofFront_append_of_ended {characters : List Char}
    (ended : (ofFront characters).rest = [])
    (lastPlain : ∀ last ∈ characters.getLast?, isSigil last = false)
    (more : List Char) :
    ofFront (characters ++ more) =
      ⟨(ofFront characters).content ++ (ofFront more).content,
        characters ++ (ofFront more).written, (ofFront more).rest⟩ := by
  fun_induction ofFront characters with
  | case1 => rfl
  | case2 character =>
      have notSigil : isSigil character = false := lastPlain character (by simp)
      rw [List.singleton_append, ofFront_cons notSigil]
      rfl
  | case3 character next rest isDoubled ih =>
      have restPlain : ∀ last ∈ rest.getLast?, isSigil last = false := by
        intro last isLast
        apply lastPlain last
        cases rest with
        | nil => cases isLast
        | cons first rest => simpa using isLast
      simp only [List.cons_append, ofFront, isDoubled.1, isDoubled.2, and_self, if_true]
      rw [ih ended restPlain]
      rfl
  | case4 => cases ended
  | case5 character next rest notDoubled starts ih =>
      have restPlain : ∀ last ∈ (next :: rest).getLast?, isSigil last = false := by
        intro last isLast
        exact lastPlain last (by simpa using isLast)
      simp only [List.cons_append, ofFront, notDoubled, starts, if_false]
      simp only [List.cons_append] at ih
      rw [ih ended restPlain]
      rfl

end TextRun

end Stencil
