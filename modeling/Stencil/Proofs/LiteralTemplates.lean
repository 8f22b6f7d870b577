import Stencil.Proofs.Concatenation
import Stencil.Proofs.PrintedPrograms
import Stencil.Proofs.WrittenTokens

/-!
# Literal templates

A template in which no sigil starts anything is one literal text.  It resolves to itself,
with every doubled sigil made single, whatever the data, the macros and the settings are.
So a text in which all sigils are doubled resolves to the text.
-/

namespace Stencil

/-- Whether a sigil and the character after it begin a path, a macro call or a
directive. -/
def beginsMarkup (sigil next : Char) : Bool :=
  ((sigil = '$' ∨ sigil = '@') ∧ (next.isAlpha ∨ next = '_')) ∨ (sigil = '#' ∧ next.isAlpha)

/-- Whether a text that is read from left to right, a doubled sigil being one escaped
character, has no path, macro call or directive. -/
def isDirectiveFree : List Char → Bool
  | [] => true
  | [_] => true
  | character :: next :: rest =>
      if isSigil character ∧ next = character then isDirectiveFree rest
      else !beginsMarkup character next && isDirectiveFree (next :: rest)

theorem startsDirective_eq_beginsMarkup (sigil next : Char) :
    startsDirective sigil next = beginsMarkup sigil next := by
  by_cases isHash : sigil = '#'
  · subst isHash
    simp [startsDirective, beginsMarkup]
  · rw [Bool.eq_iff_iff]
    simp [startsDirective, beginsMarkup, isHash, isSigil, isNameStart]

namespace TextRun

/-- A text is a single run if and only if it has no directive. -/
theorem rest_eq_nil_iff (characters : List Char) :
    (ofFront characters).rest = [] ↔ isDirectiveFree characters := by
  fun_induction ofFront characters with
  | case1 => simp [isDirectiveFree]
  | case2 => simp [isDirectiveFree]
  | case3 character next rest isDoubled ih =>
      rw [isDirectiveFree, if_pos isDoubled]
      exact ih
  | case4 character next rest notDoubled starts =>
      rw [startsDirective_eq_beginsMarkup] at starts
      simp [isDirectiveFree, notDoubled, starts]
  | case5 character next rest notDoubled starts ih =>
      rw [startsDirective_eq_beginsMarkup, Bool.not_eq_true] at starts
      simpa [isDirectiveFree, notDoubled, starts, prepend] using ih

/-- The content of a single run is the text with single sigils. -/
theorem content_of_ended {characters : List Char}
    (ended : (ofFront characters).rest = []) :
    (ofFront characters).content = singleSigils characters := by
  have whole := written_append_rest characters
  rw [ended, List.append_nil] at whole
  rw [← singleSigils_written, whole]

end TextRun

theorem TextRun.tokens_not_markup (run : TextRun) (offset : Nat) :
    ∀ token ∈ run.tokens offset, token.kind.isMarkup = false := by
  unfold TextRun.tokens
  split <;> simp [TokenKind.isMarkup]

/-- A template that is a single run of literal text has no other tokens than that. -/
theorem tokenize_of_ended (trim : Bool) {text : String}
    (ended : (TextRun.ofFront text.toList).rest = []) :
    ∃ span, tokenize trim text =
      ((TextRun.ofFront text.toList).tokens 0 ++ [⟨.endOfInput, span⟩], []) := by
  rw [tokenize_eq, scanAfterRun]
  simp only [ended]
  exact ⟨_, rfl⟩

/-- All tokens of a template are literal text if and only if it has no directive. -/
theorem tokenize_literal_iff (trim : Bool) (text : String) :
    (∀ token ∈ (tokenize trim text).1, token.kind.isMarkup = false) ↔
      isDirectiveFree text.toList := by
  rw [← TextRun.rest_eq_nil_iff]
  constructor
  · intro literal
    cases left : (TextRun.ofFront text.toList).rest with
    | nil => rfl
    | cons sigil rest =>
        -- What is left behind the run begins with a sigil, and so with a token of its own.
        obtain ⟨token, others, split, -, -⟩ := scanSigil_first trim sigil
          (byteLength (TextRun.ofFront text.toList).written) rest
        have member : token ∈ (tokenize trim text).1 := by
          simp [tokenize_eq, scanAfterRun, left, scanAfterText, Scan.prepend, split]
        have isMarkup := scanSigil_markup trim sigil _ rest token
          (split ▸ List.mem_cons_self)
        rw [literal token member] at isMarkup
        cases isMarkup
  · intro ended token member
    obtain ⟨span, scan⟩ := tokenize_of_ended trim ended
    rw [scan, List.mem_append, List.mem_singleton] at member
    rcases member with inRun | rfl
    · exact TextRun.tokens_not_markup _ 0 token inRun
    · rfl

namespace Engine

variable (engine : Engine)

/-- A template that is a single run of literal text is parsed to that text. -/
theorem parse_of_ended {text : String} (ended : (TextRun.ofFront text.toList).rest = []) :
    (engine.parse text).diagnostics = [] ∧
      ∃ span, (engine.parse text).program.nodes =
        (TextRun.ofFront text.toList).nodes span := by
  let run := TextRun.ofFront text.toList
  obtain ⟨span, scan⟩ := tokenize_of_ended engine.settings.trimLineBreaks ended
  have shallow : bodyNesting (run.nodes ⟨0, 0 + byteLength run.written⟩) ≤
      engine.settings.maxDepth := by
    rw [run.nodes_nesting]
    exact Nat.zero_le _
  obtain ⟨clean, nodes⟩ := parseTemplate_of_spelled scan (run.nodes_spelled 0) shallow
  exact ⟨clean, _, nodes⟩

theorem outcome_evaluate_run (evaluator : Evaluator) (run : TextRun) (span : Span)
    {program : Program} (nodes : program.nodes = run.nodes span) (state : EvaluationState) :
    ((evaluator.evaluate program).outcome state).1 = .ok (String.ofList run.content) := by
  rw [Evaluator.evaluate, nodes, TextRun.nodes]
  split
  · rename_i empty
    rw [empty, Evaluator.evaluateBody]
    rfl
  · rw [Evaluator.evaluateBody_text, Evaluator.evaluateBody, pure_bind, pure_bind,
      String.append_empty]
    rfl

/-- A template that is a single run of literal text resolves to the content of the run. -/
theorem resolve_of_ended {text : String} (ended : (TextRun.ofFront text.toList).rest = [])
    (data : Fields) :
    (engine.resolve text data).answer =
      .ok (String.ofList (TextRun.ofFront text.toList).content) := by
  obtain ⟨clean, span, nodes⟩ := engine.parse_of_ended ended
  rw [resolve_of_clean clean]
  exact congrArg (Except.mapError TemplateError.stopped)
    (outcome_evaluate_run _ _ span nodes _)

/-- A template has only tokens of literal text if and only if no sigil in it starts
anything.  Such a template resolves to itself, with every doubled sigil made single,
whatever the macros, the settings and the data are; and a text with all its sigils
doubled resolves to the text. -/
theorem resolve_directiveFree (text : String) :
    (∀ trim, (∀ token ∈ (tokenize trim text).1, token.kind.isMarkup = false) ↔
      isDirectiveFree text.toList) ∧
    (isDirectiveFree text.toList → ∀ (engine : Engine) (data : Fields),
      (engine.resolve text data).answer = .ok (String.ofList (singleSigils text.toList))) ∧
    ∀ (engine : Engine) (data : Fields),
      (engine.resolve (String.ofList (writtenText text.toList)) data).answer = .ok text := by
  refine ⟨fun trim => tokenize_literal_iff trim text, ?_, ?_⟩
  · intro free engine data
    have ended := (TextRun.rest_eq_nil_iff text.toList).mpr free
    rw [engine.resolve_of_ended ended, TextRun.content_of_ended ended]
  · intro engine data
    have run := ofFront_writtenText text.toList (show BeginsPiece [] from .inl rfl)
    rw [List.append_nil] at run
    have ended : (TextRun.ofFront
        (String.ofList (writtenText text.toList)).toList).rest = [] := by
      rw [String.toList_ofList, run]
    rw [engine.resolve_of_ended ended, String.toList_ofList, run, String.ofList_toList]

/-- Runs of sigils are paired from the left, and the last one of an odd number starts
nothing before a digit, a blank, another sigil or the end. -/
theorem resolve_directiveFree_sigilRuns :
    let text := "$$$1 #@@x $$$$y ###_ @é #"
    isDirectiveFree text.toList ∧ isDirectiveFree "$$$x".toList = false ∧
      ((create ⟨0, true⟩).resolve text ∅).answer = .ok "$$1 #@x $$y ##_ @é #" := by
  intro text
  have free : isDirectiveFree text.toList := by decide
  obtain ⟨-, resolves, -⟩ := resolve_directiveFree text
  refine ⟨free, by decide, ?_⟩
  rw [resolves free]
  exact congrArg Except.ok (by decide)

end Engine

end Stencil
