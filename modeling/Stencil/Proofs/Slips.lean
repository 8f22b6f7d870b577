import Stencil.Proofs.Concatenation
import Stencil.Proofs.PrintedPrograms
import Stencil.Proofs.WrittenConstants

/-!
# Slips

Small mistakes of which a template may hold any number.  Each of them is reported once,
inside its own bytes, and the parser goes on after it as if it were not there.
-/

namespace Stencil

/-- No character of a text starts a path, a macro call or a directive. -/
def SigilFree (characters : List Char) : Prop :=
  ∀ character ∈ characters, isSigil character = false

/-- A directive with what stands between the parentheses of its header. -/
def Keyword.headed (keyword : Keyword) (inside : List Char) : List Char :=
  keyword.written ++ ' ' :: '(' :: (inside ++ [')'])

/-- A mistake in one place of a template. -/
inductive Slip where
  /-- A directive that the language does not have. -/
  | unknownDirective (word : String)
  /-- A keyword that continues or closes a block, where no block is open. -/
  | orphanKeyword (keyword : Keyword)
  /-- The name of a macro, without arguments. -/
  | missingArguments (name : String)
  /-- Two constants as the arguments of a macro, without a comma. -/
  | missingComma (name : String) (first second : List Char)
  /-- Two constants as the condition of a block. -/
  | secondCondition (first second body : List Char)
  /-- A loop without the word before what it runs over. -/
  | missingLoopWord (item : String) (iterable body : List Char)
  /-- A binding without the sign before its value. -/
  | missingAssign (name : String) (value : List Char)
  deriving DecidableEq, Repr

namespace Slip

def written : Slip → List Char
  | unknownDirective word => '#' :: word.toList
  | orphanKeyword keyword => keyword.written
  | missingArguments name => '@' :: name.toList
  | missingComma name first second =>
      '@' :: (name.toList ++ '(' :: (first ++ ' ' :: second ++ [')']))
  | secondCondition first second body =>
      Keyword.ifBlock.headed (first ++ ' ' :: second) ++ (body ++ Keyword.endBlock.written)
  | missingLoopWord item iterable body =>
      Keyword.forBlock.headed (item.toList ++ ' ' :: iterable) ++
        (body ++ Keyword.endBlock.written)
  | missingAssign name value => Keyword.letBinding.headed (name.toList ++ ' ' :: value)

/-- The code under which a slip is reported. -/
def code : Slip → String
  | unknownDirective _ => "E0010"
  | orphanKeyword _ => "E0015"
  | missingArguments _ => "E0013"
  | missingComma _ _ _ | secondCondition _ _ _ | missingLoopWord _ _ _
  | missingAssign _ _ => "E0001"

/-- The words of a slip are words, its constants are constants, and its body is literal
text. -/
def WellFormed : Slip → Prop
  | unknownDirective word =>
      isName word ∧ startsWith Char.isAlpha word.toList ∧ Keyword.ofWord? word = none
  | orphanKeyword keyword => keyword = .endBlock ∨ keyword = .elseBranch
  | missingArguments name => isName name
  | missingComma name first second =>
      isName name ∧ WritesConstant first ∧ WritesConstant second
  | secondCondition first second body =>
      WritesConstant first ∧ WritesConstant second ∧ SigilFree body
  | missingLoopWord item iterable body =>
      isName item ∧ WritesConstant iterable ∧ SigilFree body
  | missingAssign name value => isName name ∧ WritesConstant value

end Slip

theorem writtenText_of_sigilFree {characters : List Char} (free : SigilFree characters) :
    writtenText characters = characters := by
  induction characters with
  | nil => rfl
  | cons character characters ih =>
      obtain ⟨plain, others⟩ := List.forall_mem_cons.mp free
      rw [writtenText_plain plain, ih others]

/-- Literal text without sigils is one run. -/
theorem scansInto_sigilFree (trim : Bool) {own : List Char} (free : SigilFree own)
    (offset : Nat) {following : List Char} (begins : BeginsPiece following) :
    ScansInto (scanBody trim) (scanAfterText trim) offset own following
      (TextRun.tokens ⟨own, own, following⟩ offset) := by
  have run := ofFront_writtenText own begins
  rw [writtenText_of_sigilFree free] at run
  rw [ScansInto, scanBody_eq, run]

/-- Only a line break at its front can be trimmed from the text before a directive. -/
theorem trimLineBreak_before (trim : Bool) (offset : Nat) (body following : List Char) :
    ∃ skipped kept, body = skipped ++ kept ∧
      trimLineBreak trim offset (body ++ '#' :: following) =
        (offset + byteLength skipped, kept ++ '#' :: following) := by
  have untouched (body : List Char)
      (same : skipLineBreak offset (body ++ '#' :: following) =
        (offset, body ++ '#' :: following)) :
      ∃ skipped kept, body = skipped ++ kept ∧
        skipLineBreak offset (body ++ '#' :: following) =
          (offset + byteLength skipped, kept ++ '#' :: following) :=
    ⟨[], body, rfl, same⟩
  cases trim with
  | false => exact ⟨[], body, rfl, rfl⟩
  | true =>
      simp only [trimLineBreak, if_true]
      rcases body with _ | ⟨first, rest⟩
      · exact untouched [] rfl
      by_cases isFeed : first = '\n'
      · subst isFeed
        exact ⟨['\n'], rest, rfl, rfl⟩
      by_cases isReturn : first = '\r'
      · subst isReturn
        rcases rest with _ | ⟨second, rest⟩
        · exact untouched ['\r'] rfl
        by_cases isFeed : second = '\n'
        · subst isFeed
          exact ⟨['\r', '\n'], rest, rfl, rfl⟩
        · exact untouched _ (by simp [skipLineBreak, isFeed])
      · exact untouched _ (by simp [skipLineBreak, isFeed, isReturn])

/-- Two items of a header with a space between them are two tokens. -/
theorem headerScans_pair {offset : Nat} {first second following : List Char}
    {token other : Token}
    (scans : HeaderScans offset first (' ' :: second ++ following) [token])
    (further : HeaderScans (offset + byteLength first + 1) second following [other]) :
    HeaderScans offset (first ++ ' ' :: second) following [token, other] := by
  have space : HeaderScans (offset + byteLength first) [' '] (second ++ following) [] :=
    .blanks (by simp [Blanks, isBlank]) _ _
  exact .append scans (.append space further)

end Stencil
