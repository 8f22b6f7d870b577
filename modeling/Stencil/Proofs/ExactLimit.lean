import Stencil.Proofs.DepthLimit
import Stencil.Proofs.FaithfulParse
import Stencil.Proofs.ReadBackBody

/-!
# The limit of nesting is exact

A limit refuses the templates that are nested deeper than it allows, and no others.  What a
template is parsed into does not depend on the limit, as long as the limit lets it pass; and a
limit as high as the number of tokens lets every template pass.
-/

namespace Stencil

mutual

theorem Expression.nesting_le_kinds : ∀ expression : Expression,
    expression.nesting ≤ expression.kinds.length
  | .path _ _ => Nat.zero_le _
  | .literal _ _ => Nat.zero_le _
  | .call name arguments span => by
      have inside := argumentsNesting_le_kinds arguments
      simp only [Expression.nesting, Expression.kinds, List.length_cons, List.length_append]
      omega

theorem argumentsNesting_le_kinds : ∀ arguments : List Expression,
    argumentsNesting arguments ≤ (argumentKinds arguments).length
  | [] => Nat.le_refl _
  | argument :: arguments => by
      have first := argument.nesting_le_kinds
      have others := argumentsNesting_le_furtherKinds arguments
      simp only [argumentsNesting, argumentKinds, List.length_append]
      omega

theorem argumentsNesting_le_furtherKinds : ∀ arguments : List Expression,
    argumentsNesting arguments ≤ (furtherArgumentKinds arguments).length
  | [] => Nat.le_refl _
  | argument :: arguments => by
      have first := argument.nesting_le_kinds
      have others := argumentsNesting_le_furtherKinds arguments
      simp only [argumentsNesting, furtherArgumentKinds, List.length_cons, List.length_append]
      omega

end

mutual

theorem Node.nesting_le_kinds : ∀ node : Node, node.nesting ≤ node.kinds.length
  | .text _ _ => Nat.zero_le _
  | .output expression => expression.nesting_le_kinds
  | .conditional branches otherwise span => by
      have inBranches := branchesNesting_le_kinds .ifBlock branches
      have inLast := otherwiseNesting_le_kinds otherwise
      simp only [Node.nesting, Node.kinds, List.length_append, List.length_singleton]
      omega
  | .loop key item iterable body span => by
      have inIterable := iterable.nesting_le_kinds
      have inBody := bodyNesting_le_kinds body
      simp only [Node.nesting, Node.kinds, List.length_cons, List.length_append]
      omega
  | .binding name value span => by
      have inValue := value.nesting_le_kinds
      simp only [Node.nesting, Node.kinds, List.length_cons, List.length_append]
      omega

theorem branchesNesting_le_kinds : ∀ (keyword : Keyword) (branches : List Branch),
    branchesNesting branches ≤ (branchKinds keyword branches).length
  | _, [] => Nat.le_refl _
  | keyword, branch :: branches => by
      have first := branch.nesting_le_kinds
      have others := branchesNesting_le_kinds .elifBranch branches
      simp only [branchesNesting, branchKinds, List.length_cons, List.length_append]
      omega

theorem Branch.nesting_le_kinds : ∀ branch : Branch, branch.nesting ≤ branch.kinds.length
  | .mk condition body => by
      have inCondition := condition.nesting_le_kinds
      have inBody := bodyNesting_le_kinds body
      simp only [Branch.nesting, Branch.kinds, List.length_cons, List.length_append]
      omega

theorem otherwiseNesting_le_kinds : ∀ otherwise : Option (List Node),
    otherwiseNesting otherwise ≤ (otherwiseKinds otherwise).length
  | none => Nat.le_refl _
  | some body => Nat.le_succ_of_le (bodyNesting_le_kinds body)

/-- A body is nested no deeper than it has tokens. -/
theorem bodyNesting_le_kinds : ∀ nodes : List Node,
    bodyNesting nodes ≤ (bodyKinds nodes).length
  | [] => Nat.le_refl _
  | node :: nodes => by
      have first := node.nesting_le_kinds
      have others := bodyNesting_le_kinds nodes
      simp only [bodyNesting, bodyKinds, List.length_append]
      omega

end

section Limits

variable {trim : Bool} {text : String} {limit other : Nat}

/-- A program that a template is parsed into is nested no deeper than the template has
tokens. -/
theorem parseTemplate_nesting_le_tokens {settings : Settings}
    (clean : (parseTemplate settings text).diagnostics = []) :
    (parseTemplate settings text).program.nesting ≤
      (tokenize settings.trimLineBreaks text).1.length := by
  obtain ⟨tokens, span, scanned, spelled⟩ := parseTemplate_spelled clean
  have within := bodyNesting_le_kinds (parseTemplate settings text).program.nodes
  rw [← spelled.kinds, List.length_map] at within
  rw [scanned, List.length_append]
  exact Nat.le_add_right_of_le within

/-- A template that is parsed without a diagnostic under one limit is parsed into the same
program under every other one that its nesting does not exceed. -/
theorem parseTemplate_of_nesting_le
    (clean : (parseTemplate ⟨limit, trim⟩ text).diagnostics = [])
    (within : (parseTemplate ⟨limit, trim⟩ text).program.nesting ≤ other) :
    (parseTemplate ⟨other, trim⟩ text).diagnostics = [] ∧
      (parseTemplate ⟨other, trim⟩ text).program =
        (parseTemplate ⟨limit, trim⟩ text).program := by
  obtain ⟨tokens, span, scanned, spelled⟩ := parseTemplate_spelled clean
  obtain ⟨scanClean, -⟩ := List.append_eq_nil_iff.mp (templateReports_eq_nil.mpr clean)
  -- What was read under the one limit is read back from its tokens under the other one.
  have reading := templateReading_spelled spelled within span
  rw [← scanned] at reading
  have value := congrArg Reading.value reading
  have nodes : (parseTemplate ⟨other, trim⟩ text).program.nodes =
      (parseTemplate ⟨limit, trim⟩ text).program.nodes := value
  refine ⟨templateReports_eq_nil.mp ?_, congrArg (Program.mk · _) nodes⟩
  exact List.append_eq_nil_iff.mpr ⟨scanClean, congrArg Reading.reports reading⟩

end Limits

/-- The limit of nesting is exact and monotone.  Under a limit, a template is parsed without
a diagnostic if and only if it is under a limit that no template of so many tokens exceeds,
and its program is nested no deeper than the limit; the program is then the same.  What one
limit lets pass, every higher one lets pass as the same program.  And whatever the tokens
are, the program that is read from them is nested no deeper than the limit. -/
theorem parseTemplate_limit_exact (trim : Bool) (text : String) :
    (∀ limit higher, (tokenize trim text).1.length ≤ higher →
      ((parseTemplate ⟨limit, trim⟩ text).diagnostics = [] ↔
        (parseTemplate ⟨higher, trim⟩ text).diagnostics = [] ∧
          (parseTemplate ⟨higher, trim⟩ text).program.nesting ≤ limit) ∧
      ((parseTemplate ⟨limit, trim⟩ text).diagnostics = [] →
        (parseTemplate ⟨limit, trim⟩ text).program =
          (parseTemplate ⟨higher, trim⟩ text).program)) ∧
    (∀ limit higher, limit ≤ higher →
      (parseTemplate ⟨limit, trim⟩ text).diagnostics = [] →
        (parseTemplate ⟨higher, trim⟩ text).diagnostics = [] ∧
          (parseTemplate ⟨higher, trim⟩ text).program =
            (parseTemplate ⟨limit, trim⟩ text).program) ∧
    ∀ limit tokens, (Program.ofTokens limit tokens).1.nesting ≤ limit := by
  refine ⟨?_, ?_, nesting_ofTokens⟩
  · intro limit higher enough
    have raised (clean : (parseTemplate ⟨limit, trim⟩ text).diagnostics = []) :=
      parseTemplate_of_nesting_le clean
        (Nat.le_trans (parseTemplate_nesting_le_tokens clean) enough)
    refine ⟨⟨fun clean => ?_, fun ⟨clean, within⟩ => ?_⟩, fun clean => (raised clean).2.symm⟩
    · obtain ⟨cleanAbove, same⟩ := raised clean
      rw [same]
      exact ⟨cleanAbove, parseTemplate_nesting_le ⟨limit, trim⟩ text⟩
    · exact (parseTemplate_of_nesting_le clean within).1
  · intro limit higher above clean
    exact parseTemplate_of_nesting_le clean
      (Nat.le_trans (parseTemplate_nesting_le ⟨limit, trim⟩ text) above)

/-- A call inside a call inside the condition of a second branch: three levels are enough, as
they are with as many levels as there are tokens, and two are not. -/
theorem parseTemplate_limit_exact_condition :
    let text := "#if ($a)#elif (@eq(@upper($b), 'B'))@now()#end"
    let high := parseTemplate ⟨25, true⟩ text
    (tokenize true text).1.length ≤ 25 ∧ high.diagnostics = [] ∧ high.program.nesting = 3 ∧
      (parseTemplate ⟨3, true⟩ text).diagnostics = [] ∧
      (parseTemplate ⟨3, true⟩ text).program = high.program ∧
      (parseTemplate ⟨2, true⟩ text).diagnostics ≠ [] := by
  intro text high
  have enough : (tokenize true text).1.length ≤ 25 := by decide +kernel
  have clean : high.diagnostics = [] := templateReports_eq_nil.mp (by decide +kernel)
  have nesting : high.program.nesting = 3 := by decide +kernel
  obtain ⟨exact, -⟩ := parseTemplate_limit_exact true text
  obtain ⟨three, same⟩ := exact 3 25 enough
  obtain ⟨two, -⟩ := exact 2 25 enough
  have cleanThree := three.mpr ⟨clean, Nat.le_of_eq nesting⟩
  refine ⟨enough, clean, nesting, cleanThree, same cleanThree, fun cleanTwo => ?_⟩
  have within : high.program.nesting ≤ 2 := (two.mp cleanTwo).2
  rw [nesting] at within
  exact absurd within (by decide)

end Stencil
