import Stencil.Proofs.LastNode
import Stencil.Proofs.Nesting
import Stencil.Proofs.PieceBounds

/-!
# Where nodes stand among tokens

All nodes of a program, those inside blocks included, and the tokens that spell them: they
follow each other, and a body goes on both at the first of them and after the last one.
-/

namespace Stencil

mutual

/-- A node and all those in its bodies. -/
def Node.parts : Node → List Node
  | .text content span => [.text content span]
  | .output expression => [.output expression]
  | .conditional branches otherwise span =>
      .conditional branches otherwise span :: (branchParts branches ++ otherwiseParts otherwise)
  | .loop key item iterable body span => .loop key item iterable body span :: bodyParts body
  | .binding name value span => [.binding name value span]

/-- All nodes in the bodies of branches. -/
def branchParts : List Branch → List Node
  | [] => []
  | branch :: branches => branch.parts ++ branchParts branches

def Branch.parts : Branch → List Node
  | .mk _ body => bodyParts body

/-- All nodes in the last body of a conditional. -/
def otherwiseParts : Option (List Node) → List Node
  | none => []
  | some body => bodyParts body

/-- Several nodes and all those in their bodies. -/
def bodyParts : List Node → List Node
  | [] => []
  | node :: nodes => node.parts ++ bodyParts nodes

end

def Program.parts (program : Program) : List Node :=
  bodyParts program.nodes

mutual

theorem Node.nesting_parts_le : ∀ node : Node, ∀ part ∈ node.parts,
    part.nesting ≤ node.nesting
  | .text content span => by simp [Node.parts]
  | .output expression => by simp [Node.parts]
  | .conditional branches otherwise span => by
      intro part member
      have ofBranches := nesting_branchParts_le branches part
      have ofOtherwise := nesting_otherwiseParts_le otherwise part
      rcases List.mem_cons.mp member with rfl | inside
      · exact Nat.le_refl _
      · rw [Node.nesting]
        rcases List.mem_append.mp inside with inside | inside
        · have := ofBranches inside
          omega
        · have := ofOtherwise inside
          omega
  | .loop key item iterable body span => by
      intro part member
      rcases List.mem_cons.mp member with rfl | inside
      · exact Nat.le_refl _
      · have := nesting_bodyParts_le body part inside
        rw [Node.nesting]
        omega
  | .binding name value span => by simp [Node.parts]

theorem nesting_branchParts_le : ∀ branches : List Branch, ∀ part ∈ branchParts branches,
    part.nesting ≤ branchesNesting branches
  | [] => by simp [branchParts]
  | branch :: branches => by
      intro part member
      rcases List.mem_append.mp member with own | others
      · exact Nat.le_trans (branch.nesting_parts_le part own) (Nat.le_max_left _ _)
      · exact Nat.le_trans (nesting_branchParts_le branches part others) (Nat.le_max_right _ _)

theorem Branch.nesting_parts_le : ∀ branch : Branch, ∀ part ∈ branch.parts,
    part.nesting ≤ branch.nesting
  | .mk _ body => fun part member =>
      Nat.le_trans (nesting_bodyParts_le body part member) (Nat.le_max_right _ _)

theorem nesting_otherwiseParts_le : ∀ otherwise : Option (List Node),
    ∀ part ∈ otherwiseParts otherwise, part.nesting ≤ otherwiseNesting otherwise
  | none => by simp [otherwiseParts]
  | some body => nesting_bodyParts_le body

/-- No node of a body is nested deeper than the body. -/
theorem nesting_bodyParts_le : ∀ nodes : List Node, ∀ part ∈ bodyParts nodes,
    part.nesting ≤ bodyNesting nodes
  | [] => by simp [bodyParts]
  | node :: nodes => by
      intro part member
      rcases List.mem_append.mp member with own | others
      · exact Nat.le_trans (node.nesting_parts_le part own) (Nat.le_max_left _ _)
      · exact Nat.le_trans (nesting_bodyParts_le nodes part others) (Nat.le_max_right _ _)

end

theorem Balanced.group {inside : List Token} (balanced : Balanced inside)
    (openSpan closeSpan : Span) :
    Balanced (⟨.leftParen, openSpan⟩ :: (inside ++ [⟨.rightParen, closeSpan⟩])) := by
  intro depth tail
  rw [List.cons_append, List.append_assoc]
  exact balanced (depth + 1) (⟨.rightParen, closeSpan⟩ :: tail)

theorem Balanced.keyword (keyword : Keyword) (span : Span) : Balanced [⟨keyword.kind, span⟩] :=
  fun _ _ => rfl

theorem LoopNamesSpelledBy.balanced {key : Option String} {item : String} {tokens : List Token}
    (spelled : LoopNamesSpelledBy key item tokens) : Balanced tokens := by
  cases key with
  | none =>
      obtain ⟨span, rfl, -⟩ := spelled
      exact fun _ _ => rfl
  | some key =>
      obtain ⟨keySpan, commaSpan, span, rfl, -⟩ := spelled
      exact fun _ _ => rfl

/-- The header of a loop. -/
theorem LoopNamesSpelledBy.balanced_header {key : Option String} {item : String}
    {names expression : List Token} (named : LoopNamesSpelledBy key item names)
    {iterable : Expression} (header : iterable.SpelledBy expression)
    (openSpan wordSpan closeSpan : Span) :
    Balanced (⟨.leftParen, openSpan⟩ ::
      (names ++ ⟨.name loopWord, wordSpan⟩ :: expression ++ [⟨.rightParen, closeSpan⟩])) := by
  have word : Balanced [⟨.name loopWord, wordSpan⟩] := fun _ _ => rfl
  exact (named.balanced.append (word.append header.groupCloses)).group openSpan closeSpan

mutual

theorem Node.SpelledBy.balanced : ∀ {node : Node} {tokens : List Token},
    node.SpelledBy tokens → Balanced tokens
  | .text content span, tokens => by
      rintro rfl
      exact fun _ _ => rfl
  | .output expression, tokens => fun spelled => spelled.2.groupCloses
  | .conditional branches otherwise span, tokens => by
      rintro ⟨openSpan, chain, last, closeSpan, rfl, -, -, guarded, further⟩
      exact guarded.balanced.append (further.balanced.append (.keyword _ _))
  | .loop key item iterable body span, tokens => by
      rintro ⟨openSpan, parenSpan, names, wordSpan, expression, closeSpan, inside, endSpan,
        rfl, -, named, header, further⟩
      have group := named.balanced_header header parenSpan wordSpan closeSpan
      have whole := Balanced.append (.keyword .forBlock openSpan)
        (group.append (further.balanced.append (.keyword .endBlock endSpan)))
      simpa using whole
  | .binding name value span, tokens => by
      rintro ⟨openSpan, parenSpan, nameSpan, assignSpan, expression, closeSpan, rfl, -, -,
        header⟩
      have names : Balanced [⟨.name name, nameSpan⟩, ⟨.assign, assignSpan⟩] := fun _ _ => rfl
      exact Balanced.append (.keyword .letBinding openSpan)
        ((names.append header.groupCloses).group parenSpan closeSpan)

theorem BranchesSpelledBy.balanced : ∀ {keyword : Keyword} {branches : List Branch}
    {tokens : List Token}, BranchesSpelledBy keyword branches tokens → Balanced tokens
  | keyword, [], tokens => by
      rintro rfl
      exact .nil
  | keyword, branch :: branches, tokens => by
      rintro ⟨span, own, others, rfl, first, further⟩
      exact Balanced.cons (.keyword keyword span) (first.balanced.append further.balanced)

theorem Branch.SpelledBy.balanced : ∀ {branch : Branch} {tokens : List Token},
    branch.SpelledBy tokens → Balanced tokens
  | .mk condition body, tokens => by
      rintro ⟨openSpan, expression, closeSpan, inside, rfl, header, further⟩
      have group := Balanced.group header.groupCloses openSpan closeSpan
      simpa using group.append further.balanced

theorem OtherwiseSpelledBy.balanced : ∀ {otherwise : Option (List Node)}
    {tokens : List Token}, OtherwiseSpelledBy otherwise tokens → Balanced tokens
  | none, tokens => by
      rintro rfl
      exact .nil
  | some body, tokens => by
      rintro ⟨span, inside, rfl, further⟩
      exact Balanced.cons (.keyword .elseBranch span) further.balanced

theorem BodySpelledBy.balanced : ∀ {nodes : List Node} {tokens : List Token},
    BodySpelledBy nodes tokens → Balanced tokens
  | [], tokens => by
      rintro rfl
      exact .nil
  | node :: nodes, tokens => by
      rintro ⟨own, others, rfl, first, further⟩
      exact first.balanced.append further.balanced

end

theorem BeginsBody.nil : BeginsBody [] :=
  .inr (.inr rfl)

theorem BeginsBody.keyword (keyword : Keyword) (span : Span) (tail : List Token) :
    BeginsBody (⟨keyword.kind, span⟩ :: tail) :=
  .inr (.inl rfl)

theorem Node.SpelledBy.begins {node : Node} {tokens : List Token}
    (spelled : node.SpelledBy tokens) : BeginsBody tokens := by
  cases node with
  | text content span =>
      obtain rfl := spelled
      exact .inl ⟨content, rfl⟩
  | output expression =>
      obtain ⟨inText, spelled⟩ := spelled
      cases expression with
      | path path span =>
          obtain ⟨sigilSpan, nameSpan, steps, rfl, -⟩ := spelled
          exact .inr (.inl rfl)
      | literal value span => cases inText
      | call name arguments span =>
          obtain ⟨nameSpan, openSpan, inside, closeSpan, rfl, -⟩ := spelled
          exact .inr (.inl rfl)
  | conditional branches otherwise span =>
      obtain ⟨openSpan, chain, last, closeSpan, rfl, -⟩ := spelled
      exact .keyword .ifBlock openSpan _
  | loop key item iterable body span =>
      obtain ⟨openSpan, parenSpan, names, wordSpan, expression, closeSpan, inside, endSpan,
        rfl, -⟩ := spelled
      exact .keyword .forBlock openSpan _
  | binding name value span =>
      obtain ⟨openSpan, parenSpan, nameSpan, assignSpan, expression, closeSpan, rfl, -⟩ :=
        spelled
      exact .keyword .letBinding openSpan _

theorem BodySpelledBy.begins {nodes : List Node} {tokens : List Token}
    (spelled : BodySpelledBy nodes tokens) : BeginsBody tokens := by
  induction nodes generalizing tokens with
  | nil =>
      obtain rfl := spelled
      exact .nil
  | cons node nodes ih =>
      obtain ⟨own, others, rfl, first, further⟩ := spelled
      exact first.begins.append (ih further)

theorem BranchesSpelledBy.begins {keyword : Keyword} {branches : List Branch}
    {tokens : List Token} (spelled : BranchesSpelledBy keyword branches tokens) :
    BeginsBody tokens := by
  cases branches with
  | nil =>
      obtain rfl := spelled
      exact .nil
  | cons branch branches =>
      obtain ⟨span, own, others, rfl, -⟩ := spelled
      exact .keyword keyword span _

theorem OtherwiseSpelledBy.begins {otherwise : Option (List Node)} {tokens : List Token}
    (spelled : OtherwiseSpelledBy otherwise tokens) : BeginsBody tokens := by
  cases otherwise with
  | none =>
      obtain rfl := spelled
      exact .nil
  | some body =>
      obtain ⟨span, inside, rfl, -⟩ := spelled
      exact .keyword .elseBranch span inside

/-- Each of some nodes is spelled by tokens that follow each other, with balanced tokens
before them and a body that goes on after them. -/
def PlacedIn (nodes : List Node) (tokens : List Token) : Prop :=
  ∀ node ∈ nodes, ∃ before own after, tokens = before ++ (own ++ after) ∧
    node.SpelledBy own ∧ Balanced before ∧ BeginsBody after

namespace PlacedIn

variable {nodes others : List Node} {tokens : List Token}

theorem nil : PlacedIn [] tokens :=
  fun _ member => absurd member List.not_mem_nil

theorem self {node : Node} (spelled : node.SpelledBy tokens) (placed : PlacedIn nodes tokens) :
    PlacedIn (node :: nodes) tokens :=
  List.forall_mem_cons.mpr ⟨⟨[], tokens, [], by simp, spelled, .nil, .nil⟩, placed⟩

theorem union (placed : PlacedIn nodes tokens) (further : PlacedIn others tokens) :
    PlacedIn (nodes ++ others) tokens :=
  List.forall_mem_append.mpr ⟨placed, further⟩

theorem behind (placed : PlacedIn nodes tokens) {front : List Token}
    (balanced : Balanced front) : PlacedIn nodes (front ++ tokens) := by
  intro node member
  obtain ⟨before, own, after, rfl, spelled, beforeBalanced, begins⟩ := placed node member
  exact ⟨front ++ before, own, after, by simp, spelled, balanced.append beforeBalanced, begins⟩

theorem followedBy (placed : PlacedIn nodes tokens) {tail : List Token}
    (goesOn : BeginsBody tail) : PlacedIn nodes (tokens ++ tail) := by
  intro node member
  obtain ⟨before, own, after, rfl, spelled, balanced, begins⟩ := placed node member
  exact ⟨before, own, after ++ tail, by simp, spelled, balanced, begins.append goesOn⟩

end PlacedIn

mutual

theorem Node.SpelledBy.placed : ∀ {node : Node} {tokens : List Token},
    node.SpelledBy tokens → PlacedIn node.parts tokens
  | .text content span, tokens => fun spelled => .self spelled .nil
  | .output expression, tokens => fun spelled => .self spelled .nil
  | .conditional branches otherwise span, tokens => by
      intro spelled
      refine .self spelled ?_
      obtain ⟨openSpan, chain, last, closeSpan, rfl, -, -, guarded, further⟩ := spelled
      have ended := BeginsBody.keyword .endBlock closeSpan []
      exact (guarded.placed.followedBy (further.begins.append ended)).union
        ((further.placed.followedBy ended).behind guarded.balanced)
  | .loop key item iterable body span, tokens => by
      intro spelled
      refine .self spelled ?_
      obtain ⟨openSpan, parenSpan, names, wordSpan, expression, closeSpan, inside, endSpan,
        rfl, -, named, header, further⟩ := spelled
      have group := named.balanced_header header parenSpan wordSpan closeSpan
      have placed := (further.placed.followedBy (.keyword .endBlock endSpan [])).behind
        (Balanced.append (.keyword .forBlock openSpan) group)
      simpa using placed
  | .binding name value span, tokens => fun spelled => .self spelled .nil

theorem BranchesSpelledBy.placed : ∀ {keyword : Keyword} {branches : List Branch}
    {tokens : List Token}, BranchesSpelledBy keyword branches tokens →
      PlacedIn (branchParts branches) tokens
  | keyword, [], tokens => fun _ => .nil
  | keyword, branch :: branches, tokens => by
      rintro ⟨span, own, others, rfl, first, further⟩
      exact ((first.placed.followedBy further.begins).union
        (further.placed.behind first.balanced)).behind (.keyword keyword span)

theorem Branch.SpelledBy.placed : ∀ {branch : Branch} {tokens : List Token},
    branch.SpelledBy tokens → PlacedIn branch.parts tokens
  | .mk condition body, tokens => by
      rintro ⟨openSpan, expression, closeSpan, inside, rfl, header, further⟩
      have placed := further.placed.behind
        (Balanced.group header.groupCloses openSpan closeSpan)
      rw [Branch.parts]
      simpa using placed

theorem OtherwiseSpelledBy.placed : ∀ {otherwise : Option (List Node)}
    {tokens : List Token}, OtherwiseSpelledBy otherwise tokens →
      PlacedIn (otherwiseParts otherwise) tokens
  | none, tokens => fun _ => .nil
  | some body, tokens => by
      rintro ⟨span, inside, rfl, further⟩
      exact further.placed.behind (.keyword .elseBranch span)

/-- All nodes of a body stand among its tokens where a body goes on. -/
theorem BodySpelledBy.placed : ∀ {nodes : List Node} {tokens : List Token},
    BodySpelledBy nodes tokens → PlacedIn (bodyParts nodes) tokens
  | [], tokens => fun _ => .nil
  | node :: nodes, tokens => by
      rintro ⟨own, others, rfl, first, further⟩
      exact (first.placed.followedBy further.begins).union
        (further.placed.behind first.balanced)

end

end Stencil
