import Stencil.Proofs.Scanned

/-!
# Headers of directives

In the tokens that spell a program every directive that takes a header has one,
and none of them marks the end of the input.
-/

namespace Stencil

/-- Whether every directive that takes a header has one, and nothing marks the end
of the input. -/
def headersFollow : List TokenKind → Bool
  | [] => true
  | .endOfInput :: _ => false
  | .directive word :: rest =>
      ((Keyword.ofWord? word).all fun keyword =>
        !keyword.takesHeader || rest.head? == some .leftParen) && headersFollow rest
  | _ :: rest => headersFollow rest

/-- Whether a kind of token can stand inside an expression. -/
def TokenKind.isItem : TokenKind → Bool
  | .text _ | .directive _ | .endOfInput => false
  | _ => true

theorem TokenKind.keyword?_of_isItem {kind : TokenKind} (isItem : kind.isItem) :
    kind.keyword? = none := by
  cases kind <;> first | rfl | cases isItem

theorem PathSegment.kinds_isItem (segment : PathSegment) :
    ∀ kind ∈ segment.kinds, kind.isItem := by
  cases segment <;> simp [PathSegment.kinds, TokenKind.isItem]

mutual

theorem Expression.kinds_isItem : ∀ (expression : Expression),
    ∀ kind ∈ expression.kinds, kind.isItem
  | .path path span => by
      simp only [Expression.kinds, VariablePath.kinds, List.forall_mem_cons]
      refine ⟨rfl, rfl, ?_⟩
      intro kind member
      obtain ⟨segment, -, inSegment⟩ := List.mem_flatMap.mp member
      exact segment.kinds_isItem kind inSegment
  | .literal value span => by
      cases value <;> simp [Expression.kinds, Literal.kind, TokenKind.isItem]
  | .call name arguments span => by
      simp only [Expression.kinds, List.forall_mem_cons, List.forall_mem_append]
      exact ⟨rfl, rfl, argumentKinds_isItem arguments, rfl, by simp⟩

theorem argumentKinds_isItem : ∀ (arguments : List Expression),
    ∀ kind ∈ argumentKinds arguments, kind.isItem
  | [] => by simp [argumentKinds]
  | argument :: arguments =>
      List.forall_mem_append.mpr
        ⟨argument.kinds_isItem, furtherArgumentKinds_isItem arguments⟩

theorem furtherArgumentKinds_isItem : ∀ (arguments : List Expression),
    ∀ kind ∈ furtherArgumentKinds arguments, kind.isItem
  | [] => by simp [furtherArgumentKinds]
  | argument :: arguments =>
      List.forall_mem_cons.mpr ⟨rfl, List.forall_mem_append.mpr
        ⟨argument.kinds_isItem, furtherArgumentKinds_isItem arguments⟩⟩

end

theorem headersFollow_items {items : List TokenKind}
    (areItems : ∀ kind ∈ items, kind.isItem) (tail : List TokenKind) :
    headersFollow (items ++ tail) = headersFollow tail := by
  induction items with
  | nil => rfl
  | cons kind items ih =>
      obtain ⟨isItem, others⟩ := List.forall_mem_cons.mp areItems
      cases kind <;>
        first | exact ih others | simp [TokenKind.isItem] at isItem

theorem Expression.headersFollow (expression : Expression) (tail : List TokenKind) :
    headersFollow (expression.kinds ++ tail) = headersFollow tail :=
  headersFollow_items expression.kinds_isItem tail

theorem headersFollow_end (tail : List TokenKind) :
    headersFollow (Keyword.endBlock.kind :: tail) = headersFollow tail :=
  Bool.true_and _

theorem headersFollow_else (tail : List TokenKind) :
    headersFollow (Keyword.elseBranch.kind :: tail) = headersFollow tail :=
  Bool.true_and _

theorem headersFollow_open (keyword : Keyword) (tail : List TokenKind) :
    headersFollow (keyword.kind :: .leftParen :: tail) = headersFollow tail := by
  cases keyword <;> exact Bool.true_and _

theorem headersFollow_loopNames (key : Option String) (item : String)
    (tail : List TokenKind) :
    headersFollow (loopNameKinds key item ++ .name loopWord :: tail) =
      headersFollow tail := by
  cases key <;> rfl

theorem headersFollow_rightParen (tail : List TokenKind) :
    headersFollow (.rightParen :: tail) = headersFollow tail :=
  rfl

mutual

theorem Node.headersFollow : ∀ (node : Node) (tail : List TokenKind),
    headersFollow (node.kinds ++ tail) = headersFollow tail
  | .text content span, tail => rfl
  | .output expression, tail => expression.headersFollow tail
  | .conditional branches otherwise span, tail => by
      rw [Node.kinds, List.append_assoc, headersFollow_branches .ifBlock branches,
        List.append_assoc, headersFollow_otherwise otherwise]
      exact headersFollow_end tail
  | .loop key item iterable body span, tail => by
      simp only [Node.kinds, List.cons_append, List.append_assoc, List.nil_append]
      rw [headersFollow_open .forBlock, headersFollow_loopNames, iterable.headersFollow,
        headersFollow_rightParen, headersFollow_body body, headersFollow_end]
  | .binding name value span, tail => by
      simp only [Node.kinds, List.cons_append, List.append_assoc, List.nil_append]
      rw [headersFollow_open .letBinding]
      exact value.headersFollow (.rightParen :: tail)

theorem headersFollow_branches (keyword : Keyword) :
    ∀ (branches : List Branch) (tail : List TokenKind),
      headersFollow (branchKinds keyword branches ++ tail) = headersFollow tail
  | [], tail => rfl
  | .mk condition body :: branches, tail => by
      simp only [branchKinds, Branch.kinds, List.cons_append, List.append_assoc]
      rw [headersFollow_open keyword, condition.headersFollow, headersFollow_rightParen,
        headersFollow_body body, headersFollow_branches .elifBranch branches]

theorem headersFollow_otherwise : ∀ (otherwise : Option (List Node))
    (tail : List TokenKind),
    headersFollow (otherwiseKinds otherwise ++ tail) = headersFollow tail
  | none, tail => rfl
  | some body, tail => by
      rw [otherwiseKinds, List.cons_append, headersFollow_else, headersFollow_body body]

theorem headersFollow_body : ∀ (nodes : List Node) (tail : List TokenKind),
    headersFollow (bodyKinds nodes ++ tail) = headersFollow tail
  | [], tail => rfl
  | node :: nodes, tail => by
      rw [bodyKinds, List.append_assoc, node.headersFollow, headersFollow_body nodes]

end

theorem headersFollow_endOfInput (front tail : List TokenKind) :
    headersFollow (front ++ .endOfInput :: tail) = false := by
  induction front with
  | nil => rfl
  | cons kind front ih =>
      cases kind <;> simp [headersFollow, ih]

theorem BodySpelledBy.unended {nodes : List Node} {tokens : List Token}
    (spelled : BodySpelledBy nodes tokens) : Unended tokens := by
  intro token member ended
  obtain ⟨front, tail, rfl⟩ := List.append_of_mem member
  have kinds := spelled.kinds
  have follows := headersFollow_body nodes []
  simp only [List.map_append, List.map_cons, ended] at kinds
  rw [List.append_nil, ← kinds, headersFollow_endOfInput] at follows
  simp [headersFollow] at follows

end Stencil
