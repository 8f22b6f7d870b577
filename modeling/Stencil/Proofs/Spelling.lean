import Stencil.Proofs.Moving

/-!
# The spelling of programs

A program determines the kinds of the tokens that spell it.  The tokens
themselves also have spans, and the steps of a path count only where each one
begins at the byte at which the one before it ends.
-/

namespace Stencil

def Keyword.kind (keyword : Keyword) : TokenKind :=
  .directive keyword.word

/-- The kinds of tokens that spell one step of a path. -/
def PathSegment.kinds : PathSegment → List TokenKind
  | .field name => [.dot, .name name]
  | .index position =>
      [.leftBracket, .integer (Int64.ofNat position), .rightBracket]

def VariablePath.kinds (path : VariablePath) : List TokenKind :=
  .dollar :: .name path.root :: path.segments.flatMap PathSegment.kinds

/-- The kind of token that spells a constant. -/
def Literal.kind : Literal → TokenKind
  | .string content => .string content
  | .integer number => .integer number
  | .float number => .float number
  | .boolean value => .boolean value
  | .null => .null

mutual

def Expression.kinds : Expression → List TokenKind
  | .path path _ => path.kinds
  | .literal value _ => [value.kind]
  | .call name arguments _ =>
      .macroName name :: .leftParen :: (argumentKinds arguments ++ [.rightParen])

/-- The kinds of tokens that spell arguments, with commas between them. -/
def argumentKinds : List Expression → List TokenKind
  | [] => []
  | argument :: arguments => argument.kinds ++ furtherArgumentKinds arguments

/-- The kinds of tokens that spell arguments, with a comma before each. -/
def furtherArgumentKinds : List Expression → List TokenKind
  | [] => []
  | argument :: arguments =>
      .comma :: (argument.kinds ++ furtherArgumentKinds arguments)

end

def loopNameKinds (key : Option String) (item : String) : List TokenKind :=
  match key with
  | some key => [.name key, .comma, .name item]
  | none => [.name item]

mutual

def Node.kinds : Node → List TokenKind
  | .text content _ => [.text content]
  | .output expression => expression.kinds
  | .conditional branches otherwise _ =>
      branchKinds .ifBlock branches ++
        (otherwiseKinds otherwise ++ [Keyword.endBlock.kind])
  | .loop key item iterable body _ =>
      Keyword.forBlock.kind :: .leftParen ::
        (loopNameKinds key item ++ .name loopWord ::
          (iterable.kinds ++ .rightParen ::
            (bodyKinds body ++ [Keyword.endBlock.kind])))
  | .binding name value _ =>
      Keyword.letBinding.kind :: .leftParen :: .name name :: .assign ::
        (value.kinds ++ [.rightParen])

/-- The kinds of tokens that spell branches, the first of which begins with a
given keyword. -/
def branchKinds (keyword : Keyword) : List Branch → List TokenKind
  | [] => []
  | branch :: branches =>
      keyword.kind :: (branch.kinds ++ branchKinds .elifBranch branches)

/-- The kinds of tokens that spell a branch after its keyword. -/
def Branch.kinds : Branch → List TokenKind
  | .mk condition body =>
      .leftParen :: (condition.kinds ++ .rightParen :: bodyKinds body)

/-- The kinds of tokens that spell the last body of a conditional. -/
def otherwiseKinds : Option (List Node) → List TokenKind
  | none => []
  | some body => Keyword.elseBranch.kind :: bodyKinds body

def bodyKinds : List Node → List TokenKind
  | [] => []
  | node :: nodes => node.kinds ++ bodyKinds nodes

end

def StepsSpelledBy (start stop : Nat) : List PathSegment → List Token → Prop
  | [], tokens => tokens = [] ∧ start = stop
  | .field name :: segments, tokens =>
      ∃ dotSpan span others,
        tokens = ⟨.dot, dotSpan⟩ :: ⟨.name name, span⟩ :: others ∧
          dotSpan.start = start ∧ StepsSpelledBy span.stop stop segments others
  | .index position :: segments, tokens =>
      ∃ openSpan number numberSpan span others,
        tokens = ⟨.leftBracket, openSpan⟩ :: ⟨.integer number, numberSpan⟩ ::
          ⟨.rightBracket, span⟩ :: others ∧
        openSpan.start = start ∧ number.toInt = position ∧
          StepsSpelledBy span.stop stop segments others

mutual

def Expression.SpelledBy : Expression → List Token → Prop
  | .path path span, tokens =>
      ∃ sigilSpan nameSpan steps,
        tokens = ⟨.dollar, sigilSpan⟩ :: ⟨.name path.root, nameSpan⟩ :: steps ∧
          sigilSpan.start = span.start ∧
            StepsSpelledBy nameSpan.stop span.stop path.segments steps
  | .literal value span, tokens => tokens = [⟨value.kind, span⟩]
  | .call name arguments span, tokens =>
      ∃ nameSpan openSpan inside closeSpan,
        tokens = ⟨.macroName name, nameSpan⟩ :: ⟨.leftParen, openSpan⟩ ::
          (inside ++ [⟨.rightParen, closeSpan⟩]) ∧
        span = ⟨nameSpan.start, closeSpan.stop⟩ ∧
          ArgumentsSpelledBy arguments inside

/-- Tokens spell arguments, with commas between them. -/
def ArgumentsSpelledBy : List Expression → List Token → Prop
  | [], tokens => tokens = []
  | argument :: arguments, tokens =>
      ∃ own others, tokens = own ++ others ∧ argument.SpelledBy own ∧
        FurtherArgumentsSpelledBy arguments others

/-- Tokens spell arguments, with a comma before each. -/
def FurtherArgumentsSpelledBy : List Expression → List Token → Prop
  | [], tokens => tokens = []
  | argument :: arguments, tokens =>
      ∃ commaSpan own others, tokens = ⟨.comma, commaSpan⟩ :: (own ++ others) ∧
        argument.SpelledBy own ∧ FurtherArgumentsSpelledBy arguments others

end

def Expression.standsInText : Expression → Bool
  | .literal _ _ => false
  | _ => true

def LoopNamesSpelledBy (key : Option String) (item : String)
    (tokens : List Token) : Prop :=
  match key with
  | some key =>
      ∃ keySpan commaSpan span,
        tokens = [⟨.name key, keySpan⟩, ⟨.comma, commaSpan⟩, ⟨.name item, span⟩] ∧
          key ≠ loopWord ∧ item ≠ loopWord
  | none => ∃ span, tokens = [⟨.name item, span⟩] ∧ item ≠ loopWord

mutual

def Node.SpelledBy : Node → List Token → Prop
  | .text content span, tokens => tokens = [⟨.text content, span⟩]
  | .output expression, tokens =>
      expression.standsInText ∧ expression.SpelledBy tokens
  | .conditional branches otherwise span, tokens =>
      ∃ openSpan chain last closeSpan,
        tokens = ⟨Keyword.ifBlock.kind, openSpan⟩ ::
          (chain ++ (last ++ [⟨Keyword.endBlock.kind, closeSpan⟩])) ∧
        span = ⟨openSpan.start, closeSpan.stop⟩ ∧ branches ≠ [] ∧
          BranchesSpelledBy .ifBlock branches
            (⟨Keyword.ifBlock.kind, openSpan⟩ :: chain) ∧
          OtherwiseSpelledBy otherwise last
  | .loop key item iterable body span, tokens =>
      ∃ openSpan parenSpan names wordSpan expression closeSpan inside endSpan,
        tokens = ⟨Keyword.forBlock.kind, openSpan⟩ :: ⟨.leftParen, parenSpan⟩ ::
          (names ++ ⟨.name loopWord, wordSpan⟩ ::
            (expression ++ ⟨.rightParen, closeSpan⟩ ::
              (inside ++ [⟨Keyword.endBlock.kind, endSpan⟩]))) ∧
        span = ⟨openSpan.start, endSpan.stop⟩ ∧
          LoopNamesSpelledBy key item names ∧ iterable.SpelledBy expression ∧
            BodySpelledBy body inside
  | .binding name value span, tokens =>
      ∃ openSpan parenSpan nameSpan assignSpan expression closeSpan,
        tokens = ⟨Keyword.letBinding.kind, openSpan⟩ :: ⟨.leftParen, parenSpan⟩ ::
          ⟨.name name, nameSpan⟩ :: ⟨.assign, assignSpan⟩ ::
            (expression ++ [⟨.rightParen, closeSpan⟩]) ∧
        span = ⟨openSpan.start, closeSpan.stop⟩ ∧ name ≠ loopWord ∧
          value.SpelledBy expression

/-- Tokens spell branches, the first of which begins with a given keyword. -/
def BranchesSpelledBy (keyword : Keyword) : List Branch → List Token → Prop
  | [], tokens => tokens = []
  | branch :: branches, tokens =>
      ∃ span own others, tokens = ⟨keyword.kind, span⟩ :: (own ++ others) ∧
        branch.SpelledBy own ∧ BranchesSpelledBy .elifBranch branches others

/-- Tokens spell a branch after its keyword. -/
def Branch.SpelledBy : Branch → List Token → Prop
  | .mk condition body, tokens =>
      ∃ openSpan expression closeSpan inside,
        tokens = ⟨.leftParen, openSpan⟩ ::
          (expression ++ ⟨.rightParen, closeSpan⟩ :: inside) ∧
        condition.SpelledBy expression ∧ BodySpelledBy body inside

/-- Tokens spell the last body of a conditional. -/
def OtherwiseSpelledBy : Option (List Node) → List Token → Prop
  | none, tokens => tokens = []
  | some body, tokens =>
      ∃ span inside, tokens = ⟨Keyword.elseBranch.kind, span⟩ :: inside ∧
        BodySpelledBy body inside

def BodySpelledBy : List Node → List Token → Prop
  | [], tokens => tokens = []
  | node :: nodes, tokens =>
      ∃ own others, tokens = own ++ others ∧ node.SpelledBy own ∧
        BodySpelledBy nodes others

end

theorem StepsSpelledBy.kinds {start stop : Nat} {segments : List PathSegment}
    {tokens : List Token} (spelled : StepsSpelledBy start stop segments tokens) :
    tokens.map Token.kind = segments.flatMap PathSegment.kinds := by
  induction segments generalizing start tokens with
  | nil =>
      obtain ⟨rfl, -⟩ := spelled
      rfl
  | cons segment segments ih =>
      cases segment with
      | field name =>
          obtain ⟨dotSpan, span, others, rfl, -, rest⟩ := spelled
          simp [PathSegment.kinds, ih rest]
      | index position =>
          obtain ⟨openSpan, number, numberSpan, span, others, rfl, -, same, rest⟩ :=
            spelled
          have number_eq : Int64.ofNat position = number := by
            rw [← Int64.ofInt_eq_ofNat, ← same, Int64.ofInt_toInt]
          simp [PathSegment.kinds, ih rest, number_eq]

mutual

theorem Expression.SpelledBy.kinds : ∀ {expression : Expression}
    {tokens : List Token}, expression.SpelledBy tokens →
      tokens.map Token.kind = expression.kinds
  | .path path span, tokens => by
      intro spelled
      obtain ⟨sigilSpan, nameSpan, steps, rfl, -, rest⟩ := spelled
      simp [Expression.kinds, VariablePath.kinds, rest.kinds]
  | .literal value span, tokens => by
      rintro rfl
      simp [Expression.kinds]
  | .call name arguments span, tokens => by
      intro spelled
      obtain ⟨nameSpan, openSpan, inside, closeSpan, rfl, -, rest⟩ := spelled
      simp [Expression.kinds, rest.kinds]

theorem ArgumentsSpelledBy.kinds : ∀ {arguments : List Expression}
    {tokens : List Token}, ArgumentsSpelledBy arguments tokens →
      tokens.map Token.kind = argumentKinds arguments
  | [], tokens => by
      rintro rfl
      rfl
  | argument :: arguments, tokens => by
      intro spelled
      obtain ⟨own, others, rfl, first, rest⟩ := spelled
      simp [argumentKinds, first.kinds, rest.kinds]

theorem FurtherArgumentsSpelledBy.kinds : ∀ {arguments : List Expression}
    {tokens : List Token}, FurtherArgumentsSpelledBy arguments tokens →
      tokens.map Token.kind = furtherArgumentKinds arguments
  | [], tokens => by
      rintro rfl
      rfl
  | argument :: arguments, tokens => by
      intro spelled
      obtain ⟨commaSpan, own, others, rfl, first, rest⟩ := spelled
      simp [furtherArgumentKinds, first.kinds, rest.kinds]

end

theorem LoopNamesSpelledBy.kinds {key : Option String} {item : String}
    {tokens : List Token} (spelled : LoopNamesSpelledBy key item tokens) :
    tokens.map Token.kind = loopNameKinds key item := by
  cases key with
  | none =>
      obtain ⟨span, rfl, -⟩ := spelled
      rfl
  | some key =>
      obtain ⟨keySpan, commaSpan, span, rfl, -⟩ := spelled
      rfl

mutual

theorem Node.SpelledBy.kinds : ∀ {node : Node} {tokens : List Token},
    node.SpelledBy tokens → tokens.map Token.kind = node.kinds
  | .text content span, tokens => by
      rintro rfl
      simp [Node.kinds]
  | .output expression, tokens => by
      rintro ⟨-, spelled⟩
      simp [Node.kinds, spelled.kinds]
  | .conditional branches otherwise span, tokens => by
      intro spelled
      obtain ⟨openSpan, chain, last, closeSpan, rfl, -, -, guarded, rest⟩ := spelled
      have chainKinds := guarded.kinds
      simp only [List.map_cons] at chainKinds
      simp [Node.kinds, ← chainKinds, rest.kinds]
  | .loop key item iterable body span, tokens => by
      intro spelled
      obtain ⟨openSpan, parenSpan, names, wordSpan, expression, closeSpan, inside,
        endSpan, rfl, -, named, header, rest⟩ := spelled
      simp [Node.kinds, named.kinds, header.kinds, rest.kinds]
  | .binding name value span, tokens => by
      intro spelled
      obtain ⟨openSpan, parenSpan, nameSpan, assignSpan, expression, closeSpan, rfl,
        -, -, header⟩ := spelled
      simp [Node.kinds, header.kinds]

theorem BranchesSpelledBy.kinds : ∀ {keyword : Keyword} {branches : List Branch}
    {tokens : List Token}, BranchesSpelledBy keyword branches tokens →
      tokens.map Token.kind = branchKinds keyword branches
  | keyword, [], tokens => by
      rintro rfl
      rfl
  | keyword, branch :: branches, tokens => by
      intro spelled
      obtain ⟨span, own, others, rfl, first, rest⟩ := spelled
      simp [branchKinds, first.kinds, rest.kinds]

theorem Branch.SpelledBy.kinds : ∀ {branch : Branch} {tokens : List Token},
    branch.SpelledBy tokens → tokens.map Token.kind = branch.kinds
  | .mk condition body, tokens => by
      intro spelled
      obtain ⟨openSpan, expression, closeSpan, inside, rfl, header, rest⟩ := spelled
      simp [Branch.kinds, header.kinds, rest.kinds]

theorem OtherwiseSpelledBy.kinds : ∀ {otherwise : Option (List Node)}
    {tokens : List Token}, OtherwiseSpelledBy otherwise tokens →
      tokens.map Token.kind = otherwiseKinds otherwise
  | none, tokens => by
      rintro rfl
      rfl
  | some body, tokens => by
      intro spelled
      obtain ⟨span, inside, rfl, rest⟩ := spelled
      simp [otherwiseKinds, rest.kinds]

theorem BodySpelledBy.kinds : ∀ {nodes : List Node} {tokens : List Token},
    BodySpelledBy nodes tokens → tokens.map Token.kind = bodyKinds nodes
  | [], tokens => by
      rintro rfl
      rfl
  | node :: nodes, tokens => by
      intro spelled
      obtain ⟨own, others, rfl, first, rest⟩ := spelled
      simp [bodyKinds, first.kinds, rest.kinds]

end

end Stencil
