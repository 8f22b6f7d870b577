import Stencil.Program.Parse
import Stencil.Proofs.Spans

/-!
# Nesting of programs

The nesting of a tree is the greatest number of blocks and macro calls that
enclose one another.  A conditional is one level however many branches it has,
and the headers of a block lie inside it.  Whatever tokens they are given, the
readers build no tree that is nested deeper than their levels allow.
-/

namespace Stencil

mutual

/-- How deep calls are nested in an expression. -/
def Expression.nesting : Expression → Nat
  | .path _ _ => 0
  | .literal _ _ => 0
  | .call _ arguments _ => argumentsNesting arguments + 1

/-- How deep calls are nested in several expressions. -/
def argumentsNesting : List Expression → Nat
  | [] => 0
  | expression :: expressions =>
      max expression.nesting (argumentsNesting expressions)

end

mutual

/-- How deep blocks and calls are nested in a node. -/
def Node.nesting : Node → Nat
  | .text _ _ => 0
  | .output expression => expression.nesting
  | .conditional branches otherwise _ =>
      max (branchesNesting branches) (otherwiseNesting otherwise) + 1
  | .loop _ _ iterable body _ => max iterable.nesting (bodyNesting body) + 1
  | .binding _ value _ => value.nesting

/-- How deep blocks and calls are nested in the branches of a conditional. -/
def branchesNesting : List Branch → Nat
  | [] => 0
  | branch :: branches => max branch.nesting (branchesNesting branches)

/-- How deep blocks and calls are nested in a branch. -/
def Branch.nesting : Branch → Nat
  | .mk condition body => max condition.nesting (bodyNesting body)

/-- How deep blocks and calls are nested in the last body of a conditional. -/
def otherwiseNesting : Option (List Node) → Nat
  | none => 0
  | some body => bodyNesting body

/-- How deep blocks and calls are nested in a body. -/
def bodyNesting : List Node → Nat
  | [] => 0
  | node :: nodes => max node.nesting (bodyNesting nodes)

end

/-- How deep blocks and calls are nested in a program. -/
def Program.nesting (program : Program) : Nat :=
  bodyNesting program.nodes

@[simp]
theorem bodyNesting_append (first second : List Node) :
    bodyNesting (first ++ second) =
      max (bodyNesting first) (bodyNesting second) := by
  induction first with
  | nil => simp [bodyNesting]
  | cons node nodes ih => simp [bodyNesting, ih, Nat.max_assoc]

section Spans

variable (change : Span → Span)

mutual

theorem Expression.nesting_mapSpans : ∀ expression : Expression,
    (expression.mapSpans change).nesting = expression.nesting
  | .path path span => rfl
  | .literal value span => rfl
  | .call name arguments span => by
      simp [Expression.mapSpans, Expression.nesting, argumentsNesting_mapSpans arguments]

theorem argumentsNesting_mapSpans : ∀ expressions : List Expression,
    argumentsNesting (mapArgumentSpans change expressions) = argumentsNesting expressions
  | [] => rfl
  | expression :: expressions => by
      simp [mapArgumentSpans, argumentsNesting, expression.nesting_mapSpans,
        argumentsNesting_mapSpans expressions]

end

mutual

theorem Node.nesting_mapSpans : ∀ node : Node,
    (node.mapSpans change).nesting = node.nesting
  | .text content span => rfl
  | .output expression => by
      simp [Node.mapSpans, Node.nesting, Expression.nesting_mapSpans]
  | .conditional branches otherwise span => by
      simp [Node.mapSpans, Node.nesting, branchesNesting_mapSpans branches,
        otherwiseNesting_mapSpans otherwise]
  | .loop key item iterable body span => by
      simp [Node.mapSpans, Node.nesting, Expression.nesting_mapSpans,
        bodyNesting_mapSpans body]
  | .binding name value span => by
      simp [Node.mapSpans, Node.nesting, Expression.nesting_mapSpans]

theorem branchesNesting_mapSpans : ∀ branches : List Branch,
    branchesNesting (mapBranchSpans change branches) = branchesNesting branches
  | [] => rfl
  | branch :: branches => by
      simp [mapBranchSpans, branchesNesting, branch.nesting_mapSpans,
        branchesNesting_mapSpans branches]

theorem Branch.nesting_mapSpans : ∀ branch : Branch,
    (branch.mapSpans change).nesting = branch.nesting
  | .mk condition body => by
      simp [Branch.mapSpans, Branch.nesting, Expression.nesting_mapSpans,
        bodyNesting_mapSpans body]

theorem otherwiseNesting_mapSpans : ∀ otherwise : Option (List Node),
    otherwiseNesting (mapOtherwiseSpans change otherwise) = otherwiseNesting otherwise
  | none => rfl
  | some body => by
      simp [mapOtherwiseSpans, otherwiseNesting, bodyNesting_mapSpans body]

theorem bodyNesting_mapSpans : ∀ nodes : List Node,
    bodyNesting (mapBodySpans change nodes) = bodyNesting nodes
  | [] => rfl
  | node :: nodes => by
      simp [mapBodySpans, bodyNesting, node.nesting_mapSpans, bodyNesting_mapSpans nodes]

end

end Spans

variable {α β : Type}

/-- Every value that a reader gives has a property. -/
def TokenReader.Yields (reader : TokenReader (Option α)) (property : α → Prop) :
    Prop :=
  ∀ tokens value, (reader.read tokens).value = some value → property value

namespace TokenReader.Yields

theorem andThen {first : TokenReader (Option α)}
    {second : α → TokenReader (Option β)} {property : β → Prop}
    (secondYields : ∀ value, (second value).Yields property) :
    (first.andThen second).Yields property := by
  intro tokens value given
  simp only [TokenReader.andThen] at given
  split at given
  · simp [Reading.failed] at given
  · exact secondYields _ _ value given

theorem map {reader : TokenReader (Option α)} {change : α → β}
    {property : α → Prop} {changed : β → Prop} (yields : reader.Yields property)
    (follows : ∀ value, property value → changed (change value)) :
    (reader.map change).Yields changed := by
  intro tokens value given
  simp only [TokenReader.map, Reading.map, Option.map_eq_some_iff] at given
  obtain ⟨inner, innerGiven, rfl⟩ := given
  exact follows inner (yields tokens inner innerGiven)

theorem ifNext {kind : TokenKind} {present absent : TokenReader (Option α)}
    {property : α → Prop} (presentYields : present.Yields property)
    (absentYields : absent.Yields property) :
    (TokenReader.ifNext kind present absent).Yields property := by
  intro tokens value given
  simp only [TokenReader.ifNext] at given
  split at given
  · exact absentYields _ value given
  · split at given
    · exact presentYields _ value given
    · exact absentYields _ value given

end TokenReader.Yields

theorem iterableReader_yields {expression : TokenReader (Option Expression)}
    {property : Expression → Prop} (yields : expression.Yields property)
    (expected : List String) :
    (iterableReader expression expected).Yields property :=
  .andThen fun _ => yields

theorem loopHeaderReader_yields {expression : TokenReader (Option Expression)}
    {property : Expression → Prop} (yields : expression.Yields property) :
    (loopHeaderReader expression).Yields fun header =>
      property header.iterable :=
  .andThen fun _ =>
    .ifNext
      (.andThen fun _ => .map (iterableReader_yields yields _) fun _ holds => holds)
      (.map (iterableReader_yields yields _) fun _ holds => holds)

theorem bindingHeaderReader_yields {expression : TokenReader (Option Expression)}
    {property : Expression → Prop} (yields : expression.Yields property) :
    (bindingHeaderReader expression).Yields fun header => property header.value :=
  .andThen fun _ => .andThen fun _ => .map yields fun _ holds => holds

theorem headerReader_yields {inside : TokenReader (Option α)}
    {property : α → Prop} (yields : inside.Yields property) (directive : Token) :
    (headerReader directive inside).Yields fun header =>
      property header.content := by
  intro tokens header given
  simp only [headerReader, readHeader] at given
  split at given
  · rename_i group
    split at given
    · simp [Reading.failed] at given
    · rename_i content span rest contentGiven _
      simp only [Option.some.injEq] at given
      subst given
      exact yields group content contentGiven
    · simp [Reading.failed] at given
  · simp [Reading.failed] at given

theorem argumentsNesting_readArguments {argument : TokenReader (Option Expression)}
    {levels : Nat} (yields : argument.Yields fun e => e.nesting ≤ levels)
    (tokens : List Token) :
    ∀ list, (readArguments argument tokens).value = some list →
      argumentsNesting list.arguments ≤ levels := by
  fun_induction readArguments argument tokens with
  | case1 => simp [Reading.failed]
  | case2 tokens reading expression expressionGiven _ rest _ ih =>
      intro list given
      simp only [Reading.map, Reading.precededBy, Option.map_eq_some_iff] at given
      obtain ⟨others, othersGiven, rfl⟩ := given
      exact Nat.max_le.mpr
        ⟨yields tokens expression expressionGiven, ih others othersGiven⟩
  | case3 tokens reading expression expressionGiven =>
      intro list given
      simp only [Option.some.injEq] at given
      subst given
      simpa [argumentsNesting] using yields tokens expression expressionGiven
  | case4 => simp [Reading.failed]

theorem nesting_readCall {limit levels : Nat}
    {argument : TokenReader (Option Expression)}
    (yields : argument.Yields fun e => e.nesting ≤ levels) {name : String}
    {nameSpan : Span} {tokens : List Token} {expression : Expression}
    (given : (readCall limit (some argument) name nameSpan tokens).value =
      some expression) :
    expression.nesting ≤ levels + 1 := by
  simp only [readCall] at given
  split at given
  · simp only [Reading.map, Option.map_eq_some_iff] at given
    obtain ⟨list, listGiven, rfl⟩ := given
    simp only [Expression.nesting, Nat.add_le_add_iff_right]
    simp only [readArgumentList] at listGiven
    split at listGiven
    · simp only [Option.some.injEq] at listGiven
      subst listGiven
      simp [argumentsNesting]
    · exact argumentsNesting_readArguments yields _ list listGiven
  · simp [Reading.failed] at given

theorem readCall_value_of_none (limit : Nat) (name : String) (nameSpan : Span)
    (tokens : List Token) :
    (readCall limit none name nameSpan tokens).value = none := by
  simp only [readCall]
  split <;> rfl

theorem nesting_readPath {start : Nat} {tokens : List Token}
    {expression : Expression}
    (given : (readPath start tokens).value = some expression) :
    expression.nesting = 0 := by
  simp only [readPath] at given
  split at given
  · simp only [Option.some.injEq] at given
    subst given
    simp [Expression.nesting]
  · simp [Reading.failed] at given

/-- If the calls that a reader of expressions finds stay within some levels, so
does every expression. -/
theorem nesting_readExpression {limit levels : Nat}
    {argument? : Option (TokenReader (Option Expression))}
    (callYields : ∀ name nameSpan tokens expression,
      (readCall limit argument? name nameSpan tokens).value = some expression →
        expression.nesting ≤ levels)
    {tokens : List Token} {expression : Expression}
    (given : (readExpression limit argument? tokens).value = some expression) :
    expression.nesting ≤ levels := by
  simp only [readExpression] at given
  split at given
  · simp [Reading.failed] at given
  · split at given
    · rw [nesting_readPath given]
      exact Nat.zero_le levels
    · exact callYields _ _ _ _ given
    · split at given
      · simp only [Option.some.injEq] at given
        subst given
        simp [Expression.nesting]
      · simp [Reading.failed] at given

theorem expressionReader_yields (limit levels : Nat) :
    (expressionReader limit levels).Yields fun e => e.nesting ≤ levels := by
  induction levels with
  | zero =>
      intro tokens expression given
      refine nesting_readExpression ?_ given
      intro name nameSpan tokens expression given
      rw [readCall_value_of_none] at given
      cases given
  | succ levels ih =>
      intro tokens expression given
      refine nesting_readExpression ?_ given
      intro name nameSpan tokens expression given
      exact nesting_readCall ih given

/-- Every body that a reader gives has a property. -/
def TokenReader.YieldsWithin (reader : TokenReader (List Node)) (levels : Nat) :
    Prop :=
  ∀ tokens, bodyNesting (reader.read tokens).value ≤ levels

theorem bodyNesting_readClosedBody {body : TokenReader (List Node)} {levels : Nat}
    (within : body.YieldsWithin levels) (opener : Token) (keyword : Keyword)
    (tokens : List Token) :
    ∀ closed, (readClosedBody body opener keyword tokens).value = some closed →
      bodyNesting closed.nodes ≤ levels := by
  fun_induction readClosedBody body opener keyword tokens with
  | case1 => simp [Reading.failed]
  | case2 tokens reading closer rest =>
      intro closed given
      simp only [Option.some.injEq] at given
      subst given
      exact within tokens
  | case3 tokens reading closer rest _ _ stray after ih
  | case4 tokens reading closer rest _ _ stray after ih =>
      intro closed given
      simp only [Reading.map, Reading.precededBy, Option.map_eq_some_iff] at given
      obtain ⟨later, laterGiven, rfl⟩ := given
      simpa using Nat.max_le.mpr ⟨within tokens, ih later laterGiven⟩
  | case5 => simp [Reading.failed]

theorem nesting_readBranches {nested : NestedReaders} {levels : Nat}
    (yields : nested.expression.Yields fun e => e.nesting ≤ levels)
    (within : nested.body.YieldsWithin levels) (opener directive : Token)
    (tokens : List Token) :
    ∀ chain, (readBranches nested opener directive tokens).value = some chain →
      branchesNesting chain.branches ≤ levels ∧
        otherwiseNesting chain.otherwise ≤ levels := by
  have branchWithin : ∀ (directive : Token) (tokens : List Token) (branch : Branch),
      (readHeader directive nested.expression tokens).value.map (fun condition =>
          Branch.mk condition.content (nested.body.read
            (readHeader directive nested.expression tokens).rest).value) =
        some branch →
      branch.nesting ≤ levels := by
    intro directive tokens branch branchGiven
    obtain ⟨header, headerGiven, rfl⟩ := Option.map_eq_some_iff.mp branchGiven
    have condition := headerReader_yields yields directive tokens header headerGiven
    exact Nat.max_le.mpr ⟨condition, within _⟩
  fun_induction readBranches nested opener directive tokens with
  | case1 => simp [Reading.failed]
  | case2 => simp [Reading.failed]
  | case3 directive tokens header _ body reports branch? closer rest _ _ ih =>
      intro chain given
      simp only [Reading.map, Reading.precededBy, Option.bind_eq_some_iff,
        Option.map_eq_some_iff] at given
      obtain ⟨branch, branchGiven, others, othersGiven, rfl⟩ := given
      obtain ⟨inBranches, inLast⟩ := ih others othersGiven
      exact ⟨Nat.max_le.mpr ⟨branchWithin directive tokens branch branchGiven,
        inBranches⟩, inLast⟩
  | case4 directive tokens header _ body reports branch? closer rest =>
      intro chain given
      simp only [Reading.map, Reading.precededBy, Option.bind_eq_some_iff,
        Option.map_eq_some_iff] at given
      obtain ⟨branch, branchGiven, closed, closedGiven, rfl⟩ := given
      have inBranch := branchWithin directive tokens branch branchGiven
      have inLast := bodyNesting_readClosedBody within _ _ _ closed closedGiven
      simpa [branchesNesting, otherwiseNesting] using ⟨inBranch, inLast⟩
  | case5 directive tokens header _ body reports branch? closer rest =>
      intro chain given
      simp only [Option.map_eq_some_iff] at given
      obtain ⟨branch, branchGiven, rfl⟩ := given
      have inBranch := branchWithin directive tokens branch branchGiven
      simpa [branchesNesting, otherwiseNesting] using inBranch
  | case6 => simp [Reading.failed]

/-- What bounds the readers one level deeper, if there is such a level. -/
def NestedWithin (nested? : Option NestedReaders) (levels : Nat) : Prop :=
  ∀ nested, nested? = some nested →
    ∃ inner, levels = inner + 1 ∧
      (nested.expression.Yields fun e => e.nesting ≤ inner) ∧
      nested.body.YieldsWithin inner

theorem bodyNesting_readConditional {limit levels : Nat}
    {nested? : Option NestedReaders} (within : NestedWithin nested? levels)
    (opener : Token) (tokens : List Token) :
    bodyNesting (readConditional limit nested? opener tokens).value ≤ levels := by
  unfold readConditional
  split
  · simp [rejectBlock, bodyNesting]
  · rename_i nested
    obtain ⟨inner, rfl, yields, bodyWithin⟩ := within nested rfl
    simp only [Reading.map]
    cases given : (readBranches nested opener opener tokens).value with
    | none => simp [bodyNesting]
    | some chain =>
        obtain ⟨inBranches, inLast⟩ :=
          nesting_readBranches yields bodyWithin opener opener tokens chain given
        simp only [Option.toList_some, List.map_cons, List.map_nil, bodyNesting,
          Node.nesting]
        omega

theorem bodyNesting_readLoop {limit levels : Nat}
    {nested? : Option NestedReaders} (within : NestedWithin nested? levels)
    (opener : Token) (tokens : List Token) :
    bodyNesting (readLoop limit nested? opener tokens).value ≤ levels := by
  unfold readLoop
  split
  · simp [rejectBlock, bodyNesting]
  · rename_i nested
    obtain ⟨inner, rfl, yields, bodyWithin⟩ := within nested rfl
    have headerWithin := headerReader_yields (loopHeaderReader_yields yields) opener
    dsimp only
    split
    · simp [bodyNesting]
    · simp only [Reading.map, Reading.precededBy]
      split
      · rename_i loop stop closed headerGiven closedGiven
        have inIterable := headerWithin tokens _ headerGiven
        have inBody := bodyNesting_readClosedBody bodyWithin _ _ _ closed closedGiven
        simp only at inIterable
        simp only [bodyNesting, Node.nesting]
        omega
      · simp [bodyNesting]

theorem bodyNesting_readBinding {levels : Nat}
    {expression : TokenReader (Option Expression)}
    (yields : expression.Yields fun e => e.nesting ≤ levels) (opener : Token)
    (tokens : List Token) :
    bodyNesting (readBinding expression opener tokens).value ≤ levels := by
  simp only [readBinding, Reading.map]
  cases given :
      (readHeader opener (bindingHeaderReader expression) tokens).value with
  | none => simp [bodyNesting]
  | some header =>
      have inValue := headerReader_yields (bindingHeaderReader_yields yields) opener
        tokens header given
      simpa [bodyNesting, Node.nesting] using inValue

theorem bodyNesting_readOutputCall {limit levels : Nat}
    {nested? : Option NestedReaders} (within : NestedWithin nested? levels)
    (name : String) (nameSpan : Span) (tokens : List Token) :
    bodyNesting (readOutputCall limit (nested?.map NestedReaders.expression) name
      nameSpan tokens).value ≤ levels := by
  simp only [readOutputCall]
  split
  · rename_i call callGiven
    cases nested? with
    | none => simp [readCall_value_of_none] at callGiven
    | some nested =>
        obtain ⟨inner, rfl, yields, -⟩ := within nested rfl
        simpa [bodyNesting, Node.nesting] using nesting_readCall yields callGiven
  · simp [bodyNesting]

theorem bodyNesting_readPiece (limit : Nat) {levels : Nat}
    {expression : TokenReader (Option Expression)}
    {nested? : Option NestedReaders}
    (yields : expression.Yields fun e => e.nesting ≤ levels)
    (within : NestedWithin nested? levels) (token : Token) (tokens : List Token) :
    bodyNesting (readPiece limit expression nested? token tokens).value ≤
      levels := by
  unfold readPiece
  split
  · simp [bodyNesting, Node.nesting]
  · simp only [Reading.map]
    cases given : (readPath token.span.start tokens).value with
    | none => simp [bodyNesting]
    | some path => simp [bodyNesting, Node.nesting, nesting_readPath given]
  · exact bodyNesting_readOutputCall within _ token.span tokens
  · unfold readDirective
    split
    · exact bodyNesting_readConditional within token tokens
    · exact bodyNesting_readLoop within token tokens
    · exact bodyNesting_readBinding yields token tokens
    · simp [bodyNesting]
    · simp [bodyNesting]
  · simp [bodyNesting]

theorem bodyNesting_readBody {limit levels : Nat}
    {expression : TokenReader (Option Expression)}
    {nested? : Option NestedReaders}
    (yields : expression.Yields fun e => e.nesting ≤ levels)
    (within : NestedWithin nested? levels) (inBlock : Bool) (tokens : List Token) :
    bodyNesting (readBody limit expression nested? inBlock tokens).value ≤
      levels := by
  fun_induction readBody limit expression nested? inBlock tokens with
  | case1 => simp [bodyNesting]
  | case2 => simp [bodyNesting]
  | case3 token rest _ piece ih =>
      have inPiece := bodyNesting_readPiece limit yields within token rest
      simpa [Reading.map, Reading.precededBy] using Nat.max_le.mpr ⟨inPiece, ih⟩

theorem blockBodyReader_within (limit levels : Nat) :
    (blockBodyReader limit levels).YieldsWithin levels := by
  induction levels with
  | zero =>
      intro tokens
      exact bodyNesting_readBody (expressionReader_yields limit 0)
        (by simp [NestedWithin]) true tokens
  | succ levels ih =>
      intro tokens
      refine bodyNesting_readBody (expressionReader_yields limit (levels + 1)) ?_
        true tokens
      rintro nested ⟨⟩
      exact ⟨levels, rfl, expressionReader_yields limit levels, ih⟩

theorem nestedReaders?_within (limit levels : Nat) :
    NestedWithin (nestedReaders? limit levels) levels := by
  cases levels with
  | zero => simp [NestedWithin, nestedReaders?]
  | succ levels =>
      rintro nested ⟨⟩
      exact ⟨levels, rfl, expressionReader_yields limit levels,
        blockBodyReader_within limit levels⟩

/-- A program is never nested deeper than the limit with which it was read, even
if the tokens are malformed. -/
theorem nesting_ofTokens (limit : Nat) (tokens : List Token) :
    (Program.ofTokens limit tokens).1.nesting ≤ limit :=
  bodyNesting_readBody (expressionReader_yields limit limit)
    (nestedReaders?_within limit limit) false tokens

end Stencil
