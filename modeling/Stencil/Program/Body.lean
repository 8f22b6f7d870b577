import Stencil.Program.Header

/-!
# Reading bodies and blocks

A body is read piece by piece up to the keyword that ends it, which is left for
the block around it.  What cannot be read is reported, and reading goes on after
the header or the block concerned.
-/

namespace Stencil

/-- The readers for what is nested one level deeper. -/
structure NestedReaders where
  expression : TokenReader (Option Expression)
  body : TokenReader (List Node)

/-- The nodes of a body and the offset at which its block ends. -/
structure ClosedBody where
  nodes : List Node
  stop : Nat
  deriving Repr, Inhabited

/-- The branches of a conditional, its last body, and the offset at which it
ends. -/
structure BranchChain where
  branches : List Branch
  otherwise : Option (List Node)
  stop : Nat
  deriving Repr, Inhabited

/-- Put a branch in front of others. -/
def BranchChain.prepend (branch : Branch) (chain : BranchChain) : BranchChain :=
  { chain with branches := branch :: chain.branches }

/-- The report that a block was never closed. -/
def unclosedReport (opener : Token) (keyword : Keyword) : Report :=
  ⟨.unclosedBlock keyword.word, opener.span⟩

/-- Read a body that only `#end` may close.  Another keyword that would continue
a conditional is reported and reading goes on after it. -/
def readClosedBody (body : TokenReader (List Node)) (opener : Token)
    (keyword : Keyword) (tokens : List Token) : Reading (Option ClosedBody) :=
  let reading := body.read tokens
  match _ : reading.rest with
  | [] => .failed (reading.reports ++ [unclosedReport opener keyword]) []
  | closer :: rest =>
      match closer.kind.keyword? with
      | some .endBlock =>
          ⟨some ⟨reading.value, closer.span.stop⟩, reading.reports, rest⟩
      | some .elifBranch | some .elseBranch =>
          let stray : Report :=
            ⟨.unexpected closer.kind.description ["'#end'"], closer.span⟩
          let after := readClosedBody body opener keyword (skipHeader rest)
          (after.precededBy (reading.reports ++ [stray])).map
            (Option.map fun closed =>
              ⟨reading.value ++ closed.nodes, closed.stop⟩)
      | _ =>
          .failed (reading.reports ++ [unclosedReport opener keyword])
            (closer :: rest)
termination_by tokens.length
decreasing_by
  all_goals
    have shorter := body.shrinks tokens
    have readingRest : (body.read tokens).rest = closer :: rest := ‹_›
    rw [readingRest, List.length_cons] at shorter
    exact Nat.lt_of_le_of_lt (length_skipHeader_le rest) (by omega)

/-- Read the branches of a conditional.  `opener` is its first directive and
`directive` the one whose header comes next. -/
def readBranches (nested : NestedReaders) (opener directive : Token)
    (tokens : List Token) : Reading (Option BranchChain) :=
  let header := readHeader directive nested.expression tokens
  if header.value.isNone && atEnd header.rest then
    .failed header.reports header.rest
  else
    let body := nested.body.read header.rest
    let reports := header.reports ++ body.reports
    let branch? := header.value.map fun condition =>
      Branch.mk condition.content body.value
    match _ : body.rest with
    | [] => .failed (reports ++ [unclosedReport opener .ifBlock]) []
    | closer :: rest =>
        match closer.kind.keyword? with
        | some .elifBranch =>
            ((readBranches nested opener closer rest).precededBy reports).map
              fun chain? => branch?.bind fun branch =>
                chain?.map (BranchChain.prepend branch)
        | some .elseBranch =>
            ((readClosedBody nested.body opener .ifBlock rest).precededBy
              reports).map
              fun closed? => branch?.bind fun branch =>
                closed?.map fun closed =>
                  ⟨[branch], some closed.nodes, closed.stop⟩
        | some .endBlock =>
            ⟨branch?.map fun branch => ⟨[branch], none, closer.span.stop⟩,
              reports, rest⟩
        | _ =>
            .failed (reports ++ [unclosedReport opener .ifBlock])
              (closer :: rest)
termination_by tokens.length
decreasing_by
  have headerShrinks := length_readHeader_le directive nested.expression tokens
  have bodyShrinks := nested.body.shrinks
    (readHeader directive nested.expression tokens).rest
  have bodyRest :
      (nested.body.read
        (readHeader directive nested.expression tokens).rest).rest =
        closer :: rest := ‹_›
  rw [bodyRest, List.length_cons] at bodyShrinks
  omega

theorem length_readClosedBody_le (body : TokenReader (List Node))
    (opener : Token) (keyword : Keyword) (tokens : List Token) :
    (readClosedBody body opener keyword tokens).rest.length ≤ tokens.length := by
  fun_induction readClosedBody body opener keyword tokens with
  | case1 => exact Nat.zero_le _
  | case2 tokens reading closer rest readingRest =>
      have shorter : reading.rest.length ≤ tokens.length := body.shrinks tokens
      rw [readingRest, List.length_cons] at shorter
      simp only
      omega
  | case3 tokens reading closer rest readingRest _ stray after ih =>
      have shorter : reading.rest.length ≤ tokens.length := body.shrinks tokens
      rw [readingRest, List.length_cons] at shorter
      have := length_skipHeader_le rest
      have : after.rest.length ≤ (skipHeader rest).length := ih
      simp only [Reading.map, Reading.precededBy]
      omega
  | case4 tokens reading closer rest readingRest _ stray after ih =>
      have shorter : reading.rest.length ≤ tokens.length := body.shrinks tokens
      rw [readingRest, List.length_cons] at shorter
      have := length_skipHeader_le rest
      have : after.rest.length ≤ (skipHeader rest).length := ih
      simp only [Reading.map, Reading.precededBy]
      omega
  | case5 tokens reading closer rest readingRest =>
      have shorter : reading.rest.length ≤ tokens.length := body.shrinks tokens
      rw [readingRest, List.length_cons] at shorter
      simp only [Reading.failed, List.length_cons]
      omega

theorem length_readBranches_le (nested : NestedReaders)
    (opener directive : Token) (tokens : List Token) :
    (readBranches nested opener directive tokens).rest.length ≤
      tokens.length := by
  fun_induction readBranches nested opener directive tokens with
  | case1 directive tokens header _ =>
      exact length_readHeader_le directive nested.expression tokens
  | case2 => exact Nat.zero_le _
  | case3 directive tokens header _ body reports branch? closer rest bodyRest _ ih =>
      have headerShrinks : header.rest.length ≤ tokens.length :=
        length_readHeader_le directive nested.expression tokens
      have bodyShrinks : body.rest.length ≤ header.rest.length :=
        nested.body.shrinks header.rest
      rw [bodyRest, List.length_cons] at bodyShrinks
      simp only [Reading.map, Reading.precededBy]
      omega
  | case4 directive tokens header _ body reports branch? closer rest bodyRest _ =>
      have headerShrinks : header.rest.length ≤ tokens.length :=
        length_readHeader_le directive nested.expression tokens
      have bodyShrinks : body.rest.length ≤ header.rest.length :=
        nested.body.shrinks header.rest
      rw [bodyRest, List.length_cons] at bodyShrinks
      have := length_readClosedBody_le nested.body opener .ifBlock rest
      simp only [Reading.map, Reading.precededBy]
      omega
  | case5 directive tokens header _ body reports branch? closer rest bodyRest _ =>
      have headerShrinks : header.rest.length ≤ tokens.length :=
        length_readHeader_le directive nested.expression tokens
      have bodyShrinks : body.rest.length ≤ header.rest.length :=
        nested.body.shrinks header.rest
      rw [bodyRest, List.length_cons] at bodyShrinks
      simp only
      omega
  | case6 directive tokens header _ body reports closer rest bodyRest =>
      have headerShrinks : header.rest.length ≤ tokens.length :=
        length_readHeader_le directive nested.expression tokens
      have bodyShrinks : body.rest.length ≤ header.rest.length :=
        nested.body.shrinks header.rest
      rw [bodyRest, List.length_cons] at bodyShrinks
      simp only [Reading.failed, List.length_cons]
      omega

/-- Report that a block would be nested too deeply, and step over it. -/
def rejectBlock (limit : Nat) (opener : Token) (tokens : List Token) :
    Reading (List Node) :=
  ⟨[], [⟨.nestingTooDeep limit, opener.span⟩], closeBlock 0 (skipHeader tokens)⟩

/-- Read a conditional whose first directive is already taken off. -/
def readConditional (limit : Nat) (nested? : Option NestedReaders)
    (opener : Token) (tokens : List Token) : Reading (List Node) :=
  match nested? with
  | none => rejectBlock limit opener tokens
  | some nested =>
      (readBranches nested opener opener tokens).map fun chain? =>
        chain?.toList.map fun chain =>
          .conditional chain.branches chain.otherwise
            ⟨opener.span.start, chain.stop⟩

/-- Read a loop whose directive is already taken off. -/
def readLoop (limit : Nat) (nested? : Option NestedReaders) (opener : Token)
    (tokens : List Token) : Reading (List Node) :=
  match nested? with
  | none => rejectBlock limit opener tokens
  | some nested =>
      let header := readHeader opener (loopHeaderReader nested.expression) tokens
      if header.value.isNone && atEnd header.rest then
        ⟨[], header.reports, header.rest⟩
      else
        ((readClosedBody nested.body opener .forBlock header.rest).precededBy
          header.reports).map fun closed? =>
            match header.value, closed? with
            | some ⟨loop, _⟩, some closed =>
                [.loop loop.key loop.item loop.iterable closed.nodes
                  ⟨opener.span.start, closed.stop⟩]
            | _, _ => []

/-- Read a binding whose directive is already taken off. -/
def readBinding (expression : TokenReader (Option Expression)) (opener : Token)
    (tokens : List Token) : Reading (List Node) :=
  (readHeader opener (bindingHeaderReader expression) tokens).map fun header? =>
    header?.toList.map fun header =>
      .binding header.content.name header.content.value
        ⟨opener.span.start, header.stop⟩

def readDirective (limit : Nat) (expression : TokenReader (Option Expression))
    (nested? : Option NestedReaders) (word : String) (token : Token)
    (tokens : List Token) : Reading (List Node) :=
  match Keyword.ofWord? word with
  | some .ifBlock => readConditional limit nested? token tokens
  | some .forBlock => readLoop limit nested? token tokens
  | some .letBinding => readBinding expression token tokens
  | some keyword =>
      ⟨[], [⟨.orphanKeyword keyword.word, token.span⟩], skipHeader tokens⟩
  | none => ⟨[], [⟨.unknownDirective word, token.span⟩], tokens⟩

/-- Read a macro call in the text; where that fails, its parentheses are stepped
over. -/
def readOutputCall (limit : Nat)
    (argument? : Option (TokenReader (Option Expression))) (name : String)
    (nameSpan : Span) (tokens : List Token) : Reading (List Node) :=
  let reading := readCall limit argument? name nameSpan tokens
  match reading.value with
  | some call => ⟨[.output call], reading.reports, reading.rest⟩
  | none => ⟨[], reading.reports, skipHeader tokens⟩

/-- Read what begins with `token`, which is already taken off and does not end
the body. -/
def readPiece (limit : Nat) (expression : TokenReader (Option Expression))
    (nested? : Option NestedReaders) (token : Token) (tokens : List Token) :
    Reading (List Node) :=
  match token.kind with
  | .text content => ⟨[.text content token.span], [], tokens⟩
  | .dollar =>
      (readPath token.span.start tokens).map fun path? =>
        path?.toList.map .output
  | .macroName name =>
      readOutputCall limit (nested?.map NestedReaders.expression) name token.span
        tokens
  | .directive word =>
      readDirective limit expression nested? word token tokens
  | _ =>
      ⟨[], unexpectedNext ["text or a directive"] (token :: tokens), tokens⟩

theorem length_rejectBlock_le (limit : Nat) (opener : Token)
    (tokens : List Token) :
    (rejectBlock limit opener tokens).rest.length ≤ tokens.length :=
  Nat.le_trans (length_closeBlock_le 0 _) (length_skipHeader_le tokens)

theorem length_readConditional_le (limit : Nat) (nested? : Option NestedReaders)
    (opener : Token) (tokens : List Token) :
    (readConditional limit nested? opener tokens).rest.length ≤ tokens.length := by
  unfold readConditional
  split
  · exact length_rejectBlock_le limit opener tokens
  · exact length_readBranches_le _ opener opener tokens

theorem length_readLoop_le (limit : Nat) (nested? : Option NestedReaders)
    (opener : Token) (tokens : List Token) :
    (readLoop limit nested? opener tokens).rest.length ≤ tokens.length := by
  unfold readLoop
  split
  · exact length_rejectBlock_le limit opener tokens
  · rename_i nested
    have headerShrinks := length_readHeader_le opener
      (loopHeaderReader nested.expression) tokens
    dsimp only
    split
    · exact headerShrinks
    · exact Nat.le_trans (length_readClosedBody_le _ _ _ _) headerShrinks

theorem length_readDirective_le (limit : Nat)
    (expression : TokenReader (Option Expression))
    (nested? : Option NestedReaders) (word : String) (token : Token)
    (tokens : List Token) :
    (readDirective limit expression nested? word token tokens).rest.length ≤
      tokens.length := by
  unfold readDirective
  split
  · exact length_readConditional_le limit nested? token tokens
  · exact length_readLoop_le limit nested? token tokens
  · exact length_readHeader_le token (bindingHeaderReader expression) tokens
  · exact length_skipHeader_le tokens
  · exact Nat.le_refl _

theorem length_readPiece_le (limit : Nat)
    (expression : TokenReader (Option Expression))
    (nested? : Option NestedReaders) (token : Token) (tokens : List Token) :
    (readPiece limit expression nested? token tokens).rest.length ≤
      tokens.length := by
  unfold readPiece
  split
  · exact Nat.le_refl _
  · exact length_readPath_le token.span.start tokens
  · unfold readOutputCall
    dsimp only
    split
    · exact length_readCall_le _ _ _ _ tokens
    · exact length_skipHeader_le tokens
  · exact length_readDirective_le limit expression nested? _ token tokens
  · exact Nat.le_refl _

/-- Whether a token ends a body.  The keywords that continue or close a block do
so only inside a block. -/
def endsBody (inBlock : Bool) (kind : TokenKind) : Bool :=
  match kind with
  | .endOfInput => true
  | _ =>
      match kind.keyword? with
      | some .elifBranch | some .elseBranch | some .endBlock => inBlock
      | _ => false

/-- Read a body up to the token that ends it, which is left. -/
def readBody (limit : Nat) (expression : TokenReader (Option Expression))
    (nested? : Option NestedReaders) (inBlock : Bool) (tokens : List Token) :
    Reading (List Node) :=
  match tokens with
  | [] => ⟨[], [], []⟩
  | token :: rest =>
      if endsBody inBlock token.kind then
        ⟨[], [], token :: rest⟩
      else
        let piece := readPiece limit expression nested? token rest
        ((readBody limit expression nested? inBlock piece.rest).precededBy
          piece.reports).map (piece.value ++ ·)
termination_by tokens.length
decreasing_by
  exact Nat.lt_succ_of_le (length_readPiece_le limit expression nested? token rest)

theorem length_readBody_le (limit : Nat)
    (expression : TokenReader (Option Expression))
    (nested? : Option NestedReaders) (inBlock : Bool) (tokens : List Token) :
    (readBody limit expression nested? inBlock tokens).rest.length ≤
      tokens.length := by
  fun_induction readBody limit expression nested? inBlock tokens with
  | case1 => exact Nat.le_refl _
  | case2 => exact Nat.le_refl _
  | case3 token rest _ piece ih =>
      have : piece.rest.length ≤ rest.length :=
        length_readPiece_le limit expression nested? token rest
      simp only [Reading.map, Reading.precededBy, List.length_cons]
      omega

/-- The reader of bodies of blocks, in which blocks and calls may be nested
`levels` deep. -/
def blockBodyReader (limit : Nat) : Nat → TokenReader (List Node)
  | 0 =>
      { read := fun tokens =>
          readBody limit (expressionReader limit 0) none true tokens
        shrinks := length_readBody_le limit (expressionReader limit 0) none true }
  | levels + 1 =>
      { read := fun tokens =>
          readBody limit (expressionReader limit (levels + 1))
            (some ⟨expressionReader limit levels, blockBodyReader limit levels⟩)
            true tokens
        shrinks := length_readBody_le limit
          (expressionReader limit (levels + 1))
          (some ⟨expressionReader limit levels, blockBodyReader limit levels⟩)
          true }

/-- The readers one level below a nesting limit, if there is such a level. -/
def nestedReaders? (limit : Nat) : Nat → Option NestedReaders
  | 0 => none
  | levels + 1 =>
      some ⟨expressionReader limit levels, blockBodyReader limit levels⟩

/-- The offset at which the last of several tokens ends. -/
def lastStop (tokens : List Token) : Nat :=
  (tokens.getLast?.map fun token => token.span.stop).getD 0

/-- Put tokens together into a program, with blocks and calls nested at most
`limit` deep.  The program holds what could be read, and everything else is
reported in the order in which it was met. -/
def Program.ofTokens (limit : Nat) (tokens : List Token) :
    Program × List Report :=
  let body := readBody limit (expressionReader limit limit)
    (nestedReaders? limit limit) false tokens
  (⟨body.value, ⟨0, lastStop tokens⟩⟩, body.reports)

end Stencil
