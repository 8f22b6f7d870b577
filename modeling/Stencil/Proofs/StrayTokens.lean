import Stencil.Proofs.BodyTokens

/-!
# No stray tokens

A body reports a token that is neither text nor the beginning of a path, a call or a directive as
one that does not belong there.  In a template this never happens, whatever is wrong with it: the
tokens of headers are consumed with their headers, and nothing else puts such a token into a body.
-/

namespace Stencil

variable {α β : Type}

/-- What is written beside a token that does not belong into a body. -/
def strayLabel : String := "expected text or a directive"

/-- Nothing that is reported is a stray token. -/
def NoStray (reports : List Report) : Prop :=
  ∀ report ∈ reports, report.fault.label ≠ strayLabel

/-- What is expected is something else than the pieces of a body. -/
abbrev ExpectsOther (expected : List String) : Prop :=
  "expected " ++ joinAlternatives expected ≠ strayLabel

/-- A token that begins no piece and does not end the input is reported as a stray one. -/
theorem readPiece_reports_stray (limit : Nat) (expression : TokenReader (Option Expression))
    (nested? : Option NestedReaders) {token : Token}
    (noText : ∀ content, token.kind ≠ .text content)
    (noPiece : token.kind.startsPiece = false) (proper : token.kind ≠ .endOfInput)
    (tokens : List Token) :
    ∃ report, (readPiece limit expression nested? token tokens).reports = [report] ∧
      report.fault.label = strayLabel := by
  have stray : (readPiece limit expression nested? token tokens).reports =
      unexpectedNext ["text or a directive"] (token :: tokens) := by
    unfold readPiece
    split
    · exact absurd ‹_› (noText _)
    · rename_i isPiece
      rw [isPiece] at noPiece
      cases noPiece
    · rename_i isPiece
      rw [isPiece] at noPiece
      cases noPiece
    · rename_i isPiece
      rw [isPiece] at noPiece
      cases noPiece
    · rfl
  rw [unexpectedNext, if_neg proper] at stray
  exact ⟨_, stray, rfl⟩

namespace NoStray

variable {first second : List Report}

theorem nil : NoStray [] :=
  List.forall_mem_nil _

theorem append (noStray : NoStray first) (others : NoStray second) : NoStray (first ++ second) :=
  List.forall_mem_append.mpr ⟨noStray, others⟩

theorem single {report : Report} (other : report.fault.label ≠ strayLabel) : NoStray [report] :=
  List.forall_mem_singleton.mpr other

theorem unexpectedNext {expected : List String} (other : ExpectsOther expected)
    (tokens : List Token) : NoStray (unexpectedNext expected tokens) := by
  unfold Stencil.unexpectedNext
  split
  · exact nil
  · split
    · exact nil
    · exact single other

end NoStray

/-- Whatever tokens it gets, a reader reports none of them as stray. -/
def TokenReader.NoStray (reader : TokenReader (Option α)) : Prop :=
  ∀ tokens, Stencil.NoStray (reader.read tokens).reports

namespace TokenReader.NoStray

theorem next {accept : TokenKind → Option α} {expected : List String}
    (other : ExpectsOther expected) : (TokenReader.next accept expected).NoStray := by
  intro tokens
  rcases tokens with _ | ⟨token, rest⟩
  · exact .nil
  · simp only [TokenReader.next]
    split
    · exact .nil
    · exact Stencil.NoStray.unexpectedNext other (token :: rest)

theorem exactly {expected : List String} (other : ExpectsOther expected) (kind : TokenKind) :
    (TokenReader.exactly kind expected).NoStray :=
  next other

theorem andThen {first : TokenReader (Option α)} {second : α → TokenReader (Option β)}
    (noStray : first.NoStray) (further : ∀ value, (second value).NoStray) :
    (first.andThen second).NoStray := by
  intro tokens
  have own := noStray tokens
  simp only [TokenReader.andThen]
  split
  · exact own
  · exact own.append (further _ _)

theorem map {reader : TokenReader (Option α)} (noStray : reader.NoStray) (change : α → β) :
    (reader.map change).NoStray :=
  noStray

theorem ifNext {present absent : TokenReader (Option α)} (presentNoStray : present.NoStray)
    (absentNoStray : absent.NoStray) (kind : TokenKind) :
    (TokenReader.ifNext kind present absent).NoStray := by
  intro tokens
  rcases tokens with _ | ⟨token, rest⟩
  · exact absentNoStray []
  · simp only [TokenReader.ifNext]
    split
    · exact presentNoStray rest
    · exact absentNoStray _

end TokenReader.NoStray

section Headers

variable {expression : TokenReader (Option Expression)} (noStray : expression.NoStray)

include noStray

theorem iterableReader_noStray {expected : List String} (other : ExpectsOther expected) :
    (iterableReader expression expected).NoStray :=
  .andThen (.exactly other _) fun _ => noStray

theorem loopHeaderReader_noStray : (loopHeaderReader expression).NoStray :=
  .andThen (.next (by decide)) fun _ =>
    .ifNext
      (.andThen (.next (by decide)) fun _ => .map (iterableReader_noStray noStray (by decide)) _)
      (.map (iterableReader_noStray noStray (by decide)) _) _

theorem bindingHeaderReader_noStray : (bindingHeaderReader expression).NoStray :=
  .andThen (.next (by decide)) fun _ =>
    .andThen (.exactly (by decide) _) fun _ => .map noStray _

end Headers

theorem readHeader_noStray {reader : TokenReader (Option α)} (noStray : reader.NoStray)
    (directive : Token) (tokens : List Token) :
    NoStray (readHeader directive reader tokens).reports := by
  unfold readHeader
  split
  · rename_i group
    have own := noStray group
    dsimp only
    split
    · exact own
    · exact own
    · exact own.append (.unexpectedNext (by decide) _)
  · exact .single (show ExpectsOther ["'(' after the directive"] by decide)

theorem readPath_noStray (start : Nat) (tokens : List Token) :
    NoStray (readPath start tokens).reports := by
  unfold readPath
  split
  · exact .nil
  · exact .unexpectedNext (by decide) _

theorem readArguments_noStray {argument : TokenReader (Option Expression)}
    (noStray : argument.NoStray) (tokens : List Token) :
    NoStray (readArguments argument tokens).reports := by
  fun_induction readArguments argument tokens with
  | case1 tokens => exact noStray tokens
  | case2 tokens _ _ _ _ _ _ ih => exact (noStray tokens).append ih
  | case3 tokens => exact noStray tokens
  | case4 tokens => exact (noStray tokens).append (.unexpectedNext (by decide) _)

theorem readArgumentList_noStray {argument : TokenReader (Option Expression)}
    (noStray : argument.NoStray) (tokens : List Token) :
    NoStray (readArgumentList argument tokens).reports := by
  unfold readArgumentList
  split
  · exact .nil
  · exact readArguments_noStray noStray tokens

section Calls

variable {limit : Nat} {argument? : Option (TokenReader (Option Expression))}
variable (noStray : ∀ argument, argument? = some argument → argument.NoStray)

include noStray

theorem readCall_noStray (name : String) (nameSpan : Span) (tokens : List Token) :
    NoStray (readCall limit argument? name nameSpan tokens).reports := by
  unfold readCall
  split
  · split
    · exact .single (by dsimp only [Fault.label]; decide)
    · exact readArgumentList_noStray (noStray _ rfl) _
  · exact .single (by dsimp only [Fault.label]; decide)

theorem readExpression_noStray (tokens : List Token) :
    NoStray (readExpression limit argument? tokens).reports := by
  unfold readExpression
  split
  · exact .nil
  · rename_i token rest
    split
    · exact readPath_noStray _ _
    · exact readCall_noStray noStray _ _ _
    · split
      · exact .nil
      · exact NoStray.unexpectedNext (by decide) (token :: rest)

theorem readOutputCall_noStray (name : String) (nameSpan : Span) (tokens : List Token) :
    NoStray (readOutputCall limit argument? name nameSpan tokens).reports := by
  have own : NoStray (readCall limit argument? name nameSpan tokens).reports :=
    readCall_noStray noStray name nameSpan tokens
  unfold readOutputCall
  dsimp only
  split
  · exact own
  · exact own

end Calls

theorem expressionReader_noStray (limit levels : Nat) :
    (expressionReader limit levels).NoStray := by
  induction levels with
  | zero =>
      intro tokens
      refine readExpression_noStray ?_ tokens
      rintro argument ⟨⟩
  | succ levels ih =>
      intro tokens
      refine readExpression_noStray ?_ tokens
      rintro argument ⟨⟩
      exact ih

/-- What is read reports no stray token, and it leaves a body. -/
structure Reading.LeavesBody (reading : Reading α) : Prop where
  noStray : NoStray reading.reports
  body : BodyTokens reading.rest

theorem Reading.LeavesBody.precededBy {reading : Reading α} {reports : List Report}
    (leaves : reading.LeavesBody) (noStray : NoStray reports) :
    (reading.precededBy reports).LeavesBody :=
  ⟨noStray.append leaves.noStray, leaves.body⟩

theorem Reading.LeavesBody.map {reading : Reading α} (leaves : reading.LeavesBody)
    (change : α → β) : (reading.map change).LeavesBody :=
  ⟨leaves.noStray, leaves.body⟩

/-- Of a body, a body is left. -/
def TokenReader.LeavesBody (reader : TokenReader (List Node)) : Prop :=
  ∀ tokens, BodyTokens tokens → (reader.read tokens).LeavesBody

theorem noStray_unclosedReport (opener : Token) (keyword : Keyword) :
    NoStray [unclosedReport opener keyword] :=
  .single (by dsimp only [unclosedReport, Fault.label]; decide)

theorem readClosedBody_leavesBody {body : TokenReader (List Node)} (leaves : body.LeavesBody)
    (opener : Token) (keyword : Keyword) (tokens : List Token) :
    BodyTokens tokens → (readClosedBody body opener keyword tokens).LeavesBody := by
  fun_induction readClosedBody body opener keyword tokens with
  | case1 tokens reading isRest =>
      intro isBody
      have own : reading.LeavesBody := leaves tokens isBody
      exact ⟨own.noStray.append (noStray_unclosedReport opener keyword), isRest ▸ own.body⟩
  | case2 tokens reading closer rest isRest ends =>
      intro isBody
      have own : reading.LeavesBody := leaves tokens isBody
      have behind : BodyTokens (closer :: rest) := isRest ▸ own.body
      exact ⟨own.noStray, behind.behindKeyword ends rfl⟩
  | case3 tokens reading closer rest isRest continues stray after ih
  | case4 tokens reading closer rest isRest continues stray after ih =>
      intro isBody
      have own : reading.LeavesBody := leaves tokens isBody
      have behind : BodyTokens (closer :: rest) := isRest ▸ own.body
      have noStray : NoStray [stray] := .single (show ExpectsOther ["'#end'"] by decide)
      exact ((ih (behind.behindKeywordHeader continues)).precededBy
        (own.noStray.append noStray)).map _
  | case5 tokens reading closer rest isRest =>
      intro isBody
      have own : reading.LeavesBody := leaves tokens isBody
      exact ⟨own.noStray.append (noStray_unclosedReport opener keyword), isRest ▸ own.body⟩

/-- The readers for what is nested one level deeper report no stray tokens. -/
structure NestedReaders.LeaveBodies (nested : NestedReaders) : Prop where
  closes : nested.expression.ClosesGroups
  noStray : nested.expression.NoStray
  body : nested.body.LeavesBody

theorem readHeader_leavesBody {reader : TokenReader (Option α)} (closes : reader.ClosesGroups)
    (noStray : reader.NoStray) (directive : Token) {tokens : List Token}
    (isBody : BodyTokens (skipHeader tokens)) :
    (readHeader directive reader tokens).LeavesBody :=
  ⟨readHeader_noStray noStray directive tokens, (rest_readHeader closes directive tokens).symm ▸
    isBody⟩

theorem readBranches_leavesBody {nested : NestedReaders} (leave : nested.LeaveBodies)
    (opener directive : Token) (tokens : List Token) :
    BodyTokens (skipHeader tokens) → (readBranches nested opener directive tokens).LeavesBody := by
  have branch (directive : Token) {tokens : List Token} (isBody : BodyTokens (skipHeader tokens)) :
      let header := readHeader directive nested.expression tokens
      header.LeavesBody ∧ (nested.body.read header.rest).LeavesBody :=
    have header := readHeader_leavesBody leave.closes leave.noStray directive isBody
    ⟨header, leave.body _ header.body⟩
  fun_induction readBranches nested opener directive tokens with
  | case1 directive tokens header =>
      intro isBody
      obtain ⟨first, -⟩ := branch directive isBody
      exact ⟨first.noStray, first.body⟩
  | case2 directive tokens header _ body reports isRest =>
      intro isBody
      obtain ⟨first, own⟩ := branch directive isBody
      exact ⟨(first.noStray.append own.noStray).append (noStray_unclosedReport opener .ifBlock),
        isRest ▸ own.body⟩
  | case3 directive tokens header _ body reports branch? closer rest isRest continues ih =>
      intro isBody
      obtain ⟨first, own⟩ := branch directive isBody
      have behind : BodyTokens (closer :: rest) := isRest ▸ own.body
      exact ((ih (behind.behindKeywordHeader continues)).precededBy
        (first.noStray.append own.noStray)).map _
  | case4 directive tokens header _ body reports branch? closer rest isRest continues =>
      intro isBody
      obtain ⟨first, own⟩ := branch directive isBody
      have behind : BodyTokens (closer :: rest) := isRest ▸ own.body
      exact ((readClosedBody_leavesBody leave.body opener .ifBlock rest
        (behind.behindKeyword continues rfl)).precededBy
          (first.noStray.append own.noStray)).map _
  | case5 directive tokens header _ body reports branch? closer rest isRest ends =>
      intro isBody
      obtain ⟨first, own⟩ := branch directive isBody
      have behind : BodyTokens (closer :: rest) := isRest ▸ own.body
      exact ⟨first.noStray.append own.noStray, behind.behindKeyword ends rfl⟩
  | case6 directive tokens header _ body reports closer rest isRest =>
      intro isBody
      obtain ⟨first, own⟩ := branch directive isBody
      exact ⟨(first.noStray.append own.noStray).append (noStray_unclosedReport opener .ifBlock),
        isRest ▸ own.body⟩

section Pieces

variable {limit : Nat} {nested? : Option NestedReaders}
variable (leave : ∀ nested, nested? = some nested → nested.LeaveBodies)

theorem rejectBlock_leavesBody (opener : Token) {tokens : List Token}
    (isBody : BodyTokens (skipHeader tokens)) : (rejectBlock limit opener tokens).LeavesBody :=
  ⟨.single (by dsimp only [Fault.label]; decide), isBody.closeBlock 0⟩

include leave

theorem readConditional_leavesBody (opener : Token) {tokens : List Token}
    (isBody : BodyTokens (skipHeader tokens)) :
    (readConditional limit nested? opener tokens).LeavesBody := by
  unfold readConditional
  split
  · exact rejectBlock_leavesBody opener isBody
  · rename_i nested
    exact (readBranches_leavesBody (leave nested rfl) opener opener tokens isBody).map _

theorem readLoop_leavesBody (opener : Token) {tokens : List Token}
    (isBody : BodyTokens (skipHeader tokens)) :
    (readLoop limit nested? opener tokens).LeavesBody := by
  unfold readLoop
  split
  · exact rejectBlock_leavesBody opener isBody
  · rename_i nested
    have leave := leave nested rfl
    have header := readHeader_leavesBody (loopHeaderReader_closesGroups leave.closes)
      (loopHeaderReader_noStray leave.noStray) opener isBody
    dsimp only
    split
    · exact ⟨header.noStray, header.body⟩
    · exact ((readClosedBody_leavesBody leave.body opener .forBlock _ header.body).precededBy
        header.noStray).map _

variable {expression : TokenReader (Option Expression)} (closes : expression.ClosesGroups)
variable (noStray : expression.NoStray)

include closes noStray

theorem readDirective_leavesBody {word : String} {token : Token}
    (isDirective : token.kind = .directive word) {tokens : List Token}
    (isBody : BodyTokens (token :: tokens)) :
    (readDirective limit expression nested? word token tokens).LeavesBody := by
  have isHead : token.kind.isHead := by
    rw [isDirective]
    rfl
  have behind := isBody.behindHeader isHead
  unfold readDirective
  split
  · exact readConditional_leavesBody leave token behind
  · exact readLoop_leavesBody leave token behind
  · exact (readHeader_leavesBody (bindingHeaderReader_closesGroups closes)
      (bindingHeaderReader_noStray noStray) token behind).map _
  · exact ⟨.single (by dsimp only [Fault.label]; decide), behind⟩
  · rename_i unknown
    refine ⟨.single (by dsimp only [Fault.label]; decide), isBody.behindHead isHead ?_⟩
    rw [isDirective, TokenKind.takesGroup, unknown]
    rfl

theorem readPiece_leavesBody {token : Token} {tokens : List Token}
    (isBody : BodyTokens (token :: tokens)) (proper : token.kind ≠ .endOfInput) :
    (readPiece limit expression nested? token tokens).LeavesBody := by
  rcases token with ⟨kind, span⟩
  cases kind with
  | text content =>
      cases isBody with
      | text _ _ body => exact ⟨.nil, body⟩
      | head _ isHead => cases isHead
  | dollar =>
      cases isBody with
      | @path _ name nameSpan steps rest _ ends body =>
          have left : BodyTokens (readPathTail nameSpan.stop (steps ++ rest)).rest := by
            rwa [ends]
          exact ⟨.nil, left⟩
      | head _ isHead => cases isHead
  | macroName name =>
      have argumentCloses : ∀ argument, nested?.map NestedReaders.expression = some argument →
          argument.ClosesGroups ∧ argument.NoStray := by
        intro argument isArgument
        obtain ⟨nested, isNested, rfl⟩ := Option.map_eq_some_iff.mp isArgument
        exact ⟨(leave nested isNested).closes, (leave nested isNested).noStray⟩
      refine ⟨readOutputCall_noStray (fun argument isArgument =>
        (argumentCloses argument isArgument).2) name span tokens, ?_⟩
      rw [readPiece, rest_readOutputCall
        (fun argument isArgument => (argumentCloses argument isArgument).1) name span tokens]
      exact isBody.behindHeader rfl
  | directive word => exact readDirective_leavesBody leave closes noStray rfl isBody
  | endOfInput => exact absurd rfl proper
  | _ =>
      cases isBody with
      | head _ isHead => cases isHead

theorem readBody_leavesBody (inBlock : Bool) (tokens : List Token) :
    BodyTokens tokens → (readBody limit expression nested? inBlock tokens).LeavesBody := by
  fun_induction readBody limit expression nested? inBlock tokens with
  | case1 => exact fun isBody => ⟨.nil, isBody⟩
  | case2 => exact fun isBody => ⟨.nil, isBody⟩
  | case3 token rest goesOn piece ih =>
      intro isBody
      have proper : token.kind ≠ .endOfInput := by
        intro ended
        rw [ended] at goesOn
        exact goesOn rfl
      have own : piece.LeavesBody := readPiece_leavesBody leave closes noStray isBody proper
      exact ((ih own.body).precededBy own.noStray).map _

end Pieces

theorem nestedReaders?_leaveBodies {limit levels : Nat} {nested : NestedReaders}
    (isNested : nestedReaders? limit levels = some nested) : nested.LeaveBodies := by
  induction levels generalizing nested with
  | zero => cases isNested
  | succ levels ih =>
      cases isNested
      refine ⟨expressionReader_closesGroups limit levels, expressionReader_noStray limit levels,
        fun tokens isBody => ?_⟩
      have inner : (readBody limit (expressionReader limit levels) (nestedReaders? limit levels)
          true tokens).LeavesBody :=
        readBody_leavesBody (fun _ => ih) (expressionReader_closesGroups limit levels)
          (expressionReader_noStray limit levels) true tokens isBody
      cases levels with
      | zero => exact inner
      | succ levels => exact inner

/-- No report on the tokens of a template says that a token does not belong into a body, whatever
is wrong with the template. -/
theorem ofTokens_noStray (trim : Bool) (limit : Nat) (text : String) :
    NoStray (Program.ofTokens limit (tokenize trim text).1).2 :=
  (readBody_leavesBody (fun _ => nestedReaders?_leaveBodies)
    (expressionReader_closesGroups limit limit) (expressionReader_noStray limit limit) false _
    (scanBody_bodyTokens trim 0 text.toList)).noStray

end Stencil
