import Stencil.Proofs.FaithfulParse
import Stencil.Proofs.Following

/-!
# The mark at the end of the input

Readers stop at the token that marks the end of the input just as they stop where there are no
more tokens.  So whatever stands from that mark on is left as it is, and changes nothing of what
is read before it.
-/

namespace Stencil

variable {α β : Type}

/-- Tokens that begin with the mark of the end. -/
def EndMarked (tokens : List Token) : Prop :=
  ∃ span more, tokens = ⟨.endOfInput, span⟩ :: more

/-- Put tokens behind those that are left. -/
def Reading.followedBy (reading : Reading α) (tail : List Token) : Reading α :=
  { reading with rest := reading.rest ++ tail }

/-- What is read in front of a tail is what is read without it, and all of the tail is left. -/
structure Reading.StopsBefore (tail : List Token) (marked unmarked : Reading α) : Prop where
  unended : Unended unmarked.rest
  same : marked = unmarked.followedBy tail

/-- A reader reads as if a tail behind tokens without a mark of the end were not there. -/
def TokenReader.StopsBefore (tail : List Token) (reader : TokenReader α) : Prop :=
  ∀ tokens, Unended tokens →
    Reading.StopsBefore tail (reader.read (tokens ++ tail)) (reader.read tokens)

theorem Unended.tail {token : Token} {tokens : List Token} (unended : Unended (token :: tokens)) :
    Unended tokens :=
  (List.forall_mem_cons.mp unended).2

theorem Unended.head {token : Token} {tokens : List Token} (unended : Unended (token :: tokens)) :
    token.kind ≠ .endOfInput :=
  (List.forall_mem_cons.mp unended).1

theorem Unended.suffix {tokens rest : List Token} (unended : Unended tokens)
    (suffix : rest <:+ tokens) : Unended rest :=
  fun token member => unended token (suffix.mem member)

section Steps

variable {tail : List Token} (marked : EndMarked tail)

include marked

theorem nextKind_append (tokens : List Token) : nextKind (tokens ++ tail) = nextKind tokens := by
  obtain ⟨span, more, rfl⟩ := marked
  cases tokens <;> rfl

theorem atEnd_append (tokens : List Token) : atEnd (tokens ++ tail) = atEnd tokens := by
  simp [atEnd, nextKind_append marked]

theorem unexpectedNext_append (expected : List String) (tokens : List Token) :
    unexpectedNext expected (tokens ++ tail) = unexpectedNext expected tokens := by
  obtain ⟨span, more, rfl⟩ := marked
  cases tokens <;> rfl

theorem closeGroup_append (depth : Nat) {tokens : List Token} (unended : Unended tokens) :
    closeGroup depth (tokens ++ tail) = closeGroup depth tokens ++ tail := by
  obtain ⟨span, more, rfl⟩ := marked
  induction tokens generalizing depth with
  | nil => rfl
  | cons token tokens ih =>
      have further := fun depth => ih depth unended.tail
      rcases token with ⟨kind, tokenSpan⟩
      cases kind with
      | endOfInput => exact absurd rfl unended.head
      | rightParen =>
          cases depth with
          | zero => rfl
          | succ depth => exact further depth
      | leftParen => exact further (depth + 1)
      | _ => exact further depth

theorem skipHeader_append {tokens : List Token} (unended : Unended tokens) :
    skipHeader (tokens ++ tail) = skipHeader tokens ++ tail := by
  cases tokens with
  | nil =>
      obtain ⟨span, more, rfl⟩ := marked
      rfl
  | cons token tokens =>
      by_cases opens : token.kind = .leftParen <;>
        simp [skipHeader, opens, closeGroup_append marked 0 unended.tail]

theorem closeBlock_append (depth : Nat) {tokens : List Token} (unended : Unended tokens) :
    closeBlock depth (tokens ++ tail) = closeBlock depth tokens ++ tail := by
  obtain ⟨span, more, rfl⟩ := marked
  induction tokens generalizing depth with
  | nil => rfl
  | cons token tokens ih =>
      have further := fun depth => ih depth unended.tail
      simp only [List.cons_append, closeBlock, if_neg unended.head]
      rcases token.kind.keyword? with _ | keyword
      · exact further depth
      · cases keyword with
        | endBlock =>
            cases depth with
            | zero => rfl
            | succ depth => exact further depth
        | ifBlock | forBlock => exact further (depth + 1)
        | _ => exact further depth

/-- No step of a path reaches over the mark of the end. -/
theorem readPathTail_append (stop : Nat) (tokens : List Token) :
    readPathTail stop (tokens ++ tail) =
      { readPathTail stop tokens with rest := (readPathTail stop tokens).rest ++ tail } := by
  fun_induction readPathTail stop tokens with
  | case1 dotSpan field span rest ih => simp [readPathTail, PathTail.prepend, ih]
  | case2 stop dotSpan field span rest apart => simp [readPathTail, apart]
  | case3 stop openSpan index indexSpan span rest adjacent ih =>
      simp [readPathTail, adjacent, PathTail.prepend, ih]
  | case4 stop openSpan index indexSpan span rest apart => simp [readPathTail, apart]
  | case5 stop tokens noField noIndex =>
      obtain ⟨endSpan, more, rfl⟩ := marked
      rw [readPathTail]
      · intro dotSpan field span rest same
        rcases tokens with _ | ⟨first, _ | ⟨second, tokens⟩⟩
        · simp at same
        · simp at same
        · obtain ⟨rfl, rfl, -⟩ : first = ⟨.dot, dotSpan⟩ ∧ second = ⟨.name field, span⟩ ∧ _ := by
            simpa using same
          exact noField dotSpan field span tokens rfl
      · intro openSpan index indexSpan span rest same
        rcases tokens with _ | ⟨first, _ | ⟨second, _ | ⟨third, tokens⟩⟩⟩
        · simp at same
        · simp at same
        · simp at same
        · obtain ⟨rfl, rfl, rfl, -⟩ : first = ⟨.leftBracket, openSpan⟩ ∧
              second = ⟨.integer index, indexSpan⟩ ∧ third = ⟨.rightBracket, span⟩ ∧ _ := by
            simpa using same
          exact noIndex openSpan index indexSpan span tokens rfl

end Steps

namespace Reading.StopsBefore

variable {tail : List Token}

theorem precededBy {marked unmarked : Reading α} (stops : StopsBefore tail marked unmarked)
    (reports : List Report) :
    StopsBefore tail (marked.precededBy reports) (unmarked.precededBy reports) :=
  ⟨stops.unended, by rw [stops.same]; rfl⟩

theorem map {marked unmarked : Reading α} (stops : StopsBefore tail marked unmarked)
    (change : α → β) : StopsBefore tail (marked.map change) (unmarked.map change) :=
  ⟨stops.unended, by rw [stops.same]; rfl⟩

end Reading.StopsBefore

namespace TokenReader.StopsBefore

variable {tail : List Token}

theorem next (marked : EndMarked tail) {accept : TokenKind → Option α} (expected : List String)
    (refuses : accept .endOfInput = none) :
    (TokenReader.next accept expected).StopsBefore tail := by
  intro tokens unended
  cases tokens with
  | nil =>
      obtain ⟨span, more, rfl⟩ := marked
      exact ⟨unended, by simp [TokenReader.next, refuses, unexpectedNext, Reading.failed,
        Reading.followedBy]⟩
  | cons token rest =>
      have reports := unexpectedNext_append marked expected (token :: rest)
      rw [List.cons_append] at reports
      simp only [List.cons_append, TokenReader.next]
      cases accept token.kind with
      | none => exact ⟨unended, congrArg (Reading.failed · _) reports⟩
      | some value => exact ⟨unended.tail, rfl⟩

theorem andThen {first : TokenReader (Option α)} {second : α → TokenReader (Option β)}
    (firstStops : first.StopsBefore tail) (secondStops : ∀ value, (second value).StopsBefore tail) :
    (first.andThen second).StopsBefore tail := by
  intro tokens unended
  have stops := firstStops tokens unended
  simp only [TokenReader.andThen]
  rw [stops.same]
  cases given : (first.read tokens).value with
  | none => exact ⟨stops.unended, by simp [Reading.followedBy, Reading.failed, given]⟩
  | some value =>
      simpa [Reading.followedBy, given] using
        (secondStops value _ stops.unended).precededBy (first.read tokens).reports

theorem map {reader : TokenReader (Option α)} (stops : reader.StopsBefore tail) (change : α → β) :
    (reader.map change).StopsBefore tail :=
  fun tokens unended => (stops tokens unended).map _

theorem ifNext (marked : EndMarked tail) {kind : TokenKind} {present absent : TokenReader α}
    (proper : kind ≠ .endOfInput) (presentStops : present.StopsBefore tail)
    (absentStops : absent.StopsBefore tail) :
    (TokenReader.ifNext kind present absent).StopsBefore tail := by
  intro tokens unended
  cases tokens with
  | nil =>
      obtain ⟨span, more, rfl⟩ := marked
      simpa [TokenReader.ifNext, proper.symm] using absentStops [] unended
  | cons token rest =>
      simp only [List.cons_append, TokenReader.ifNext]
      split
      · exact presentStops rest unended.tail
      · exact absentStops (token :: rest) unended

theorem exactly (marked : EndMarked tail) {kind : TokenKind} (proper : kind ≠ .endOfInput)
    (expected : List String) : (TokenReader.exactly kind expected).StopsBefore tail :=
  next marked expected (if_neg proper.symm)

end TokenReader.StopsBefore

section Headers

variable {tail : List Token} (marked : EndMarked tail)

include marked

theorem nameReader_stopsBefore (expected : String) : (nameReader expected).StopsBefore tail :=
  .next marked _ rfl

section Content

variable {expression : TokenReader (Option Expression)} (stops : expression.StopsBefore tail)

include stops

theorem iterableReader_stopsBefore (expected : List String) :
    (iterableReader expression expected).StopsBefore tail :=
  .andThen (.exactly marked (by simp) _) fun _ => stops

theorem loopHeaderReader_stopsBefore : (loopHeaderReader expression).StopsBefore tail :=
  .andThen (nameReader_stopsBefore marked _) fun _ =>
    .ifNext marked (by simp)
      (.andThen (nameReader_stopsBefore marked _) fun _ =>
        .map (iterableReader_stopsBefore marked stops _) _)
      (.map (iterableReader_stopsBefore marked stops _) _)

theorem bindingHeaderReader_stopsBefore : (bindingHeaderReader expression).StopsBefore tail :=
  .andThen (nameReader_stopsBefore marked _) fun _ =>
    .andThen (.exactly marked (by simp) _) fun _ => .map stops _

end Content

theorem readHeader_stopsBefore {inside : TokenReader (Option α)} (stops : inside.StopsBefore tail)
    (directive : Token) {tokens : List Token} (unended : Unended tokens) :
    Reading.StopsBefore tail (readHeader directive inside (tokens ++ tail))
      (readHeader directive inside tokens) := by
  by_cases opens : nextKind tokens = .leftParen
  · obtain ⟨openSpan, group, rfl⟩ := exists_of_nextKind (by simp) opens
    have content := stops group unended.tail
    have groupUnended := unended.tail.suffix (closeGroup_suffix 0 group)
    rw [List.cons_append, readHeader_of_group, readHeader_of_group, content.same,
      closeGroup_append marked 0 unended.tail]
    have left := content.unended
    revert left
    rcases inside.read group with ⟨_ | value, reports, rest⟩ <;> intro left
    · exact ⟨groupUnended, rfl⟩
    · rcases rest with _ | ⟨closer, rest⟩
      · obtain ⟨span, more, rfl⟩ := marked
        exact ⟨groupUnended, by simp [Reading.followedBy, Reading.failed, unexpectedNext]⟩
      · have stray := unexpectedNext_append marked ["')'"] (closer :: rest)
        simp only [List.cons_append] at stray
        simp only [Reading.followedBy, List.cons_append, stray]
        split
        · exact ⟨left.tail, rfl⟩
        · exact ⟨groupUnended, rfl⟩
  · rw [readHeader_of_ne _ _ opens,
      readHeader_of_ne _ _ (by rwa [nextKind_append marked])]
    exact ⟨unended, rfl⟩

theorem readPath_stopsBefore (start : Nat) {tokens : List Token} (unended : Unended tokens) :
    Reading.StopsBefore tail (readPath start (tokens ++ tail)) (readPath start tokens) := by
  by_cases named : ∃ root, nextKind tokens = .name root
  · obtain ⟨root, next⟩ := named
    obtain ⟨span, rest, rfl⟩ := exists_of_nextKind (by simp) next
    simp only [List.cons_append, readPath, readPathTail_append marked]
    exact ⟨unended.tail.suffix (readPathTail_suffix span.stop rest), rfl⟩
  · have unnamed {others : List Token} (other : ¬ ∃ root, nextKind others = .name root) :
        readPath start others = .failed (unexpectedNext ["a variable name"] others) others := by
      unfold readPath
      split
      · exact absurd ⟨_, rfl⟩ other
      · rfl
    rw [unnamed named, unnamed (by rwa [nextKind_append marked]), unexpectedNext_append marked]
    exact ⟨unended, rfl⟩

section Arguments

variable {argument : TokenReader (Option Expression)} (stops : argument.StopsBefore tail)

include stops

theorem readArguments_stopsBefore {tokens : List Token} (unended : Unended tokens) :
    Reading.StopsBefore tail (readArguments argument (tokens ++ tail))
      (readArguments argument tokens) := by
  induction shorter : tokens.length using Nat.strongRecOn generalizing tokens with
  | ind length ih =>
  subst shorter
  have first := stops tokens unended
  have shrinks := argument.shrinks tokens
  have left := first.unended
  rw [readArguments_eq, readArguments_eq argument tokens, first.same]
  revert left shrinks
  rcases argument.read tokens with ⟨_ | expression, reports, rest⟩ <;> intro shrinks left
  · exact ⟨left, rfl⟩
  · rcases rest with _ | ⟨next, rest⟩
    · obtain ⟨span, more, rfl⟩ := marked
      exact ⟨left, by simp [Reading.followedBy, Reading.failed, unexpectedNext]⟩
    · have stray := unexpectedNext_append marked ["','", "')'"] (next :: rest)
      simp only [List.cons_append] at stray
      simp only [Reading.followedBy, List.cons_append, stray]
      split
      · have fewer : rest.length < tokens.length := by
          simp only [List.length_cons] at shrinks
          omega
        exact ((ih rest.length fewer left.tail rfl).precededBy reports).map _
      · split
        · exact ⟨left.tail, rfl⟩
        · exact ⟨left, rfl⟩

theorem readArgumentList_stopsBefore {tokens : List Token} (unended : Unended tokens) :
    Reading.StopsBefore tail (readArgumentList argument (tokens ++ tail))
      (readArgumentList argument tokens) := by
  have further := readArguments_stopsBefore marked stops unended
  rcases tokens with _ | ⟨⟨kind, span⟩, rest⟩
  · obtain ⟨span, more, rfl⟩ := marked
    exact further
  · cases kind with
    | rightParen => exact ⟨unended.tail, rfl⟩
    | _ => exact further

end Arguments

section Calls

variable {limit : Nat} {argument? : Option (TokenReader (Option Expression))}
variable (stops : ∀ argument, argument? = some argument → argument.StopsBefore tail)

include stops

theorem readCall_stopsBefore (name : String) (nameSpan : Span) {tokens : List Token}
    (unended : Unended tokens) :
    Reading.StopsBefore tail (readCall limit argument? name nameSpan (tokens ++ tail))
      (readCall limit argument? name nameSpan tokens) := by
  rcases tokens with _ | ⟨⟨kind, span⟩, rest⟩
  · obtain ⟨span, more, rfl⟩ := marked
    exact ⟨unended, rfl⟩
  · cases kind with
    | leftParen =>
        rcases argument? with _ | argument
        · exact ⟨unended.tail.suffix (closeGroup_suffix 0 rest),
            congrArg (Reading.failed _) (closeGroup_append marked 0 unended.tail)⟩
        · exact (readArgumentList_stopsBefore marked (stops argument rfl) unended.tail).map _
    | _ => exact ⟨unended, rfl⟩

theorem readExpression_stopsBefore {tokens : List Token} (unended : Unended tokens) :
    Reading.StopsBefore tail (readExpression limit argument? (tokens ++ tail))
      (readExpression limit argument? tokens) := by
  rcases tokens with _ | ⟨⟨kind, span⟩, rest⟩
  · obtain ⟨span, more, rfl⟩ := marked
    exact ⟨unended, rfl⟩
  · have stray := unexpectedNext_append marked ["a variable", "a macro call", "a literal"]
      (⟨kind, span⟩ :: rest)
    cases kind with
    | dollar => exact readPath_stopsBefore marked span.start unended.tail
    | macroName name => exact readCall_stopsBefore marked stops name span unended.tail
    | string | integer | float | boolean | null => exact ⟨unended.tail, rfl⟩
    | _ => exact ⟨unended, congrArg (Reading.failed · _) stray⟩

end Calls

theorem expressionReader_stopsBefore (limit levels : Nat) :
    (expressionReader limit levels).StopsBefore tail := by
  induction levels with
  | zero =>
      intro tokens unended
      refine readExpression_stopsBefore marked ?_ unended
      rintro argument ⟨⟩
  | succ levels ih =>
      intro tokens unended
      refine readExpression_stopsBefore marked ?_ unended
      rintro argument ⟨⟩
      exact ih

end Headers

/-- The readers below a block read as if a tail were not there. -/
structure NestedReaders.StopBefore (tail : List Token) (nested : NestedReaders) : Prop where
  expression : nested.expression.StopsBefore tail
  body : nested.body.StopsBefore tail

section Blocks

variable {tail : List Token} (marked : EndMarked tail)

include marked

theorem readClosedBody_stopsBefore {body : TokenReader (List Node)} (stops : body.StopsBefore tail)
    (opener : Token) (keyword : Keyword) {tokens : List Token} (unended : Unended tokens) :
    Reading.StopsBefore tail (readClosedBody body opener keyword (tokens ++ tail))
      (readClosedBody body opener keyword tokens) := by
  induction shorter : tokens.length using Nat.strongRecOn generalizing tokens with
  | ind length ih =>
  subst shorter
  have own := stops tokens unended
  have shrinks := body.shrinks tokens
  have left := own.unended
  rw [readClosedBody_eq, readClosedBody_eq body opener keyword tokens, own.same]
  revert left shrinks
  rcases body.read tokens with ⟨nodes, reports, _ | ⟨closer, rest⟩⟩ <;> intro shrinks left
  · obtain ⟨span, more, rfl⟩ := marked
    exact ⟨left, rfl⟩
  · have fewer : (skipHeader rest).length < tokens.length := by
      have := length_skipHeader_le rest
      simp only [List.length_cons] at shrinks
      omega
    have after := ih _ fewer (left.tail.suffix (skipHeader_suffix rest)) rfl
    simp only [Reading.followedBy, List.cons_append, skipHeader_append marked left.tail]
    rcases closer.kind.keyword? with _ | word
    · exact ⟨left, rfl⟩
    · cases word with
      | endBlock => exact ⟨left.tail, rfl⟩
      | elifBranch | elseBranch => exact (after.precededBy _).map _
      | _ => exact ⟨left, rfl⟩

theorem readBranches_stopsBefore {nested : NestedReaders} (stop : nested.StopBefore tail)
    (opener directive : Token) {tokens : List Token} (unended : Unended tokens) :
    Reading.StopsBefore tail (readBranches nested opener directive (tokens ++ tail))
      (readBranches nested opener directive tokens) := by
  induction shorter : tokens.length using Nat.strongRecOn generalizing directive tokens with
  | ind length ih =>
  subst shorter
  have header := readHeader_stopsBefore marked stop.expression directive unended
  have headerShrinks := length_readHeader_le directive nested.expression tokens
  have behind := header.unended
  rw [readBranches_eq, readBranches_eq nested opener directive tokens, header.same]
  revert behind headerShrinks
  rcases readHeader directive nested.expression tokens with ⟨header?, reports, rest⟩
  intro headerShrinks behind
  simp only [Reading.followedBy, atEnd_append marked]
  by_cases ended : header?.isNone && atEnd rest
  · rw [if_pos ended, if_pos ended]
    exact ⟨behind, rfl⟩
  rw [if_neg ended, if_neg ended, (stop.body rest behind).same]
  have left := (stop.body rest behind).unended
  have bodyShrinks := nested.body.shrinks rest
  revert left bodyShrinks
  rcases nested.body.read rest with ⟨nodes, bodyReports, _ | ⟨closer, after⟩⟩ <;>
    intro left bodyShrinks
  · obtain ⟨span, more, rfl⟩ := marked
    exact ⟨left, rfl⟩
  · have fewer : after.length < tokens.length := by
      simp only [List.length_cons] at bodyShrinks headerShrinks
      omega
    simp only [Reading.followedBy, List.cons_append]
    rcases closer.kind.keyword? with _ | word
    · exact ⟨left, rfl⟩
    · cases word with
      | elifBranch => exact ((ih _ fewer closer left.tail rfl).precededBy _).map _
      | elseBranch =>
          exact ((readClosedBody_stopsBefore marked stop.body opener .ifBlock
            left.tail).precededBy _).map _
      | endBlock => exact ⟨left.tail, rfl⟩
      | _ => exact ⟨left, rfl⟩

theorem rejectBlock_stopsBefore (limit : Nat) (opener : Token) {tokens : List Token}
    (unended : Unended tokens) :
    Reading.StopsBefore tail (rejectBlock limit opener (tokens ++ tail))
      (rejectBlock limit opener tokens) := by
  have behindHeader := unended.suffix (skipHeader_suffix tokens)
  refine ⟨behindHeader.suffix (closeBlock_suffix 0 _), ?_⟩
  simp only [rejectBlock, Reading.followedBy, skipHeader_append marked unended,
    closeBlock_append marked 0 behindHeader]

variable {limit : Nat} {nested? : Option NestedReaders}
variable (stop : ∀ nested, nested? = some nested → nested.StopBefore tail)

include stop

theorem readConditional_stopsBefore (opener : Token) {tokens : List Token}
    (unended : Unended tokens) :
    Reading.StopsBefore tail (readConditional limit nested? opener (tokens ++ tail))
      (readConditional limit nested? opener tokens) := by
  rcases nested? with _ | nested
  · exact rejectBlock_stopsBefore marked limit opener unended
  · simp only [readConditional]
    exact (readBranches_stopsBefore marked (stop nested rfl) opener opener unended).map _

theorem readLoop_stopsBefore (opener : Token) {tokens : List Token} (unended : Unended tokens) :
    Reading.StopsBefore tail (readLoop limit nested? opener (tokens ++ tail))
      (readLoop limit nested? opener tokens) := by
  rcases nested? with _ | nested
  · exact rejectBlock_stopsBefore marked limit opener unended
  · have stops := stop nested rfl
    have header := readHeader_stopsBefore marked
      (loopHeaderReader_stopsBefore marked stops.expression) opener unended
    have closed := (readClosedBody_stopsBefore marked stops.body opener .forBlock
      header.unended).precededBy
        (readHeader opener (loopHeaderReader nested.expression) tokens).reports
    simp only [readLoop, header.same, Reading.followedBy, atEnd_append marked]
    split
    · exact ⟨header.unended, rfl⟩
    · exact closed.map _

theorem readOutputCall_stopsBefore (name : String) (nameSpan : Span) {tokens : List Token}
    (unended : Unended tokens) :
    Reading.StopsBefore tail
      (readOutputCall limit (nested?.map NestedReaders.expression) name nameSpan (tokens ++ tail))
      (readOutputCall limit (nested?.map NestedReaders.expression) name nameSpan tokens) := by
  have arguments : ∀ argument, nested?.map NestedReaders.expression = some argument →
      argument.StopsBefore tail := by
    intro argument isArgument
    obtain ⟨nested, isNested, rfl⟩ := Option.map_eq_some_iff.mp isArgument
    exact (stop nested isNested).expression
  have call : Reading.StopsBefore tail (readCall limit _ name nameSpan (tokens ++ tail))
      (readCall limit _ name nameSpan tokens) :=
    readCall_stopsBefore marked arguments name nameSpan unended
  simp only [readOutputCall, call.same, Reading.followedBy, skipHeader_append marked unended]
  split
  · exact ⟨call.unended, rfl⟩
  · exact ⟨unended.suffix (skipHeader_suffix tokens), rfl⟩

variable {expression : TokenReader (Option Expression)} (stops : expression.StopsBefore tail)

include stops

theorem readDirective_stopsBefore (word : String) (token : Token) {tokens : List Token}
    (unended : Unended tokens) :
    Reading.StopsBefore tail (readDirective limit expression nested? word token (tokens ++ tail))
      (readDirective limit expression nested? word token tokens) := by
  have orphan (keyword : Keyword) : Reading.StopsBefore tail
      ⟨[], [⟨.orphanKeyword keyword.word, token.span⟩], skipHeader (tokens ++ tail)⟩
      (⟨[], [⟨.orphanKeyword keyword.word, token.span⟩], skipHeader tokens⟩ :
        Reading (List Node)) :=
    ⟨unended.suffix (skipHeader_suffix tokens), by
      simp [Reading.followedBy, skipHeader_append marked unended]⟩
  simp only [readDirective]
  rcases Keyword.ofWord? word with _ | keyword
  · exact ⟨unended, rfl⟩
  · cases keyword with
    | ifBlock => exact readConditional_stopsBefore marked stop token unended
    | forBlock => exact readLoop_stopsBefore marked stop token unended
    | letBinding =>
        exact (readHeader_stopsBefore marked (bindingHeaderReader_stopsBefore marked stops) token
          unended).map _
    | elifBranch => exact orphan .elifBranch
    | elseBranch => exact orphan .elseBranch
    | endBlock => exact orphan .endBlock

theorem readPiece_stopsBefore (token : Token) {tokens : List Token} (unended : Unended tokens) :
    Reading.StopsBefore tail (readPiece limit expression nested? token (tokens ++ tail))
      (readPiece limit expression nested? token tokens) := by
  rcases token with ⟨kind, span⟩
  cases kind with
  | text content => exact ⟨unended, rfl⟩
  | dollar =>
      simp only [readPiece]
      exact (readPath_stopsBefore marked span.start unended).map _
  | macroName name => exact readOutputCall_stopsBefore marked stop name span unended
  | directive word => exact readDirective_stopsBefore marked stop stops word _ unended
  | _ => exact ⟨unended, rfl⟩

theorem readBody_stopsBefore (inBlock : Bool) {tokens : List Token} (unended : Unended tokens) :
    Reading.StopsBefore tail (readBody limit expression nested? inBlock (tokens ++ tail))
      (readBody limit expression nested? inBlock tokens) := by
  induction shorter : tokens.length using Nat.strongRecOn generalizing tokens with
  | ind length ih =>
  subst shorter
  rcases tokens with _ | ⟨token, rest⟩
  · obtain ⟨span, more, rfl⟩ := marked
    rw [readBody, List.nil_append, readBody]
    exact ⟨unended, rfl⟩
  · have piece : Reading.StopsBefore tail
        (readPiece limit expression nested? token (rest ++ tail))
        (readPiece limit expression nested? token rest) :=
      readPiece_stopsBefore marked stop stops token unended.tail
    have shrinks := length_readPiece_le limit expression nested? token rest
    rw [List.cons_append, readBody, readBody]
    split
    · exact ⟨unended, rfl⟩
    · simp only [piece.same, Reading.followedBy]
      exact ((ih _ (Nat.lt_succ_of_le shrinks) piece.unended rfl).precededBy _).map _

end Blocks

section Templates

variable {tail : List Token} (marked : EndMarked tail)

include marked

theorem blockBodyReader_stopsBefore (limit levels : Nat) :
    (blockBodyReader limit levels).StopsBefore tail := by
  induction levels with
  | zero =>
      intro tokens unended
      refine readBody_stopsBefore marked ?_ (expressionReader_stopsBefore marked limit 0) true
        unended
      rintro nested ⟨⟩
  | succ levels ih =>
      intro tokens unended
      refine readBody_stopsBefore marked ?_
        (expressionReader_stopsBefore marked limit (levels + 1)) true unended
      rintro nested ⟨⟩
      exact ⟨expressionReader_stopsBefore marked limit levels, ih⟩

theorem nestedReaders?_stopBefore (limit levels : Nat) :
    ∀ nested, nestedReaders? limit levels = some nested → nested.StopBefore tail := by
  intro nested isNested
  cases levels with
  | zero => cases isNested
  | succ levels =>
      obtain rfl := Option.some.inj isNested
      exact ⟨expressionReader_stopsBefore marked limit levels,
        blockBodyReader_stopsBefore marked limit levels⟩

theorem templateReading_stopsBefore (limit : Nat) {tokens : List Token}
    (unended : Unended tokens) :
    Reading.StopsBefore tail (templateReading limit (tokens ++ tail))
      (templateReading limit tokens) :=
  readBody_stopsBefore marked (nestedReaders?_stopBefore marked limit limit)
    (expressionReader_stopsBefore marked limit limit) false unended

end Templates

/-- A template is read up to the end of its tokens, if none of them marks the end. -/
theorem templateReading_consumes (limit : Nat) {tokens : List Token} (unended : Unended tokens) :
    (templateReading limit tokens).rest = [] := by
  have left : Unended (templateReading limit tokens).rest :=
    (templateReading_stopsBefore ⟨⟨0, 0⟩, [], rfl⟩ limit unended).unended
  cases stopped : (templateReading limit tokens).rest with
  | nil => rfl
  | cons token rest =>
      have ends := readBody_stops _ _ _ _ _ token rest stopped
      rw [stopped] at left
      exact absurd (kind_of_endsBody ends) left.head

/-- Putting tokens together gives the same program, with the same reports, if the end of the input
is marked behind them; it gives the same nodes and reports if anything more follows that mark, and
that is left unread. -/
theorem ofTokens_endMarked (limit : Nat) (tokens : List Token)
    (unended : ∀ token ∈ tokens, token.kind ≠ .endOfInput) (more : List Token) :
    let mark : Token := ⟨.endOfInput, ⟨lastStop tokens, lastStop tokens⟩⟩
    Program.ofTokens limit (tokens ++ [mark]) = Program.ofTokens limit tokens ∧
      (Program.ofTokens limit (tokens ++ mark :: more)).1.nodes =
        (Program.ofTokens limit tokens).1.nodes ∧
      (Program.ofTokens limit (tokens ++ mark :: more)).2 = (Program.ofTokens limit tokens).2 ∧
      (templateReading limit tokens).rest = [] ∧
      (templateReading limit (tokens ++ mark :: more)).rest = mark :: more := by
  intro mark
  have marked (others : List Token) : templateReading limit (tokens ++ mark :: others) =
      (templateReading limit tokens).followedBy (mark :: others) :=
    (templateReading_stopsBefore ⟨mark.span, others, rfl⟩ limit unended).same
  have program (others : List Token) : Program.ofTokens limit others =
      (⟨(templateReading limit others).value, ⟨0, lastStop others⟩⟩,
        (templateReading limit others).reports) := rfl
  have consumed := templateReading_consumes limit unended
  have sameStop : lastStop (tokens ++ [mark]) = lastStop tokens := by
    simp [lastStop, mark]
  refine ⟨?_, ?_, ?_, consumed, ?_⟩
  · rw [program, program, marked, sameStop]
    rfl
  · rw [program, program, marked]
    rfl
  · rw [program, program, marked]
    rfl
  · rw [marked, Reading.followedBy, consumed, List.nil_append]

/-- A header that is cut off within a path does not go on behind the mark of the end. -/
theorem ofTokens_endMarked_cutPath :
    let tokens : List Token := [⟨.directive "if", ⟨0, 3⟩⟩, ⟨.leftParen, ⟨4, 5⟩⟩,
      ⟨.dollar, ⟨5, 6⟩⟩, ⟨.name "x", ⟨6, 7⟩⟩, ⟨.dot, ⟨7, 8⟩⟩]
    let mark : Token := ⟨.endOfInput, ⟨8, 8⟩⟩
    let more : List Token := [⟨.name "y", ⟨8, 9⟩⟩, ⟨.rightParen, ⟨9, 10⟩⟩]
    (∀ token ∈ tokens, token.kind ≠ .endOfInput) ∧
      Program.ofTokens 1 (tokens ++ [mark]) = Program.ofTokens 1 tokens ∧
      (Program.ofTokens 1 (tokens ++ mark :: more)).2 = (Program.ofTokens 1 tokens).2 ∧
      (templateReading 1 (tokens ++ mark :: more)).rest = mark :: more := by
  intro tokens mark more
  have unended : ∀ token ∈ tokens, token.kind ≠ .endOfInput := by simp [tokens]
  obtain ⟨program, -, reports, -, left⟩ := ofTokens_endMarked 1 tokens unended more
  exact ⟨unended, program, reports, left⟩

end Stencil
