import Stencil.Proofs.Moving
import Stencil.Proofs.ReadingSteps

/-!
# Readers that follow one another

One reader follows another at a distance if, given the same tokens a distance
further on, it reads the same a distance further on.  It is excused where the
other one makes certain reports.  Two uses matter.  With no excuse, this says
that reading does not depend on where a template begins.  With too deep nesting
as the excuse, it says that a higher limit changes nothing else.
-/

namespace Stencil

variable {α β : Type} [Movable α] [Movable β] {excused : Report → Prop}
  {distance : Nat}

def Reading.Follows (excused : Report → Prop) (distance : Nat)
    (second first : Reading α) : Prop :=
  (∃ report ∈ first.reports, excused report) ∨ second = moved distance first

def TokenReader.Follows (excused : Report → Prop) (distance : Nat)
    (second first : TokenReader α) : Prop :=
  ∀ tokens, Reading.Follows excused distance
    (second.read (tokens.map (Token.moved distance))) (first.read tokens)

namespace Reading.Follows

theorem of_eq {second first : Reading α} (same : second = moved distance first) :
    Follows excused distance second first :=
  .inr same

theorem precededBy {second first : Reading α}
    (follows : Follows excused distance second first) (reports : List Report) :
    Follows excused distance
      (second.precededBy (reports.map (Report.moved distance)))
      (first.precededBy reports) := by
  rcases follows with ⟨report, member, isExcused⟩ | rfl
  · exact .inl ⟨report, List.mem_append_right reports member, isExcused⟩
  · exact .inr (by simp [Reading.precededBy, moved])

theorem map {second first : Reading α}
    (follows : Follows excused distance second first) {change other : α → β}
    (commutes : ∀ value, other (moved distance value) =
      moved distance (change value)) :
    Follows excused distance (second.map other) (first.map change) := by
  rcases follows with ⟨report, member, isExcused⟩ | rfl
  · exact .inl ⟨report, member, isExcused⟩
  · exact .inr (by simp [Reading.map, moved, commutes])

/-- Whoever makes all the reports of an excused reading is excused as well. -/
theorem of_excused {reports : List Report} {first second : Reading α}
    (isExcused : ∃ report ∈ reports, excused report)
    (keeps : ∀ report ∈ reports, report ∈ first.reports) :
    Follows excused distance second first := by
  obtain ⟨report, member, reportExcused⟩ := isExcused
  exact .inl ⟨report, keeps report member, reportExcused⟩

end Reading.Follows

namespace TokenReader.Follows

theorem next {accept : TokenKind → Option α} (expected : List String)
    (fixed : ∀ kind value, accept kind = some value →
      moved distance value = value) :
    Follows excused distance (TokenReader.next accept expected)
      (TokenReader.next accept expected) := by
  intro tokens
  apply Reading.Follows.of_eq
  cases tokens with
  | nil => rfl
  | cons token rest =>
      have reports := unexpectedNext_moved distance expected (token :: rest)
      simp only [List.map_cons] at reports
      simp only [TokenReader.next, List.map_cons, Token.moved_kind]
      cases accepted : accept token.kind with
      | none => simp [Reading.failed, moved, reports]
      | some value => simp [moved, fixed token.kind value accepted]

theorem andThen {first firstFollower : TokenReader (Option α)}
    {second secondFollower : α → TokenReader (Option β)}
    (firstFollows : Follows excused distance firstFollower first)
    (secondFollows : ∀ value, Follows excused distance
      (secondFollower (moved distance value)) (second value)) :
    Follows excused distance (firstFollower.andThen secondFollower)
      (first.andThen second) := by
  intro tokens
  simp only [TokenReader.andThen]
  rcases firstFollows tokens with isExcused | same
  · apply Reading.Follows.of_excused isExcused
    intro report member
    split
    · exact member
    · exact List.mem_append_left _ member
  · rw [same]
    cases given : (first.read tokens).value with
    | none => exact .of_eq (by simp [given, Reading.failed, moved])
    | some value =>
        simpa [given] using
          (secondFollows value (first.read tokens).rest).precededBy
            (first.read tokens).reports

theorem map {reader follower : TokenReader (Option α)}
    (follows : Follows excused distance follower reader) {change other : α → β}
    (commutes : ∀ value, other (moved distance value) =
      moved distance (change value)) :
    Follows excused distance (follower.map other) (reader.map change) := by
  intro tokens
  apply (follows tokens).map
  intro value?
  cases value? with
  | none => rfl
  | some value => exact congrArg some (commutes value)

theorem ifNext {kind : TokenKind} {present absent : TokenReader α}
    {presentFollower absentFollower : TokenReader α}
    (presentFollows : Follows excused distance presentFollower present)
    (absentFollows : Follows excused distance absentFollower absent) :
    Follows excused distance
      (TokenReader.ifNext kind presentFollower absentFollower)
      (TokenReader.ifNext kind present absent) := by
  intro tokens
  cases tokens with
  | nil => exact absentFollows []
  | cons token rest =>
      simp only [TokenReader.ifNext, List.map_cons, Token.moved_kind]
      by_cases found : token.kind = kind
      · simpa only [found, if_true] using presentFollows rest
      · simpa only [found, if_false, List.map_cons] using
          absentFollows (token :: rest)

theorem exactly (kind : TokenKind) (expected : List String) :
    Follows excused distance (TokenReader.exactly kind expected)
      (TokenReader.exactly kind expected) :=
  next expected fun _ _ _ => rfl

end TokenReader.Follows

section Headers

variable {expression follower : TokenReader (Option Expression)}
  (follows : TokenReader.Follows excused distance follower expression)

theorem nameReader_follows (expected : String) :
    TokenReader.Follows excused distance (nameReader expected)
      (nameReader expected) :=
  .next [expected] fun _ _ _ => rfl

include follows

theorem iterableReader_follows (expected : List String) :
    TokenReader.Follows excused distance (iterableReader follower expected)
      (iterableReader expression expected) :=
  .andThen (.exactly _ _) fun _ => follows

theorem loopHeaderReader_follows :
    TokenReader.Follows excused distance (loopHeaderReader follower)
      (loopHeaderReader expression) :=
  .andThen (nameReader_follows _) fun _ =>
    .ifNext
      (.andThen (nameReader_follows _) fun _ =>
        .map (iterableReader_follows follows _) fun _ => rfl)
      (.map (iterableReader_follows follows _) fun _ => rfl)

theorem bindingHeaderReader_follows :
    TokenReader.Follows excused distance (bindingHeaderReader follower)
      (bindingHeaderReader expression) :=
  .andThen (nameReader_follows _) fun _ =>
    .andThen (.exactly _ _) fun _ => .map follows fun _ => rfl

end Headers

theorem readHeader_follows {inside follower : TokenReader (Option α)}
    (follows : TokenReader.Follows excused distance follower inside)
    (directive : Token) (tokens : List Token) :
    Reading.Follows excused distance
      (readHeader (directive.moved distance) follower
        (tokens.map (Token.moved distance)))
      (readHeader directive inside tokens) := by
  by_cases opens : nextKind tokens = .leftParen
  · obtain ⟨openSpan, group, rfl⟩ := exists_of_nextKind (by simp) opens
    simp only [List.map_cons, Token.moved, readHeader_of_group]
    rcases follows group with isExcused | same
    · apply Reading.Follows.of_excused isExcused
      intro report member
      split
      · split
        · exact member
        · exact List.mem_append_left _ member
      · exact member
    · apply Reading.Follows.of_eq
      rw [same]
      rcases inside.read group with ⟨_ | content, reports, _ | ⟨closer, rest⟩⟩
      · simp [Reading.failed, moved, closeGroup_moved]
      · simp [Reading.failed, moved, closeGroup_moved]
      · simp [Reading.failed, moved, closeGroup_moved]
      · have stray := unexpectedNext_moved distance ["')'"] (closer :: rest)
        by_cases closes : closer.kind = .rightParen <;>
          simp_all [moved, Reading.failed, closeGroup_moved]
  · rw [readHeader_of_ne _ _ opens, readHeader_of_ne _ _ (by simpa using opens)]
    exact .of_eq rfl

theorem readPath_moved (start : Nat) (tokens : List Token) :
    readPath (start + distance) (tokens.map (Token.moved distance)) =
      moved distance (readPath start tokens) := by
  have stray := unexpectedNext_moved distance ["a variable name"] tokens
  rcases tokens with _ | ⟨⟨kind, span⟩, rest⟩
  · rfl
  · have tail := readPathTail_moved distance span.stop rest
    cases kind <;>
      simp_all [readPath, Reading.failed, moved, Token.moved, Expression.mapSpans,
        Span.moved]

section Arguments

variable {argument follower : TokenReader (Option Expression)}
  (follows : TokenReader.Follows excused distance follower argument)

include follows

theorem readArguments_follows (tokens : List Token) :
    Reading.Follows excused distance
      (readArguments follower (tokens.map (Token.moved distance)))
      (readArguments argument tokens) := by
  induction shorter : tokens.length using Nat.strongRecOn generalizing tokens with
  | ind length ih =>
  subst shorter
  have shrinks := argument.shrinks tokens
  rcases follows tokens with isExcused | same
  · apply Reading.Follows.of_excused isExcused
    exact first_reports_subset_readArguments argument tokens
  · rw [readArguments_eq, readArguments_eq argument, same]
    revert shrinks
    rcases argument.read tokens with ⟨_ | expression, reports, _ | ⟨next, rest⟩⟩ <;>
      intro shrinks
    · exact .of_eq rfl
    · exact .of_eq rfl
    · exact .of_eq rfl
    · have stray := unexpectedNext_moved distance ["','", "')'"] (next :: rest)
      have fewer : rest.length < tokens.length := by
        simp only [List.length_cons] at shrinks
        omega
      have others := ih rest.length fewer rest rfl
      by_cases separated : next.kind = .comma
      · simpa [moved, separated] using
          (others.precededBy reports).map fun list? => by cases list? <;> rfl
      · apply Reading.Follows.of_eq
        by_cases closes : next.kind = .rightParen <;>
          simp_all [moved, Reading.failed, mapArgumentSpans]

theorem readArgumentList_follows (tokens : List Token) :
    Reading.Follows excused distance
      (readArgumentList follower (tokens.map (Token.moved distance)))
      (readArgumentList argument tokens) := by
  have arguments := readArguments_follows follows tokens
  rcases tokens with _ | ⟨⟨kind, span⟩, rest⟩
  · exact arguments
  · cases kind <;> first | exact arguments | exact .of_eq rfl

end Arguments

/-- What reads one level deeper, if anything, is followed: readers by readers that
follow them, and the refusal of a level by the same refusal or, where it is
excused, by anything. -/
inductive LevelFollows {ρ : Type} (excused : Report → Prop)
    (follows : ρ → ρ → Prop) (limit : Nat) :
    Nat → Option ρ → Option ρ → Prop
  | readers {otherLimit : Nat} {second first : ρ} :
      follows second first →
        LevelFollows excused follows limit otherLimit (some second) (some first)
  | refusal : LevelFollows excused follows limit limit none none
  | excuse {otherLimit : Nat} {second? : Option ρ} :
      (∀ span, excused ⟨.nestingTooDeep limit, span⟩) →
        LevelFollows excused follows limit otherLimit second? none

section Levels

variable {limit otherLimit : Nat}

theorem readCall_follows
    {argument? follower? : Option (TokenReader (Option Expression))}
    (follows : LevelFollows excused (TokenReader.Follows excused distance)
      limit otherLimit follower? argument?)
    (name : String) (nameSpan : Span) (tokens : List Token) :
    Reading.Follows excused distance
      (readCall otherLimit follower? name (nameSpan.moved distance)
        (tokens.map (Token.moved distance)))
      (readCall limit argument? name nameSpan tokens) := by
  by_cases opens : nextKind tokens = .leftParen
  · obtain ⟨openSpan, group, rfl⟩ := exists_of_nextKind (by simp) opens
    simp only [List.map_cons, Token.moved, readCall]
    cases follows with
    | readers follows =>
        apply (readArgumentList_follows follows group).map
        intro list?
        cases list? <;> rfl
    | refusal =>
        exact .of_eq (by simp [Reading.failed, moved, Report.moved, closeGroup_moved])
    | excuse isExcused =>
        exact .inl ⟨_, List.mem_singleton_self _, isExcused nameSpan⟩
  · rcases tokens with _ | ⟨⟨kind, span⟩, rest⟩
    · exact .of_eq rfl
    · cases kind <;> first | exact absurd rfl opens | exact .of_eq rfl

theorem readExpression_follows
    {argument? follower? : Option (TokenReader (Option Expression))}
    (follows : LevelFollows excused (TokenReader.Follows excused distance)
      limit otherLimit follower? argument?)
    (tokens : List Token) :
    Reading.Follows excused distance
      (readExpression otherLimit follower? (tokens.map (Token.moved distance)))
      (readExpression limit argument? tokens) := by
  rcases tokens with _ | ⟨⟨kind, span⟩, rest⟩
  · exact .of_eq rfl
  have stray := unexpectedNext_moved distance
    ["a variable", "a macro call", "a literal"] (⟨kind, span⟩ :: rest)
  cases kind with
  | dollar => exact .of_eq (readPath_moved span.start rest)
  | macroName name => exact readCall_follows follows name span rest
  | string | integer | float | boolean | null => exact .of_eq rfl
  | _ => exact .of_eq (congrArg (Reading.failed · _) stray)

/-- The readers of expressions follow one another if the levels are the same, or
if more levels are given and too deep nesting is excused. -/
theorem expressionReader_follows {levels otherLevels : Nat}
    (comparable : (levels = otherLevels ∧ limit = otherLimit) ∨
      (levels ≤ otherLevels ∧ ∀ span, excused ⟨.nestingTooDeep limit, span⟩)) :
    TokenReader.Follows excused distance
      (expressionReader otherLimit otherLevels) (expressionReader limit levels) := by
  induction levels generalizing otherLevels with
  | zero =>
      intro tokens
      rcases comparable with ⟨rfl, rfl⟩ | ⟨_, isExcused⟩
      · exact readExpression_follows .refusal tokens
      · cases otherLevels with
        | zero => exact readExpression_follows (.excuse isExcused) tokens
        | succ => exact readExpression_follows (.excuse isExcused) tokens
  | succ levels ih =>
      obtain ⟨others, rfl⟩ : ∃ others, otherLevels = others + 1 :=
        ⟨otherLevels - 1, by omega⟩
      intro tokens
      refine readExpression_follows (.readers (ih ?_)) tokens
      simpa using comparable

end Levels

theorem unclosed_follows (excused : Report → Prop) (distance : Nat)
    (reports : List Report) (opener : Token) (keyword : Keyword) (rest : List Token) :
    Reading.Follows excused distance
      (.failed (reports.map (Report.moved distance) ++
        [unclosedReport (opener.moved distance) keyword])
        (rest.map (Token.moved distance)))
      (.failed (reports ++ [unclosedReport opener keyword]) rest : Reading (Option α)) :=
  .of_eq (by simp [moved, Reading.failed, unclosedReport, Report.moved])

section ClosedBodies

variable {body follower : TokenReader (List Node)}
  (follows : TokenReader.Follows excused distance follower body)

include follows

theorem readClosedBody_follows (opener : Token) (keyword : Keyword)
    (tokens : List Token) :
    Reading.Follows excused distance
      (readClosedBody follower (opener.moved distance) keyword
        (tokens.map (Token.moved distance)))
      (readClosedBody body opener keyword tokens) := by
  induction shorter : tokens.length using Nat.strongRecOn generalizing tokens with
  | ind length ih =>
  subst shorter
  have shrinks := body.shrinks tokens
  rcases follows tokens with isExcused | same
  · apply Reading.Follows.of_excused isExcused
    exact body_reports_subset_readClosedBody body opener keyword tokens
  · rw [readClosedBody_eq, readClosedBody_eq body, same]
    revert shrinks
    rcases body.read tokens with ⟨nodes, reports, _ | ⟨closer, rest⟩⟩ <;>
      intro shrinks
    · exact .of_eq (by simp [moved, Reading.failed, unclosedReport, Report.moved])
    · have fewer : (skipHeader rest).length < tokens.length := by
        have := length_skipHeader_le rest
        simp only [List.length_cons] at shrinks
        omega
      have others := ih _ fewer (skipHeader rest) rfl
      rw [← skipHeader_moved] at others
      have after := others.precededBy (reports ++
        [⟨.unexpected closer.kind.description ["'#end'"], closer.span⟩])
      have unclosed := unclosed_follows (α := ClosedBody) excused distance reports opener
        keyword (closer :: rest)
      rcases found : closer.kind.keyword? with _ | word
      · simpa [found] using unclosed
      · cases word with
        | endBlock => exact .of_eq (by simp [found, moved])
        | elifBranch | elseBranch =>
            simp only [Reading.moved_value, Reading.moved_reports, Reading.moved_rest,
              List.map_cons, Token.moved_kind, found]
            simp only [List.map_append, List.map_cons, List.map_nil, Report.moved] at after
            apply after.map
            intro closed?
            cases closed? <;> simp [moved]
        | _ => simpa [found] using unclosed

end ClosedBodies

/-- The readers for what is nested one level deeper follow others. -/
def NestedReaders.Follows (excused : Report → Prop) (distance : Nat)
    (second first : NestedReaders) : Prop :=
  TokenReader.Follows excused distance second.expression first.expression ∧
    TokenReader.Follows excused distance second.body first.body

theorem readBranches_follows {nested follower : NestedReaders}
    (follows : NestedReaders.Follows excused distance follower nested)
    (opener directive : Token) (tokens : List Token) :
    Reading.Follows excused distance
      (readBranches follower (opener.moved distance) (directive.moved distance)
        (tokens.map (Token.moved distance)))
      (readBranches nested opener directive tokens) := by
  induction shorter : tokens.length using Nat.strongRecOn
    generalizing directive tokens with
  | ind length ih =>
  subst shorter
  have headerShrinks := length_readHeader_le directive nested.expression tokens
  rcases readHeader_follows follows.1 directive tokens with isExcused | same
  · apply Reading.Follows.of_excused isExcused
    exact header_reports_subset_readBranches nested opener directive tokens
  rcases header : readHeader directive nested.expression tokens with
    ⟨header?, reports, rest⟩
  rw [header] at same headerShrinks
  have passedOn := body_reports_subset_readBranches nested opener directive header
  rw [readBranches_eq, same]
  have noneSame : (moved distance header?).isNone = header?.isNone := by
    cases header? <;> rfl
  simp only [Reading.moved_value, Reading.moved_reports, Reading.moved_rest,
    atEnd_moved, noneSame]
  by_cases ended : header?.isNone && atEnd rest
  · apply Reading.Follows.of_eq
    rw [readBranches_eq, header]
    simp [ended, Reading.failed, moved]
  have bodyShrinks := nested.body.shrinks rest
  rcases follows.2 rest with isExcused | same
  · exact .of_excused isExcused (passedOn ended)
  rw [readBranches_eq, header]
  dsimp only
  rw [if_neg ended, if_neg ended, same]
  revert bodyShrinks
  rcases nested.body.read rest with ⟨nodes, bodyReports, _ | ⟨closer, after⟩⟩ <;>
    intro bodyShrinks
  · exact .of_eq (by simp [moved, Reading.failed, unclosedReport, Report.moved])
  have fewer : after.length < tokens.length := by
    simp only [List.length_cons] at bodyShrinks headerShrinks
    omega
  have branchMoved : ((moved distance header?).map fun condition =>
      Branch.mk condition.content (moved distance nodes)) =
      (header?.map fun condition => Branch.mk condition.content nodes).map
        (Branch.mapSpans (Span.moved distance)) := by
    cases header? <;> rfl
  simp only [Reading.moved_value, Reading.moved_reports, Reading.moved_rest,
    List.map_cons, Token.moved_kind, branchMoved, ← List.map_append]
  generalize (header?.map fun condition => Branch.mk condition.content nodes) = branch?
  generalize reports ++ bodyReports = reports
  have unclosed := unclosed_follows (α := BranchChain) excused distance reports opener
    .ifBlock (closer :: after)
  rcases closer.kind.keyword? with _ | word
  · exact unclosed
  · cases word with
    | elifBranch =>
        apply ((ih _ fewer closer after rfl).precededBy reports).map
        intro chain?
        cases branch? <;> cases chain? <;> rfl
    | elseBranch =>
        refine ((readClosedBody_follows follows.2 opener .ifBlock after).precededBy
          reports).map fun closed? => ?_
        cases branch? <;> cases closed? <;> rfl
    | endBlock =>
        apply Reading.Follows.of_eq
        cases branch? <;> rfl
    | _ => exact unclosed

section Pieces

variable {limit otherLimit : Nat} {nested? follower? : Option NestedReaders}
  (follows : LevelFollows excused (NestedReaders.Follows excused distance)
    limit otherLimit follower? nested?)

include follows

theorem readConditional_follows (opener : Token) (tokens : List Token) :
    Reading.Follows excused distance
      (readConditional otherLimit follower? (opener.moved distance)
        (tokens.map (Token.moved distance)))
      (readConditional limit nested? opener tokens) := by
  cases follows with
  | readers follows =>
      simp only [readConditional]
      apply (readBranches_follows follows opener opener tokens).map
      intro chain?
      cases chain? <;> rfl
  | refusal =>
      exact .of_eq (by
        simp [readConditional, rejectBlock, moved, mapBodySpans, Report.moved,
          skipHeader_moved, closeBlock_moved])
  | excuse isExcused =>
      exact .inl ⟨_, List.mem_singleton_self _, isExcused opener.span⟩

theorem readLoop_follows (opener : Token) (tokens : List Token) :
    Reading.Follows excused distance
      (readLoop otherLimit follower? (opener.moved distance)
        (tokens.map (Token.moved distance)))
      (readLoop limit nested? opener tokens) := by
  cases follows with
  | refusal =>
      exact .of_eq (by
        simp [readLoop, rejectBlock, moved, mapBodySpans, Report.moved,
          skipHeader_moved, closeBlock_moved])
  | excuse isExcused =>
      exact .inl ⟨_, List.mem_singleton_self _, isExcused opener.span⟩
  | @readers _ follower nested follows =>
      simp only [readLoop]
      rcases readHeader_follows (loopHeaderReader_follows follows.1) opener tokens with
        isExcused | same
      · apply Reading.Follows.of_excused isExcused
        intro report member
        split
        · exact member
        · exact List.mem_append_left _ member
      rw [same]
      rcases readHeader opener (loopHeaderReader nested.expression) tokens with
        ⟨header?, reports, rest⟩
      have noneSame : (moved distance header?).isNone = header?.isNone := by
        cases header? <;> rfl
      simp only [Reading.moved_value, Reading.moved_reports, Reading.moved_rest,
        atEnd_moved, noneSame]
      by_cases ended : header?.isNone && atEnd rest
      · rw [if_pos ended, if_pos ended]
        exact .of_eq rfl
      · rw [if_neg ended, if_neg ended]
        refine ((readClosedBody_follows follows.2 opener .forBlock rest).precededBy
          reports).map fun closed? => ?_
        cases header? <;> cases closed? <;> rfl

end Pieces

theorem readBinding_follows {expression follower : TokenReader (Option Expression)}
    (follows : TokenReader.Follows excused distance follower expression)
    (opener : Token) (tokens : List Token) :
    Reading.Follows excused distance
      (readBinding follower (opener.moved distance)
        (tokens.map (Token.moved distance)))
      (readBinding expression opener tokens) := by
  refine (readHeader_follows (bindingHeaderReader_follows follows) opener tokens).map
    fun header? => ?_
  cases header? <;> rfl

section Bodies

variable {limit otherLimit : Nat} {nested? follower? : Option NestedReaders}
  (nestedFollows : LevelFollows excused (NestedReaders.Follows excused distance)
    limit otherLimit follower? nested?)
  {expression follower : TokenReader (Option Expression)}
  (follows : TokenReader.Follows excused distance follower expression)

include nestedFollows

theorem readOutputCall_follows (name : String) (nameSpan : Span)
    (tokens : List Token) :
    Reading.Follows excused distance
      (readOutputCall otherLimit (follower?.map NestedReaders.expression) name
        (nameSpan.moved distance) (tokens.map (Token.moved distance)))
      (readOutputCall limit (nested?.map NestedReaders.expression) name nameSpan
        tokens) := by
  have levels : LevelFollows excused (TokenReader.Follows excused distance)
      limit otherLimit (follower?.map NestedReaders.expression)
      (nested?.map NestedReaders.expression) := by
    cases nestedFollows with
    | readers follows => exact .readers follows.1
    | refusal => exact .refusal
    | excuse isExcused => exact .excuse isExcused
  simp only [readOutputCall]
  rcases readCall_follows levels name nameSpan tokens with isExcused | same
  · apply Reading.Follows.of_excused isExcused
    intro report member
    split
    · exact member
    · exact member
  · rw [same]
    apply Reading.Follows.of_eq
    rcases readCall limit (nested?.map NestedReaders.expression) name nameSpan tokens
      with ⟨_ | call, reports, rest⟩
    · simp [moved, mapBodySpans, skipHeader_moved]
    · rfl

include follows

theorem readDirective_follows (word : String) (token : Token) (tokens : List Token) :
    Reading.Follows excused distance
      (readDirective otherLimit follower follower? word (token.moved distance)
        (tokens.map (Token.moved distance)))
      (readDirective limit expression nested? word token tokens) := by
  simp only [readDirective]
  rcases Keyword.ofWord? word with _ | keyword
  · exact .of_eq rfl
  · cases keyword with
    | ifBlock => exact readConditional_follows nestedFollows token tokens
    | forBlock => exact readLoop_follows nestedFollows token tokens
    | letBinding => exact readBinding_follows follows token tokens
    | _ => exact .of_eq (by
        simp [moved, mapBodySpans, Report.moved, skipHeader_moved])

theorem readPiece_follows (token : Token) (tokens : List Token) :
    Reading.Follows excused distance
      (readPiece otherLimit follower follower? (token.moved distance)
        (tokens.map (Token.moved distance)))
      (readPiece limit expression nested? token tokens) := by
  have stray := unexpectedNext_moved distance ["text or a directive"] (token :: tokens)
  rcases token with ⟨kind, span⟩
  cases kind with
  | text => exact .of_eq rfl
  | dollar =>
      apply Reading.Follows.of_eq
      simp only [readPiece, Token.moved, Span.moved_start, readPath_moved]
      rcases readPath span.start tokens with ⟨_ | path, reports, rest⟩ <;> rfl
  | macroName name => exact readOutputCall_follows nestedFollows name span tokens
  | directive word =>
      exact readDirective_follows nestedFollows follows word ⟨.directive word, span⟩
        tokens
  | _ => exact .of_eq (by
      simp_all [readPiece, Token.moved, moved, mapBodySpans])

theorem readBody_follows (inBlock : Bool) (tokens : List Token) :
    Reading.Follows excused distance
      (readBody otherLimit follower follower? inBlock
        (tokens.map (Token.moved distance)))
      (readBody limit expression nested? inBlock tokens) := by
  induction shorter : tokens.length using Nat.strongRecOn generalizing tokens with
  | ind length ih =>
  subst shorter
  cases tokens with
  | nil =>
      apply Reading.Follows.of_eq
      simp [readBody, moved, mapBodySpans]
  | cons token rest =>
      have shrinks := length_readPiece_le limit expression nested? token rest
      rw [List.map_cons, readBody, readBody, Token.moved_kind]
      by_cases ended : endsBody inBlock token.kind
      · rw [if_pos ended, if_pos ended]
        exact .of_eq (by simp [moved, mapBodySpans])
      rw [if_neg ended, if_neg ended]
      dsimp only
      rcases readPiece_follows nestedFollows follows token rest with isExcused | same
      · exact .of_excused isExcused fun report member =>
          List.mem_append_left _ member
      rw [same]
      revert shrinks
      rcases readPiece limit expression nested? token rest with ⟨nodes, reports, after⟩
      intro shrinks
      refine ((ih after.length (by simpa using Nat.lt_succ_of_le shrinks) after
        rfl).precededBy reports).map fun others => ?_
      simp [moved, mapBodySpans_append]

end Bodies

section Limits

variable {limit otherLimit levels otherLevels : Nat}
  (comparable : (levels = otherLevels ∧ limit = otherLimit) ∨
    (levels ≤ otherLevels ∧ ∀ span, excused ⟨.nestingTooDeep limit, span⟩))

include comparable

theorem blockBodyReader_follows :
    TokenReader.Follows excused distance
      (blockBodyReader otherLimit otherLevels) (blockBodyReader limit levels) := by
  induction levels generalizing otherLevels with
  | zero =>
      intro tokens
      have expressions : TokenReader.Follows excused distance
          (expressionReader otherLimit otherLevels) (expressionReader limit 0) :=
        expressionReader_follows comparable
      rcases comparable with ⟨rfl, rfl⟩ | ⟨_, isExcused⟩
      · exact readBody_follows .refusal expressions true tokens
      · cases otherLevels with
        | zero => exact readBody_follows (.excuse isExcused) expressions true tokens
        | succ => exact readBody_follows (.excuse isExcused) expressions true tokens
  | succ levels ih =>
      obtain ⟨others, rfl⟩ : ∃ others, otherLevels = others + 1 :=
        ⟨otherLevels - 1, by omega⟩
      intro tokens
      have below : (levels = others ∧ limit = otherLimit) ∨
          (levels ≤ others ∧ ∀ span, excused ⟨.nestingTooDeep limit, span⟩) := by
        simpa using comparable
      exact readBody_follows (.readers ⟨expressionReader_follows below, ih below⟩)
        (expressionReader_follows comparable) true tokens

theorem nestedReaders?_follows :
    LevelFollows excused (NestedReaders.Follows excused distance) limit otherLimit
      (nestedReaders? otherLimit otherLevels) (nestedReaders? limit levels) := by
  cases levels with
  | zero =>
      rcases comparable with ⟨rfl, rfl⟩ | ⟨_, isExcused⟩
      · exact .refusal
      · exact .excuse isExcused
  | succ levels =>
      obtain ⟨others, rfl⟩ : ∃ others, otherLevels = others + 1 :=
        ⟨otherLevels - 1, by omega⟩
      have below : (levels = others ∧ limit = otherLimit) ∨
          (levels ≤ others ∧ ∀ span, excused ⟨.nestingTooDeep limit, span⟩) := by
        simpa using comparable
      exact .readers ⟨expressionReader_follows below, blockBodyReader_follows below⟩

end Limits

/-- The reader of whole bodies of a template. -/
def templateReading (limit : Nat) (tokens : List Token) : Reading (List Node) :=
  readBody limit (expressionReader limit limit) (nestedReaders? limit limit) false
    tokens

/-- Reading the body of a template does not depend on where it begins. -/
theorem templateReading_moved (limit distance : Nat) (tokens : List Token) :
    templateReading limit (tokens.map (Token.moved distance)) =
      moved distance (templateReading limit tokens) := by
  have follows : Reading.Follows (fun _ => False) distance
      (templateReading limit (tokens.map (Token.moved distance)))
      (templateReading limit tokens) :=
    readBody_follows (nestedReaders?_follows (.inl ⟨rfl, rfl⟩))
      (expressionReader_follows (.inl ⟨rfl, rfl⟩)) false tokens
  rcases follows with ⟨_, _, never⟩ | same
  · exact never.elim
  · exact same

/-- A higher limit changes what is read from a template only where the lower one
is reported to be exceeded. -/
theorem templateReading_higher {limit higher : Nat} (above : limit ≤ higher)
    (tokens : List Token)
    (withinLimit : ∀ report ∈ (templateReading limit tokens).reports,
      report.fault ≠ .nestingTooDeep limit) :
    templateReading higher tokens = templateReading limit tokens := by
  have comparable : (limit = higher ∧ limit = higher) ∨ (limit ≤ higher ∧
      ∀ span, (Report.mk (.nestingTooDeep limit) span).fault =
        .nestingTooDeep limit) :=
    .inr ⟨above, fun _ => rfl⟩
  have follows : Reading.Follows (fun report => report.fault = .nestingTooDeep limit) 0
      (templateReading higher (tokens.map (Token.moved 0)))
      (templateReading limit tokens) :=
    readBody_follows (nestedReaders?_follows comparable)
      (expressionReader_follows comparable) false tokens
  rcases follows with ⟨report, member, tooDeep⟩ | same
  · exact absurd tooDeep (withinLimit report member)
  · have unmovedToken : Token.moved 0 = id := rfl
    have unmovedReport : Report.moved 0 = id := rfl
    have unmovedSpan : Span.moved 0 = id := rfl
    rcases reading : templateReading limit tokens with ⟨nodes, reports, rest⟩
    rw [reading] at same
    simpa [moved, unmovedToken, unmovedReport, unmovedSpan, mapBodySpans_id] using same

end Stencil
