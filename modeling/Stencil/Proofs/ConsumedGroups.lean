import Stencil.Proofs.Balanced
import Stencil.Proofs.CountedLevels
import Stencil.Proofs.EndMarks

/-!
# Groups are consumed as they close

Whatever tokens a header consists of, reading goes on behind the parenthesis that closes it.  A
reader that reads something has closed just the groups that it opened, though it never counts
them; after one that reads nothing, the group is skipped by counting.
-/

namespace Stencil

variable {α β : Type}

/-- Parentheses open and close groups. -/
def parentheses : Brackets Token where
  opens token := token.kind = .leftParen
  closes token := token.kind = .rightParen
  apart token opens := by
    have isLeft : token.kind = .leftParen := by simpa using opens
    simp [isLeft]

/-- The tokens before the first mark of the end. -/
def beforeEnd (tokens : List Token) : List Token :=
  tokens.takeWhile fun token => token.kind ≠ .endOfInput

/-- The tokens from the first mark of the end on. -/
def fromEnd (tokens : List Token) : List Token :=
  tokens.dropWhile fun token => token.kind ≠ .endOfInput

/-- Whether one of the tokens before the end of the input closes the group around them. -/
def GroupIsClosed (group : List Token) : Prop :=
  ∃ inner, parentheses.ClosedBefore 0 (beforeEnd group) inner

/-- `rest` is what stands behind the parenthesis that closes a group, or, where none does, what
stands from the end of the input on. -/
def EndsGroup (group rest : List Token) : Prop :=
  (∃ inner, parentheses.ClosedBefore 0 (beforeEnd group) inner ∧ rest = inner ++ fromEnd group) ∨
    (¬ GroupIsClosed group ∧ rest = fromEnd group)

/-- Counting on finds the parenthesis that closes a group, or that there is none. -/
inductive CountsOn (depth : Nat) (tokens : List Token) : Prop where
  | closed (inner : List Token) : groupCloses depth tokens →
      parentheses.ClosedBefore depth (beforeEnd tokens) inner →
        closeGroup depth tokens = inner ++ fromEnd tokens → CountsOn depth tokens
  | unclosed : groupCloses depth tokens = false →
      (∀ inner, ¬ parentheses.ClosedBefore depth (beforeEnd tokens) inner) →
        closeGroup depth tokens = fromEnd tokens → CountsOn depth tokens

theorem countsOn (depth : Nat) (tokens : List Token) : CountsOn depth tokens := by
  induction tokens generalizing depth with
  | nil => exact .unclosed rfl (fun _ => Brackets.not_closedBefore_nil) rfl
  | cons token rest ih =>
      -- All tokens but the closing one pass the question on to the tokens behind them.
      have further {below : Nat} (proper : token.kind ≠ .endOfInput)
          (counts : groupCloses depth (token :: rest) = groupCloses below rest)
          (skips : closeGroup depth (token :: rest) = closeGroup below rest)
          (passes : ∀ inner, parentheses.ClosedBefore depth (token :: beforeEnd rest) inner ↔
            parentheses.ClosedBefore below (beforeEnd rest) inner) :
          CountsOn depth (token :: rest) := by
        have before : beforeEnd (token :: rest) = token :: beforeEnd rest := by
          simp [beforeEnd, proper]
        have after : fromEnd (token :: rest) = fromEnd rest := by simp [fromEnd, proper]
        cases ih below with
        | closed inner closes closed skipped =>
            exact .closed inner (counts.trans closes) (before ▸ (passes inner).mpr closed)
              (by rw [skips, skipped, after])
        | unclosed stays notClosed skipped =>
            exact .unclosed (counts.trans stays)
              (fun inner closed => notClosed inner ((passes inner).mp (before ▸ closed)))
              (by rw [skips, skipped, after])
      rcases token with ⟨kind, span⟩
      cases kind with
      | endOfInput => exact .unclosed rfl (fun _ => Brackets.not_closedBefore_nil) rfl
      | leftParen =>
          exact further (by simp) rfl rfl fun inner => Brackets.closedBefore_opener rfl
      | rightParen =>
          cases depth with
          | zero =>
              exact .closed (beforeEnd rest) rfl ((Brackets.closedBefore_zero_closer rfl).mpr rfl)
                List.takeWhile_append_dropWhile.symm
          | succ depth =>
              exact further (by simp) rfl rfl fun inner => Brackets.closedBefore_closer rfl
      | _ => exact further (by simp) rfl rfl fun inner => Brackets.closedBefore_plain rfl rfl

/-- Skipping a group by counting leaves what stands behind it. -/
theorem closeGroup_endsGroup (group : List Token) : EndsGroup group (closeGroup 0 group) := by
  cases countsOn 0 group with
  | closed inner _ closed skipped => exact .inl ⟨inner, closed, skipped⟩
  | unclosed _ notClosed skipped =>
      exact .inr ⟨fun ⟨inner, closed⟩ => notClosed inner closed, skipped⟩

theorem not_groupIsClosed {group : List Token} (unclosed : groupCloses 0 group = false) :
    ¬ GroupIsClosed group := by
  rintro ⟨inner, closed⟩
  cases countsOn 0 group with
  | closed _ closes _ _ =>
      rw [unclosed] at closes
      cases closes
  | unclosed _ notClosed _ => exact notClosed inner closed

theorem groupCloses_of_atEnd {tokens : List Token} (ended : atEnd tokens) (depth : Nat) :
    groupCloses depth tokens = false := by
  rcases tokens with _ | ⟨⟨kind, span⟩, rest⟩
  · rfl
  · obtain rfl : kind = .endOfInput := by simpa [atEnd, nextKind] using ended
    rfl

/-- A group that is followed by the end of the input stands in no other group that closes. -/
theorem groupCloses_of_atEnd_closeGroup {below : Nat} {tokens : List Token}
    (ended : atEnd (closeGroup below tokens)) {depth : Nat} (outside : below < depth) :
    groupCloses depth tokens = false := by
  induction tokens generalizing below depth with
  | nil => rfl
  | cons token rest ih =>
      rcases token with ⟨kind, span⟩
      cases kind with
      | endOfInput => rfl
      | leftParen => exact ih ended (Nat.succ_lt_succ outside)
      | rightParen =>
          obtain ⟨depth, rfl⟩ : ∃ less, depth = less + 1 := ⟨depth - 1, by omega⟩
          cases below with
          | zero => exact groupCloses_of_atEnd ended depth
          | succ below => exact ih ended (Nat.lt_of_succ_lt_succ outside)
      | _ => exact ih ended outside

/-- What is left of some tokens goes on with the groups that were open before them. -/
structure GroupsGoOn (tokens rest : List Token) : Prop where
  closes : ∀ depth, groupCloses depth tokens = groupCloses depth rest
  closed : ∀ depth, closeGroup depth tokens = closeGroup depth rest

namespace GroupsGoOn

variable {tokens middle rest : List Token}

theorem refl (tokens : List Token) : GroupsGoOn tokens tokens :=
  ⟨fun _ => rfl, fun _ => rfl⟩

theorem trans (first : GroupsGoOn tokens middle) (second : GroupsGoOn middle rest) :
    GroupsGoOn tokens rest where
  closes depth := (first.closes depth).trans (second.closes depth)
  closed depth := (first.closed depth).trans (second.closed depth)

theorem inner {token : Token} (isInner : token.kind.isInner) (rest : List Token) :
    GroupsGoOn (token :: rest) rest where
  closes depth := groupCloses_of_isInner isInner depth rest
  closed depth := closeGroup_of_isInner isInner depth rest

end GroupsGoOn

/-- What is left of the tokens of a group stands behind the group. -/
structure LeavesGroup (group rest : List Token) : Prop where
  closed : closeGroup 0 group = rest
  outerCloses : ∀ depth, groupCloses (depth + 1) group = groupCloses depth rest
  outerClosed : ∀ depth, closeGroup (depth + 1) group = closeGroup depth rest

theorem LeavesGroup.closer (span : Span) (rest : List Token) :
    LeavesGroup (⟨.rightParen, span⟩ :: rest) rest :=
  ⟨rfl, fun _ => rfl, fun _ => rfl⟩

theorem GroupsGoOn.leavesGroup {group middle rest : List Token} (goesOn : GroupsGoOn group middle)
    (leaves : LeavesGroup middle rest) : LeavesGroup group rest where
  closed := (goesOn.closed 0).trans leaves.closed
  outerCloses depth := (goesOn.closes (depth + 1)).trans (leaves.outerCloses depth)
  outerClosed depth := (goesOn.closed (depth + 1)).trans (leaves.outerClosed depth)

theorem LeavesGroup.groupsGoOn {span : Span} {group rest : List Token}
    (leaves : LeavesGroup group rest) : GroupsGoOn (⟨.leftParen, span⟩ :: group) rest :=
  ⟨leaves.outerCloses, leaves.outerClosed⟩

/-- A reading that gives a value reports nothing and consumes tokens in a certain way.  One that
gives none makes one report, or none at the end of the input; and if it has come to that end, no
group around its tokens is closed. -/
structure Reading.Consumes (consumes : List Token → List Token → Prop) (tokens : List Token)
    (reading : Reading (Option α)) : Prop where
  given : ∀ value, reading.value = some value →
    reading.reports = [] ∧ consumes tokens reading.rest
  single : reading.reports.length ≤ 1
  silent : reading.value = none → reading.reports = [] → atEnd reading.rest
  unclosed : reading.value = none → atEnd reading.rest →
    ∀ depth, groupCloses depth tokens = false

/-- A reader closes the groups that it opens. -/
def TokenReader.ClosesGroups (reader : TokenReader (Option α)) : Prop :=
  ∀ tokens, (reader.read tokens).Consumes GroupsGoOn tokens

theorem length_unexpectedNext_le (expected : List String) (tokens : List Token) :
    (unexpectedNext expected tokens).length ≤ 1 := by
  unfold unexpectedNext
  split
  · exact Nat.zero_le 1
  · split <;> simp

theorem atEnd_of_unexpectedNext {expected : List String} {tokens : List Token}
    (silent : unexpectedNext expected tokens = []) : atEnd tokens := by
  by_contra proper
  exact unexpectedNext_ne_nil (by simpa [atEnd] using proper) expected silent

namespace Reading.Consumes

variable {consumes : List Token → List Token → Prop} {tokens middle rest : List Token}

theorem value {value : α} (consumed : consumes tokens rest) :
    (Reading.mk (some value) [] rest).Consumes consumes tokens :=
  ⟨fun _ _ => ⟨rfl, consumed⟩, Nat.zero_le 1, nofun, nofun⟩

theorem failed {reports : List Report} (single : reports.length ≤ 1)
    (silent : reports = [] → atEnd rest)
    (unclosed : atEnd rest → ∀ depth, groupCloses depth tokens = false) :
    (Reading.failed reports rest : Reading (Option α)).Consumes consumes tokens where
  given value isValue := by cases isValue
  single := single
  silent _ := silent
  unclosed _ := unclosed

theorem stray (expected : List String) (goesOn : GroupsGoOn tokens rest) :
    (Reading.failed (unexpectedNext expected rest) rest : Reading (Option α)).Consumes consumes
      tokens :=
  .failed (length_unexpectedNext_le expected rest) atEnd_of_unexpectedNext
    fun ended depth => (goesOn.closes depth).trans (groupCloses_of_atEnd ended depth)

theorem reported (report : Report)
    (unclosed : atEnd rest → ∀ depth, groupCloses depth tokens = false) :
    (Reading.failed [report] rest : Reading (Option α)).Consumes consumes tokens :=
  .failed (Nat.le_refl 1) (fun silent => absurd silent (List.cons_ne_nil _ _)) unclosed

theorem map {reading : Reading (Option α)} (consumed : reading.Consumes consumes tokens)
    (change : α → β) : (reading.map (Option.map change)).Consumes consumes tokens where
  given value isValue := by
    obtain ⟨own, isOwn, -⟩ := Option.map_eq_some_iff.mp isValue
    exact consumed.given own isOwn
  single := consumed.single
  silent missing := consumed.silent (Option.map_eq_none_iff.mp missing)
  unclosed missing := consumed.unclosed (Option.map_eq_none_iff.mp missing)

/-- What is read behind tokens that close what they open is read of all of them. -/
theorem behind {reading : Reading (Option α)} (consumed : reading.Consumes consumes middle)
    (goesOn : GroupsGoOn tokens middle)
    (transfer : consumes middle reading.rest → consumes tokens reading.rest) :
    reading.Consumes consumes tokens where
  given value isValue :=
    ⟨(consumed.given value isValue).1, transfer (consumed.given value isValue).2⟩
  single := consumed.single
  silent := consumed.silent
  unclosed missing ended depth :=
    (goesOn.closes depth).trans (consumed.unclosed missing ended depth)

end Reading.Consumes

namespace TokenReader.ClosesGroups

theorem next {accept : TokenKind → Option α} (expected : List String)
    (inner : ∀ kind value, accept kind = some value → kind.isInner) :
    (TokenReader.next accept expected).ClosesGroups := by
  intro tokens
  rcases tokens with _ | ⟨token, rest⟩
  · exact .stray expected (.refl [])
  · simp only [TokenReader.next]
    split
    · rename_i value accepted
      exact .value (.inner (inner _ value accepted) rest)
    · exact .stray expected (.refl _)

theorem andThen {first : TokenReader (Option α)} {second : α → TokenReader (Option β)}
    (firstCloses : first.ClosesGroups) (secondCloses : ∀ value, (second value).ClosesGroups) :
    (first.andThen second).ClosesGroups := by
  intro tokens
  have own := firstCloses tokens
  simp only [TokenReader.andThen]
  split
  · rename_i missing
    exact .failed own.single (own.silent missing) (own.unclosed missing)
  · rename_i value isValue
    obtain ⟨silent, goesOn⟩ := own.given value isValue
    rw [silent]
    exact (secondCloses value _).behind goesOn goesOn.trans

theorem map {reader : TokenReader (Option α)} (closes : reader.ClosesGroups) (change : α → β) :
    (reader.map change).ClosesGroups :=
  fun tokens => (closes tokens).map change

theorem ifNext {kind : TokenKind} {present absent : TokenReader (Option α)} (inner : kind.isInner)
    (presentCloses : present.ClosesGroups) (absentCloses : absent.ClosesGroups) :
    (TokenReader.ifNext kind present absent).ClosesGroups := by
  intro tokens
  rcases tokens with _ | ⟨token, rest⟩
  · exact absentCloses []
  · simp only [TokenReader.ifNext]
    split
    · rename_i same
      have goesOn : GroupsGoOn (token :: rest) rest := .inner (same ▸ inner) rest
      exact (presentCloses rest).behind goesOn goesOn.trans
    · exact absentCloses (token :: rest)

theorem exactly {kind : TokenKind} (inner : kind.isInner) (expected : List String) :
    (TokenReader.exactly kind expected).ClosesGroups := by
  refine next expected fun found value accepted => ?_
  split at accepted
  · rename_i same
    exact same ▸ inner
  · cases accepted

end TokenReader.ClosesGroups

section Headers

variable {expression : TokenReader (Option Expression)}

theorem nameReader_closesGroups (expected : String) : (nameReader expected).ClosesGroups := by
  refine .next _ fun kind value accepted => ?_
  split at accepted
  · rfl
  · cases accepted

theorem iterableReader_closesGroups (closes : expression.ClosesGroups) (expected : List String) :
    (iterableReader expression expected).ClosesGroups :=
  .andThen (.exactly rfl expected) fun _ => closes

theorem loopHeaderReader_closesGroups (closes : expression.ClosesGroups) :
    (loopHeaderReader expression).ClosesGroups :=
  .andThen (nameReader_closesGroups _) fun _ =>
    .ifNext rfl
      (.andThen (nameReader_closesGroups _) fun _ =>
        .map (iterableReader_closesGroups closes _) _)
      (.map (iterableReader_closesGroups closes _) _)

theorem bindingHeaderReader_closesGroups (closes : expression.ClosesGroups) :
    (bindingHeaderReader expression).ClosesGroups :=
  .andThen (nameReader_closesGroups _) fun _ =>
    .andThen (.exactly rfl _) fun _ => .map closes _

end Headers

theorem readPathTail_groupsGoOn (stop : Nat) (tokens : List Token) :
    GroupsGoOn tokens (readPathTail stop tokens).rest := by
  fun_induction readPathTail stop tokens with
  | case1 dotSpan field span rest ih =>
      exact ((GroupsGoOn.inner rfl _).trans (.inner rfl _)).trans ih
  | case3 stop openSpan index indexSpan span rest adjacent ih =>
      exact (((GroupsGoOn.inner rfl _).trans (.inner rfl _)).trans (.inner rfl _)).trans ih
  | case2 | case4 | case5 => exact .refl _

theorem readPath_consumes (start : Nat) (tokens : List Token) :
    (readPath start tokens).Consumes GroupsGoOn tokens := by
  unfold readPath
  split
  · exact .value ((GroupsGoOn.inner rfl _).trans (readPathTail_groupsGoOn _ _))
  · exact .stray _ (.refl _)

theorem readArguments_consumes {argument : TokenReader (Option Expression)}
    (closes : argument.ClosesGroups) (tokens : List Token) :
    (readArguments argument tokens).Consumes LeavesGroup tokens := by
  fun_induction readArguments argument tokens with
  | case1 tokens reading missing =>
      have own := closes tokens
      exact .failed own.single (own.silent missing) (own.unclosed missing)
  | case2 tokens reading expression isExpression span rest isRest ih =>
      obtain ⟨silent, goesOn⟩ := (closes tokens).given expression isExpression
      rw [show (argument.read tokens).rest = _ from isRest] at goesOn
      have behind := goesOn.trans (.inner rfl rest)
      rw [show reading.reports = [] from silent]
      exact (ih.behind behind behind.leavesGroup).map _
  | case3 tokens reading expression isExpression span rest isRest =>
      obtain ⟨silent, goesOn⟩ := (closes tokens).given expression isExpression
      rw [show (argument.read tokens).rest = _ from isRest] at goesOn
      rw [show reading.reports = [] from silent]
      exact .value (goesOn.leavesGroup (.closer span rest))
  | case4 tokens reading expression isExpression _ _ =>
      obtain ⟨silent, goesOn⟩ := (closes tokens).given expression isExpression
      rw [show reading.reports = [] from silent]
      exact .stray _ goesOn

theorem readArgumentList_consumes {argument : TokenReader (Option Expression)}
    (closes : argument.ClosesGroups) (tokens : List Token) :
    (readArgumentList argument tokens).Consumes LeavesGroup tokens := by
  unfold readArgumentList
  split
  · exact .value (.closer _ _)
  · exact readArguments_consumes closes tokens

section Calls

variable {limit : Nat} {argument? : Option (TokenReader (Option Expression))}
variable (closes : ∀ argument, argument? = some argument → argument.ClosesGroups)

include closes

theorem readCall_consumes (name : String) (nameSpan : Span) (tokens : List Token) :
    (readCall limit argument? name nameSpan tokens).Consumes GroupsGoOn tokens := by
  unfold readCall
  split
  · rename_i span group
    split
    · exact .reported _ fun ended depth =>
        groupCloses_of_atEnd_closeGroup ended (Nat.succ_pos depth)
    · rename_i argument
      have list := readArgumentList_consumes (closes argument rfl) group
      have within : (readArgumentList argument group).Consumes GroupsGoOn
          (⟨.leftParen, span⟩ :: group) :=
        ⟨fun value isValue => ⟨(list.given value isValue).1,
            (list.given value isValue).2.groupsGoOn⟩,
          list.single, list.silent,
          fun missing ended depth => list.unclosed missing ended (depth + 1)⟩
      exact within.map _
  · exact .reported _ fun ended depth => groupCloses_of_atEnd ended depth

theorem readExpression_consumes (tokens : List Token) :
    (readExpression limit argument? tokens).Consumes GroupsGoOn tokens := by
  unfold readExpression
  split
  · exact .stray [] (.refl [])
  · rename_i token rest
    split
    · rename_i isDollar
      have goesOn : GroupsGoOn (token :: rest) rest := .inner (by rw [isDollar]; rfl) rest
      exact (readPath_consumes _ rest).behind goesOn goesOn.trans
    · rename_i name isName
      have goesOn : GroupsGoOn (token :: rest) rest := .inner (by rw [isName]; rfl) rest
      exact (readCall_consumes closes name _ rest).behind goesOn goesOn.trans
    · split
      · rename_i literal isLiteral
        exact .value (.inner (Literal.isInner_of_ofKind? isLiteral) rest)
      · exact .stray _ (.refl _)

end Calls

theorem expressionReader_closesGroups (limit levels : Nat) :
    (expressionReader limit levels).ClosesGroups := by
  induction levels with
  | zero =>
      intro tokens
      refine readExpression_consumes ?_ tokens
      rintro argument ⟨⟩
  | succ levels ih =>
      intro tokens
      refine readExpression_consumes ?_ tokens
      rintro argument ⟨⟩
      exact ih

/-- Behind a header the tokens go on as if it had been stepped over. -/
theorem rest_readHeader {reader : TokenReader (Option α)} (closes : reader.ClosesGroups)
    (directive : Token) (tokens : List Token) :
    (readHeader directive reader tokens).rest = skipHeader tokens := by
  by_cases opens : nextKind tokens = .leftParen
  · obtain ⟨openSpan, group, rfl⟩ := exists_of_nextKind (by simp) opens
    rw [skipHeader_leftParen]
    rcases read : reader.read group with ⟨_ | content, reports, rest⟩
    · rw [readHeader_of_none read]
      rfl
    by_cases closer : nextKind rest = .rightParen
    · obtain ⟨closeSpan, rest, rfl⟩ := exists_of_nextKind (by simp) closer
      have goesOn := ((closes group).given content (congrArg Reading.value read)).2
      rw [show (reader.read group).rest = _ from congrArg Reading.rest read] at goesOn
      rw [readHeader_of_closed read]
      exact (goesOn.closed 0).symm
    · rw [readHeader_of_stray read closer]
      rfl
  · rw [readHeader_of_ne directive reader opens, skipHeader_of_ne opens]
    rfl

/-- Behind a call in the text the tokens go on as if its group had been stepped over. -/
theorem rest_readOutputCall {limit : Nat} {argument? : Option (TokenReader (Option Expression))}
    (closes : ∀ argument, argument? = some argument → argument.ClosesGroups) (name : String)
    (nameSpan : Span) (tokens : List Token) :
    (readOutputCall limit argument? name nameSpan tokens).rest = skipHeader tokens := by
  unfold readOutputCall
  dsimp only
  split
  · rename_i call isCall
    by_cases opens : nextKind tokens = .leftParen
    · obtain ⟨openSpan, group, rfl⟩ := exists_of_nextKind (by simp) opens
      rcases argument? with _ | argument
      · cases isCall
      · obtain ⟨list, isList, -⟩ := Option.map_eq_some_iff.mp isCall
        have leaves :=
          ((readArgumentList_consumes (closes argument rfl) group).given list isList).2
        exact leaves.closed.symm
    · rw [readCall_of_ne limit argument? name nameSpan opens] at isCall
      cases isCall
  · rfl

/-- Of what stands in parentheses nothing is left, whether or not it could be read, and it is
reported at most once.  Only at the end of the input, where no parenthesis closes the group, may
reading stop without a report. -/
structure ConsumesGroup (group : List Token) (given : Prop) (reports : List Report)
    (stopped rest : List Token) : Prop where
  ends : EndsGroup group rest
  silent : given → reports = []
  single : reports.length ≤ 1
  reported : ¬ given → reports.length = 1 ∨ (atEnd stopped ∧ ¬ GroupIsClosed group)

/-- What has failed in a group has been reported, unless the group is not closed. -/
theorem reported_or_unclosed {group stopped : List Token} {reports : List Report}
    (single : reports.length ≤ 1) (silent : reports = [] → atEnd stopped)
    (unclosed : atEnd stopped → groupCloses 0 group = false) :
    reports.length = 1 ∨ (atEnd stopped ∧ ¬ GroupIsClosed group) := by
  rcases reports with _ | ⟨report, others⟩
  · exact .inr ⟨silent rfl, not_groupIsClosed (unclosed (silent rfl))⟩
  · exact .inl (Nat.le_antisymm single (Nat.succ_pos others.length))

theorem readHeader_consumesGroup {reader : TokenReader (Option α)} (closes : reader.ClosesGroups)
    (directive : Token) (openSpan : Span) (group : List Token) :
    let reading := readHeader directive reader (⟨.leftParen, openSpan⟩ :: group)
    ConsumesGroup group reading.value.isSome reading.reports (reader.read group).rest
      reading.rest := by
  intro reading
  have ends : EndsGroup group reading.rest := by
    rw [show reading.rest = closeGroup 0 group from rest_readHeader closes directive _]
    exact closeGroup_endsGroup group
  have own := closes group
  rcases read : reader.read group with ⟨_ | content, reports, rest⟩ <;> rw [read] at own
  · rw [show reading = _ from readHeader_of_none read directive openSpan] at ends ⊢
    exact ⟨ends, nofun, own.single, fun _ =>
      reported_or_unclosed own.single (own.silent rfl) fun ended => own.unclosed rfl ended 0⟩
  obtain ⟨rfl, goesOn⟩ : reports = [] ∧ GroupsGoOn group rest := own.given content rfl
  by_cases closer : nextKind rest = .rightParen
  · obtain ⟨closeSpan, rest, rfl⟩ := exists_of_nextKind (by simp) closer
    rw [show reading = _ from readHeader_of_closed read directive openSpan] at ends ⊢
    exact ⟨ends, fun _ => rfl, Nat.zero_le 1, fun missing => absurd rfl missing⟩
  · rw [show reading = _ from readHeader_of_stray read closer directive openSpan] at ends ⊢
    have single := length_unexpectedNext_le ["')'"] rest
    exact ⟨ends, nofun, single, fun _ =>
      reported_or_unclosed single atEnd_of_unexpectedNext fun ended =>
        (goesOn.closes 0).trans (groupCloses_of_atEnd ended 0)⟩

theorem readOutputCall_consumesGroup {limit : Nat}
    {argument? : Option (TokenReader (Option Expression))}
    (closes : ∀ argument, argument? = some argument → argument.ClosesGroups) (name : String)
    (nameSpan openSpan : Span) (group : List Token) :
    let tokens := ⟨.leftParen, openSpan⟩ :: group
    let reading := readOutputCall limit argument? name nameSpan tokens
    ConsumesGroup group (reading.value ≠ []) reading.reports
      (readCall limit argument? name nameSpan tokens).rest reading.rest := by
  intro tokens reading
  have ends : EndsGroup group reading.rest := by
    rw [show reading.rest = closeGroup 0 group from rest_readOutputCall closes name nameSpan _]
    exact closeGroup_endsGroup group
  rcases argument? with _ | argument
  · exact ⟨ends, fun given => absurd rfl given, Nat.le_refl 1, fun _ => .inl rfl⟩
  have own := readArgumentList_consumes (closes argument rfl) group
  have called : readCall limit (some argument) name nameSpan tokens =
      (readArgumentList argument group).map _ := rfl
  rcases read : readArgumentList argument group with ⟨_ | list, reports, rest⟩ <;>
    rw [read] at own called
  · rw [show reading = ⟨[], reports, skipHeader tokens⟩ by
      simp only [reading, readOutputCall, called]; rfl] at ends ⊢
    rw [called]
    exact ⟨ends, fun given => absurd rfl given, own.single, fun _ =>
      reported_or_unclosed own.single (own.silent rfl) fun ended => own.unclosed rfl ended 0⟩
  · obtain rfl : reports = [] := (own.given list rfl).1
    rw [show reading = ⟨[_], [], rest⟩ by
      simp only [reading, readOutputCall, called]; rfl] at ends ⊢
    exact ⟨ends, fun _ => rfl, Nat.zero_le 1, fun missing =>
      absurd (List.cons_ne_nil _ _) missing⟩

theorem argumentReader?_closesGroups {limit levels : Nat}
    {argument : TokenReader (Option Expression)}
    (isArgument : argumentReader? limit levels = some argument) : argument.ClosesGroups := by
  cases levels with
  | zero => cases isArgument
  | succ levels =>
      cases isArgument
      exact expressionReader_closesGroups limit levels

/-- A header is consumed as its group closes, and reading it by a count leaves the count. -/
def ConsumesHeader (depth : Nat) (directive : Token) (openSpan : Span) (group : List Token)
    (counting : Counting α) (reader : TokenReader (Option α)) : Prop :=
  let tokens := ⟨.leftParen, openSpan⟩ :: group
  let reading := readHeader directive reader tokens
  ConsumesGroup group reading.value.isSome reading.reports (reader.read group).rest reading.rest ∧
    ∀ outcome after, HeaderRun directive counting depth tokens outcome after ↔
      outcome = reading ∧ after = depth

theorem consumesHeader {depth : Nat} {counting : Counting α} {reader : TokenReader (Option α)}
    (closes : reader.ClosesGroups) (keeps : counting.KeepsTo depth reader.read) (directive : Token)
    (openSpan : Span) (group : List Token) :
    ConsumesHeader depth directive openSpan group counting reader :=
  ⟨readHeader_consumesGroup closes directive openSpan group,
    headerRun_keepsTo keeps directive (⟨.leftParen, openSpan⟩ :: group)⟩

/-- Every group behind a call in the text, and every header of a conditional, a loop or a binding,
is consumed up to the parenthesis that closes it by counting, or to the end of the input where
none does; the count of nested calls is behind it what it was before; and what is reported is one
thing if reading fails, unless the end was met, and nothing if it does not. -/
theorem groups_consumed_as_they_close (limit depth : Nat) (openSpan : Span) (group : List Token) :
    (∀ name nameSpan,
      let tokens := ⟨.leftParen, openSpan⟩ :: group
      let argument? := argumentReader? limit (limit - depth)
      let reading := readOutputCall limit argument? name nameSpan tokens
      ConsumesGroup group (reading.value ≠ []) reading.reports
          (readCall limit argument? name nameSpan tokens).rest reading.rest ∧
        ∀ outcome after, OutputCallRun limit name nameSpan depth tokens outcome after ↔
          outcome = reading ∧ after = depth) ∧
    ∀ directive,
      let counting := ExpressionRun limit
      let expression := expressionReader limit (limit - depth)
      ConsumesHeader depth directive openSpan group counting expression ∧
        ConsumesHeader depth directive openSpan group (loopHeaderRun counting)
          (loopHeaderReader expression) ∧
        ConsumesHeader depth directive openSpan group (bindingHeaderRun counting)
          (bindingHeaderReader expression) := by
  have closes := expressionReader_closesGroups limit (limit - depth)
  have keeps := expressionRun_keepsTo limit depth
  refine ⟨fun name nameSpan => ⟨?_, fun outcome after => outputCallRun_iff⟩,
    fun directive => ⟨?_, ?_, ?_⟩⟩
  · exact readOutputCall_consumesGroup (fun _ => argumentReader?_closesGroups) name nameSpan
      openSpan group
  · exact consumesHeader closes keeps directive openSpan group
  · exact consumesHeader (loopHeaderReader_closesGroups closes) (loopHeaderRun_keepsTo keeps)
      directive openSpan group
  · exact consumesHeader (bindingHeaderReader_closesGroups closes)
      (bindingHeaderRun_keepsTo keeps) directive openSpan group

end Stencil
