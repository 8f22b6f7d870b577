import Stencil.Proofs.Moving
import Stencil.Proofs.ReadBack

/-!
# Counting the levels of calls

A reader of expressions is made for the number of levels of calls that are still allowed.  The
same can be done by counting: the count goes up in front of the arguments of a call and down
behind them, whether or not they could be read, and a call is refused where the count has come to
the limit.  Here are the rules of such counting.  Whatever is read by them, the count is in the
end what it was at the beginning, and the outcome is that of the readers.
-/

namespace Stencil

variable {α β : Type}

/-- A way of reading with a count: from a count and some tokens to what is read and the count
after it. -/
abbrev Counting (α : Type) :=
  Nat → List Token → Reading (Option α) → Nat → Prop

mutual

/-- The rules of reading an expression with a count.  Only calls change it. -/
inductive ExpressionRun (limit : Nat) : Counting Expression where
  | call {name : String} {nameSpan : Span} {depth after : Nat} {tokens : List Token}
      {outcome : Reading (Option Expression)} :
      CallRun limit name nameSpan depth tokens outcome after →
        ExpressionRun limit depth (⟨.macroName name, nameSpan⟩ :: tokens) outcome after
  | other {depth : Nat} {tokens : List Token} :
      (∀ name, nextKind tokens ≠ .macroName name) →
        ExpressionRun limit depth tokens (readExpression limit none tokens) depth

/-- The rules of reading a call whose name is already taken off. -/
inductive CallRun (limit : Nat) : String → Span → Counting Expression where
  | bare {name : String} {nameSpan : Span} {depth : Nat} {tokens : List Token} :
      nextKind tokens ≠ .leftParen →
        CallRun limit name nameSpan depth tokens
          (.failed [⟨.missingArguments name, nameSpan⟩] tokens) depth
  | tooDeep {name : String} {nameSpan span : Span} {depth : Nat} {group : List Token} :
      limit ≤ depth →
        CallRun limit name nameSpan depth (⟨.leftParen, span⟩ :: group)
          (.failed [⟨.nestingTooDeep limit, nameSpan⟩] (closeGroup 0 group)) depth
  | nested {name : String} {nameSpan span : Span} {depth after : Nat} {group : List Token}
      {list : Reading (Option ArgumentList)} :
      depth < limit → ArgumentListRun limit (depth + 1) group list after →
        CallRun limit name nameSpan depth (⟨.leftParen, span⟩ :: group)
          (list.map (Option.map fun list => .call name list.arguments ⟨nameSpan.start, list.stop⟩))
          (after - 1)

/-- The rules of reading the arguments of a call after the opening parenthesis. -/
inductive ArgumentListRun (limit : Nat) : Counting ArgumentList where
  | none {span : Span} {depth : Nat} {rest : List Token} :
      ArgumentListRun limit depth (⟨.rightParen, span⟩ :: rest) ⟨some ⟨[], span.stop⟩, [], rest⟩
        depth
  | some {depth after : Nat} {tokens : List Token} {outcome : Reading (Option ArgumentList)} :
      nextKind tokens ≠ .rightParen → ArgumentsRun limit depth tokens outcome after →
        ArgumentListRun limit depth tokens outcome after

/-- The rules of reading one argument or more and the closing parenthesis. -/
inductive ArgumentsRun (limit : Nat) : Counting ArgumentList where
  | failed {depth after : Nat} {tokens rest : List Token} {reports : List Report} :
      ExpressionRun limit depth tokens ⟨none, reports, rest⟩ after →
        ArgumentsRun limit depth tokens (.failed reports rest) after
  | further {depth middle after : Nat} {tokens rest : List Token} {reports : List Report}
      {argument : Expression} {span : Span} {others : Reading (Option ArgumentList)} :
      ExpressionRun limit depth tokens ⟨some argument, reports, ⟨.comma, span⟩ :: rest⟩ middle →
        ArgumentsRun limit middle rest others after →
          ArgumentsRun limit depth tokens
            ((others.precededBy reports).map (Option.map (.prepend argument))) after
  | last {depth after : Nat} {tokens rest : List Token} {reports : List Report}
      {argument : Expression} {span : Span} :
      ExpressionRun limit depth tokens ⟨some argument, reports, ⟨.rightParen, span⟩ :: rest⟩
          after →
        ArgumentsRun limit depth tokens ⟨some ⟨[argument], span.stop⟩, reports, rest⟩ after
  | stray {depth after : Nat} {tokens rest : List Token} {reports : List Report}
      {argument : Expression} :
      ExpressionRun limit depth tokens ⟨some argument, reports, rest⟩ after →
        nextKind rest ≠ .comma → nextKind rest ≠ .rightParen →
          ArgumentsRun limit depth tokens
            (.failed (reports ++ unexpectedNext ["','", "')'"] rest) rest) after

end

/-- The reader of the arguments of calls, with `levels` levels of calls around them. -/
abbrev argumentReader? (limit levels : Nat) : Option (TokenReader (Option Expression)) :=
  (nestedReaders? limit levels).map NestedReaders.expression

theorem expressionReader_read (limit levels : Nat) (tokens : List Token) :
    (expressionReader limit levels).read tokens =
      readExpression limit (argumentReader? limit levels) tokens := by
  cases levels <;> rfl

theorem expressionReader_read_macroName (limit levels : Nat) (name : String) (nameSpan : Span)
    (tokens : List Token) :
    (expressionReader limit levels).read (⟨.macroName name, nameSpan⟩ :: tokens) =
      readCall limit (argumentReader? limit levels) name nameSpan tokens := by
  rw [expressionReader_read]
  rfl

theorem expressionReader_read_of_ne (limit levels : Nat) {tokens : List Token}
    (other : ∀ name, nextKind tokens ≠ .macroName name) :
    (expressionReader limit levels).read tokens = readExpression limit none tokens := by
  rw [expressionReader_read]
  rcases tokens with _ | ⟨⟨kind, span⟩, rest⟩
  · rfl
  · cases kind <;> first | rfl | exact absurd rfl (other _)

theorem readCall_of_ne (limit : Nat) (argument? : Option (TokenReader (Option Expression)))
    (name : String) (nameSpan : Span) {tokens : List Token}
    (other : nextKind tokens ≠ .leftParen) :
    readCall limit argument? name nameSpan tokens =
      .failed [⟨.missingArguments name, nameSpan⟩] tokens := by
  rcases tokens with _ | ⟨⟨kind, span⟩, rest⟩
  · rfl
  · cases kind <;> first | rfl | exact absurd rfl other

theorem argumentReader?_of_le {limit depth : Nat} (full : limit ≤ depth) :
    argumentReader? limit (limit - depth) = none := by
  rw [Nat.sub_eq_zero_of_le full]
  rfl

theorem argumentReader?_of_lt {limit depth : Nat} (room : depth < limit) :
    argumentReader? limit (limit - depth) =
      some (expressionReader limit (limit - (depth + 1))) := by
  rw [show limit - depth = limit - (depth + 1) + 1 by omega]
  rfl

theorem readArguments_of_value {argument : TokenReader (Option Expression)}
    {tokens rest : List Token} {expression : Expression} {reports : List Report}
    (reading : argument.read tokens = ⟨some expression, reports, rest⟩)
    (noComma : nextKind rest ≠ .comma) (noCloser : nextKind rest ≠ .rightParen) :
    readArguments argument tokens =
      .failed (reports ++ unexpectedNext ["','", "')'"] rest) rest := by
  rw [readArguments_eq, reading]
  rcases rest with _ | ⟨next, rest⟩
  · simp [unexpectedNext]
  · dsimp only
    rw [if_neg (show next.kind ≠ .comma from noComma),
      if_neg (show next.kind ≠ .rightParen from noCloser)]

mutual

theorem ExpressionRun.eq_read {limit depth after : Nat} {tokens : List Token}
    {outcome : Reading (Option Expression)} : ExpressionRun limit depth tokens outcome after →
      outcome = (expressionReader limit (limit - depth)).read tokens ∧ after = depth
  | .call run => by
      rw [expressionReader_read_macroName]
      exact run.eq_read
  | .other other => ⟨(expressionReader_read_of_ne limit _ other).symm, rfl⟩

theorem CallRun.eq_read {limit depth after : Nat} {tokens : List Token} {name : String}
    {nameSpan : Span} {outcome : Reading (Option Expression)} :
    CallRun limit name nameSpan depth tokens outcome after →
      outcome = readCall limit (argumentReader? limit (limit - depth)) name nameSpan tokens ∧
        after = depth
  | .bare other => ⟨(readCall_of_ne limit _ name nameSpan other).symm, rfl⟩
  | .tooDeep full => by
      rw [argumentReader?_of_le full]
      exact ⟨rfl, rfl⟩
  | .nested room run => by
      -- The arguments leave the count one higher, as they found it, so that going down undoes
      -- exactly what going up did.
      obtain ⟨rfl, rfl⟩ := run.eq_read
      rw [argumentReader?_of_lt room]
      exact ⟨rfl, rfl⟩

theorem ArgumentListRun.eq_read {limit depth after : Nat} {tokens : List Token}
    {outcome : Reading (Option ArgumentList)} : ArgumentListRun limit depth tokens outcome after →
      outcome = readArgumentList (expressionReader limit (limit - depth)) tokens ∧ after = depth
  | .none => ⟨rfl, rfl⟩
  | .some other run => by
      rw [readArgumentList_of_ne other]
      exact run.eq_read

theorem ArgumentsRun.eq_read {limit depth after : Nat} {tokens : List Token}
    {outcome : Reading (Option ArgumentList)} : ArgumentsRun limit depth tokens outcome after →
      outcome = readArguments (expressionReader limit (limit - depth)) tokens ∧ after = depth
  | .failed run => by
      obtain ⟨reading, rfl⟩ := run.eq_read
      rw [readArguments_eq, ← reading]
      exact ⟨rfl, rfl⟩
  | .further first run => by
      obtain ⟨reading, rfl⟩ := first.eq_read
      obtain ⟨rfl, rfl⟩ := run.eq_read
      rw [readArguments_eq _ tokens, ← reading]
      exact ⟨rfl, rfl⟩
  | .last run => by
      obtain ⟨reading, rfl⟩ := run.eq_read
      rw [readArguments_eq, ← reading]
      exact ⟨rfl, rfl⟩
  | .stray run noComma noCloser => by
      obtain ⟨reading, rfl⟩ := run.eq_read
      exact ⟨(readArguments_of_value reading.symm noComma noCloser).symm, rfl⟩

end

section Complete

variable {limit depth : Nat} {argument : TokenReader (Option Expression)}

theorem argumentsRun_read
    (covers : ∀ tokens, ExpressionRun limit depth tokens (argument.read tokens) depth)
    (tokens : List Token) :
    ArgumentsRun limit depth tokens (readArguments argument tokens) depth := by
  -- The cases are those of the reader: each is the rule for what stands behind the argument.
  fun_induction readArguments argument tokens with
  | case1 tokens reading missing =>
      have run : ExpressionRun limit depth tokens reading depth := covers tokens
      rw [show reading = ⟨none, reading.reports, reading.rest⟩ by rw [← missing]] at run
      exact .failed run
  | case2 tokens reading expression isExpression span rest isRest ih =>
      have run : ExpressionRun limit depth tokens reading depth := covers tokens
      rw [show reading = ⟨some expression, reading.reports, ⟨.comma, span⟩ :: rest⟩ by
        rw [← isExpression, ← isRest]] at run
      exact .further run ih
  | case3 tokens reading expression isExpression span rest isRest =>
      have run : ExpressionRun limit depth tokens reading depth := covers tokens
      rw [show reading = ⟨some expression, reading.reports, ⟨.rightParen, span⟩ :: rest⟩ by
        rw [← isExpression, ← isRest]] at run
      exact .last run
  | case4 tokens reading expression isExpression noComma noCloser =>
      have run : ExpressionRun limit depth tokens reading depth := covers tokens
      rw [show reading = ⟨some expression, reading.reports, reading.rest⟩ by
        rw [← isExpression]] at run
      refine .stray run (fun isComma => ?_) (fun isCloser => ?_)
      · obtain ⟨span, rest, isRest⟩ := exists_of_nextKind (by simp) isComma
        exact noComma span rest isRest
      · obtain ⟨span, rest, isRest⟩ := exists_of_nextKind (by simp) isCloser
        exact noCloser span rest isRest

theorem argumentListRun_read
    (covers : ∀ tokens, ExpressionRun limit depth tokens (argument.read tokens) depth)
    (tokens : List Token) :
    ArgumentListRun limit depth tokens (readArgumentList argument tokens) depth := by
  by_cases closes : nextKind tokens = .rightParen
  · obtain ⟨span, rest, rfl⟩ := exists_of_nextKind (by simp) closes
    exact .none
  · rw [readArgumentList_of_ne closes]
    exact .some closes (argumentsRun_read covers tokens)

theorem callRun_read
    (covers : depth < limit → ∀ tokens, ExpressionRun limit (depth + 1) tokens
      ((expressionReader limit (limit - (depth + 1))).read tokens) (depth + 1))
    (name : String) (nameSpan : Span) (tokens : List Token) :
    CallRun limit name nameSpan depth tokens
      (readCall limit (argumentReader? limit (limit - depth)) name nameSpan tokens) depth := by
  by_cases opens : nextKind tokens = .leftParen
  · obtain ⟨span, group, rfl⟩ := exists_of_nextKind (by simp) opens
    by_cases room : depth < limit
    · rw [argumentReader?_of_lt room]
      exact .nested room (argumentListRun_read (covers room) group)
    · rw [argumentReader?_of_le (Nat.le_of_not_lt room)]
      exact .tooDeep (Nat.le_of_not_lt room)
  · rw [readCall_of_ne limit _ name nameSpan opens]
    exact .bare opens

theorem expressionRun_read_of_callRun
    (calls : ∀ name nameSpan tokens, CallRun limit name nameSpan depth tokens
      (readCall limit (argumentReader? limit (limit - depth)) name nameSpan tokens) depth)
    (tokens : List Token) :
    ExpressionRun limit depth tokens
      ((expressionReader limit (limit - depth)).read tokens) depth := by
  by_cases isCall : ∃ name, nextKind tokens = .macroName name
  · obtain ⟨name, isName⟩ := isCall
    obtain ⟨nameSpan, rest, rfl⟩ := exists_of_nextKind (by simp) isName
    rw [expressionReader_read_macroName]
    exact .call (calls name nameSpan rest)
  · have other : ∀ name, nextKind tokens ≠ .macroName name := fun name isName =>
      isCall ⟨name, isName⟩
    rw [expressionReader_read_of_ne limit _ other]
    exact .other other

end Complete

theorem callRun_read_argumentReader? (limit depth : Nat) (name : String) (nameSpan : Span)
    (tokens : List Token) :
    CallRun limit name nameSpan depth tokens
      (readCall limit (argumentReader? limit (limit - depth)) name nameSpan tokens) depth := by
  -- Each level of counting takes one of the levels that are left.
  induction levels : limit - depth generalizing depth name nameSpan tokens with
  | zero =>
      rw [← levels]
      exact callRun_read (fun room => by omega) name nameSpan tokens
  | succ fewer ih =>
      rw [← levels]
      refine callRun_read (fun room => ?_) name nameSpan tokens
      have below : limit - (depth + 1) = fewer := by omega
      exact expressionRun_read_of_callRun fun name nameSpan tokens =>
        below ▸ ih (depth + 1) name nameSpan tokens below

namespace Counting

/-- Counting from `depth` on, one reads what a reader reads, and the count is in the end what it
was. -/
def KeepsTo (counting : Counting α) (depth : Nat) (read : List Token → Reading (Option α)) : Prop :=
  ∀ tokens outcome after,
    counting depth tokens outcome after ↔ outcome = read tokens ∧ after = depth

/-- Read what has nothing to do with the count. -/
def ofReader (reader : TokenReader (Option α)) : Counting α :=
  fun depth tokens outcome after => outcome = reader.read tokens ∧ after = depth

def map (counting : Counting α) (change : α → β) : Counting β :=
  fun depth tokens outcome after =>
    ∃ own, counting depth tokens own after ∧ outcome = own.map (Option.map change)

/-- The rules of reading one thing and, if it gives a value, going on with another one. -/
inductive AndThen (first : Counting α) (second : α → Counting β) : Counting β where
  | failed {depth after : Nat} {tokens rest : List Token} {reports : List Report} :
      first depth tokens ⟨none, reports, rest⟩ after →
        AndThen first second depth tokens (.failed reports rest) after
  | passed {depth middle after : Nat} {tokens rest : List Token} {reports : List Report}
      {value : α} {outcome : Reading (Option β)} :
      first depth tokens ⟨some value, reports, rest⟩ middle →
        second value middle rest outcome after →
          AndThen first second depth tokens (outcome.precededBy reports) after

/-- The rules of reading what depends on whether a comma comes next. -/
inductive IfComma (present absent : Counting α) : Counting α where
  | present {span : Span} {depth after : Nat} {rest : List Token} {outcome : Reading (Option α)} :
      present depth rest outcome after →
        IfComma present absent depth (⟨.comma, span⟩ :: rest) outcome after
  | absent {depth after : Nat} {tokens : List Token} {outcome : Reading (Option α)} :
      nextKind tokens ≠ .comma → absent depth tokens outcome after →
        IfComma present absent depth tokens outcome after

variable {counting : Counting α} {depth : Nat}

theorem keepsTo_ofReader (reader : TokenReader (Option α)) (depth : Nat) :
    (ofReader reader).KeepsTo depth reader.read :=
  fun _ _ _ => Iff.rfl

theorem KeepsTo.map {reader : TokenReader (Option α)} (keeps : counting.KeepsTo depth reader.read)
    (change : α → β) : (counting.map change).KeepsTo depth (reader.map change).read := by
  intro tokens outcome after
  constructor
  · rintro ⟨own, run, rfl⟩
    obtain ⟨rfl, rfl⟩ := (keeps tokens own after).mp run
    exact ⟨rfl, rfl⟩
  · rintro ⟨rfl, rfl⟩
    exact ⟨_, (keeps tokens _ _).mpr ⟨rfl, rfl⟩, rfl⟩

theorem KeepsTo.andThen {first : TokenReader (Option α)} {second : α → TokenReader (Option β)}
    {further : α → Counting β} (keeps : counting.KeepsTo depth first.read)
    (keepsFurther : ∀ value, (further value).KeepsTo depth (second value).read) :
    (AndThen counting further).KeepsTo depth (first.andThen second).read := by
  intro tokens outcome after
  constructor
  · rintro (⟨run⟩ | ⟨run, behind⟩)
    · obtain ⟨reading, rfl⟩ := (keeps tokens _ after).mp run
      exact ⟨(read_andThen_none reading.symm second).symm, rfl⟩
    · obtain ⟨reading, rfl⟩ := (keeps tokens _ _).mp run
      obtain ⟨rfl, rfl⟩ := (keepsFurther _ _ _ after).mp behind
      exact ⟨(read_andThen_some reading.symm second).symm, rfl⟩
  · rintro ⟨rfl, rfl⟩
    rcases reading : first.read tokens with ⟨_ | value, reports, rest⟩
    · rw [read_andThen_none reading]
      exact .failed ((keeps tokens _ _).mpr ⟨reading.symm, rfl⟩)
    · rw [read_andThen_some reading]
      exact .passed ((keeps tokens _ _).mpr ⟨reading.symm, rfl⟩)
        ((keepsFurther value rest _ _).mpr ⟨rfl, rfl⟩)

theorem KeepsTo.ifComma {present absent : TokenReader (Option α)} {ifPresent ifAbsent : Counting α}
    (keepsPresent : ifPresent.KeepsTo depth present.read)
    (keepsAbsent : ifAbsent.KeepsTo depth absent.read) :
    (IfComma ifPresent ifAbsent).KeepsTo depth
      (TokenReader.ifNext .comma present absent).read := by
  intro tokens outcome after
  have reads (other : nextKind tokens ≠ .comma) :
      (TokenReader.ifNext .comma present absent).read tokens = absent.read tokens := by
    rcases tokens with _ | ⟨token, rest⟩
    · rfl
    · exact if_neg other
  constructor
  · rintro (⟨run⟩ | ⟨other, run⟩)
    · exact (keepsPresent _ outcome after).mp run
    · rw [reads other]
      exact (keepsAbsent _ outcome after).mp run
  · by_cases isComma : nextKind tokens = .comma
    · obtain ⟨span, rest, rfl⟩ := exists_of_nextKind (by simp) isComma
      exact fun outcomes => .present ((keepsPresent rest outcome after).mpr outcomes)
    · rw [reads isComma]
      exact fun outcomes => .absent isComma ((keepsAbsent tokens outcome after).mpr outcomes)

end Counting

theorem callRun_keepsTo (limit depth : Nat) (name : String) (nameSpan : Span) :
    Counting.KeepsTo (CallRun limit name nameSpan) depth
      (readCall limit (argumentReader? limit (limit - depth)) name nameSpan) := by
  intro tokens outcome after
  constructor
  · exact CallRun.eq_read
  · rintro ⟨rfl, rfl⟩
    exact callRun_read_argumentReader? limit _ name nameSpan tokens

theorem expressionRun_keepsTo (limit depth : Nat) :
    Counting.KeepsTo (ExpressionRun limit) depth
      (expressionReader limit (limit - depth)).read := by
  intro tokens outcome after
  constructor
  · exact ExpressionRun.eq_read
  · rintro ⟨rfl, rfl⟩
    exact expressionRun_read_of_callRun (callRun_read_argumentReader? limit _) tokens

/-- Read the word before what a loop runs over, and that expression. -/
def iterableRun (expression : Counting Expression) (expected : List String) : Counting Expression :=
  .AndThen (.ofReader (.exactly (.name loopWord) expected)) fun _ => expression

/-- Read the inside of the header of a loop, counting in what the loop runs over. -/
def loopHeaderRun (expression : Counting Expression) : Counting LoopHeader :=
  .AndThen (.ofReader (nameReader "a loop variable name")) fun first =>
    .IfComma
      (.AndThen (.ofReader (nameReader "a loop variable name")) fun second =>
        (iterableRun expression ["'in'"]).map (LoopHeader.mk (some first) second))
      ((iterableRun expression ["','", "'in'"]).map (LoopHeader.mk none first))

/-- Read the inside of the header of a binding, counting in what the name is bound to. -/
def bindingHeaderRun (expression : Counting Expression) : Counting BindingHeader :=
  .AndThen (.ofReader (nameReader "a variable name")) fun name =>
    .AndThen (.ofReader (.exactly .assign ["'='"])) fun _ =>
      expression.map (BindingHeader.mk name)

section Headers

variable {counting : Counting Expression} {expression : TokenReader (Option Expression)}
variable {depth : Nat} (keeps : counting.KeepsTo depth expression.read)

include keeps

theorem iterableRun_keepsTo (expected : List String) :
    (iterableRun counting expected).KeepsTo depth (iterableReader expression expected).read :=
  .andThen (Counting.keepsTo_ofReader _ depth) fun _ => keeps

theorem loopHeaderRun_keepsTo :
    (loopHeaderRun counting).KeepsTo depth (loopHeaderReader expression).read :=
  .andThen (Counting.keepsTo_ofReader _ depth) fun _ =>
    .ifComma
      (.andThen (Counting.keepsTo_ofReader _ depth) fun _ =>
        (iterableRun_keepsTo keeps _).map _)
      ((iterableRun_keepsTo keeps _).map _)

theorem bindingHeaderRun_keepsTo :
    (bindingHeaderRun counting).KeepsTo depth (bindingHeaderReader expression).read :=
  .andThen (Counting.keepsTo_ofReader _ depth) fun _ =>
    .andThen (Counting.keepsTo_ofReader _ depth) fun _ => keeps.map _

end Headers

/-- The rules of reading a header.  Where its inside cannot be read or ends too early, what is
left of it is stepped over. -/
inductive HeaderRun (directive : Token) (inside : Counting α) : Counting (Header α) where
  | bare {depth : Nat} {tokens : List Token} :
      nextKind tokens ≠ .leftParen →
        HeaderRun directive inside depth tokens
          (.failed [⟨.unexpected (directive.kind.description ++ " without a header")
            ["'(' after the directive"], directive.span⟩] tokens) depth
  | failed {depth after : Nat} {span : Span} {group rest : List Token} {reports : List Report} :
      inside depth group ⟨none, reports, rest⟩ after →
        HeaderRun directive inside depth (⟨.leftParen, span⟩ :: group)
          (.failed reports (closeGroup 0 group)) after
  | closed {depth after : Nat} {span closeSpan : Span} {group rest : List Token}
      {reports : List Report} {content : α} :
      inside depth group ⟨some content, reports, ⟨.rightParen, closeSpan⟩ :: rest⟩ after →
        HeaderRun directive inside depth (⟨.leftParen, span⟩ :: group)
          ⟨some ⟨content, closeSpan.stop⟩, reports, rest⟩ after
  | stray {depth after : Nat} {span : Span} {group rest : List Token} {reports : List Report}
      {content : α} :
      inside depth group ⟨some content, reports, rest⟩ after → nextKind rest ≠ .rightParen →
        HeaderRun directive inside depth (⟨.leftParen, span⟩ :: group)
          (.failed (reports ++ unexpectedNext ["')'"] rest) (closeGroup 0 group)) after

/-- The rules of reading a call in the text.  Where that fails, its parentheses are stepped over
from the first one on. -/
inductive OutputCallRun (limit : Nat) (name : String) (nameSpan : Span) (depth : Nat)
    (tokens : List Token) : Reading (List Node) → Nat → Prop where
  | output {after : Nat} {reports : List Report} {rest : List Token} {call : Expression} :
      CallRun limit name nameSpan depth tokens ⟨some call, reports, rest⟩ after →
        OutputCallRun limit name nameSpan depth tokens ⟨[.output call], reports, rest⟩ after
  | recovered {after : Nat} {reports : List Report} {rest : List Token} :
      CallRun limit name nameSpan depth tokens ⟨none, reports, rest⟩ after →
        OutputCallRun limit name nameSpan depth tokens ⟨[], reports, skipHeader tokens⟩ after

theorem headerRun_keepsTo {inside : Counting α} {reader : TokenReader (Option α)} {depth : Nat}
    (keeps : inside.KeepsTo depth reader.read) (directive : Token) :
    (HeaderRun directive inside).KeepsTo depth (readHeader directive reader) := by
  intro tokens outcome after
  constructor
  · rintro (⟨other⟩ | ⟨run⟩ | ⟨run⟩ | ⟨run, stray⟩)
    · exact ⟨(readHeader_of_ne directive reader other).symm, rfl⟩
    · obtain ⟨reading, rfl⟩ := (keeps _ _ after).mp run
      exact ⟨(readHeader_of_none reading.symm directive _).symm, rfl⟩
    · obtain ⟨reading, rfl⟩ := (keeps _ _ after).mp run
      exact ⟨(readHeader_of_closed reading.symm directive _).symm, rfl⟩
    · obtain ⟨reading, rfl⟩ := (keeps _ _ after).mp run
      exact ⟨(readHeader_of_stray reading.symm stray directive _).symm, rfl⟩
  · rintro ⟨rfl, rfl⟩
    by_cases opens : nextKind tokens = .leftParen
    · obtain ⟨span, group, rfl⟩ := exists_of_nextKind (by simp) opens
      rcases reading : reader.read group with ⟨_ | content, reports, rest⟩
      all_goals have run := (keeps group _ _).mpr ⟨reading.symm, rfl⟩
      · rw [readHeader_of_none reading]
        exact .failed run
      by_cases closes : nextKind rest = .rightParen
      · obtain ⟨closeSpan, rest, rfl⟩ := exists_of_nextKind (by simp) closes
        rw [readHeader_of_closed reading]
        exact .closed run
      · rw [readHeader_of_stray reading closes]
        exact .stray run closes
    · rw [readHeader_of_ne directive reader opens]
      exact .bare opens

theorem outputCallRun_iff {limit : Nat} {name : String} {nameSpan : Span} {depth : Nat}
    {tokens : List Token} {outcome : Reading (List Node)} {after : Nat} :
    OutputCallRun limit name nameSpan depth tokens outcome after ↔
      outcome = readOutputCall limit (argumentReader? limit (limit - depth)) name nameSpan
        tokens ∧ after = depth := by
  have keeps := callRun_keepsTo limit depth name nameSpan
  constructor
  · rintro (⟨run⟩ | ⟨run⟩)
    all_goals
      obtain ⟨reading, rfl⟩ := (keeps tokens _ after).mp run
      simp only [readOutputCall, ← reading, and_self]
  · rintro ⟨rfl, rfl⟩
    unfold readOutputCall
    rcases reading : readCall limit (argumentReader? limit (limit - after)) name nameSpan tokens
      with ⟨_ | call, reports, rest⟩
    · exact .recovered ((keeps tokens _ _).mpr ⟨reading.symm, rfl⟩)
    · exact .output ((keeps tokens _ _).mpr ⟨reading.symm, rfl⟩)

end Stencil
