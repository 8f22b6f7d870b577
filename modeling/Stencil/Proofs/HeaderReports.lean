import Stencil.Proofs.Faithful
import Stencil.Proofs.Pieces
import Stencil.Proofs.ReadBack

/-!
# What is reported about headers

A header that is read is read without a report.  Of one that is not read, some token is
reported, or the directive that lacks it; and what is consumed ends with the header.
-/

namespace Stencil

variable {α β : Type}

/-- One of the reports concerns a token of the innermost open group, or the parenthesis
that closes it. -/
def BlamesGroup (tokens : List Token) (reports : List Report) : Prop :=
  ∃ report ∈ reports, ∃ before token after, tokens = before ++ token :: after ∧
    report.span = token.span ∧ groupCloses 0 before = false

/-- A reader reports nothing about what it reads, and wherever a group is open it blames a
token of the group when it reads nothing. -/
structure TokenReader.BlamesGroups (reader : TokenReader (Option α)) : Prop where
  silent : ∀ tokens value, (reader.read tokens).value = some value →
    (reader.read tokens).reports = []
  blames : ∀ tokens, WellLexed tokens → groupCloses 0 tokens →
    (reader.read tokens).value = none → BlamesGroup tokens (reader.read tokens).reports

theorem blamesGroup_next {tokens : List Token} (closes : groupCloses 0 tokens)
    (expected : List String) : BlamesGroup tokens (unexpectedNext expected tokens) := by
  cases tokens with
  | nil => cases closes
  | cons token rest =>
      have proper : token.kind ≠ .endOfInput := nextKind_ne_of_groupCloses closes
      exact ⟨⟨.unexpected token.kind.description expected, token.span⟩,
        by simp [unexpectedNext, proper], [], token, rest, rfl, rfl, rfl⟩

/-- What is blamed after tokens that open and close nothing is blamed after them. -/
theorem BlamesGroup.after {tokens : List Token} {reports : List Report}
    (blames : BlamesGroup tokens reports) (own : List Token)
    (neutral : ∀ tail, groupCloses 0 (own ++ tail) = groupCloses 0 tail) :
    BlamesGroup (own ++ tokens) reports := by
  obtain ⟨report, member, before, token, after, rfl, same, opened⟩ := blames
  exact ⟨report, member, own ++ before, token, after, by simp, same,
    by rw [neutral, opened]⟩

namespace TokenReader.BlamesGroups

theorem next {accept : TokenKind → Option α} (expected : List String) :
    (TokenReader.next accept expected).BlamesGroups where
  silent tokens value given := by
    cases tokens with
    | nil => cases given
    | cons token rest =>
        simp only [TokenReader.next] at given ⊢
        cases accepted : accept token.kind with
        | none => simp [accepted, Reading.failed] at given
        | some value => rfl
  blames tokens lexed closes missing := by
    cases tokens with
    | nil => cases closes
    | cons token rest =>
        simp only [TokenReader.next] at missing ⊢
        cases accepted : accept token.kind with
        | none => exact blamesGroup_next closes expected
        | some value => simp [accepted] at missing

theorem map {reader : TokenReader (Option α)} (blames : reader.BlamesGroups)
    (change : α → β) : (reader.map change).BlamesGroups where
  silent tokens value given := by
    obtain ⟨own, found, -⟩ := Option.map_eq_some_iff.mp given
    exact blames.silent tokens own found
  blames tokens lexed closes missing :=
    blames.blames tokens lexed closes (Option.map_eq_none_iff.mp missing)

theorem andThen {first : TokenReader (Option α)} {second : α → TokenReader (Option β)}
    {spells : α → List Token → Prop} (firstBlames : first.BlamesGroups)
    (faithful : first.FaithfulInGroups spells) (neutral : Neutral spells)
    (secondBlames : ∀ value, (second value).BlamesGroups) :
    (first.andThen second).BlamesGroups where
  silent tokens value given := by
    have silent := firstBlames.silent tokens
    simp only [TokenReader.andThen] at given ⊢
    generalize first.read tokens = reading at *
    rcases reading with ⟨_ | found, reports, rest⟩
    · cases given
    · simp only [Reading.precededBy] at given ⊢
      obtain rfl : reports = [] := silent found rfl
      exact (secondBlames found).silent rest value given
  blames tokens lexed closes missing := by
    have silent := firstBlames.silent tokens
    have blames := firstBlames.blames tokens lexed closes
    have reads := faithful tokens lexed closes
    simp only [TokenReader.andThen] at missing ⊢
    generalize first.read tokens = reading at *
    rcases reading with ⟨_ | found, reports, rest⟩
    · exact blames rfl
    · obtain rfl : reports = [] := silent found rfl
      obtain ⟨own, rfl, _, ⟨⟩, spelled⟩ := reads rfl
      rw [neutral found own spelled] at closes
      exact ((secondBlames found).blames rest lexed.of_append closes missing).after own
        (neutral found own spelled)

theorem ifNext {kind : TokenKind} {present absent : TokenReader (Option α)}
    (inner : kind.isInner) (presentBlames : present.BlamesGroups)
    (absentBlames : absent.BlamesGroups) :
    (TokenReader.ifNext kind present absent).BlamesGroups where
  silent tokens value given := by
    cases tokens with
    | nil => exact absentBlames.silent [] value given
    | cons token rest =>
        simp only [TokenReader.ifNext] at given ⊢
        by_cases same : token.kind = kind
        · simp only [same, if_true] at given ⊢
          exact presentBlames.silent rest value given
        · simp only [same, if_false] at given ⊢
          exact absentBlames.silent _ value given
  blames tokens lexed closes missing := by
    cases tokens with
    | nil => cases closes
    | cons token rest =>
        simp only [TokenReader.ifNext] at missing ⊢
        by_cases same : token.kind = kind
        · have isInner : token.kind.isInner := same ▸ inner
          simp only [same, if_true] at missing ⊢
          rw [groupCloses_of_isInner isInner] at closes
          exact (presentBlames.blames rest lexed.of_cons closes missing).after [token]
            fun tail => groupCloses_of_isInner isInner 0 tail
        · simp only [same, if_false] at missing ⊢
          exact absentBlames.blames _ lexed closes missing

end TokenReader.BlamesGroups

section Insides

variable {expression : TokenReader (Option Expression)} (blames : expression.BlamesGroups)

theorem nameReader_blames (expected : String) : (nameReader expected).BlamesGroups :=
  .next [expected]

include blames

theorem iterableReader_blames (expected : List String) :
    (iterableReader expression expected).BlamesGroups := by
  refine .andThen (.next expected) (.exactly expected) (neutral_of_single ?_) fun _ => blames
  rintro _ _ ⟨span, rfl⟩
  exact ⟨_, rfl, rfl⟩

theorem loopHeaderReader_blames : (loopHeaderReader expression).BlamesGroups :=
  .andThen (nameReader_blames _) (nameReader_faithful _) name_neutral fun _ =>
    .ifNext rfl
      (.andThen (nameReader_blames _) (nameReader_faithful _) name_neutral fun _ =>
        .map (iterableReader_blames blames _) _)
      (.map (iterableReader_blames blames _) _)

theorem bindingHeaderReader_blames : (bindingHeaderReader expression).BlamesGroups := by
  refine .andThen (nameReader_blames _) (nameReader_faithful _) name_neutral fun _ =>
    .andThen (.next _) (.exactly _) (neutral_of_single ?_) fun _ => .map blames _
  rintro _ _ ⟨span, rfl⟩
  exact ⟨_, rfl, rfl⟩

end Insides

section Arguments

variable {argument : TokenReader (Option Expression)} (argumentBlames : argument.BlamesGroups)

include argumentBlames

theorem readArguments_silent (tokens : List Token) {list : ArgumentList}
    (given : (readArguments argument tokens).value = some list) :
    (readArguments argument tokens).reports = [] := by
  induction shorter : tokens.length using Nat.strongRecOn generalizing tokens list with
  | ind length ih =>
  subst shorter
  have shrinks := argument.shrinks tokens
  have silent := argumentBlames.silent tokens
  rw [readArguments_eq] at given ⊢
  generalize argument.read tokens = reading at *
  rcases reading with ⟨_ | expression, reports, rest⟩
  · cases given
  obtain rfl : reports = [] := silent expression rfl
  rcases rest with _ | ⟨next, rest⟩
  · cases given
  by_cases separated : next.kind = .comma
  · simp only [separated, if_true] at given ⊢
    obtain ⟨others, found, -⟩ := Option.map_eq_some_iff.mp given
    have fewer : rest.length < tokens.length := by
      simp only [List.length_cons] at shrinks
      omega
    exact ih _ fewer rest found rfl
  · by_cases isCloser : next.kind = .rightParen
    · simp [isCloser]
    · simp [separated, isCloser, Reading.failed] at given

variable (argumentFaithful : argument.FaithfulInGroups Expression.SpelledBy)

include argumentFaithful

theorem readArguments_blames (tokens : List Token) (lexed : WellLexed tokens)
    (closes : groupCloses 0 tokens) (missing : (readArguments argument tokens).value = none) :
    BlamesGroup tokens (readArguments argument tokens).reports := by
  induction shorter : tokens.length using Nat.strongRecOn generalizing tokens with
  | ind length ih =>
  subst shorter
  have shrinks := argument.shrinks tokens
  have silent := argumentBlames.silent tokens
  have blames := argumentBlames.blames tokens lexed closes
  have reads := argumentFaithful tokens lexed closes
  rw [readArguments_eq] at missing ⊢
  generalize argument.read tokens = reading at *
  rcases reading with ⟨_ | expression, reports, rest⟩
  · exact blames rfl
  obtain rfl : reports = [] := silent expression rfl
  obtain ⟨own, rfl, _, ⟨⟩, spelled⟩ := reads rfl
  have neutral := spelled.groupCloses 0
  rw [neutral] at closes
  rcases rest with _ | ⟨next, rest⟩
  · cases closes
  by_cases separated : next.kind = .comma
  · have inner : next.kind.isInner := by rw [separated]; rfl
    simp only [separated, if_true] at missing ⊢
    rw [groupCloses_of_isInner inner] at closes
    have fewer : rest.length < (own ++ next :: rest).length := by
      simp only [List.length_cons] at shrinks
      omega
    have further := ih _ fewer rest lexed.of_append.of_cons closes
      (Option.map_eq_none_iff.mp missing) rfl
    exact (further.after [next] fun tail => groupCloses_of_isInner inner 0 tail).after own neutral
  · by_cases isCloser : next.kind = .rightParen
    · simp [isCloser] at missing
    · simp only [separated, isCloser, if_false]
      exact (blamesGroup_next closes _).after own neutral

theorem readArgumentList_blames (tokens : List Token) (lexed : WellLexed tokens)
    (closes : groupCloses 0 tokens)
    (missing : (readArgumentList argument tokens).value = none) :
    BlamesGroup tokens (readArgumentList argument tokens).reports := by
  by_cases empty : nextKind tokens = .rightParen
  · obtain ⟨span, rest, rfl⟩ := exists_of_nextKind (by simp) empty
    cases missing
  · rw [readArgumentList_of_ne empty] at missing ⊢
    exact readArguments_blames argumentBlames argumentFaithful tokens lexed closes missing

end Arguments

theorem readArgumentList_silent {argument : TokenReader (Option Expression)}
    (argumentBlames : argument.BlamesGroups) (tokens : List Token) {list : ArgumentList}
    (given : (readArgumentList argument tokens).value = some list) :
    (readArgumentList argument tokens).reports = [] := by
  by_cases empty : nextKind tokens = .rightParen
  · obtain ⟨span, rest, rfl⟩ := exists_of_nextKind (by simp) empty
    rfl
  · rw [readArgumentList_of_ne empty] at given ⊢
    exact readArguments_silent argumentBlames tokens given

section Levels

variable {limit : Nat} {argument? : Option (TokenReader (Option Expression))}
  (blames : ∀ argument, argument? = some argument → argument.BlamesGroups)

include blames

theorem readCall_silent (name : String) (nameSpan : Span) (tokens : List Token)
    {call : Expression}
    (given : (readCall limit argument? name nameSpan tokens).value = some call) :
    (readCall limit argument? name nameSpan tokens).reports = [] := by
  unfold readCall at given ⊢
  split at given
  · cases argument? with
    | none => cases given
    | some argument =>
        obtain ⟨list, found, -⟩ := Option.map_eq_some_iff.mp given
        exact readArgumentList_silent (blames argument rfl) _ found
  · cases given

variable (faithful : ∀ argument, argument? = some argument →
  argument.FaithfulInGroups Expression.SpelledBy)

include faithful

theorem readCall_blames (name : String) (nameSpan : Span) {tokens : List Token}
    (lexed : WellLexed tokens)
    (missing : (readCall limit argument? name nameSpan tokens).value = none) :
    BlamesGroup (⟨.macroName name, nameSpan⟩ :: tokens)
      (readCall limit argument? name nameSpan tokens).reports := by
  have ownName {fault : Fault} {rest : List Token} :
      BlamesGroup (⟨.macroName name, nameSpan⟩ :: tokens)
        (Reading.failed [⟨fault, nameSpan⟩] rest : Reading (Option Expression)).reports :=
    ⟨⟨fault, nameSpan⟩, List.mem_singleton_self _, [], _, tokens, rfl, rfl, rfl⟩
  by_cases opens : nextKind tokens = .leftParen
  · obtain ⟨openSpan, group, rfl⟩ := exists_of_nextKind (by simp) opens
    have closes := lexed.groups [] openSpan group rfl
    cases argument? with
    | none => exact ownName
    | some argument =>
        obtain ⟨report, member, before, token, after, rfl, same, opened⟩ :=
          readArgumentList_blames (blames argument rfl) (faithful argument rfl) group
            lexed.of_cons closes (Option.map_eq_none_iff.mp missing)
        refine ⟨report, member, ⟨.macroName name, nameSpan⟩ :: ⟨.leftParen, openSpan⟩ :: before,
          token, after, rfl, same, ?_⟩
        -- One more open group is even further from being closed.
        have deeper : groupCloses 1 before = false :=
          Bool.eq_false_iff.mpr fun closed =>
            Bool.eq_false_iff.mp opened (groupCloses_of_le (Nat.zero_le 1) closed)
        exact deeper
  · have noGroup : readCall limit argument? name nameSpan tokens =
        .failed [⟨.missingArguments name, nameSpan⟩] tokens := by
      rcases tokens with _ | ⟨⟨kind, span⟩, rest⟩
      · rfl
      · cases kind <;> first | rfl | exact absurd rfl opens
    rw [noGroup]
    exact ownName

theorem readExpression_blames {tokens : List Token} (lexed : WellLexed tokens)
    (closes : groupCloses 0 tokens)
    (missing : (readExpression limit argument? tokens).value = none) :
    BlamesGroup tokens (readExpression limit argument? tokens).reports := by
  rcases tokens with _ | ⟨⟨kind, span⟩, rest⟩
  · cases closes
  cases kind with
  | dollar =>
      obtain ⟨name, next⟩ := lexed.sigils [] span rest rfl
      obtain ⟨nameSpan, steps, rfl⟩ := exists_of_nextKind (by simp) next
      cases missing
  | macroName name => exact readCall_blames blames faithful name span lexed.of_cons missing
  | string | integer | float | boolean | null => cases missing
  | _ => exact blamesGroup_next closes ["a variable", "a macro call", "a literal"]

end Levels

theorem readPath_silent (start : Nat) (tokens : List Token) {path : Expression}
    (given : (readPath start tokens).value = some path) : (readPath start tokens).reports = [] := by
  unfold readPath at given ⊢
  split at given
  · rfl
  · cases given

theorem readExpression_silent {limit : Nat}
    {argument? : Option (TokenReader (Option Expression))}
    (blames : ∀ argument, argument? = some argument → argument.BlamesGroups)
    (tokens : List Token) {expression : Expression}
    (given : (readExpression limit argument? tokens).value = some expression) :
    (readExpression limit argument? tokens).reports = [] := by
  rcases tokens with _ | ⟨⟨kind, span⟩, rest⟩
  · cases given
  cases kind with
  | dollar => exact readPath_silent span.start rest given
  | macroName name => exact readCall_silent blames name span rest given
  | string | integer | float | boolean | null => rfl
  | _ => cases given

theorem expressionReader_blames (limit levels : Nat) :
    (expressionReader limit levels).BlamesGroups := by
  induction levels with
  | zero =>
      exact ⟨fun tokens _ given => readExpression_silent (by simp) tokens given,
        fun _ lexed closes missing => readExpression_blames (by simp) (by simp) lexed closes
          missing⟩
  | succ levels ih =>
      have below : ∀ argument, some (expressionReader limit levels) = some argument →
          argument.BlamesGroups := by
        rintro _ ⟨⟩
        exact ih
      have reads : ∀ argument, some (expressionReader limit levels) = some argument →
          argument.FaithfulInGroups Expression.SpelledBy := by
        rintro _ ⟨⟩
        exact expressionReader_faithful limit levels
      exact ⟨fun tokens _ given => readExpression_silent below tokens given,
        fun _ lexed closes missing => readExpression_blames below reads lexed closes missing⟩

/-- Everything that spells a value is an item. -/
def SpelledByItems (spells : α → List Token → Prop) : Prop :=
  ∀ value tokens, spells value tokens → Items tokens

theorem expression_items : SpelledByItems Expression.SpelledBy := by
  intro expression tokens spelled token member
  have inKinds : token.kind ∈ tokens.map Token.kind := List.mem_map_of_mem member
  rw [spelled.kinds] at inKinds
  exact expression.kinds_isItem _ inKinds

theorem loopHeader_items : SpelledByItems LoopHeader.SpelledBy := by
  rintro ⟨key, item, iterable⟩ _ ⟨names, wordSpan, inside, rfl, named, spelled⟩
  have inner : Items (⟨.name loopWord, wordSpan⟩ :: inside) :=
    (expression_items iterable inside spelled).cons rfl
  cases key with
  | none =>
      obtain ⟨span, rfl, -⟩ := named
      exact inner.cons rfl
  | some key =>
      obtain ⟨keySpan, commaSpan, span, rfl, -⟩ := named
      exact ((inner.cons rfl).cons rfl).cons rfl

theorem bindingHeader_items : SpelledByItems BindingHeader.SpelledBy := by
  rintro header _ ⟨nameSpan, assignSpan, inside, rfl, -, spelled⟩
  exact ((expression_items header.value inside spelled).cons rfl).cons rfl

/-- What a directive consumes for its header are items.  If the header is not read, they
are all of its group, and something is reported at one of them or at the directive. -/
structure HeaderConsumed {γ : Type} (directive : Token) (tokens : List Token)
    (reading : Reading (Option γ)) (header : List Token) : Prop where
  split : tokens = header ++ reading.rest
  items : Items header
  group : reading.value = none → HeaderGroup header
  reported : reading.value = none →
    ∃ report ∈ reading.reports, ∃ token ∈ directive :: header, report.span = token.span

/-- What is blamed in a group stands before its end. -/
theorem BlamesGroup.mem {group own rest : List Token} {closer : Token} {reports : List Report}
    (blames : BlamesGroup group reports) (split : group = own ++ closer :: rest)
    (closed : groupCloses 0 (own ++ [closer])) :
    ∃ report ∈ reports, ∃ token ∈ own ++ [closer], report.span = token.span := by
  obtain ⟨report, member, before, token, after, groupSplit, same, opened⟩ := blames
  have both : before ++ token :: after = own ++ [closer] ++ rest := by
    rw [← groupSplit, split]
    simp
  refine ⟨report, member, token, ?_, same⟩
  rcases List.append_eq_append_iff.mp both with ⟨middle, isOwn, further⟩ | ⟨middle, isBefore, -⟩
  · cases middle with
    | nil =>
        rw [List.append_nil] at isOwn
        rw [← isOwn, closed] at opened
        cases opened
    | cons first middle =>
        obtain ⟨rfl, -⟩ := List.cons.inj further
        rw [isOwn]
        simp
  · rw [isBefore, groupCloses_append closed] at opened
    cases opened

/-- A header that is not read is consumed up to the end of its group. -/
theorem headerConsumed_failed {γ : Type} (directive : Token) {openSpan : Span}
    {group : List Token} {reports : List Report} (closes : ClosesWithItems group)
    (blames : BlamesGroup group reports) :
    ∃ header, HeaderConsumed directive (⟨.leftParen, openSpan⟩ :: group)
      (.failed reports (closeGroup 0 group) : Reading (Option γ)) header := by
  obtain ⟨own, closeSpan, split, items, opened, closed⟩ := closes
  refine ⟨⟨.leftParen, openSpan⟩ :: (own ++ [⟨.rightParen, closeSpan⟩]), ?_, ?_, ?_, ?_⟩
  · simpa [Reading.failed] using split
  · exact Items.cons rfl (List.forall_mem_append.mpr ⟨items, Items.nil.cons rfl⟩)
  · exact fun _ => .inr ⟨openSpan, own, closeSpan, rfl, opened, closed⟩
  · intro _
    obtain ⟨report, member, token, inGroup, same⟩ := blames.mem split closed
    exact ⟨report, member, token,
      List.mem_cons_of_mem _ (List.mem_cons_of_mem _ inGroup), same⟩

theorem readHeader_consumed {inside : TokenReader (Option α)}
    {spells : α → List Token → Prop} (blames : inside.BlamesGroups)
    (faithful : inside.FaithfulInGroups spells) (neutral : Neutral spells)
    (areItems : SpelledByItems spells) (directive : Token) {tokens : List Token}
    (grouped : WellGrouped tokens) :
    ∃ header, HeaderConsumed directive tokens (readHeader directive inside tokens) header := by
  obtain ⟨lexed, groups⟩ := grouped
  by_cases opens : nextKind tokens = .leftParen
  · obtain ⟨openSpan, group, rfl⟩ := exists_of_nextKind (by simp) opens
    have closes := lexed.groups [] openSpan group rfl
    have isGroup := groups [] openSpan group rfl
    have silent := blames.silent group
    have blamed := blames.blames group lexed.of_cons closes
    have reads := faithful group lexed.of_cons closes
    rw [readHeader_of_group]
    generalize inside.read group = reading at *
    rcases reading with ⟨_ | content, reports, rest⟩
    · exact headerConsumed_failed directive isGroup (blamed rfl)
    · obtain rfl : reports = [] := silent content rfl
      obtain ⟨own, rfl, _, ⟨⟩, spelled⟩ := reads rfl
      rw [neutral content own spelled] at closes
      rcases rest with _ | ⟨⟨kind, span⟩, rest⟩
      · cases closes
      by_cases isCloser : kind = .rightParen
      · subst isCloser
        simp only [if_true]
        refine ⟨⟨.leftParen, openSpan⟩ :: (own ++ [⟨.rightParen, span⟩]), by simp, ?_,
          nofun, nofun⟩
        exact Items.cons rfl (List.forall_mem_append.mpr
          ⟨areItems content own spelled, Items.nil.cons rfl⟩)
      · simp only [isCloser, if_false]
        exact headerConsumed_failed directive isGroup
          ((blamesGroup_next closes _).after own (neutral content own spelled))
  · rw [readHeader_of_ne directive inside opens]
    exact ⟨[], rfl, .nil, fun _ => .inl rfl,
      fun _ => ⟨_, List.mem_singleton_self _, directive, List.mem_cons_self, rfl⟩⟩

end Stencil
