import Stencil.Proofs.Groups
import Stencil.Proofs.ReadingSteps

/-!
# Faithful readings

A reading without a report consumes exactly the tokens that spell what it gives.
Since a reader that gives nothing cannot be faithful in this sense, it makes a
report.  Inside parentheses this rests on the group being closed later on, since
readers do not report that the input has ended.
-/

namespace Stencil

variable {α β : Type}

/-- If nothing is reported, the tokens that are consumed spell what is given. -/
def Reading.Faithful (spells : α → List Token → Prop) (tokens : List Token)
    (reading : Reading α) : Prop :=
  reading.reports = [] → ∃ consumed,
    tokens = consumed ++ reading.rest ∧ spells reading.value consumed

def SpellsGiven (spells : α → List Token → Prop) (value? : Option α)
    (tokens : List Token) : Prop :=
  ∃ value, value? = some value ∧ spells value tokens

/-- Tokens that spell something neither open nor close a group. -/
def Neutral (spells : α → List Token → Prop) : Prop :=
  ∀ value tokens, spells value tokens → ∀ rest,
    groupCloses 0 (tokens ++ rest) = groupCloses 0 rest

/-- A reader is faithful wherever a group is open. -/
def TokenReader.FaithfulInGroups (spells : α → List Token → Prop)
    (reader : TokenReader (Option α)) : Prop :=
  ∀ tokens, WellLexed tokens → groupCloses 0 tokens →
    (reader.read tokens).Faithful (SpellsGiven spells) tokens

namespace Reading.Faithful

theorem of_reports {spells : α → List Token → Prop} {tokens : List Token}
    {reading : Reading α} (reported : reading.reports ≠ []) :
    reading.Faithful spells tokens :=
  fun clean => absurd clean reported

theorem map {spells : α → List Token → Prop} {changed : β → List Token → Prop}
    {tokens : List Token} {reading : Reading α} {change : α → β}
    (faithful : reading.Faithful spells tokens)
    (keeps : ∀ value consumed, spells value consumed →
      changed (change value) consumed) :
    (reading.map change).Faithful changed tokens := by
  intro clean
  obtain ⟨consumed, split, spelled⟩ := faithful clean
  exact ⟨consumed, split, keeps _ _ spelled⟩

/-- A reader that gives nothing makes a report. -/
theorem reports_ne_nil {spells : α → List Token → Prop} {tokens : List Token}
    {reading : Reading (Option α)}
    (faithful : reading.Faithful (SpellsGiven spells) tokens)
    (nothing : reading.value = none) : reading.reports ≠ [] := by
  intro clean
  obtain ⟨consumed, -, value, given, -⟩ := faithful clean
  simp [nothing] at given

end Reading.Faithful

namespace TokenReader.FaithfulInGroups

theorem mono {spells weaker : α → List Token → Prop}
    {reader : TokenReader (Option α)} (faithful : reader.FaithfulInGroups spells)
    (implies : ∀ value tokens, spells value tokens → weaker value tokens) :
    reader.FaithfulInGroups weaker := by
  intro tokens lexed closes clean
  obtain ⟨consumed, split, value, given, spelled⟩ := faithful tokens lexed closes clean
  exact ⟨consumed, split, value, given, implies value consumed spelled⟩

theorem next {accept : TokenKind → Option α} (expected : List String) :
    (TokenReader.next accept expected).FaithfulInGroups fun value tokens =>
      ∃ kind span, tokens = [⟨kind, span⟩] ∧ accept kind = some value := by
  intro tokens lexed closes
  cases tokens with
  | nil => exact absurd rfl (nextKind_ne_of_groupCloses closes)
  | cons token rest =>
      simp only [TokenReader.next]
      cases accepted : accept token.kind with
      | none =>
          exact .of_reports
            (unexpectedNext_ne_nil (nextKind_ne_of_groupCloses closes) expected)
      | some value =>
          exact fun _ => ⟨[token], rfl, value, rfl, token.kind, token.span, rfl,
            accepted⟩

theorem andThen {first : TokenReader (Option α)}
    {second : α → TokenReader (Option β)} {spells : α → List Token → Prop}
    {spellsNext : α → β → List Token → Prop}
    (firstFaithful : first.FaithfulInGroups spells) (neutral : Neutral spells)
    (secondFaithful : ∀ value, (second value).FaithfulInGroups (spellsNext value)) :
    (first.andThen second).FaithfulInGroups fun result tokens =>
      ∃ value own others, tokens = own ++ others ∧ spells value own ∧
        spellsNext value result others := by
  intro tokens lexed closes
  have faithful := firstFaithful tokens lexed closes
  simp only [TokenReader.andThen]
  generalize first.read tokens = reading at faithful
  rcases reading with ⟨_ | value, reports, rest⟩
  · exact .of_reports (faithful.reports_ne_nil rfl)
  · intro clean
    obtain ⟨firstClean, secondClean⟩ := List.append_eq_nil_iff.mp clean
    obtain ⟨own, rfl, _, ⟨⟩, spelled⟩ := faithful firstClean
    rw [neutral value own spelled] at closes
    obtain ⟨others, split, result, given, spelledNext⟩ :=
      secondFaithful value rest lexed.of_append closes secondClean
    refine ⟨own ++ others, ?_, result, given, value, own, others, rfl, spelled,
      spelledNext⟩
    simpa only [List.append_assoc, Reading.precededBy] using
      congrArg (own ++ ·) split

theorem map {reader : TokenReader (Option α)} {spells : α → List Token → Prop}
    (faithful : reader.FaithfulInGroups spells) (change : α → β) :
    (reader.map change).FaithfulInGroups fun result tokens =>
      ∃ value, result = change value ∧ spells value tokens := by
  intro tokens lexed closes
  apply (faithful tokens lexed closes).map
  rintro _ consumed ⟨value, rfl, spelled⟩
  exact ⟨change value, rfl, value, rfl, spelled⟩

theorem ifNext {kind : TokenKind} {present absent : TokenReader (Option α)}
    {presentSpells absentSpells : α → List Token → Prop} (inner : kind.isInner)
    (presentFaithful : present.FaithfulInGroups presentSpells)
    (absentFaithful : absent.FaithfulInGroups absentSpells) :
    (TokenReader.ifNext kind present absent).FaithfulInGroups fun value tokens =>
      (∃ span own, tokens = ⟨kind, span⟩ :: own ∧ presentSpells value own) ∨
        absentSpells value tokens := by
  intro tokens lexed closes
  rcases tokens with _ | ⟨⟨found, span⟩, rest⟩
  · exact absurd rfl (nextKind_ne_of_groupCloses closes)
  simp only [TokenReader.ifNext]
  by_cases same : found = kind
  · subst same
    rw [groupCloses_of_isInner inner] at closes
    simp only [if_true]
    intro clean
    obtain ⟨consumed, split, value, given, spelled⟩ :=
      presentFaithful rest lexed.of_cons closes clean
    exact ⟨⟨found, span⟩ :: consumed, congrArg (⟨found, span⟩ :: ·) split, value, given,
      .inl ⟨span, consumed, rfl, spelled⟩⟩
  · simp only [same, if_false]
    intro clean
    obtain ⟨consumed, split, value, given, spelled⟩ :=
      absentFaithful _ lexed closes clean
    exact ⟨consumed, split, value, given, .inr spelled⟩

theorem exactly {kind : TokenKind} (expected : List String) :
    (TokenReader.exactly kind expected).FaithfulInGroups fun _ tokens =>
      ∃ span, tokens = [⟨kind, span⟩] := by
  apply (next expected).mono
  rintro _ _ ⟨found, span, rfl, accepted⟩
  by_cases same : found = kind
  · exact ⟨span, by rw [same]⟩
  · simp [same] at accepted

end TokenReader.FaithfulInGroups

def LoopHeader.SpelledBy (header : LoopHeader) (tokens : List Token) : Prop :=
  ∃ names wordSpan expression,
    tokens = names ++ ⟨.name loopWord, wordSpan⟩ :: expression ∧
      LoopNamesSpelledBy header.key header.item names ∧
        header.iterable.SpelledBy expression

def BindingHeader.SpelledBy (header : BindingHeader) (tokens : List Token) : Prop :=
  ∃ nameSpan assignSpan expression,
    tokens = ⟨.name header.name, nameSpan⟩ :: ⟨.assign, assignSpan⟩ :: expression ∧
      header.name ≠ loopWord ∧ header.value.SpelledBy expression

section Insides

variable {expression : TokenReader (Option Expression)}
  (faithful : expression.FaithfulInGroups Expression.SpelledBy)

theorem neutral_of_single {spells : α → List Token → Prop}
    (single : ∀ value tokens, spells value tokens →
      ∃ token, tokens = [token] ∧ token.kind.isInner) : Neutral spells := by
  intro value tokens spelled rest
  obtain ⟨token, rfl, inner⟩ := single value tokens spelled
  exact groupCloses_of_isInner inner 0 rest

theorem nameReader_faithful (expected : String) :
    (nameReader expected).FaithfulInGroups fun name tokens =>
      ∃ span, tokens = [⟨.name name, span⟩] ∧ name ≠ loopWord := by
  apply (TokenReader.FaithfulInGroups.next [expected]).mono
  rintro name _ ⟨kind, span, rfl, accepted⟩
  cases kind with
  | name spelling =>
      by_cases isWord : spelling = loopWord
      · simp [isWord] at accepted
      · obtain rfl : spelling = name := by simpa [isWord] using accepted
        exact ⟨span, rfl, isWord⟩
  | _ => simp at accepted

theorem name_neutral : Neutral fun (name : String) tokens =>
    ∃ span, tokens = [⟨.name name, span⟩] ∧ name ≠ loopWord := by
  apply neutral_of_single
  rintro name _ ⟨span, rfl, -⟩
  exact ⟨_, rfl, rfl⟩

include faithful

theorem iterableReader_faithful (expected : List String) :
    (iterableReader expression expected).FaithfulInGroups fun iterable tokens =>
      ∃ span inside, tokens = ⟨.name loopWord, span⟩ :: inside ∧
        iterable.SpelledBy inside := by
  refine (TokenReader.FaithfulInGroups.andThen (.exactly expected)
    (neutral_of_single ?_) fun _ => faithful).mono ?_
  · rintro _ _ ⟨span, rfl⟩
    exact ⟨_, rfl, rfl⟩
  · rintro iterable _ ⟨_, _, inside, rfl, ⟨span, rfl⟩, spelled⟩
    exact ⟨span, inside, rfl, spelled⟩

theorem loopHeaderReader_faithful :
    (loopHeaderReader expression).FaithfulInGroups LoopHeader.SpelledBy := by
  refine (TokenReader.FaithfulInGroups.andThen (nameReader_faithful _) name_neutral
    fun first => .ifNext rfl
      (.andThen (nameReader_faithful _) name_neutral fun second =>
        .map (iterableReader_faithful faithful _) _)
      (.map (iterableReader_faithful faithful _) _)).mono ?_
  rintro header _ ⟨first, _, _, rfl, ⟨span, rfl, proper⟩, twoNames | oneName⟩
  · obtain ⟨commaSpan, _, rfl, second, _, _, rfl, ⟨secondSpan, rfl, secondProper⟩,
      iterable, rfl, wordSpan, inside, rfl, spelled⟩ := twoNames
    exact ⟨[⟨.name first, span⟩, ⟨.comma, commaSpan⟩, ⟨.name second, secondSpan⟩],
      wordSpan, inside, rfl, ⟨span, commaSpan, secondSpan, rfl, proper, secondProper⟩,
      spelled⟩
  · obtain ⟨iterable, rfl, wordSpan, inside, rfl, spelled⟩ := oneName
    exact ⟨[⟨.name first, span⟩], wordSpan, inside, rfl, ⟨span, rfl, proper⟩, spelled⟩

theorem bindingHeaderReader_faithful :
    (bindingHeaderReader expression).FaithfulInGroups BindingHeader.SpelledBy := by
  refine (TokenReader.FaithfulInGroups.andThen (nameReader_faithful _) name_neutral
    fun name => .andThen (.exactly _) (neutral_of_single ?_) fun _ =>
      .map faithful _).mono ?_
  · rintro _ _ ⟨span, rfl⟩
    exact ⟨_, rfl, rfl⟩
  · rintro _ _ ⟨name, _, _, rfl, ⟨nameSpan, rfl, proper⟩, _, _, inside, rfl,
      ⟨assignSpan, rfl⟩, value, rfl, spelled⟩
    exact ⟨nameSpan, assignSpan, inside, rfl, proper, spelled⟩

end Insides

theorem expression_neutral : Neutral Expression.SpelledBy :=
  fun _ _ spelled rest => spelled.groupCloses 0 rest

theorem loopHeader_neutral : Neutral LoopHeader.SpelledBy := by
  rintro ⟨key, item, iterable⟩ _ ⟨names, wordSpan, inside, rfl, named, spelled⟩ rest
  have inner : groupCloses 0 (⟨.name loopWord, wordSpan⟩ :: (inside ++ rest)) =
      groupCloses 0 rest := by
    rw [groupCloses_of_isInner rfl, spelled.groupCloses]
  cases key with
  | none =>
      obtain ⟨span, rfl, -⟩ := named
      simpa [groupCloses] using inner
  | some key =>
      obtain ⟨keySpan, commaSpan, span, rfl, -⟩ := named
      simpa [groupCloses] using inner

theorem bindingHeader_neutral : Neutral BindingHeader.SpelledBy := by
  rintro header _ ⟨nameSpan, assignSpan, inside, rfl, -, spelled⟩ rest
  simpa [groupCloses] using spelled.groupCloses 0 rest

def Header.SpelledBy (spells : α → List Token → Prop) (header : Header α)
    (tokens : List Token) : Prop :=
  ∃ openSpan inside closeSpan,
    tokens = ⟨.leftParen, openSpan⟩ :: (inside ++ [⟨.rightParen, closeSpan⟩]) ∧
      header.stop = closeSpan.stop ∧ spells header.content inside

theorem readHeader_faithful {inside : TokenReader (Option α)}
    {spells : α → List Token → Prop} (faithful : inside.FaithfulInGroups spells)
    (neutral : Neutral spells) (directive : Token) {tokens : List Token}
    (lexed : WellLexed tokens) :
    (readHeader directive inside tokens).Faithful (SpellsGiven (Header.SpelledBy spells))
      tokens := by
  by_cases opens : nextKind tokens = .leftParen
  · obtain ⟨openSpan, group, rfl⟩ := exists_of_nextKind (by simp) opens
    have closes := lexed.groups [] openSpan group rfl
    have groupFaithful := faithful group lexed.of_cons closes
    rw [readHeader_of_group]
    generalize inside.read group = reading at groupFaithful
    rcases reading with ⟨_ | content, reports, rest⟩
    · exact .of_reports (groupFaithful.reports_ne_nil rfl)
    · intro clean
      have insideClean : reports = [] := by
        rcases rest with _ | ⟨closer, rest⟩
        · exact clean
        · by_cases isCloser : closer.kind = .rightParen
          · simpa [isCloser] using clean
          · simp only [isCloser, if_false] at clean
            exact (List.append_eq_nil_iff.mp clean).1
      obtain ⟨own, rfl, _, ⟨⟩, spelled⟩ := groupFaithful insideClean
      rw [neutral content own spelled] at closes
      have proper := nextKind_ne_of_groupCloses closes
      rcases rest with _ | ⟨⟨kind, span⟩, rest⟩
      · exact absurd rfl proper
      · by_cases isCloser : kind = .rightParen
        · subst isCloser
          exact ⟨⟨.leftParen, openSpan⟩ :: (own ++ [⟨.rightParen, span⟩]), by simp,
            ⟨content, span.stop⟩, rfl, openSpan, own, span, rfl, rfl, spelled⟩
        · simp only [isCloser, if_false] at clean
          exact absurd (List.append_eq_nil_iff.mp clean).2
            (unexpectedNext_ne_nil proper _)
  · rw [readHeader_of_ne directive inside opens]
    exact .of_reports (by simp [Reading.failed])

theorem readPathTail_spelled (stop : Nat) (tokens : List Token) :
    ∃ steps, tokens = steps ++ (readPathTail stop tokens).rest ∧
      StepsSpelledBy stop (readPathTail stop tokens).stop
        (readPathTail stop tokens).segments steps := by
  fun_induction readPathTail stop tokens with
  | case1 dotSpan field span rest ih =>
      obtain ⟨steps, split, spelled⟩ := ih
      exact ⟨⟨.dot, dotSpan⟩ :: ⟨.name field, span⟩ :: steps,
        congrArg (⟨.dot, dotSpan⟩ :: ⟨.name field, span⟩ :: ·) split, dotSpan, span,
        steps, rfl, rfl, spelled⟩
  | case3 stop openSpan index indexSpan span rest adjacent ih =>
      obtain ⟨steps, split, spelled⟩ := ih
      exact ⟨⟨.leftBracket, openSpan⟩ :: ⟨.integer index, indexSpan⟩ ::
          ⟨.rightBracket, span⟩ :: steps,
        congrArg (⟨.leftBracket, openSpan⟩ :: ⟨.integer index, indexSpan⟩ ::
          ⟨.rightBracket, span⟩ :: ·) split,
        openSpan, index, indexSpan, span, steps, rfl, adjacent.1,
        (Int.toNat_of_nonneg adjacent.2).symm, spelled⟩
  | case2 | case4 | case5 => exact ⟨[], rfl, rfl, rfl⟩

theorem readPath_faithful (sigilSpan : Span) {tokens : List Token}
    (lexed : WellLexed (⟨.dollar, sigilSpan⟩ :: tokens)) :
    (readPath sigilSpan.start tokens).Faithful
      (SpellsGiven fun path consumed => path.standsInText ∧
        path.SpelledBy (⟨.dollar, sigilSpan⟩ :: consumed)) tokens := by
  obtain ⟨name, next⟩ := lexed.sigils [] sigilSpan tokens rfl
  obtain ⟨nameSpan, rest, rfl⟩ := exists_of_nextKind (by simp) next
  obtain ⟨steps, split, spelled⟩ := readPathTail_spelled nameSpan.stop rest
  intro _
  refine ⟨⟨.name name, nameSpan⟩ :: steps, congrArg (⟨.name name, nameSpan⟩ :: ·) split,
    _, rfl, rfl, sigilSpan, nameSpan, steps, rfl, rfl, spelled⟩

/-- Tokens spell the arguments of a call, with the parenthesis that closes them. -/
def ArgumentList.SpelledBy (list : ArgumentList) (tokens : List Token) : Prop :=
  ∃ inside closeSpan, tokens = inside ++ [⟨.rightParen, closeSpan⟩] ∧
    list.stop = closeSpan.stop ∧ ArgumentsSpelledBy list.arguments inside

theorem furtherArguments_of_arguments {arguments : List Expression}
    {tokens : List Token} (nonempty : arguments ≠ [])
    (spelled : ArgumentsSpelledBy arguments tokens) (commaSpan : Span) :
    FurtherArgumentsSpelledBy arguments (⟨.comma, commaSpan⟩ :: tokens) := by
  cases arguments with
  | nil => exact absurd rfl nonempty
  | cons argument arguments =>
      obtain ⟨own, others, rfl, first, further⟩ := spelled
      exact ⟨commaSpan, own, others, rfl, first, further⟩

section Arguments

variable {argument : TokenReader (Option Expression)}
  (faithful : argument.FaithfulInGroups Expression.SpelledBy)

include faithful

theorem readArguments_faithful (tokens : List Token) (lexed : WellLexed tokens)
    (closes : groupCloses 0 tokens) :
    (readArguments argument tokens).Faithful
      (SpellsGiven fun list consumed => list.arguments ≠ [] ∧ list.SpelledBy consumed)
      tokens := by
  induction shorter : tokens.length using Nat.strongRecOn generalizing tokens with
  | ind length ih =>
  subst shorter
  have shrinks := argument.shrinks tokens
  have first := faithful tokens lexed closes
  have passedOn := first_reports_subset_readArguments argument tokens
  intro clean
  rw [clean] at passedOn
  have firstClean := List.subset_nil.mp passedOn
  rw [readArguments_eq] at clean ⊢
  generalize argument.read tokens = reading at *
  rcases reading with ⟨_ | expression, reports, rest⟩
  · exact absurd firstClean (first.reports_ne_nil rfl)
  obtain rfl : reports = [] := firstClean
  obtain ⟨own, rfl, _, ⟨⟩, spelled⟩ := first rfl
  rw [spelled.groupCloses] at closes
  have proper := nextKind_ne_of_groupCloses closes
  rcases rest with _ | ⟨⟨kind, span⟩, rest⟩
  · exact absurd rfl proper
  by_cases separated : kind = .comma
  · subst separated
    simp only [if_true] at clean ⊢
    rw [groupCloses_of_isInner rfl] at closes
    have fewer : rest.length < (own ++ ⟨.comma, span⟩ :: rest).length := by
      simp only [List.length_cons] at shrinks
      omega
    obtain ⟨consumed, split, others, given, nonempty, inside, closeSpan, rfl, stop,
      othersSpelled⟩ := ih _ fewer rest lexed.of_append.of_cons closes rfl clean
    have further : FurtherArgumentsSpelledBy others.arguments
        (⟨.comma, span⟩ :: inside) :=
      furtherArguments_of_arguments nonempty othersSpelled span
    refine ⟨own ++ ⟨.comma, span⟩ :: (inside ++ [⟨.rightParen, closeSpan⟩]), ?_,
      others.prepend expression, ?_, by simp [ArgumentList.prepend],
      own ++ ⟨.comma, span⟩ :: inside, closeSpan, by simp, stop, own,
      ⟨.comma, span⟩ :: inside, rfl, spelled, further⟩
    · simpa [Reading.map, Reading.precededBy] using split
    · simp [Reading.map, Reading.precededBy, given]
  · by_cases isCloser : kind = .rightParen
    · subst isCloser
      exact ⟨own ++ [⟨.rightParen, span⟩], by simp, ⟨[expression], span.stop⟩, rfl,
        by simp, own, span, rfl, rfl, own, [], by simp, spelled, rfl⟩
    · simp only [separated, isCloser, if_false] at clean
      exact absurd clean (unexpectedNext_ne_nil proper _)

theorem readArgumentList_faithful (tokens : List Token) (lexed : WellLexed tokens)
    (closes : groupCloses 0 tokens) :
    (readArgumentList argument tokens).Faithful (SpellsGiven ArgumentList.SpelledBy)
      tokens := by
  have some : (readArguments argument tokens).Faithful (SpellsGiven ArgumentList.SpelledBy)
      tokens := by
    intro clean
    obtain ⟨consumed, split, list, given, -, spelled⟩ :=
      readArguments_faithful faithful tokens lexed closes clean
    exact ⟨consumed, split, list, given, spelled⟩
  rcases tokens with _ | ⟨⟨kind, span⟩, rest⟩
  · exact some
  · cases kind with
    | rightParen =>
        exact fun _ => ⟨[⟨.rightParen, span⟩], rfl, ⟨[], span.stop⟩, rfl, [], span, rfl,
          rfl, rfl⟩
    | _ => exact some

end Arguments

section Levels

variable {limit : Nat} {argument? : Option (TokenReader (Option Expression))}
  (faithful : ∀ argument, argument? = some argument →
    argument.FaithfulInGroups Expression.SpelledBy)

include faithful

theorem readCall_faithful (name : String) (nameSpan : Span) {tokens : List Token}
    (lexed : WellLexed tokens) :
    (readCall limit argument? name nameSpan tokens).Faithful
      (SpellsGiven fun call consumed => call.standsInText ∧
        call.SpelledBy (⟨.macroName name, nameSpan⟩ :: consumed)) tokens := by
  by_cases opens : nextKind tokens = .leftParen
  · obtain ⟨openSpan, group, rfl⟩ := exists_of_nextKind (by simp) opens
    have closes := lexed.groups [] openSpan group rfl
    simp only [readCall]
    cases argument? with
    | none => exact .of_reports (by simp [Reading.failed])
    | some argument =>
        intro clean
        obtain ⟨_, split, list, given, inside, closeSpan, rfl, stop, spelled⟩ :=
          readArgumentList_faithful (faithful argument rfl) group lexed.of_cons closes
            clean
        refine ⟨⟨.leftParen, openSpan⟩ :: (inside ++ [⟨.rightParen, closeSpan⟩]),
          congrArg (⟨.leftParen, openSpan⟩ :: ·) split,
          .call name list.arguments ⟨nameSpan.start, closeSpan.stop⟩, ?_, rfl, nameSpan,
          openSpan, inside, closeSpan, rfl, rfl, spelled⟩
        simp [Reading.map, given, stop]
  · apply Reading.Faithful.of_reports
    rcases tokens with _ | ⟨⟨kind, span⟩, rest⟩
    · simp [readCall, Reading.failed]
    · cases kind <;> first | exact absurd rfl opens | simp [readCall, Reading.failed]

theorem readExpression_faithful {tokens : List Token} (lexed : WellLexed tokens)
    (closes : groupCloses 0 tokens) :
    (readExpression limit argument? tokens).Faithful (SpellsGiven Expression.SpelledBy)
      tokens := by
  have proper := nextKind_ne_of_groupCloses closes
  rcases tokens with _ | ⟨⟨kind, span⟩, rest⟩
  · exact absurd rfl proper
  have literal : ∀ value : Literal, kind = value.kind →
      (⟨some (.literal value span), [], rest⟩ :
        Reading (Option Expression)).Faithful (SpellsGiven Expression.SpelledBy)
          (⟨kind, span⟩ :: rest) := by
    rintro value rfl _
    exact ⟨[⟨value.kind, span⟩], rfl, _, rfl, rfl⟩
  cases kind with
  | dollar =>
      intro clean
      obtain ⟨consumed, split, path, given, -, spelled⟩ :=
        readPath_faithful span lexed clean
      exact ⟨⟨.dollar, span⟩ :: consumed, congrArg (⟨.dollar, span⟩ :: ·) split, path,
        given, spelled⟩
  | macroName name =>
      intro clean
      obtain ⟨consumed, split, call, given, -, spelled⟩ :=
        readCall_faithful faithful name span lexed.of_cons clean
      exact ⟨⟨.macroName name, span⟩ :: consumed,
        congrArg (⟨.macroName name, span⟩ :: ·) split, call, given, spelled⟩
  | string content => exact literal (.string content) rfl
  | integer number => exact literal (.integer number) rfl
  | float number => exact literal (.float number) rfl
  | boolean value => exact literal (.boolean value) rfl
  | null => exact literal .null rfl
  | _ =>
      exact .of_reports (unexpectedNext_ne_nil proper
        ["a variable", "a macro call", "a literal"])

end Levels

theorem expressionReader_faithful (limit levels : Nat) :
    (expressionReader limit levels).FaithfulInGroups Expression.SpelledBy := by
  induction levels with
  | zero =>
      intro tokens lexed closes
      exact readExpression_faithful (by simp) lexed closes
  | succ levels ih =>
      intro tokens lexed closes
      refine readExpression_faithful ?_ lexed closes
      rintro _ ⟨⟩
      exact ih

end Stencil
