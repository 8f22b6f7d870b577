import Stencil.Program.Body

/-!
# Equations for the readers

What one step of each reader does, told by the kind of the token that comes
next.  Nothing here says more than the definitions do; the loops are unrolled
once, so that they can be rewritten with.
-/

namespace Stencil

variable {α β : Type}

theorem read_andThen_none {first : TokenReader (Option α)} {tokens rest : List Token}
    {reports : List Report} (reading : first.read tokens = ⟨none, reports, rest⟩)
    (second : α → TokenReader (Option β)) :
    (first.andThen second).read tokens = .failed reports rest := by
  simp only [TokenReader.andThen, reading]

theorem read_andThen_some {first : TokenReader (Option α)} {tokens rest : List Token}
    {value : α} {reports : List Report} (reading : first.read tokens = ⟨some value, reports, rest⟩)
    (second : α → TokenReader (Option β)) :
    (first.andThen second).read tokens = ((second value).read rest).precededBy reports := by
  simp only [TokenReader.andThen, reading]

theorem readHeader_of_group (directive : Token) (inside : TokenReader (Option α))
    (openSpan : Span) (group : List Token) :
    readHeader directive inside (⟨.leftParen, openSpan⟩ :: group) =
      match (inside.read group).value, (inside.read group).rest with
      | some content, closer :: rest =>
          if closer.kind = .rightParen then
            ⟨some ⟨content, closer.span.stop⟩, (inside.read group).reports, rest⟩
          else
            .failed ((inside.read group).reports ++
              unexpectedNext ["')'"] (closer :: rest)) (closeGroup 0 group)
      | _, _ => .failed (inside.read group).reports (closeGroup 0 group) := by
  simp only [readHeader]
  rcases (inside.read group).value with _ | content
  · rfl
  · rcases (inside.read group).rest with _ | ⟨⟨kind, span⟩, rest⟩
    · simp [unexpectedNext]
    · cases kind <;> simp

theorem readHeader_of_ne (directive : Token) (inside : TokenReader (Option α))
    {tokens : List Token} (other : nextKind tokens ≠ .leftParen) :
    readHeader directive inside tokens =
      .failed [⟨.unexpected (directive.kind.description ++ " without a header")
        ["'(' after the directive"], directive.span⟩] tokens := by
  rcases tokens with _ | ⟨⟨kind, span⟩, rest⟩
  · rfl
  · cases kind <;> first | rfl | exact absurd rfl other

section HeaderOutcomes

variable {inside : TokenReader (Option α)} {group rest : List Token} {reports : List Report}

theorem readHeader_of_none (reading : inside.read group = ⟨none, reports, rest⟩)
    (directive : Token) (openSpan : Span) :
    readHeader directive inside (⟨.leftParen, openSpan⟩ :: group) =
      .failed reports (closeGroup 0 group) := by
  rw [readHeader_of_group, reading]

theorem readHeader_of_closed {content : α} {closeSpan : Span}
    (reading : inside.read group = ⟨some content, reports, ⟨.rightParen, closeSpan⟩ :: rest⟩)
    (directive : Token) (openSpan : Span) :
    readHeader directive inside (⟨.leftParen, openSpan⟩ :: group) =
      ⟨some ⟨content, closeSpan.stop⟩, reports, rest⟩ := by
  rw [readHeader_of_group, reading]
  exact if_pos rfl

theorem readHeader_of_stray {content : α}
    (reading : inside.read group = ⟨some content, reports, rest⟩)
    (stray : nextKind rest ≠ .rightParen) (directive : Token) (openSpan : Span) :
    readHeader directive inside (⟨.leftParen, openSpan⟩ :: group) =
      .failed (reports ++ unexpectedNext ["')'"] rest) (closeGroup 0 group) := by
  rw [readHeader_of_group, reading]
  rcases rest with _ | ⟨next, rest⟩
  · simp [unexpectedNext]
  · exact if_neg stray

end HeaderOutcomes

theorem readArguments_eq (argument : TokenReader (Option Expression))
    (tokens : List Token) :
    readArguments argument tokens =
      match (argument.read tokens).value, (argument.read tokens).rest with
      | some expression, next :: rest =>
          if next.kind = .comma then
            ((readArguments argument rest).precededBy
              (argument.read tokens).reports).map
                (Option.map (ArgumentList.prepend expression))
          else if next.kind = .rightParen then
            ⟨some ⟨[expression], next.span.stop⟩, (argument.read tokens).reports,
              rest⟩
          else
            .failed ((argument.read tokens).reports ++
              unexpectedNext ["','", "')'"] (next :: rest)) (next :: rest)
      | _, rest => .failed (argument.read tokens).reports rest := by
  rw [readArguments]
  rcases (argument.read tokens).value with _ | expression
  · rfl
  · dsimp only
    rcases (argument.read tokens).rest with _ | ⟨⟨kind, span⟩, rest⟩
    · simp [unexpectedNext]
    · cases kind <;> simp

theorem readClosedBody_eq (body : TokenReader (List Node)) (opener : Token)
    (keyword : Keyword) (tokens : List Token) :
    readClosedBody body opener keyword tokens =
      match (body.read tokens).rest with
      | [] =>
          .failed ((body.read tokens).reports ++ [unclosedReport opener keyword]) []
      | closer :: rest =>
          match closer.kind.keyword? with
          | some .endBlock =>
              ⟨some ⟨(body.read tokens).value, closer.span.stop⟩,
                (body.read tokens).reports, rest⟩
          | some .elifBranch | some .elseBranch =>
              ((readClosedBody body opener keyword (skipHeader rest)).precededBy
                ((body.read tokens).reports ++
                  [⟨.unexpected closer.kind.description ["'#end'"],
                    closer.span⟩])).map
                (Option.map fun closed =>
                  ⟨(body.read tokens).value ++ closed.nodes, closed.stop⟩)
          | _ =>
              .failed ((body.read tokens).reports ++
                [unclosedReport opener keyword]) (closer :: rest) := by
  rw [readClosedBody]
  dsimp only
  rcases (body.read tokens).rest with _ | ⟨closer, rest⟩
  · rfl
  · rcases closer.kind.keyword? with _ | keyword
    · rfl
    · cases keyword <;> rfl

theorem readBranches_eq (nested : NestedReaders) (opener directive : Token)
    (tokens : List Token) :
    readBranches nested opener directive tokens =
      let header := readHeader directive nested.expression tokens
      if header.value.isNone && atEnd header.rest then
        .failed header.reports header.rest
      else
        let body := nested.body.read header.rest
        let reports := header.reports ++ body.reports
        let branch? := header.value.map fun condition =>
          Branch.mk condition.content body.value
        match body.rest with
        | [] => .failed (reports ++ [unclosedReport opener .ifBlock]) []
        | closer :: rest =>
            match closer.kind.keyword? with
            | some .elifBranch =>
                ((readBranches nested opener closer rest).precededBy reports).map
                  fun chain? => branch?.bind fun branch =>
                    chain?.map (BranchChain.prepend branch)
            | some .elseBranch =>
                ((readClosedBody nested.body opener .ifBlock rest).precededBy
                  reports).map
                  fun closed? => branch?.bind fun branch =>
                    closed?.map fun closed =>
                      ⟨[branch], some closed.nodes, closed.stop⟩
            | some .endBlock =>
                ⟨branch?.map fun branch => ⟨[branch], none, closer.span.stop⟩,
                  reports, rest⟩
            | _ =>
                .failed (reports ++ [unclosedReport opener .ifBlock])
                  (closer :: rest) := by
  rw [readBranches]
  dsimp only
  split
  · rfl
  · rcases (nested.body.read
      (readHeader directive nested.expression tokens).rest).rest with _ | ⟨closer, rest⟩
    · rfl
    · rcases closer.kind.keyword? with _ | keyword
      · rfl
      · cases keyword <;> rfl

theorem first_reports_subset_readArguments (argument : TokenReader (Option Expression))
    (tokens : List Token) :
    (argument.read tokens).reports ⊆ (readArguments argument tokens).reports := by
  intro report member
  rw [readArguments_eq]
  split
  · split
    · exact List.mem_append_left _ member
    · split
      · exact member
      · exact List.mem_append_left _ member
  · exact member

theorem body_reports_subset_readClosedBody (body : TokenReader (List Node))
    (opener : Token) (keyword : Keyword) (tokens : List Token) :
    (body.read tokens).reports ⊆ (readClosedBody body opener keyword tokens).reports := by
  intro report member
  rw [readClosedBody_eq]
  split
  · exact List.mem_append_left _ member
  · split
    · exact member
    · exact List.mem_append_left _ (List.mem_append_left _ member)
    · exact List.mem_append_left _ (List.mem_append_left _ member)
    · exact List.mem_append_left _ member

theorem header_reports_subset_readBranches (nested : NestedReaders)
    (opener directive : Token) (tokens : List Token) :
    (readHeader directive nested.expression tokens).reports ⊆
      (readBranches nested opener directive tokens).reports := by
  intro report member
  rw [readBranches_eq]
  dsimp only
  have inReports : ∀ reports, report ∈
      (readHeader directive nested.expression tokens).reports ++ reports :=
    fun reports => List.mem_append_left reports member
  split
  · exact member
  · split
    · exact List.mem_append_left _ (inReports _)
    · split
      · exact List.mem_append_left _ (inReports _)
      · exact List.mem_append_left _ (inReports _)
      · exact inReports _
      · exact List.mem_append_left _ (inReports _)

theorem body_reports_subset_readBranches (nested : NestedReaders)
    (opener directive : Token) {tokens : List Token} {header? : Option (Header Expression)}
    {reports : List Report} {rest : List Token}
    (header : readHeader directive nested.expression tokens = ⟨header?, reports, rest⟩)
    (goesOn : ¬(header?.isNone && atEnd rest)) :
    (nested.body.read rest).reports ⊆
      (readBranches nested opener directive tokens).reports := by
  intro report member
  rw [readBranches_eq, header]
  dsimp only
  have inReports : report ∈ reports ++ (nested.body.read rest).reports :=
    List.mem_append_right reports member
  rw [if_neg goesOn]
  split
  · exact List.mem_append_left _ inReports
  · split
    · exact List.mem_append_left _ inReports
    · exact List.mem_append_left _ inReports
    · exact inReports
    · exact List.mem_append_left _ inReports

theorem skipHeader_leftParen (openSpan : Span) (group : List Token) :
    skipHeader (⟨.leftParen, openSpan⟩ :: group) = closeGroup 0 group :=
  rfl

theorem skipHeader_of_ne {tokens : List Token} (other : nextKind tokens ≠ .leftParen) :
    skipHeader tokens = tokens := by
  cases tokens with
  | nil => rfl
  | cons token rest => exact if_neg other

theorem closeGroup_suffix (depth : Nat) (tokens : List Token) :
    closeGroup depth tokens <:+ tokens := by
  fun_induction closeGroup depth tokens with
  | case1 | case2 => exact List.suffix_refl _
  | case3 depth token rest _ ih => exact ih.trans (List.suffix_cons token rest)
  | case4 token rest => exact List.suffix_cons token rest
  | case5 token rest _ depth ih => exact ih.trans (List.suffix_cons token rest)
  | case6 depth token rest _ _ _ ih => exact ih.trans (List.suffix_cons token rest)

theorem skipHeader_suffix (tokens : List Token) : skipHeader tokens <:+ tokens := by
  unfold skipHeader
  split
  · exact List.suffix_refl _
  · rename_i token rest
    split
    · exact (closeGroup_suffix 0 rest).trans (List.suffix_cons token rest)
    · exact List.suffix_refl _

theorem closeBlock_suffix (depth : Nat) (tokens : List Token) :
    closeBlock depth tokens <:+ tokens := by
  fun_induction closeBlock depth tokens with
  | case1 | case2 => exact List.suffix_refl _
  | case3 depth token rest _ _ ih | case4 depth token rest _ _ ih =>
      exact ih.trans (List.suffix_cons token rest)
  | case5 token rest => exact List.suffix_cons token rest
  | case6 token rest _ _ depth ih => exact ih.trans (List.suffix_cons token rest)
  | case7 depth token rest _ _ _ _ ih => exact ih.trans (List.suffix_cons token rest)

theorem readPathTail_suffix (stop : Nat) (tokens : List Token) :
    (readPathTail stop tokens).rest <:+ tokens := by
  fun_induction readPathTail stop tokens with
  | case1 dotSpan field span rest ih => exact ih.trans ⟨[⟨.dot, dotSpan⟩, ⟨.name field, span⟩], rfl⟩
  | case3 stop openSpan index indexSpan span rest adjacent ih =>
      exact ih.trans ⟨[⟨.leftBracket, openSpan⟩, ⟨.integer index, indexSpan⟩,
        ⟨.rightBracket, span⟩], rfl⟩
  | case2 | case4 | case5 => exact List.suffix_refl _

end Stencil
