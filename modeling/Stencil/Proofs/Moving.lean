import Stencil.Proofs.Spans
import Stencil.Program.Parse

/-!
# Moving tokens and what is read from them

Moving everything by a number of bytes.  Stepping over tokens, and looking at
them, does not depend on where in the template they stand.
-/

namespace Stencil

def Span.moved (distance : Nat) (span : Span) : Span :=
  ⟨span.start + distance, span.stop + distance⟩

def Token.moved (distance : Nat) (token : Token) : Token :=
  ⟨token.kind, token.span.moved distance⟩

def Report.moved (distance : Nat) (report : Report) : Report :=
  ⟨report.fault, report.span.moved distance⟩

/-- Things that stand at places of a template. -/
class Movable (α : Type) where
  /-- The same thing a distance further on. -/
  moved : Nat → α → α

export Movable (moved)

namespace Movable

instance : Movable Unit := ⟨fun _ => id⟩

instance : Movable String := ⟨fun _ => id⟩

instance : Movable Expression :=
  ⟨fun distance => Expression.mapSpans (Span.moved distance)⟩

instance : Movable (List Node) :=
  ⟨fun distance => mapBodySpans (Span.moved distance)⟩

instance {α : Type} [Movable α] : Movable (Option α) :=
  ⟨fun distance => Option.map (moved distance)⟩

instance {α : Type} [Movable α] : Movable (Header α) :=
  ⟨fun distance header =>
    ⟨moved distance header.content, header.stop + distance⟩⟩

instance : Movable LoopHeader :=
  ⟨fun distance header =>
    ⟨header.key, header.item, moved distance header.iterable⟩⟩

instance : Movable BindingHeader :=
  ⟨fun distance header => ⟨header.name, moved distance header.value⟩⟩

instance : Movable ArgumentList :=
  ⟨fun distance list =>
    ⟨mapArgumentSpans (Span.moved distance) list.arguments,
      list.stop + distance⟩⟩

instance : Movable PathTail :=
  ⟨fun distance tail =>
    ⟨tail.segments, tail.stop + distance, tail.rest.map (Token.moved distance)⟩⟩

instance : Movable ClosedBody :=
  ⟨fun distance closed =>
    ⟨moved distance closed.nodes, closed.stop + distance⟩⟩

instance : Movable BranchChain :=
  ⟨fun distance chain =>
    ⟨mapBranchSpans (Span.moved distance) chain.branches,
      mapOtherwiseSpans (Span.moved distance) chain.otherwise,
      chain.stop + distance⟩⟩

instance {α : Type} [Movable α] : Movable (Reading α) :=
  ⟨fun distance reading =>
    ⟨moved distance reading.value, reading.reports.map (Report.moved distance),
      reading.rest.map (Token.moved distance)⟩⟩

end Movable

section Readings

variable {α : Type} [Movable α] (distance : Nat) (reading : Reading α)

@[simp]
theorem Reading.moved_value :
    (moved distance reading).value = moved distance reading.value :=
  rfl

@[simp]
theorem Reading.moved_reports :
    (moved distance reading).reports =
      reading.reports.map (Report.moved distance) :=
  rfl

@[simp]
theorem Reading.moved_rest :
    (moved distance reading).rest = reading.rest.map (Token.moved distance) :=
  rfl

@[simp]
theorem Option.moved_none : moved distance (none : Option α) = none :=
  rfl

@[simp]
theorem Option.moved_some (value : α) :
    moved distance (some value) = some (moved distance value) :=
  rfl

end Readings

section Tokens

variable (distance : Nat)

@[simp]
theorem Span.moved_start (span : Span) :
    (span.moved distance).start = span.start + distance :=
  rfl

@[simp]
theorem Span.moved_stop (span : Span) :
    (span.moved distance).stop = span.stop + distance :=
  rfl

@[simp]
theorem Token.moved_kind (token : Token) :
    (token.moved distance).kind = token.kind :=
  rfl

@[simp]
theorem Token.moved_span (token : Token) :
    (token.moved distance).span = token.span.moved distance :=
  rfl

theorem exists_of_nextKind {tokens : List Token} {kind : TokenKind}
    (proper : kind ≠ .endOfInput) (next : nextKind tokens = kind) :
    ∃ span rest, tokens = ⟨kind, span⟩ :: rest := by
  cases tokens with
  | nil => exact absurd next.symm proper
  | cons token rest => exact ⟨token.span, rest, by rw [← next]; rfl⟩

@[simp]
theorem nextKind_moved (tokens : List Token) :
    nextKind (tokens.map (Token.moved distance)) = nextKind tokens := by
  cases tokens <;> rfl

@[simp]
theorem atEnd_moved (tokens : List Token) :
    atEnd (tokens.map (Token.moved distance)) = atEnd tokens := by
  simp [atEnd]

theorem unexpectedNext_moved (expected : List String) (tokens : List Token) :
    unexpectedNext expected (tokens.map (Token.moved distance)) =
      (unexpectedNext expected tokens).map (Report.moved distance) := by
  cases tokens with
  | nil => rfl
  | cons token rest =>
      by_cases ended : token.kind = .endOfInput <;>
        simp [unexpectedNext, ended, Report.moved]

theorem closeGroup_moved (depth : Nat) (tokens : List Token) :
    closeGroup depth (tokens.map (Token.moved distance)) =
      (closeGroup depth tokens).map (Token.moved distance) := by
  fun_induction closeGroup depth tokens <;> simp_all [closeGroup]

theorem skipHeader_moved (tokens : List Token) :
    skipHeader (tokens.map (Token.moved distance)) =
      (skipHeader tokens).map (Token.moved distance) := by
  cases tokens with
  | nil => rfl
  | cons token rest =>
      by_cases opens : token.kind = .leftParen <;>
        simp [skipHeader, opens, closeGroup_moved]

theorem closeBlock_moved (depth : Nat) (tokens : List Token) :
    closeBlock depth (tokens.map (Token.moved distance)) =
      (closeBlock depth tokens).map (Token.moved distance) := by
  fun_induction closeBlock depth tokens <;> simp_all [closeBlock]

theorem readPathTail_moved (stop : Nat) (tokens : List Token) :
    readPathTail (stop + distance) (tokens.map (Token.moved distance)) =
      moved distance (readPathTail stop tokens) := by
  fun_induction readPathTail stop tokens with
  | case1 dotSpan field span rest ih =>
      simp_all [readPathTail, Token.moved, Span.moved, PathTail.prepend, moved]
  | case2 stop dotSpan field span rest apart =>
      simp [readPathTail, Token.moved, Span.moved, moved, apart]
  | case3 stop openSpan index indexSpan span rest adjacent ih =>
      simp_all [readPathTail, Token.moved, Span.moved, PathTail.prepend, moved]
  | case4 stop openSpan index indexSpan span rest apart =>
      simp [readPathTail, Token.moved, Span.moved, moved, apart]
  | case5 stop tokens noField noIndex =>
      rw [readPathTail]
      · rfl
      · intro dotSpan field span rest same
        simp only [List.map_eq_cons_iff, Token.moved, Token.mk.injEq] at same
        obtain ⟨dot, _, rfl, ⟨dotKind, -⟩, name, rest, rfl, ⟨nameKind, -⟩, -⟩ := same
        exact noField dot.span field name.span rest (by rw [← dotKind, ← nameKind])
      · intro openSpan index indexSpan span rest same
        simp only [List.map_eq_cons_iff, Token.moved, Token.mk.injEq] at same
        obtain ⟨bracket, _, rfl, ⟨openKind, -⟩, number, _, rfl, ⟨indexKind, -⟩, closer,
          rest, rfl, ⟨closeKind, -⟩, -⟩ := same
        exact noIndex bracket.span index number.span closer.span rest
          (by rw [← openKind, ← indexKind, ← closeKind])

end Tokens

end Stencil
