import Stencil.Proofs.NodePlaces
import Stencil.Proofs.OrderedTokens
import Stencil.Proofs.Subexpressions

/-!
# Spans in order

Tokens stand in order, and a reader that puts what it reads before the tokens that it leaves
builds trees whose spans are in order too.  What it means for a value to stand between two
offsets is said once for each kind of value, together with what may be done to the offsets.
-/

namespace Stencil

/-- Spans that are not empty stand between two offsets one after the other, none of them
reaching into the next one. -/
def SpansInOrder (start stop : Nat) : List Span → Prop
  | [] => start ≤ stop
  | span :: spans =>
      start ≤ span.start ∧ span.start < span.stop ∧ SpansInOrder span.stop stop spans

namespace SpansInOrder

variable {start middle stop outer : Nat} {spans others : List Span}

theorem le (ordered : SpansInOrder start stop spans) : start ≤ stop := by
  induction spans generalizing start with
  | nil => exact ordered
  | cons span spans ih =>
      obtain ⟨behind, nonempty, further⟩ := ordered
      have := ih further
      omega

theorem from_le (ordered : SpansInOrder start stop spans) (earlier : outer ≤ start) :
    SpansInOrder outer stop spans := by
  cases spans with
  | nil => exact Nat.le_trans earlier ordered
  | cons span spans => exact ⟨Nat.le_trans earlier ordered.1, ordered.2⟩

theorem append (ordered : SpansInOrder start middle spans)
    (further : SpansInOrder middle stop others) :
    SpansInOrder start stop (spans ++ others) := by
  induction spans generalizing start with
  | nil => exact further.from_le ordered
  | cons span spans ih => exact ⟨ordered.1, ordered.2.1, ih ordered.2.2⟩

theorem to_le (ordered : SpansInOrder start stop spans) (later : stop ≤ outer) :
    SpansInOrder start outer spans := by
  have nothing : SpansInOrder stop outer [] := later
  simpa using ordered.append nothing

theorem single {span : Span} (behind : start ≤ span.start) (nonempty : span.start < span.stop)
    (within : span.stop ≤ stop) : SpansInOrder start stop [span] :=
  ⟨behind, nonempty, within⟩

end SpansInOrder

/-- Tokens stand between two offsets one after the other, and only the end of the input may
be empty. -/
def TokensInOrder (start stop : Nat) : List Token → Prop
  | [] => start ≤ stop
  | token :: tokens =>
      start ≤ token.span.start ∧ token.span.start ≤ token.span.stop ∧
        (token.kind ≠ .endOfInput → token.span.start < token.span.stop) ∧
          TokensInOrder token.span.stop stop tokens

namespace TokensInOrder

variable {start stop outer : Nat} {token : Token} {tokens : List Token}

theorem le (ordered : TokensInOrder start stop tokens) : start ≤ stop := by
  induction tokens generalizing start with
  | nil => exact ordered
  | cons token tokens ih =>
      obtain ⟨behind, forward, -, further⟩ := ordered
      have := ih further
      omega

theorem from_le (ordered : TokensInOrder start stop tokens) (earlier : outer ≤ start) :
    TokensInOrder outer stop tokens := by
  cases tokens with
  | nil => exact Nat.le_trans earlier ordered
  | cons token tokens => exact ⟨Nat.le_trans earlier ordered.1, ordered.2⟩

theorem tail (ordered : TokensInOrder start stop (token :: tokens)) :
    TokensInOrder token.span.stop stop tokens :=
  ordered.2.2.2

theorem le_stop (ordered : TokensInOrder start stop (token :: tokens)) :
    start ≤ token.span.stop :=
  Nat.le_trans ordered.1 ordered.2.1

theorem rest (ordered : TokensInOrder start stop (token :: tokens)) :
    TokensInOrder start stop tokens :=
  ordered.tail.from_le ordered.le_stop

theorem nonempty (ordered : TokensInOrder start stop (token :: tokens))
    (proper : token.kind ≠ .endOfInput) : token.span.start < token.span.stop :=
  ordered.2.2.1 proper

theorem closeGroup (ordered : TokensInOrder start stop tokens) (depth : Nat) :
    TokensInOrder start stop (closeGroup depth tokens) := by
  fun_induction Stencil.closeGroup depth tokens with
  | case1 | case2 => exact ordered
  | case3 depth token tokens _ ih => exact ih ordered.rest
  | case4 => exact ordered.rest
  | case5 token tokens _ depth ih => exact ih ordered.rest
  | case6 depth token tokens _ _ _ ih => exact ih ordered.rest

theorem skipHeader (ordered : TokensInOrder start stop tokens) :
    TokensInOrder start stop (skipHeader tokens) := by
  unfold Stencil.skipHeader
  split
  · exact ordered
  · split
    · exact ordered.rest.closeGroup 0
    · exact ordered

theorem closeBlock (ordered : TokensInOrder start stop tokens) (depth : Nat) :
    TokensInOrder start stop (closeBlock depth tokens) := by
  fun_induction Stencil.closeBlock depth tokens with
  | case1 | case2 => exact ordered
  | case3 depth token tokens _ _ ih => exact ih ordered.rest
  | case4 depth token tokens _ _ ih => exact ih ordered.rest
  | case5 => exact ordered.rest
  | case6 token tokens _ _ depth ih => exact ih ordered.rest
  | case7 depth token tokens _ _ _ _ ih => exact ih ordered.rest

end TokensInOrder

theorem TokensStand.inOrder {offset : Nat} {characters : List Char} {tokens : List Token}
    (stands : TokensStand offset characters tokens) :
    TokensInOrder offset (offset + byteLength characters) tokens := by
  induction stands with
  | nil => exact Nat.le_add_right _ _
  | @cons offset start gap slice rest token tokens begins span marks further ih =>
      have whole : offset + byteLength (gap ++ (slice ++ rest)) =
          start + byteLength slice + byteLength rest := by
        rw [byteLength_append, byteLength_append]
        omega
      rw [whole, TokensInOrder, span]
      refine ⟨?_, Nat.le_add_right _ _, fun proper => ?_, ih⟩
      · rw [begins]
        exact Nat.le_add_right _ _
      · exact Nat.lt_add_of_pos_right (byteLength_pos (marks.ne_nil proper))

/-- The spans of what stands directly inside an expression. -/
def Expression.insideSpans : Expression → List Span
  | .path _ _ => []
  | .literal _ _ => []
  | .call _ arguments _ => arguments.map Expression.span

/-- The spans of a condition and of the nodes that it guards. -/
def Branch.insideSpans (branch : Branch) : List Span :=
  branch.condition.span :: branch.body.map Node.span

/-- The spans of branches and of the last body of a conditional. -/
def chainSpans (branches : List Branch) (otherwise : Option (List Node)) : List Span :=
  branches.flatMap Branch.insideSpans ++ (otherwise.getD []).map Node.span

/-- The spans of what stands directly inside a node. -/
def Node.insideSpans : Node → List Span
  | .text _ _ => []
  | .output expression => [expression.span]
  | .conditional branches otherwise _ => chainSpans branches otherwise
  | .loop _ _ iterable body _ => iterable.span :: body.map Node.span
  | .binding _ value _ => [value.span]

/-- A span is not empty, and spans stand inside it in order. -/
def Span.Frames (span : Span) (inside : List Span) : Prop :=
  span.start < span.stop ∧ SpansInOrder span.start span.stop inside

/-- Nodes and expressions frame what stands in them. -/
def Framed (nodes : List Node) (expressions : List Expression) : Prop :=
  (∀ node ∈ nodes, node.span.Frames node.insideSpans) ∧
    ∀ expression ∈ expressions, expression.span.Frames expression.insideSpans

namespace Framed

variable {nodes others : List Node} {expressions further : List Expression}

theorem nil : Framed [] [] :=
  ⟨List.forall_mem_nil _, List.forall_mem_nil _⟩

theorem append (first : Framed nodes expressions) (second : Framed others further) :
    Framed (nodes ++ others) (expressions ++ further) :=
  ⟨List.forall_mem_append.mpr ⟨first.1, second.1⟩,
    List.forall_mem_append.mpr ⟨first.2, second.2⟩⟩

theorem cons_node {node : Node} (frames : node.span.Frames node.insideSpans)
    (framed : Framed nodes expressions) : Framed (node :: nodes) expressions :=
  ⟨List.forall_mem_cons.mpr ⟨frames, framed.1⟩, framed.2⟩

theorem cons_expression {expression : Expression}
    (frames : expression.span.Frames expression.insideSpans)
    (framed : Framed nodes expressions) : Framed nodes (expression :: expressions) :=
  ⟨framed.1, List.forall_mem_cons.mpr ⟨frames, framed.2⟩⟩

end Framed

@[simp]
theorem bodyParts_append (first second : List Node) :
    bodyParts (first ++ second) = bodyParts first ++ bodyParts second := by
  induction first with
  | nil => rfl
  | cons node nodes ih => simp [bodyParts, ih]

@[simp]
theorem bodyExpressions_append (first second : List Node) :
    bodyExpressions (first ++ second) = bodyExpressions first ++ bodyExpressions second := by
  induction first with
  | nil => rfl
  | cons node nodes ih => simp [bodyExpressions, ih]

/-- What it means that a value stands between two offsets. -/
structure Standing (α : Type) where
  between : Nat → Nat → α → Prop
  le : ∀ {start stop : Nat} {value : α}, between start stop value → start ≤ stop
  widen : ∀ {outerStart start stop outerStop : Nat} {value : α},
    outerStart ≤ start → stop ≤ outerStop → between start stop value →
      between outerStart outerStop value

namespace Standing

variable {α β : Type}

/-- A value of which nothing is said stands anywhere. -/
def anywhere : Standing α where
  between start stop _ := start ≤ stop
  le forward := forward
  widen earlier later forward := Nat.le_trans earlier (Nat.le_trans forward later)

/-- A value stands where its spans do. -/
def ofSpans (spans : α → List Span) (proper : α → Prop) : Standing α where
  between start stop value := SpansInOrder start stop (spans value) ∧ proper value
  le stands := stands.1.le
  widen earlier later stands := ⟨(stands.1.from_le earlier).to_le later, stands.2⟩

/-- A value that may be missing. -/
def optional (standing : Standing α) : Standing (Option α) where
  between start stop value? :=
    start ≤ stop ∧ ∀ value, value? = some value → standing.between start stop value
  le stands := stands.1
  widen earlier later stands :=
    ⟨Nat.le_trans earlier (Nat.le_trans stands.1 later),
      fun value given => standing.widen earlier later (stands.2 value given)⟩

/-- What stands where a part of it does. -/
def comap (standing : Standing β) (part : α → β) : Standing α where
  between start stop value := standing.between start stop (part value)
  le stands := standing.le stands
  widen earlier later stands := standing.widen earlier later stands

/-- What ends at an offset of its own, behind a part of it. -/
def upTo (standing : Standing β) (part : α → β) (last : α → Nat) : Standing α where
  between start stop value :=
    standing.between start (last value) (part value) ∧ last value ≤ stop
  le stands := Nat.le_trans (standing.le stands.1) stands.2
  widen earlier later stands :=
    ⟨standing.widen earlier (Nat.le_refl _) stands.1, Nat.le_trans stands.2 later⟩

def expression : Standing Expression :=
  ofSpans (fun expression => [expression.span]) fun expression => Framed [] expression.parts

def arguments : Standing (List Expression) :=
  ofSpans (List.map Expression.span) fun arguments => Framed [] (argumentParts arguments)

def body : Standing (List Node) :=
  ofSpans (List.map Node.span) fun nodes => Framed (bodyParts nodes) (bodyExpressions nodes)

/-- The branches and the last body of a conditional. -/
def chain : Standing (List Branch × Option (List Node)) :=
  ofSpans (fun chain => chainSpans chain.1 chain.2) fun chain =>
    Framed (branchParts chain.1 ++ otherwiseParts chain.2)
      (branchExpressions chain.1 ++ otherwiseExpressions chain.2)

variable {start middle stop : Nat}

theorem body_nil (forward : start ≤ stop) : body.between start stop [] :=
  ⟨forward, .nil⟩

theorem body_append {first second : List Node} (earlier : body.between start middle first)
    (later : body.between middle stop second) : body.between start stop (first ++ second) := by
  obtain ⟨firstOrder, firstFramed⟩ := earlier
  obtain ⟨secondOrder, secondFramed⟩ := later
  have order := firstOrder.append secondOrder
  have framed := firstFramed.append secondFramed
  rw [← List.map_append] at order
  rw [← bodyParts_append, ← bodyExpressions_append] at framed
  exact ⟨order, framed⟩

theorem body_single {node : Node} (behind : start ≤ node.span.start)
    (frames : node.span.Frames node.insideSpans) (within : node.span.stop ≤ stop)
    (framed : Framed node.parts node.expressions) : body.between start stop [node] := by
  refine ⟨.single behind frames.1 within, ?_⟩
  simpa only [bodyParts, bodyExpressions, List.append_nil] using framed

theorem arguments_cons {argument : Expression} {further : List Expression}
    (first : expression.between start middle argument)
    (others : arguments.between middle stop further) :
    arguments.between start stop (argument :: further) :=
  ⟨SpansInOrder.append first.1 others.1, Framed.append first.2 others.2⟩

theorem chain_none (forward : start ≤ stop) : chain.between start stop ([], none) :=
  ⟨forward, .nil⟩

theorem chain_some {last : List Node} (stands : body.between start stop last) :
    chain.between start stop ([], some last) :=
  stands

/-- A branch begins with its condition, and its body comes before all further branches. -/
theorem chain_cons {bodyStart bodyStop : Nat} {condition : Expression} {nodes : List Node}
    {branches : List Branch} {otherwise : Option (List Node)}
    (header : expression.between start bodyStart condition)
    (guarded : body.between bodyStart bodyStop nodes)
    (further : chain.between bodyStop stop (branches, otherwise)) :
    chain.between start stop (.mk condition nodes :: branches, otherwise) := by
  have order := (header.1.append guarded.1).append further.1
  have framed := (Framed.append header.2 guarded.2).append further.2
  refine ⟨?_, ?_⟩
  · simpa [chainSpans, Branch.insideSpans, Branch.condition, Branch.body] using order
  · simpa [branchParts, Branch.parts, branchExpressions, Branch.expressions] using framed

end Standing

/-- What has been read stands before the tokens that are left. -/
def Reading.Stands {α : Type} (reading : Reading α) (standing : Standing α)
    (start stop : Nat) : Prop :=
  ∃ reached, standing.between start reached reading.value ∧
    TokensInOrder reached stop reading.rest

/-- What is read from tokens in order stands before those that are left. -/
def TokenReader.Places {α : Type} (reader : TokenReader α) (standing : Standing α) : Prop :=
  ∀ start stop tokens, TokensInOrder start stop tokens →
    (reader.read tokens).Stands standing start stop

namespace Reading.Stands

variable {α β : Type} {standing : Standing α} {changed : Standing β} {start stop : Nat}
variable {reports : List Report} {rest : List Token}

theorem failed (ordered : TokensInOrder start stop rest) :
    (Reading.failed reports rest).Stands standing.optional start stop :=
  ⟨start, ⟨Nat.le_refl _, nofun⟩, ordered⟩

theorem given {reached : Nat} {value : α} (stands : standing.between start reached value)
    (ordered : TokensInOrder reached stop rest) :
    (Reading.mk (some value) reports rest).Stands standing.optional start stop := by
  refine ⟨reached, ⟨standing.le stands, fun other isValue => ?_⟩, ordered⟩
  obtain rfl := Option.some.inj isValue
  exact stands

theorem from_le {reading : Reading α} {outer : Nat} (stands : reading.Stands standing start stop)
    (earlier : outer ≤ start) : reading.Stands standing outer stop := by
  obtain ⟨reached, between, ordered⟩ := stands
  exact ⟨reached, standing.widen earlier (Nat.le_refl _) between, ordered⟩

/-- Both a value that was given before and what is read now may be missing. -/
theorem mapBoth {γ : Type} {reading : Reading (Option α)} {first? : Option γ}
    {change : γ → α → β} {outer : Nat} (stands : reading.Stands standing.optional start stop)
    (earlier : outer ≤ start)
    (follows : ∀ first, first? = some first → ∀ reached value,
      standing.between start reached value → changed.between outer reached (change first value)) :
    (reading.map fun value? =>
      first?.bind fun first => value?.map (change first)).Stands changed.optional outer stop := by
  obtain ⟨reached, ⟨forward, between⟩, ordered⟩ := stands
  refine ⟨reached, ⟨Nat.le_trans earlier forward, fun value isValue => ?_⟩, ordered⟩
  obtain ⟨first, isFirst, mapped⟩ := Option.bind_eq_some_iff.mp isValue
  obtain ⟨inner, isInner, rfl⟩ := Option.map_eq_some_iff.mp mapped
  exact follows first isFirst reached inner (between inner isInner)

theorem mapGiven {reading : Reading (Option α)} {change : α → β} {outer : Nat}
    (stands : reading.Stands standing.optional start stop) (earlier : outer ≤ start)
    (follows : ∀ reached value, standing.between start reached value →
      changed.between outer reached (change value)) :
    (reading.map (Option.map change)).Stands changed.optional outer stop :=
  mapBoth stands earlier fun (_ : Unit) (_ : some () = some _) => follows

/-- A value makes a node; without one there is none. -/
theorem toNodes {reading : Reading (Option α)} {node : α → Node} {outer : Nat}
    (stands : reading.Stands standing.optional start stop) (earlier : outer ≤ start)
    (follows : ∀ reached value, standing.between start reached value →
      Standing.body.between outer reached [node value]) :
    (reading.map fun value? => value?.toList.map node).Stands Standing.body outer stop := by
  obtain ⟨reached, ⟨forward, between⟩, ordered⟩ := stands
  refine ⟨reached, ?_, ordered⟩
  rw [Reading.map]
  cases isValue : reading.value with
  | none => exact Standing.body_nil (Nat.le_trans earlier forward)
  | some value => exact follows reached value (between value isValue)

end Reading.Stands

namespace TokenReader.Places

variable {α β : Type} {standing : Standing α} {changed : Standing β}

theorem next (accept : TokenKind → Option α) (expected : List String) :
    (TokenReader.next accept expected).Places Standing.anywhere.optional := by
  intro start stop tokens ordered
  simp only [TokenReader.next]
  split
  · exact .failed ordered
  · split
    · exact .given (Nat.le_refl start) ordered.rest
    · exact .failed ordered

theorem andThen {first : TokenReader (Option α)} {second : α → TokenReader (Option β)}
    (places : first.Places Standing.anywhere.optional)
    (further : ∀ value, (second value).Places changed.optional) :
    (first.andThen second).Places changed.optional := by
  intro start stop tokens ordered
  obtain ⟨reached, ⟨forward, -⟩, left⟩ := places start stop tokens ordered
  simp only [TokenReader.andThen]
  split
  · exact .failed (left.from_le forward)
  · exact Reading.Stands.from_le (further _ reached stop _ left) forward

theorem map {reader : TokenReader (Option α)} {change : α → β}
    (places : reader.Places standing.optional)
    (follows : ∀ start stop value, standing.between start stop value →
      changed.between start stop (change value)) :
    (reader.map change).Places changed.optional :=
  fun start stop tokens ordered =>
    (places start stop tokens ordered).mapGiven (Nat.le_refl _) (follows start)

theorem ifNext {kind : TokenKind} {present absent : TokenReader α}
    (presentPlaces : present.Places standing) (absentPlaces : absent.Places standing) :
    (TokenReader.ifNext kind present absent).Places standing := by
  intro start stop tokens ordered
  simp only [TokenReader.ifNext]
  split
  · exact absentPlaces start stop [] ordered
  · split
    · exact presentPlaces start stop _ ordered.rest
    · exact absentPlaces start stop _ ordered

end TokenReader.Places

end Stencil
