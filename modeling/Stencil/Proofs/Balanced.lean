import Mathlib.Data.List.Infix

/-!
# What opens and what closes

Some items of a sequence open something, others close what was opened last.  Which item closes
which is told by counting alone: what stands between the two closes as much as it opens, and no
front of it closes more than it opens.
-/

namespace Stencil

/-- Which items open something and which close it. -/
structure Brackets (α : Type) where
  opens : α → Bool
  closes : α → Bool
  /-- No item does both. -/
  apart : ∀ item, opens item → closes item = false

namespace Brackets

variable {α : Type} (brackets : Brackets α)

/-- Items that close `depth` things more than they open, and never more than these. -/
structure Settles (depth : Nat) (items : List α) : Prop where
  within : ∀ front, front <+: items →
    front.countP brackets.closes ≤ front.countP brackets.opens + depth
  total : items.countP brackets.closes = items.countP brackets.opens + depth

/-- Items that close just what they open. -/
abbrev Balanced (items : List α) : Prop :=
  brackets.Settles 0 items

/-- Among items before which `depth` further things were opened after some other one, `rest`
begins behind the item that closes that one. -/
def ClosedBefore (depth : Nat) (items rest : List α) : Prop :=
  ∃ inside closer, items = inside ++ closer :: rest ∧ brackets.closes closer ∧
    brackets.Settles depth inside

variable {brackets} {depth : Nat} {item : α} {items rest : List α}

theorem settles_nil : brackets.Settles depth [] ↔ depth = 0 := by
  constructor
  · intro settles
    simpa using settles.total.symm
  · rintro rfl
    refine ⟨fun front isPrefix => ?_, rfl⟩
    rw [List.prefix_nil.mp isPrefix]
    exact Nat.le_refl _

/-- What an item counts for is added to every front and to the whole. -/
theorem settles_cons : brackets.Settles depth (item :: items) ↔
    (∀ front, front <+: items →
      front.countP brackets.closes + (brackets.closes item).toNat ≤
        front.countP brackets.opens + (brackets.opens item).toNat + depth) ∧
    items.countP brackets.closes + (brackets.closes item).toNat =
      items.countP brackets.opens + (brackets.opens item).toNat + depth := by
  have counted (count? : α → Bool) (others : List α) :
      (item :: others).countP count? = others.countP count? + (count? item).toNat := by
    cases isCounted : count? item <;> simp [isCounted]
  constructor
  · intro settles
    refine ⟨fun front isPrefix => ?_, ?_⟩
    · simpa only [counted] using
        settles.within (item :: front) ((List.prefix_cons_inj item).mpr isPrefix)
    · simpa only [counted] using settles.total
  · rintro ⟨within, total⟩
    refine ⟨fun front isPrefix => ?_, by simpa only [counted] using total⟩
    rcases List.prefix_cons_iff.mp isPrefix with rfl | ⟨others, rfl, isFront⟩
    · exact Nat.zero_le _
    · simpa only [counted] using within others isFront

theorem settles_opener (opens : brackets.opens item) :
    brackets.Settles depth (item :: items) ↔ brackets.Settles (depth + 1) items := by
  rw [settles_cons, opens, brackets.apart item opens]
  constructor
  · rintro ⟨within, total⟩
    exact ⟨fun front isPrefix => by have := within front isPrefix; simp at this; omega,
      by simp at total; omega⟩
  · rintro ⟨within, total⟩
    exact ⟨fun front isPrefix => by have := within front isPrefix; simp; omega,
      by simp; omega⟩

theorem settles_plain (opensNothing : brackets.opens item = false)
    (closesNothing : brackets.closes item = false) :
    brackets.Settles depth (item :: items) ↔ brackets.Settles depth items := by
  rw [settles_cons, opensNothing, closesNothing]
  exact ⟨fun ⟨within, total⟩ => ⟨within, total⟩, fun ⟨within, total⟩ => ⟨within, total⟩⟩

theorem opens_of_closes (closes : brackets.closes item) : brackets.opens item = false := by
  by_contra isOpener
  rw [brackets.apart item (by simpa using isOpener)] at closes
  cases closes

theorem settles_closer (closes : brackets.closes item) :
    brackets.Settles (depth + 1) (item :: items) ↔ brackets.Settles depth items := by
  rw [settles_cons, closes, opens_of_closes closes]
  constructor
  · rintro ⟨within, total⟩
    exact ⟨fun front isPrefix => by have := within front isPrefix; simp at this; omega,
      by simp at total; omega⟩
  · rintro ⟨within, total⟩
    exact ⟨fun front isPrefix => by have := within front isPrefix; simp; omega,
      by simp; omega⟩

theorem not_balanced_closer (closes : brackets.closes item) :
    ¬ brackets.Balanced (item :: items) := by
  intro balanced
  have first := balanced.within [item] (List.prefix_append [item] items)
  simp [closes, opens_of_closes closes] at first

theorem not_closedBefore_nil : ¬ brackets.ClosedBefore depth [] rest := by
  rintro ⟨inside, closer, whole, -⟩
  simp at whole

theorem closedBefore_opener (opens : brackets.opens item) :
    brackets.ClosedBefore depth (item :: items) rest ↔
      brackets.ClosedBefore (depth + 1) items rest := by
  constructor
  · rintro ⟨_ | ⟨first, inside⟩, closer, whole, closes, settles⟩
    · obtain ⟨rfl, -⟩ := List.cons.inj whole
      rw [brackets.apart item opens] at closes
      cases closes
    · obtain ⟨rfl, rfl⟩ := List.cons.inj whole
      exact ⟨inside, closer, rfl, closes, (settles_opener opens).mp settles⟩
  · rintro ⟨inside, closer, rfl, closes, settles⟩
    exact ⟨item :: inside, closer, rfl, closes, (settles_opener opens).mpr settles⟩

theorem closedBefore_plain (opensNothing : brackets.opens item = false)
    (closesNothing : brackets.closes item = false) :
    brackets.ClosedBefore depth (item :: items) rest ↔
      brackets.ClosedBefore depth items rest := by
  constructor
  · rintro ⟨_ | ⟨first, inside⟩, closer, whole, closes, settles⟩
    · obtain ⟨rfl, -⟩ := List.cons.inj whole
      rw [closesNothing] at closes
      cases closes
    · obtain ⟨rfl, rfl⟩ := List.cons.inj whole
      exact ⟨inside, closer, rfl, closes,
        (settles_plain opensNothing closesNothing).mp settles⟩
  · rintro ⟨inside, closer, rfl, closes, settles⟩
    exact ⟨item :: inside, closer, rfl, closes,
      (settles_plain opensNothing closesNothing).mpr settles⟩

theorem closedBefore_closer (closes : brackets.closes item) :
    brackets.ClosedBefore (depth + 1) (item :: items) rest ↔
      brackets.ClosedBefore depth items rest := by
  constructor
  · rintro ⟨_ | ⟨first, inside⟩, closer, whole, closerCloses, settles⟩
    · exact absurd (settles_nil.mp settles) (Nat.succ_ne_zero depth)
    · obtain ⟨rfl, rfl⟩ := List.cons.inj whole
      exact ⟨inside, closer, rfl, closerCloses, (settles_closer closes).mp settles⟩
  · rintro ⟨inside, closer, rfl, closerCloses, settles⟩
    exact ⟨item :: inside, closer, rfl, closerCloses, (settles_closer closes).mpr settles⟩

theorem closedBefore_zero_closer (closes : brackets.closes item) :
    brackets.ClosedBefore 0 (item :: items) rest ↔ rest = items := by
  constructor
  · rintro ⟨_ | ⟨first, inside⟩, closer, whole, -, settles⟩
    · exact (List.cons.inj whole).2.symm
    · obtain ⟨rfl, -⟩ := List.cons.inj whole
      exact absurd settles (not_balanced_closer closes)
  · rintro rfl
    exact ⟨[], item, rfl, closes, settles_nil.mpr rfl⟩

/-- The number of items that close nothing which was opened among the items before them. -/
def excess (brackets : Brackets α) : List α → Nat
  | [] => 0
  | item :: items =>
      if brackets.opens item then excess brackets items - 1
      else if brackets.closes item then excess brackets items + 1
      else excess brackets items

theorem excess_opener (opens : brackets.opens item) :
    brackets.excess (item :: items) = brackets.excess items - 1 :=
  if_pos opens

theorem excess_closer (closes : brackets.closes item) :
    brackets.excess (item :: items) = brackets.excess items + 1 := by
  simp [excess, opens_of_closes closes, closes]

theorem excess_plain (opensNothing : brackets.opens item = false)
    (closesNothing : brackets.closes item = false) :
    brackets.excess (item :: items) = brackets.excess items := by
  simp [excess, opensNothing, closesNothing]

/-- What was opened before some items is closed by one of them if more of them close nothing else
than things are open further inside. -/
theorem exists_closedBefore_iff :
    (∃ rest, brackets.ClosedBefore depth items rest) ↔ depth < brackets.excess items := by
  induction items generalizing depth with
  | nil => simp [not_closedBefore_nil, excess]
  | cons item items ih =>
      by_cases opens : brackets.opens item
      · simp only [closedBefore_opener opens, ih, excess_opener opens]
        omega
      by_cases closes : brackets.closes item
      · rcases depth with _ | depth
        · simp [closedBefore_zero_closer closes, excess_closer closes]
        · simp only [closedBefore_closer closes, ih, excess_closer closes]
          omega
      · simp only [Bool.not_eq_true] at opens closes
        simp only [closedBefore_plain opens closes, ih, excess_plain opens closes]

instance (items : List α) : Decidable (∃ rest, brackets.ClosedBefore 0 items rest) :=
  decidable_of_iff _ exists_closedBefore_iff.symm

/-- The number of items that open what no later item closes. -/
def unclosed (brackets : Brackets α) : List α → Nat
  | [] => 0
  | item :: items =>
      if brackets.opens item ∧ ¬ ∃ rest, brackets.ClosedBefore 0 items rest then
        unclosed brackets items + 1
      else
        unclosed brackets items

theorem unclosed_opener (opens : brackets.opens item) :
    brackets.unclosed (item :: items) =
      if brackets.excess items = 0 then brackets.unclosed items + 1
      else brackets.unclosed items := by
  simp [unclosed, opens, exists_closedBefore_iff]

theorem unclosed_of_not_opener (opensNothing : brackets.opens item = false) :
    brackets.unclosed (item :: items) = brackets.unclosed items := by
  simp [unclosed, opensNothing]

end Brackets

end Stencil
