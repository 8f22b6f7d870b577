import Stencil.Fault
import Stencil.Proofs.LineCounts
import Stencil.Proofs.PrintedItems

/-!
# Colours

Diagnostics that are rendered with colours differ from those without by escape sequences alone.
Every part of a rendered diagnostic, with colours, becomes the plain part when its escape
sequences are deleted, and this goes for parts one behind the other because no escape sequence
reaches from one part into the next.
-/

namespace Stencil

/-- A character that stands between the opening bracket and the last letter of an escape
sequence. -/
def isStyleParameter (character : Char) : Bool :=
  character.isDigit || character == ';'

/-- What is behind an escape sequence that stands at the front of a text: escape, an opening
bracket, digits and semicolons, and the letter `m`. -/
def behindEscapeSequence? : List Char → Option (List Char)
  | '\x1b' :: '[' :: rest =>
      match rest.dropWhile isStyleParameter with
      | 'm' :: behind => some behind
      | _ => none
  | _ => none

theorem length_behindEscapeSequence?_lt {text behind : List Char}
    (found : behindEscapeSequence? text = some behind) : behind.length < text.length := by
  unfold behindEscapeSequence? at found
  split at found
  · rename_i rest
    have shorter := List.length_dropWhile_le isStyleParameter rest
    split at found
    · rename_i same
      obtain rfl := Option.some.inj found
      rw [same, List.length_cons] at shorter
      simp only [List.length_cons]
      omega
    · cases found
  · cases found

/-- A text whose escape sequences are deleted. -/
def withoutEscapeSequences : List Char → List Char
  | [] => []
  | character :: rest =>
      match _found : behindEscapeSequence? (character :: rest) with
      | some behind => withoutEscapeSequences behind
      | none => character :: withoutEscapeSequences rest
termination_by text => text.length
decreasing_by
  · exact length_behindEscapeSequence?_lt ‹_›
  · simp

section Deletion

variable {text behind : List Char}

theorem withoutEscapeSequences_skip (found : behindEscapeSequence? text = some behind) :
    withoutEscapeSequences text = withoutEscapeSequences behind := by
  cases text with
  | nil => cases found
  | cons character rest =>
      rw [withoutEscapeSequences]
      split
      · rename_i same
        rw [Option.some.inj (same.symm.trans found)]
      · rename_i same
        cases same.symm.trans found

theorem withoutEscapeSequences_keep {character : Char}
    (notFound : behindEscapeSequence? (character :: text) = none) :
    withoutEscapeSequences (character :: text) = character :: withoutEscapeSequences text := by
  rw [withoutEscapeSequences]
  split
  · rename_i same
    cases same.symm.trans notFound
  · rfl

/-- Before the first escape character nothing is deleted. -/
theorem withoutEscapeSequences_append {front : List Char} (escapeFree : '\x1b' ∉ front)
    (rest : List Char) :
    withoutEscapeSequences (front ++ rest) = front ++ withoutEscapeSequences rest := by
  induction front with
  | nil => rfl
  | cons character front ih =>
      obtain ⟨other, others⟩ := not_or.mp (mt List.mem_cons.mpr escapeFree)
      have notFound : behindEscapeSequence? (character :: (front ++ rest)) = none := by
        unfold behindEscapeSequence?
        split
        · rename_i same
          exact absurd (List.cons.inj same).1.symm other
        · rfl
      rw [List.cons_append, withoutEscapeSequences_keep notFound, ih others, List.cons_append]

theorem withoutEscapeSequences_style (style : Style) (rest : List Char) :
    withoutEscapeSequences ((escapeSequence style.parameters).toList ++ rest) =
      withoutEscapeSequences rest := by
  refine withoutEscapeSequences_skip ?_
  cases style <;> rfl

theorem withoutEscapeSequences_noStyle (rest : List Char) :
    withoutEscapeSequences ((escapeSequence "0").toList ++ rest) = withoutEscapeSequences rest :=
  withoutEscapeSequences_skip rfl

end Deletion

/-- There is no escape character in a text. -/
def EscapeFree (text : String) : Prop := '\x1b' ∉ text.toList

instance (text : String) : Decidable (EscapeFree text) :=
  inferInstanceAs (Decidable ('\x1b' ∉ text.toList))

/-- With its escape sequences deleted a text is another one, whatever comes behind it. -/
def ErasesTo (colored plain : String) : Prop :=
  ∀ rest, withoutEscapeSequences (colored.toList ++ rest) =
    plain.toList ++ withoutEscapeSequences rest

namespace ErasesTo

variable {colored plain text : String}

theorem self (escapeFree : EscapeFree text) : ErasesTo text text :=
  withoutEscapeSequences_append escapeFree

theorem append {coloredNext plainNext : String} (first : ErasesTo colored plain)
    (next : ErasesTo coloredNext plainNext) :
    ErasesTo (colored ++ coloredNext) (plain ++ plainNext) := by
  intro rest
  simp only [String.toList_append, List.append_assoc]
  rw [first, next]

theorem paint (style : Style) (escapeFree : EscapeFree text) :
    ErasesTo (paint true style text) (paint false style text) := by
  intro rest
  simp only [Stencil.paint, if_true, Bool.false_eq_true, if_false, String.toList_append,
    List.append_assoc]
  rw [withoutEscapeSequences_style, withoutEscapeSequences_append escapeFree,
    withoutEscapeSequences_noStyle]

theorem kept (first : ErasesTo colored plain) (escapeFree : EscapeFree text := by decide) :
    ErasesTo (colored ++ text) (plain ++ text) :=
  first.append (.self escapeFree)

theorem painted (first : ErasesTo colored plain) (style : Style)
    (escapeFree : EscapeFree text := by decide) :
    ErasesTo (colored ++ Stencil.paint true style text)
      (plain ++ Stencil.paint false style text) :=
  first.append (.paint style escapeFree)

theorem intercalate {separator : String} (escapeFree : EscapeFree separator) {α : Type}
    {colored plain : α → String} {items : List α}
    (each : ∀ item ∈ items, ErasesTo (colored item) (plain item)) :
    ErasesTo (separator.intercalate (items.map colored))
      (separator.intercalate (items.map plain)) := by
  induction items with
  | nil => exact fun rest => rfl
  | cons first items ih =>
      obtain ⟨head, tail⟩ := List.forall_mem_cons.mp each
      cases items with
      | nil => simpa using head
      | cons second items =>
          simp only [List.map_cons, String.intercalate_cons_cons] at ih ⊢
          exact (head.kept escapeFree).append (ih tail)

/-- Deleting the escape sequences of a whole text. -/
theorem erase (erases : ErasesTo colored plain) :
    withoutEscapeSequences colored.toList = plain.toList := by
  have whole := erases []
  rwa [List.append_nil, withoutEscapeSequences, List.append_nil] at whole

end ErasesTo

namespace EscapeFree

theorem append {first second : String} (front : EscapeFree first) (back : EscapeFree second) :
    EscapeFree (first ++ second) := by
  rw [EscapeFree, String.toList_append]
  exact List.not_mem_append front back

theorem run {character : Char} (other : character ≠ '\x1b') (count : Nat) :
    EscapeFree (Diagnostic.run character count) := by
  rw [EscapeFree, Diagnostic.run, String.toList_ofList]
  exact fun member => other (List.eq_of_mem_replicate member).symm

theorem number (number : Nat) : EscapeFree (toString number) := by
  rw [EscapeFree, Nat.toString_eq_ofList_toDigits, String.toList_ofList]
  intro member
  cases decimalDigits_isDigit number _ member

/-- A line of a source without escape characters has none. -/
theorem line {source : Source} (content : EscapeFree source.content) {number : Nat}
    {line : String} (isLine : source.line? number = some line) : EscapeFree line := by
  cases number with
  | zero => cases isLine
  | succ index =>
      obtain ⟨piece, isPiece, rfl⟩ := Option.map_eq_some_iff.mp isLine
      obtain ⟨front, back, split, -⟩ := lineStartsFrom_piece 0 source.characters isPiece
      rw [EscapeFree, String.toList_ofList]
      intro member
      have inPiece : '\x1b' ∈ piece := (List.rdropWhile_prefix (· == '\r') piece).mem member
      refine content ?_
      show '\x1b' ∈ source.characters
      rw [split]
      exact List.mem_append_right _ (List.mem_append_left _ inPiece)

end EscapeFree

namespace Diagnostic

/-- No text of a diagnostic has an escape character. -/
structure IsEscapeFree (diagnostic : Diagnostic) : Prop where
  code : ∀ code ∈ diagnostic.code, EscapeFree code
  message : EscapeFree diagnostic.message
  label : ∀ label ∈ diagnostic.label, EscapeFree label
  help : ∀ help ∈ diagnostic.help, EscapeFree help
  note : ∀ note ∈ diagnostic.note, EscapeFree note

theorem remark_erasesTo (style : Style) {title : String} (escapeFree : EscapeFree title)
    {text? : Option String} (texts : ∀ text ∈ text?, EscapeFree text) :
    ErasesTo (remark true style title text?) (remark false style title text?) := by
  cases text? with
  | none => exact show ErasesTo "" "" from .self (by decide)
  | some text =>
      have indented : ErasesTo "  " "  " := .self (by decide)
      exact indented.painted style escapeFree |>.kept |>.kept (texts text rfl) |>.kept

namespace IsEscapeFree

variable {diagnostic : Diagnostic} (escapeFree : diagnostic.IsEscapeFree)

include escapeFree

theorem heading : EscapeFree diagnostic.heading := by
  unfold Diagnostic.heading
  split
  · rename_i code isCode
    exact EscapeFree.append (.append (by decide) (escapeFree.code code isCode)) (by decide)
  · decide

theorem snippet {line : String} (lineFree : EscapeFree line) :
    ErasesTo (diagnostic.snippet true line) (diagnostic.snippet false line) := by
  have gutter : EscapeFree (run ' ' (toString diagnostic.extent.start.line).length) :=
    .run (by decide) _
  refine ErasesTo.self gutter |>.kept |>.painted .cyan |>.kept
    |>.painted .cyan (.number _) |>.kept |>.painted .cyan |>.kept |>.kept lineFree |>.kept
    |>.kept gutter |>.kept |>.painted .cyan |>.kept |>.kept (.run (by decide) _)
    |>.painted .red (.run (by decide) _) |>.append ?_ |>.kept
  split
  · rename_i label isLabel
    exact ErasesTo.self (by decide) |>.painted .boldRed (escapeFree.label label isLabel)
  · exact .self (by decide)

theorem render {source : Source} (name : EscapeFree source.name)
    (content : EscapeFree source.content) :
    ErasesTo (diagnostic.render true source) (diagnostic.render false source) := by
  have position : EscapeFree diagnostic.extent.start.text :=
    .append (.append (.number _) (by decide)) (.number _)
  refine ErasesTo.paint .red escapeFree.heading
    |>.kept |>.painted .boldWhite escapeFree.message |>.kept
    |>.kept |>.painted .cyan |>.kept |>.kept name |>.kept |>.kept position |>.kept
    |>.append ?_
    |>.append (remark_erasesTo .green (by decide) escapeFree.help)
    |>.append (remark_erasesTo .blue (by decide) escapeFree.note)
  split
  · rename_i line isLine
    exact escapeFree.snippet (.line content isLine)
  · exact .self (by decide)

end IsEscapeFree

end Diagnostic

/-- Colours only add escape sequences: whatever the source and the diagnostics, if none of their
texts has an escape character, then what is rendered with colours becomes what is rendered
without when its escape sequences are deleted. -/
theorem colours_add_escapeSequences (source : Source) (diagnostics : List Diagnostic)
    (name : EscapeFree source.name) (content : EscapeFree source.content)
    (escapeFree : ∀ diagnostic ∈ diagnostics, diagnostic.IsEscapeFree) :
    withoutEscapeSequences (Diagnostic.renderAll diagnostics true source).toList =
      (Diagnostic.renderAll diagnostics false source).toList :=
  ErasesTo.erase (.intercalate (by decide) fun diagnostic member =>
    (escapeFree diagnostic member).render name content)

theorem colours_add_escapeSequences_directive :
    let source : Source := ⟨"<template>", "insert $x #endif;"⟩
    let diagnostics := [(Fault.unknownDirective "endif").diagnosticAt (source.extent 10 16)]
    Diagnostic.renderAll diagnostics true source ≠ Diagnostic.renderAll diagnostics false source ∧
      withoutEscapeSequences (Diagnostic.renderAll diagnostics true source).toList =
        ("error[E0010]: unknown directive '#endif'\n  --> <template>:1:11\n  |\n" ++
          "1 | insert $x #endif;\n  |           ^^^^^^ not a known directive\n" ++
          "  help: did you mean '#end'?\n  note: write '##' for a literal '#'\n").toList := by
  intro source diagnostics
  have escapeFree : ∀ diagnostic ∈ diagnostics, diagnostic.IsEscapeFree := by
    refine List.forall_mem_singleton.mpr ⟨?_, ?_, ?_, ?_, ?_⟩ <;> decide +kernel
  refine ⟨by decide +kernel, ?_⟩
  rw [colours_add_escapeSequences source diagnostics (by decide) (by decide) escapeFree]
  refine congrArg String.toList ?_
  decide +kernel

end Stencil
