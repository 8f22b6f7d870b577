import Stencil.Proofs.DateTexts

/-!
# Conversions of what was converted

The macros for integers, truth values, texts and dates convert the text of their argument.  Each
of them reads the text of its own result and gives the same result again.
-/

namespace Stencil

namespace Builtin

/-- The macros that convert any value into one of a certain kind. -/
def conversions : List Builtin :=
  [int, long, boolean, string, verbatim, date]

section Stable

variable {text : String} {result : Value}

theorem readInteger_text {width : Nat} (narrow : width ≤ 64)
    (read : readInteger width text = .ok result) :
    readInteger width result.text = .ok result := by
  obtain ⟨number, isNumber, rfl⟩ := Option.map_eq_some_iff.mp (orUnreadable_eq_ok_iff.mp read)
  obtain ⟨-, isWord⟩ := (readWord?_eq_some_iff narrow).mp isNumber
  have spelled : SpellsInteger (integerText number.toInt).toList number.toInt :=
    readInteger?_eq_some_iff.mp (readInteger?_integerText number.toInt)
  exact readInteger_eq_ok_iff.mpr ((readWord?_eq_some_iff narrow).mpr ⟨spelled, isWord⟩)

theorem readBoolean_booleanText (value : Bool) :
    readBoolean (Value.booleanText value) = .ok (.boolean value) := by
  cases value <;> rfl

theorem readBoolean_text (read : readBoolean text = .ok result) :
    readBoolean result.text = .ok result := by
  have isBoolean := orUnreadable_eq_ok_iff.mp read
  dsimp only at isBoolean
  split at isBoolean
  · cases isBoolean
    exact readBoolean_booleanText true
  · split at isBoolean
    · cases isBoolean
      exact readBoolean_booleanText false
    · cases isBoolean

theorem readUsualDate_text (read : readUsualDate text = .ok result) :
    readUsualDate result.text = .ok result := by
  obtain ⟨moment, isWhole, rfl⟩ := isWhole_of_readUsualDate read
  exact isWhole.readUsualDate_text

end Stable

theorem apply_date (value : Value) : date.toMacro.apply [value] = readUsualDate value.text := by
  simp only [toMacro, value?, Option.getD_some]

end Builtin

/-- What a conversion gives it gives again for its own result.  The macro `date` gives the
moments of the calendar without a fraction of a second and nothing else, in every year and in
leap seconds, and each of them is read back from its text. -/
theorem conversions_stable :
    (∀ builtin ∈ Builtin.conversions, ∀ value result,
      builtin.toMacro.apply [value] = .ok result → builtin.toMacro.apply [result] = .ok result) ∧
    (∀ result, (∃ value, Builtin.date.toMacro.apply [value] = .ok result) ↔
      ∃ moment : Moment, moment.IsWhole ∧ result = .date moment) ∧
    ∀ moment : Moment, moment.IsWhole →
      Builtin.date.toMacro.apply [.string moment.text] = .ok (.date moment) := by
  have readBack (moment : Moment) (isWhole : moment.IsWhole) :
      Builtin.date.toMacro.apply [.string moment.text] = .ok (.date moment) := by
    rw [Builtin.apply_date]
    exact isWhole.readUsualDate_text
  refine ⟨fun builtin converts value result done => ?_, fun result => ⟨?_, ?_⟩, readBack⟩
  · simp only [Builtin.conversions, List.mem_cons, List.not_mem_nil, or_false] at converts
    rcases converts with rfl | rfl | rfl | rfl | rfl | rfl
    · exact Builtin.readInteger_text (by decide) done
    · exact Builtin.readInteger_text (by decide) done
    · exact Builtin.readBoolean_text done
    · cases done
      rfl
    · cases done
      rfl
    · rw [Builtin.apply_date] at done ⊢
      exact Builtin.readUsualDate_text done
  · rintro ⟨value, done⟩
    rw [Builtin.apply_date] at done
    exact isWhole_of_readUsualDate done
  · rintro ⟨moment, isWhole, rfl⟩
    exact ⟨_, readBack moment isWhole⟩

theorem conversions_stable_leapSecond :
    let converted : Value := .date ⟨⟨-44, 3, 15⟩, ⟨23, 59, 59, 1000000000⟩⟩
    Builtin.date.toMacro.apply [.string "-44-3-15 23:59:60"] = .ok converted ∧
      converted.text = "-0044-03-15T23:59:60" ∧
        Builtin.date.toMacro.apply [converted] = .ok converted := by
  intro converted
  have done : Builtin.date.toMacro.apply [.string "-44-3-15 23:59:60"] = .ok converted := by
    rfl
  exact ⟨done, by decide +kernel, conversions_stable.1 .date (by decide) _ converted done⟩

end Stencil
