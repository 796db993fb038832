import Missive.Proofs.Numeric.Conversion
import Missive.Proofs.Protocol.Arithmetic

/-!
# Comparing integers

Two messages compare an integer with another one exactly.  The message that asks whether an integer
lies between two others compares the floating-point numbers that are nearest to the integers, so it
can only be wrong in one way: it takes an integer for a bound with which it shares this number.
Below `2 ^ 53` no two integers share one.
-/

namespace Missive

namespace Number

theorem natAbs_le (x : Int64) : x.toInt.natAbs ≤ 2 ^ 63 := by
  have fits := Checked.fits_toInt x
  unfold Checked.Fits at fits
  omega

/-- Both integers become the same floating-point number. -/
def SameFloat (x y : Int64) : Prop := Binary64.ofInt x.toInt = Binary64.ofInt y.toInt

instance (x y : Int64) : Decidable (SameFloat x y) :=
  inferInstanceAs (Decidable (Binary64.ofInt x.toInt = Binary64.ofInt y.toInt))

/-- The integer is smaller than `2 ^ 53`, whatever its sign. -/
def Small (x : Int64) : Prop := x.toInt.natAbs < 2 ^ 53

instance (x : Int64) : Decidable (Small x) := inferInstanceAs (Decidable (_ < _))

theorem le_toFloat_iff (x y : Int64) :
    (Number.int x).toFloat.le (Number.int y).toFloat = true ↔ x ≤ y ∨ SameFloat x y := by
  rw [Int64.le_iff_toInt_le]
  exact Binary64.le_ofInt_iff (natAbs_le x) (natAbs_le y)

/-- The integers are told apart as floating-point numbers, if they are two. -/
def Apart (x y : Int64) : Prop := SameFloat x y → x = y

instance (x y : Int64) : Decidable (Apart x y) :=
  inferInstanceAs (Decidable (SameFloat x y → x = y))

theorem apart_of_small {x y : Int64} (small : Small x ∨ Small y) : Apart x y := fun same =>
  Int64.toInt_inj.mp (Binary64.eq_of_ofInt_eq (natAbs_le x) (natAbs_le y) small same)

theorem Apart.le {x y : Int64} (apart : Apart x y) (within : x ≤ y ∨ SameFloat x y) : x ≤ y := by
  rcases within with ordered | same
  · exact ordered
  · rw [apart same]
    exact Int64.le_refl y

end Number

namespace Store

open Number

/-- The message between integers is answered with the truth value, and no object changes. -/
def AnswersBool (store : Store) (receiver : Int64) (selector : Selector) (arguments : List Int64)
    (value : Bool) : Prop :=
  store.outcomeOf? (.int receiver) selector (arguments.map .int) =
    some (.ok (.answer (.bool value)) store)

theorem AnswersBool.iff {store : Store} {receiver : Int64} {selector : Selector}
    {arguments : List Int64} {value : Bool}
    (answers : store.AnswersBool receiver selector arguments value) (other : Bool) :
    store.AnswersBool receiver selector arguments other ↔ value = other := by
  unfold AnswersBool at *
  rw [answers]
  simp

theorem ofSelector?_compare (comparison : Comparison) :
    NumberMessage.ofSelector? comparison.selector = some (.compare comparison) := by
  cases comparison <;> decide

section Messages

variable (store : Store) (x low high : Int64)

/-- Comparisons of integers are exact. -/
theorem answersBool_compare (comparison : Comparison) (y : Int64) :
    store.AnswersBool x comparison.selector [y] (comparison.holds (compare x.toInt y.toInt)) :=
  outcomeOf?_named (builtinResponse?_int store x _) (ofSelector?_compare comparison) [.int y]

theorem answersBool_greaterOrEqual : store.AnswersBool x ">=" [low] (decide (low ≤ x)) := by
  have answered := answersBool_compare store x .greaterOrEqual low
  have holds : Comparison.greaterOrEqual.holds (compare x.toInt low.toInt) = decide (low ≤ x) := by
    rw [Bool.eq_iff_iff, decide_eq_true_iff, Int64.le_iff_toInt_le, ← not_lt,
      ← compare_lt_iff_lt]
    simp [Comparison.holds]
  rwa [holds] at answered

theorem answersBool_lessOrEqual : store.AnswersBool x "<=" [high] (decide (x ≤ high)) := by
  have answered := answersBool_compare store x .lessOrEqual high
  have holds : Comparison.lessOrEqual.holds (compare x.toInt high.toInt) = decide (x ≤ high) := by
    rw [Bool.eq_iff_iff, decide_eq_true_iff, Int64.le_iff_toInt_le, ← not_lt,
      ← compare_gt_iff_gt]
    simp [Comparison.holds]
  rwa [holds] at answered

/-- An integer lies between two others also where it shares its floating-point number with one of
them. -/
theorem answersBool_between :
    store.AnswersBool x "between:and:" [low, high]
      (decide ((low ≤ x ∨ SameFloat low x) ∧ (x ≤ high ∨ SameFloat x high))) := by
  have answered := outcomeOf?_named (builtinResponse?_int store x _)
    (show NumberMessage.ofSelector? "between:and:" = some .between by decide)
    [.int low, .int high]
  simp only [← le_toFloat_iff, Bool.decide_and, Bool.decide_eq_true]
  exact answered

end Messages

/-- The comparisons are exact, and an integer that both find within the bounds lies between them.
The converse holds where the integer is told apart from either bound. -/
theorem between_agrees_with_comparisons (store : Store) (x low high : Int64) :
    store.AnswersBool x ">=" [low] (decide (low ≤ x)) ∧
    store.AnswersBool x "<=" [high] (decide (x ≤ high)) ∧
    store.AnswersBool x "between:and:" [low, high]
      (decide ((low ≤ x ∨ SameFloat low x) ∧ (x ≤ high ∨ SameFloat x high))) ∧
    (store.AnswersBool x ">=" [low] true → store.AnswersBool x "<=" [high] true →
      store.AnswersBool x "between:and:" [low, high] true) ∧
    (Apart low x → Apart x high →
      (store.AnswersBool x "between:and:" [low, high] true ↔
        store.AnswersBool x ">=" [low] true ∧ store.AnswersBool x "<=" [high] true)) := by
  have above := answersBool_greaterOrEqual store x low
  have below := answersBool_lessOrEqual store x high
  have between := answersBool_between store x low high
  refine ⟨above, below, between, ?_, ?_⟩
  · rw [above.iff, below.iff, between.iff]
    intro isAbove isBelow
    rw [decide_eq_true_iff] at *
    exact ⟨.inl isAbove, .inl isBelow⟩
  · intro lowApart highApart
    rw [above.iff, below.iff, between.iff, decide_eq_true_iff, decide_eq_true_iff,
      decide_eq_true_iff]
    constructor
    · rintro ⟨isAbove, isBelow⟩
      exact ⟨lowApart.le isAbove, highApart.le isBelow⟩
    · rintro ⟨isAbove, isBelow⟩
      exact ⟨.inl isAbove, .inl isBelow⟩

/-- The greatest small integer is not between the two that follow it, which themselves are the same
floating-point number. -/
theorem between_agrees_with_comparisons_greatestSmall :
    Small 9007199254740991 ∧
    (Apart 9007199254740992 9007199254740991 ∧ Apart 9007199254740991 9007199254740993 ∧
      ¬ empty.AnswersBool 9007199254740991 "between:and:"
        [9007199254740992, 9007199254740993] true) ∧
    ¬ Apart 9007199254740992 9007199254740993 := by
  have small : Small 9007199254740991 := by decide
  have lowApart : Apart 9007199254740992 9007199254740991 := apart_of_small (.inr small)
  have highApart : Apart 9007199254740991 9007199254740993 := apart_of_small (.inl small)
  obtain ⟨above, -, -, -, agrees⟩ := between_agrees_with_comparisons empty 9007199254740991
    9007199254740992 9007199254740993
  refine ⟨small, ⟨lowApart, highApart, fun between => ?_⟩, by decide⟩
  exact absurd (above.iff true |>.mp ((agrees lowApart highApart).mp between).1) (by decide)

end Store

end Missive
