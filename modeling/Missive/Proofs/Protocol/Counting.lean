import Missive.Proofs.Numeric.Conversion
import Missive.Proofs.Protocol.Arithmetic
import Missive.Proofs.Protocol.Loops

/-!
# Counting loops

A loop that counts with integers visits an arithmetic progression: the start, the start and one
step, and so on, as long as the term is not beyond the stop.  The terms are taken as unbounded
integers.  All of them have a word; the number after the last one need not have one, and the counter
ends there instead of wrapping.
-/

namespace Missive

/-! ## Progressions -/

/-- A number that is not on the other side of the stop, in the direction of the step. -/
def NotBeyond (stop step n : Int) : Prop := if 0 < step then n ≤ stop else stop ≤ n

instance (stop step n : Int) : Decidable (NotBeyond stop step n) :=
  inferInstanceAs (Decidable (if 0 < step then n ≤ stop else stop ≤ n))

/-- How many terms of a progression are not beyond the stop. -/
def terms (start stop step : Int) : Nat := ((stop - start).fdiv step + 1).toNat

/-- The terms of a progression that are not beyond the stop. -/
def progression (start stop step : Int) : List Int :=
  (List.range (terms start stop step)).map fun (place : Nat) => start + place * step

section Progressions

variable {start stop step : Int}

theorem lt_terms_iff (nonzero : step ≠ 0) (place : Nat) :
    place < terms start stop step ↔ NotBeyond stop step (start + place * step) := by
  have within : place < terms start stop step ↔ (place : Int) ≤ (stop - start).fdiv step := by
    unfold terms
    omega
  rw [within]
  unfold NotBeyond
  split
  · rename_i upward
    rw [Int.fdiv_eq_ediv_of_nonneg _ upward.le, Int.le_ediv_iff_mul_le upward]
    omega
  · rename_i downward
    have turned : (stop - start).fdiv step = (start - stop) / -step := by
      rw [← Int.fdiv_eq_ediv_of_nonneg _ (by omega), ← Int.neg_fdiv_neg]
      congr 1
      omega
    rw [turned, Int.le_ediv_iff_mul_le (by omega), Int.mul_neg]
    omega

theorem terms_of_notBeyond (nonzero : step ≠ 0) (within : NotBeyond stop step start) :
    terms start stop step = terms (start + step) stop step + 1 := by
  apply eq_of_forall_lt_iff
  intro place
  cases place with
  | zero =>
      rw [lt_terms_iff nonzero]
      simpa using within
  | succ place =>
      rw [Nat.add_lt_add_iff_right, lt_terms_iff nonzero, lt_terms_iff nonzero]
      push_cast
      rw [show start + (place + 1) * step = start + step + place * step by ring]

theorem progression_of_notBeyond (nonzero : step ≠ 0) (within : NotBeyond stop step start) :
    progression start stop step = start :: progression (start + step) stop step := by
  unfold progression
  rw [terms_of_notBeyond nonzero within, List.range_succ_eq_map, List.map_cons, List.map_map]
  congr 1
  · simp
  · refine List.map_congr_left fun place _ => ?_
    simp only [Function.comp_apply]
    push_cast
    ring

theorem progression_of_beyond (nonzero : step ≠ 0) (beyond : ¬ NotBeyond stop step start) :
    progression start stop step = [] := by
  have none : ¬ 0 < terms start stop step := by
    rw [lt_terms_iff nonzero]
    simpa using beyond
  rw [progression, show terms start stop step = 0 by omega]
  rfl

end Progressions

/-! ## Counters -/

namespace Counter

/-- A counter that answers these numbers one after the other and then nothing. -/
inductive Yields : Counter → List Value → Prop where
  | done {counter : Counter} (ended : counter.advance? = none) : Yields counter []
  | next {counter after : Counter} {value : Value} {values : List Value}
      (answered : counter.advance? = some (value, after)) (rest : Yields after values) :
      Yields counter (value :: values)

/-- What a counter answers when it is asked for the next number, and the counter afterwards. -/
def ask (counter : Counter) : Option Value × Counter :=
  match counter.advance? with
  | some (value, after) => (some value, after)
  | none => (none, counter)

/-- The answers of a counter that is asked again and again, by their places. -/
def answers (counter : Counter) : Nat → Option Value
  | 0 => counter.ask.1
  | place + 1 => counter.ask.2.answers place

theorem answers_of_end {counter : Counter} (ended : counter.advance? = none) (place : Nat) :
    counter.answers place = none := by
  have asked : counter.ask = (none, counter) := by
    rw [ask, ended]
  induction place with
  | zero =>
      rw [answers, asked]
  | succ place hypothesis =>
      rw [answers, asked, hypothesis]

theorem Yields.answers {counter : Counter} {values : List Value} (yields : counter.Yields values)
    (place : Nat) : counter.answers place = values[place]? := by
  induction yields generalizing place with
  | done ended =>
      rw [answers_of_end ended, List.getElem?_nil]
  | @next counter after value values answered rest hypothesis =>
      have asked : counter.ask = (some value, after) := by
        rw [ask, answered]
      cases place with
      | zero =>
          rw [Counter.answers, asked, List.getElem?_cons_zero]
      | succ place =>
          rw [Counter.answers, asked, hypothesis, List.getElem?_cons_succ]

/-- An integer that has a word, as a value. -/
def term (n : Int) : Value := .int (Int64.ofInt n)

section Integers

variable {next start stop step : Int64}

theorem inRange_iff : (if 0 < step then next ≤ stop else stop ≤ next) ↔
    NotBeyond stop.toInt step.toInt next.toInt := by
  unfold NotBeyond
  simp only [Int64.lt_iff_toInt_lt, Int64.le_iff_toInt_le, Int64.toInt_zero]

theorem advance?_of_notBeyond (within : NotBeyond stop.toInt step.toInt next.toInt) :
    (Counter.int (some next) stop step).advance? =
      some (.int next, .int (Checked.add? next step) stop step) :=
  if_pos (inRange_iff.mpr within)

theorem advance?_of_beyond (beyond : ¬ NotBeyond stop.toInt step.toInt next.toInt) :
    (Counter.int (some next) stop step).advance? = none :=
  if_neg fun inRange => beyond (inRange_iff.mp inRange)

/-- The terms lie between the start and the stop, so they have words as these two do. -/
theorem fits_of_notBeyond {place : Nat}
    (within : NotBeyond stop.toInt step.toInt (start.toInt + place * step.toInt)) :
    Checked.Fits (start.toInt + place * step.toInt) := by
  have fitsStart := Checked.fits_toInt start
  have fitsStop := Checked.fits_toInt stop
  unfold Checked.Fits NotBeyond at *
  split at within
  · rename_i upward
    have : 0 ≤ place * step.toInt := Int.mul_nonneg (by omega) upward.le
    omega
  · rename_i downward
    have : place * step.toInt ≤ 0 := Int.mul_nonpos_of_nonneg_of_nonpos (by omega) (by omega)
    omega

/-- A number without a word is beyond the stop, which has one. -/
theorem beyond_of_unfit (unfit : ¬ Checked.Fits (next.toInt + step.toInt)) :
    ¬ NotBeyond stop.toInt step.toInt (next.toInt + step.toInt) := by
  have fitsStop := Checked.fits_toInt stop
  have fitsNext := Checked.fits_toInt next
  unfold Checked.Fits NotBeyond at *
  split <;> omega

/-- A counter of integers answers the terms of the progression that are not beyond the stop. -/
theorem yields_progression (nonzero : step ≠ 0) (start : Int64) :
    (Counter.int (some start) stop step).Yields
      ((progression start.toInt stop.toInt step.toInt).map term) := by
  have nonzero := Checked.toInt_ne_zero nonzero
  induction count : terms start.toInt stop.toInt step.toInt generalizing start with
  | zero =>
      have beyond : ¬ NotBeyond stop.toInt step.toInt start.toInt := by
        intro within
        have := terms_of_notBeyond nonzero within
        omega
      rw [progression_of_beyond nonzero beyond]
      exact .done (advance?_of_beyond beyond)
  | succ count hypothesis =>
      have within : NotBeyond stop.toInt step.toInt start.toInt := by
        simpa using (lt_terms_iff nonzero 0).mp (by omega)
      rw [progression_of_notBeyond nonzero within, List.map_cons, term, Int64.ofInt_toInt]
      apply Yields.next (advance?_of_notBeyond within)
      cases held : Checked.add? start step with
      | none =>
          -- the next number has no word, so the stop has been reached
          have beyond : ¬ NotBeyond stop.toInt step.toInt (start.toInt + step.toInt) :=
            beyond_of_unfit (Checked.fits?_eq_none_iff.mp held)
          rw [progression_of_beyond nonzero beyond]
          exact .done rfl
      | some next =>
          have isSum := Checked.fits?_eq_some_iff.mp held
          rw [← isSum]
          apply hypothesis
          have := terms_of_notBeyond nonzero within
          rw [isSum]
          omega

end Integers

end Counter

/-! ## Loops -/

namespace Iteration

variable {body : BlockRef} {receiver : Value}

theorem begin_count (counter : Counter) : (count body counter receiver).begin =
    match counter.advance? with
    | some (value, after) => return callThen body [value] (count body after receiver)
    | none => return .answer receiver := rfl

theorem course_count {counter : Counter} {values : List Value} (yields : counter.Yields values)
    (store : Store) (answers : List BlockAnswer) :
    course (count body counter receiver).begin store answers =
      visits body (values.map fun value => [value]) (returns receiver) store answers := by
  induction yields generalizing store answers with
  | @done counter ended =>
      have ends : (count body counter receiver).begin store = .ok (.answer receiver) store := by
        rw [begin_count, ended]
        rfl
      rw [List.map_nil, visits_nil]
      exact course_of_value ends answers
  | @next counter after value values answered rest hypothesis =>
      have calls : (count body counter receiver).begin store =
          .ok (callThen body [value] (count body after receiver)) store := by
        rw [begin_count, answered]
        rfl
      rw [List.map_cons]
      cases answers with
      | nil =>
          rw [visits_of_call]
          exact course_of_call calls
      | cons answer others =>
          rw [visits_of_answer, course_of_answer calls]
          exact congrArg (Course.after · body [value]) (hypothesis answer.store others)

end Iteration

section Messages

variable {store : Store} {block : BlockRef} {start stop step : Int64}

theorem course_countTo (nonzero : step ≠ 0) (selector : Selector) (answers : List BlockAnswer) :
    course (Number.countTo selector (.int start) (.int stop) (.int step) block) store answers =
      visits block ((progression start.toInt stop.toInt step.toInt).map fun n => [Counter.term n])
        (returns (.int start)) store answers := by
  have fits := Checked.fits_toInt step
  have isStep : (Number.int step).toFloat.isZero = false :=
    Binary64.isZero_ofInt (Checked.toInt_ne_zero nonzero) (by unfold Checked.Fits at fits; omega)
  have begins : Number.countTo selector (.int start) (.int stop) (.int step) block =
      (Iteration.count block (.int (some start) stop step) (.int start)).begin := by
    simp only [Number.countTo, isStep]
    rfl
  rw [begins, Iteration.course_count (Counter.yields_progression nonzero start), List.map_map]
  rfl

theorem course_toByDo (isBlock : store.get? block.id = some (.block block.closure))
    (nonzero : step ≠ 0) (answers : List BlockAnswer) :
    store.courseOf? (.int start) "to:by:do:" [.int stop, .int step, block.value] answers =
      some (visits block
        ((progression start.toInt stop.toInt step.toInt).map fun n => [Counter.term n])
        (returns (.int start)) store answers) := by
  have responds : store.builtinResponse? (.int start) "to:by:do:" =
      some (NumberMessage.toByDo.perform (.int start)) := rfl
  rw [courseOf?_of_response responds]
  exact congrArg some ((course_blockArgument isBlock _ answers).trans
    (course_countTo nonzero "to:by:do:" answers))

theorem course_toDo (isBlock : store.get? block.id = some (.block block.closure))
    (answers : List BlockAnswer) :
    store.courseOf? (.int start) "to:do:" [.int stop, block.value] answers =
      some (visits block
        ((progression start.toInt stop.toInt 1).map fun n => [Counter.term n])
        (returns (.int start)) store answers) := by
  have responds : store.builtinResponse? (.int start) "to:do:" =
      some (NumberMessage.toDo.perform (.int start)) := rfl
  rw [courseOf?_of_response responds]
  exact congrArg some ((course_blockArgument isBlock _ answers).trans
    (course_countTo (show (1 : Int64) ≠ 0 by decide) "to:do:" answers))

end Messages

/-- A counter of integers answers the start, the start and one step, and so on, each as the exact
integer, up to the last one that is not beyond the stop, and then nothing for ever.  The counting
loops call their block with just these numbers in this order and are answered with the start. -/
theorem counting_visits_progression (start stop step : Int64) (nonzero : step ≠ 0) :
    (∀ place < terms start.toInt stop.toInt step.toInt,
      ∃ value : Int64, value.toInt = start.toInt + place * step.toInt ∧
        (Counter.int (some start) stop step).answers place = some (.int value)) ∧
    (∀ place ≥ terms start.toInt stop.toInt step.toInt,
      (Counter.int (some start) stop step).answers place = none) ∧
    (∀ place : Nat, place < terms start.toInt stop.toInt step.toInt ↔
      NotBeyond stop.toInt step.toInt (start.toInt + place * step.toInt)) ∧
    ∀ (store : Store) (block : BlockRef), store.get? block.id = some (.block block.closure) →
      ∀ answers : List BlockAnswer,
        store.courseOf? (.int start) "to:by:do:" [.int stop, .int step, block.value] answers =
          some (visits block
            ((progression start.toInt stop.toInt step.toInt).map fun n => [Counter.term n])
            (returns (.int start)) store answers) ∧
        store.courseOf? (.int start) "to:do:" [.int stop, block.value] answers =
          some (visits block
            ((progression start.toInt stop.toInt 1).map fun n => [Counter.term n])
            (returns (.int start)) store answers) := by
  have yields : (Counter.int (some start) stop step).Yields _ :=
    Counter.yields_progression nonzero start
  have nonzeroInt := Checked.toInt_ne_zero nonzero
  refine ⟨?_, ?_, lt_terms_iff nonzeroInt, ?_⟩
  · intro place inRange
    obtain ⟨value, isTerm⟩ := Checked.exists_of_fits
      (Counter.fits_of_notBeyond ((lt_terms_iff nonzeroInt place).mp inRange))
    refine ⟨value, isTerm, ?_⟩
    rw [yields.answers place, progression, List.map_map, List.getElem?_map,
      List.getElem?_range inRange, Option.map_some, Function.comp_apply, ← isTerm, Counter.term,
      Int64.ofInt_toInt]
  · intro place beyond
    rw [yields.answers place, List.getElem?_eq_none]
    simpa [progression] using beyond
  · intro store block isBlock answers
    exact ⟨course_toByDo isBlock nonzero answers, course_toDo isBlock answers⟩

/-- Counting by threes up to the greatest integer: the number after the last term has no word. -/
theorem counting_visits_progression_upToGreatest :
    (3 : Int64) ≠ 0 ∧ threeNumbersAndBlock.get? ⟨1⟩ = some (.block default) ∧
      (Counter.int (some 9223372036854775801) 9223372036854775807 3).answers 2 =
        some (.int 9223372036854775807) ∧
      (Counter.int (some 9223372036854775801) 9223372036854775807 3).answers 3 = none ∧
      threeNumbersAndBlock.courseOf? (.int 9223372036854775801) "to:by:do:"
          [.int 9223372036854775807, .int 3, .ref ⟨1⟩] [⟨.nil, .empty⟩, ⟨.nil, .empty⟩] =
        some ⟨[(⟨⟨1⟩, default⟩, [.int 9223372036854775801]),
          (⟨⟨1⟩, default⟩, [.int 9223372036854775804]),
          (⟨⟨1⟩, default⟩, [.int 9223372036854775807])], .waiting⟩ := by
  obtain ⟨terms, ends, _, courses⟩ :=
    counting_visits_progression 9223372036854775801 9223372036854775807 3 (by decide)
  obtain ⟨last, isLast, answered⟩ := terms 2 (by decide)
  have isGreatest : last = 9223372036854775807 := Int64.toInt_inj.mp (isLast.trans (by decide))
  refine ⟨by decide, rfl, ?_, ends 3 (by decide), ?_⟩
  · rw [answered, isGreatest]
  · exact (courses threeNumbersAndBlock ⟨⟨1⟩, default⟩ rfl _).1

end Missive
