import Mathlib.Data.Rat.Floor
import Mathlib.Tactic.Linarith
import Mathlib.Tactic.Ring
import Missive.Protocol.Universal

/-!
# Exact integer arithmetic

The arithmetic messages between integers, with the exact results that they should have: quotients
are rational numbers, rounded toward zero or downward, and a remainder is what the rounded quotient
leaves.  A message is answered with the exact result if a 64-bit word holds it, and otherwise fails
with an overflow.  There are two exceptions: a remainder is refused where the quotient of the same
division has no word, and a power is refused for an exponent of `2 ^ 32` or more.
-/

namespace Missive

/-! ## Integers that have a word -/

namespace Checked

/-- A 64-bit word holds the integer. -/
def Fits (n : Int) : Prop := -0x8000000000000000 ≤ n ∧ n < 0x8000000000000000

instance (n : Int) : Decidable (Fits n) := inferInstanceAs (Decidable (_ ∧ _))

theorem fits_toInt (x : Int64) : Fits x.toInt := ⟨x.le_toInt, x.toInt_lt⟩

theorem fits?_eq_some_iff {n : Int} {x : Int64} : fits? n = some x ↔ x.toInt = n := by
  unfold fits?
  constructor
  · intro held
    split at held
    · rename_i fits
      cases held
      exact Int64.toInt_ofInt_of_le fits.1 fits.2
    · cases held
  · rintro rfl
    rw [if_pos ⟨x.le_toInt, x.toInt_lt⟩, Int64.ofInt_toInt]

theorem fits?_eq_none_iff {n : Int} : fits? n = none ↔ ¬ Fits n := by
  simp [fits?, Fits]

theorem exists_of_fits {n : Int} (fits : Fits n) : ∃ x : Int64, x.toInt = n :=
  ⟨Int64.ofInt n, Int64.toInt_ofInt_of_le fits.1 fits.2⟩

end Checked

/-! ## Rounded quotients -/

/-- A rational number without its fractional part. -/
def truncated (q : ℚ) : Int := if 0 ≤ q then ⌊q⌋ else ⌈q⌉

section Quotients

variable {x y quotient remainder : Int}

theorem floor_div_eq (split : y * quotient + remainder = x)
    (between : 0 ≤ remainder ∧ remainder < y ∨ y < remainder ∧ remainder ≤ 0) :
    ⌊(x : ℚ) / y⌋ = quotient := by
  have split : (y : ℚ) * quotient + remainder = x := by exact_mod_cast split
  rw [Int.floor_eq_iff]
  rcases between with ⟨low, high⟩ | ⟨low, high⟩
  · have low : (0 : ℚ) ≤ remainder := by exact_mod_cast low
    have high : (remainder : ℚ) < y := by exact_mod_cast high
    have positive : (0 : ℚ) < y := by linarith
    rw [le_div_iff₀ positive, div_lt_iff₀ positive]
    constructor <;> linarith
  · have low : (y : ℚ) < remainder := by exact_mod_cast low
    have high : (remainder : ℚ) ≤ 0 := by exact_mod_cast high
    have negative : (y : ℚ) < 0 := by linarith
    rw [le_div_iff_of_neg negative, div_lt_iff_of_neg negative]
    constructor <;> linarith

theorem tmod_bounds (nonzero : y ≠ 0) :
    (0 ≤ x → 0 ≤ x.tmod y) ∧ (x ≤ 0 → x.tmod y ≤ 0) ∧ (x.tmod y).natAbs < y.natAbs := by
  refine ⟨Int.tmod_nonneg y, ?_, ?_⟩
  · intro negative
    have turned := Int.tmod_nonneg y (Int.neg_nonneg_of_nonpos negative)
    rw [Int.neg_tmod] at turned
    omega
  · rw [Int.natAbs_tmod]
    exact Nat.mod_lt _ (by omega)

theorem truncated_div (nonzero : y ≠ 0) : truncated ((x : ℚ) / y) = x.tdiv y := by
  have split := Int.mul_tdiv_add_tmod x y
  obtain ⟨nonnegative, nonpositive, small⟩ := tmod_bounds (x := x) nonzero
  unfold truncated
  split
  · rename_i upward
    refine floor_div_eq split ?_
    rcases div_nonneg_iff.mp upward with ⟨left, right⟩ | ⟨left, right⟩
    · have := nonnegative (by exact_mod_cast left)
      have : 0 ≤ y := by exact_mod_cast right
      omega
    · have := nonpositive (by exact_mod_cast left)
      have : y ≤ 0 := by exact_mod_cast right
      omega
  · rename_i downward
    have turned : ⌊((-x : Int) : ℚ) / y⌋ = -x.tdiv y := by
      refine floor_div_eq (show y * -x.tdiv y + -x.tmod y = -x by linarith) ?_
      rcases div_neg_iff.mp (not_le.mp downward) with ⟨left, right⟩ | ⟨left, right⟩
      · have := nonnegative (by exact_mod_cast left.le)
        have : y < 0 := by exact_mod_cast right
        omega
      · have := nonpositive (by exact_mod_cast left.le)
        have : 0 < y := by exact_mod_cast right
        omega
    rw [Int.cast_neg, neg_div, Int.floor_neg] at turned
    omega

/-- The quotient rounded downward differs from the one rounded toward zero only where the signs
differ and something remains, and there by one. -/
theorem floor_div_eq_tdiv (nonzero : y ≠ 0) :
    ⌊(x : ℚ) / y⌋ =
      if x.tmod y ≠ 0 ∧ ¬ (x < 0 ↔ y < 0) then x.tdiv y - 1 else x.tdiv y := by
  have split := Int.mul_tdiv_add_tmod x y
  obtain ⟨nonnegative, nonpositive, small⟩ := tmod_bounds (x := x) nonzero
  split
  · rename_i corrected
    refine floor_div_eq (show y * (x.tdiv y - 1) + (x.tmod y + y) = x by linarith) ?_
    omega
  · refine floor_div_eq split ?_
    omega

/-- What the quotient rounded downward leaves. -/
theorem sub_mul_floor_div (nonzero : y ≠ 0) :
    x - y * ⌊(x : ℚ) / y⌋ =
      if x.tmod y ≠ 0 ∧ ¬ (x.tmod y < 0 ↔ y < 0) then x.tmod y + y else x.tmod y := by
  have split := Int.mul_tdiv_add_tmod x y
  obtain ⟨nonnegative, nonpositive, _⟩ := tmod_bounds (x := x) nonzero
  have sameCase : (x.tmod y ≠ 0 ∧ ¬ (x < 0 ↔ y < 0)) ↔
      (x.tmod y ≠ 0 ∧ ¬ (x.tmod y < 0 ↔ y < 0)) := by
    omega
  rw [floor_div_eq_tdiv nonzero]
  simp only [sameCase]
  split <;> linarith

end Quotients

/-! ## Checked operations -/

namespace Checked

variable {x y : Int64}

/-- Only the least integer divided by minus one has a quotient without a word. -/
theorem quotient?_eq_none_iff : quotient? x y = none ↔ x = Int64.minValue ∧ y = -1 := by
  rw [quotient?, fits?_eq_none_iff, ← Int64.toInt_inj, ← Int64.toInt_inj]
  have fitsX := fits_toInt x
  have size := Int.natAbs_tdiv x.toInt y.toInt
  unfold Fits at *
  constructor
  · intro unfit
    have unit : y.toInt.natAbs = 1 := by
      by_contra other
      have smaller : x.toInt.natAbs / y.toInt.natAbs ≤ x.toInt.natAbs / 2 := by
        by_cases zero : y.toInt.natAbs = 0
        · simp [zero]
        · exact Nat.div_le_div_left (by omega) (by decide)
      change _ = x.toInt.natAbs / y.toInt.natAbs at size
      omega
    rcases (show y.toInt = 1 ∨ y.toInt = -1 by omega) with isOne | isMinusOne
    · rw [isOne, Int.tdiv_one] at unfit
      exact (unfit fitsX).elim
    · rw [isMinusOne, Int.tdiv_neg, Int.tdiv_one] at unfit
      exact ⟨by rw [Int64.toInt_minValue]; omega, isMinusOne⟩
  · rintro ⟨isLeast, isMinusOne⟩
    rw [isLeast, isMinusOne]
    decide

theorem signsDiffer_iff : signsDiffer x y = true ↔ ¬ (x.toInt < 0 ↔ y.toInt < 0) := by
  simp [signsDiffer, Int64.lt_iff_toInt_lt]

theorem toInt_ne_zero (nonzero : y ≠ 0) : y.toInt ≠ 0 := by
  rwa [ne_eq, ← Int64.toInt_zero, Int64.toInt_inj]

theorem mod_ne_zero_iff : x % y ≠ 0 ↔ x.toInt.tmod y.toInt ≠ 0 := by
  rw [ne_eq, ne_eq, ← Int64.toInt_inj, Int64.toInt_mod, Int64.toInt_zero]

theorem floorQuotient?_eq (nonzero : y ≠ 0) :
    floorQuotient? x y = fits? ⌊(x.toInt : ℚ) / y.toInt⌋ := by
  rw [floor_div_eq_tdiv (toInt_ne_zero nonzero)]
  unfold floorQuotient?
  cases held : quotient? x y with
  | none =>
      obtain ⟨rfl, rfl⟩ := quotient?_eq_none_iff.mp held
      decide
  | some quotient =>
      have isQuotient := fits?_eq_some_iff.mp held
      simp only [Option.bind_eq_bind, Option.bind_some, mod_ne_zero_iff, signsDiffer_iff]
      split
      · rw [sub?, isQuotient, Int64.toInt_one]
      · exact held.symm

theorem remainder?_eq_tmod :
    remainder? x y =
      if x = Int64.minValue ∧ y = -1 then none else fits? (x.toInt.tmod y.toInt) := by
  simp only [← quotient?_eq_none_iff]
  unfold remainder?
  cases quotient? x y <;> simp

theorem remainder?_eq (nonzero : y ≠ 0) :
    remainder? x y =
      if x = Int64.minValue ∧ y = -1 then none
      else fits? (x.toInt - y.toInt * truncated ((x.toInt : ℚ) / y.toInt)) := by
  have split := Int.mul_tdiv_add_tmod x.toInt y.toInt
  rw [remainder?_eq_tmod, truncated_div (toInt_ne_zero nonzero),
    show x.toInt - y.toInt * x.toInt.tdiv y.toInt = x.toInt.tmod y.toInt by omega]

theorem modulus?_eq (nonzero : y ≠ 0) :
    modulus? x y =
      if x = Int64.minValue ∧ y = -1 then none
      else fits? (x.toInt - y.toInt * ⌊(x.toInt : ℚ) / y.toInt⌋) := by
  by_cases refused : x = Int64.minValue ∧ y = -1
  · obtain ⟨rfl, rfl⟩ := refused
    rfl
  · have small : Fits (x.toInt.tmod y.toInt) := by
      have fitsY := fits_toInt y
      obtain ⟨_, _, bounded⟩ := tmod_bounds (x := x.toInt) (toInt_ne_zero nonzero)
      unfold Fits at *
      omega
    obtain ⟨remainder, isRemainder⟩ := exists_of_fits small
    have answered : remainder? x y = some remainder := by
      rw [remainder?_eq_tmod, if_neg refused, fits?_eq_some_iff, isRemainder]
    have something : remainder ≠ 0 ↔ remainder.toInt ≠ 0 := by
      rw [ne_eq, ne_eq, ← Int64.toInt_inj, Int64.toInt_zero]
    rw [if_neg refused, sub_mul_floor_div (toInt_ne_zero nonzero), ← isRemainder]
    unfold modulus?
    simp only [answered, Option.bind_eq_bind, Option.bind_some, something, signsDiffer_iff]
    split
    · rfl
    · exact (fits?_eq_some_iff.mpr rfl).symm

/-- The powers of a base of two or more outgrow a word at the exponent 64. -/
theorem not_fits_pow {base : Int} (large : 2 ≤ base.natAbs) {exponent : Nat}
    (high : 63 < exponent) : ¬ Fits (base ^ exponent) := by
  have size : 2 ^ 64 ≤ (base ^ exponent).natAbs := by
    rw [Int.natAbs_pow]
    calc 2 ^ 64 ≤ 2 ^ exponent := Nat.pow_le_pow_right (by decide) high
      _ ≤ base.natAbs ^ exponent := Nat.pow_le_pow_left large exponent
  unfold Fits
  omega

theorem pow_of_unit {base : Int} (small : base.natAbs ≤ 1) (exponent : Nat) :
    base ^ (if exponent = 0 then 0 else 2 - exponent % 2) = base ^ exponent := by
  split
  · simp [*]
  · rename_i positive
    rcases (show base = 0 ∨ base = 1 ∨ base = -1 by omega) with rfl | rfl | rfl
    · rw [zero_pow (by omega), zero_pow positive]
    · rw [one_pow, one_pow]
    · rcases Nat.mod_two_eq_zero_or_one exponent with isEven | isOdd
      · rw [isEven, (Nat.even_iff.mpr isEven).neg_one_pow]
        rfl
      · rw [isOdd, (Nat.odd_iff.mpr isOdd).neg_one_pow]
        rfl

theorem power?_eq (x : Int64) (exponent : Nat) :
    power? x exponent = fits? (x.toInt ^ exponent) := by
  unfold power?
  by_cases small : x.toInt.natAbs ≤ 1
  · simp only [small, if_true]
    exact congrArg fits? (pow_of_unit small exponent)
  · by_cases high : 63 < exponent
    · simp only [small, high, if_true, if_false]
      exact (fits?_eq_none_iff.mpr (not_fits_pow (by omega) high)).symm
    · simp only [small, high, if_false]
      rfl

end Checked

/-! ## Messages -/

namespace Arithmetic

/-- The exact result on two integers; the second is not zero where it divides. -/
def exact (operation : Arithmetic) (x y : Int) : Int :=
  match operation with
  | add => x + y
  | subtract => x - y
  | multiply => x * y
  | divide => truncated ((x : ℚ) / y)
  | floorDivide => ⌊(x : ℚ) / y⌋
  | modulo => x - y * ⌊(x : ℚ) / y⌋
  | remainder => x - y * truncated ((x : ℚ) / y)

/-- The message asks for a remainder. -/
def isRemainder : Arithmetic → Bool
  | modulo | remainder => true
  | add | subtract | multiply | divide | floorDivide => false

theorem ofInts?_eq (operation : Arithmetic) {x y : Int64}
    (nonzero : ¬ (operation.divides = true ∧ y = 0)) :
    operation.ofInts? x y =
      if operation.isRemainder = true ∧ x = Int64.minValue ∧ y = -1 then none
      else Checked.fits? (operation.exact x.toInt y.toInt) := by
  cases operation with
  | add | subtract | multiply =>
      rfl
  | divide =>
      have nonzero : y ≠ 0 := fun zero => nonzero ⟨rfl, zero⟩
      simp [ofInts?, Checked.quotient?, exact, isRemainder,
        truncated_div (Checked.toInt_ne_zero nonzero)]
  | floorDivide =>
      have nonzero : y ≠ 0 := fun zero => nonzero ⟨rfl, zero⟩
      simp [ofInts?, Checked.floorQuotient?_eq nonzero, exact, isRemainder]
  | modulo =>
      have nonzero : y ≠ 0 := fun zero => nonzero ⟨rfl, zero⟩
      simp [ofInts?, Checked.modulus?_eq nonzero, exact, isRemainder]
  | remainder =>
      have nonzero : y ≠ 0 := fun zero => nonzero ⟨rfl, zero⟩
      simp [ofInts?, Checked.remainder?_eq nonzero, exact, isRemainder]

theorem ofSelector?_selector (operation : Arithmetic) :
    NumberMessage.ofSelector? operation.selector = some (.arithmetic operation) := by
  cases operation <;> decide

end Arithmetic

namespace Store

/-- What the built-in message leads to. -/
def outcomeOf? (store : Store) (receiver : Value) (selector : Selector) (arguments : List Value) :
    Option (EStateM.Result Cause Store Action) :=
  (store.builtinResponse? receiver selector).map fun response => response arguments store

/-- The message between integers is answered with the integer, and no object changes. -/
def AnswersInteger (store : Store) (receiver : Int64) (selector : Selector)
    (arguments : List Int64) (n : Int) : Prop :=
  ∃ value : Int64, value.toInt = n ∧
    store.outcomeOf? (.int receiver) selector (arguments.map .int) =
      some (.ok (.answer (.int value)) store)

/-- The message between integers fails, and no object changes. -/
def Raises (store : Store) (receiver : Int64) (selector : Selector) (arguments : List Int64)
    (cause : Cause) : Prop :=
  store.outcomeOf? (.int receiver) selector (arguments.map .int) = some (.error cause store)

/-- The message is answered with the exact result if that has a word, and otherwise fails with an
overflow, which is reported for an operation. -/
structure ExactOrOverflow (store : Store) (receiver : Int64) (selector : Selector)
    (arguments : List Int64) (reported : Selector) (exact : Int) : Prop where
  answers : ∀ n, store.AnswersInteger receiver selector arguments n ↔
    Checked.Fits exact ∧ n = exact
  overflows : store.Raises receiver selector arguments (.integerOverflow reported) ↔
    ¬ Checked.Fits exact

/-- What comes out of an operation that may have no result. -/
def checkedOutcome (store : Store) (reported : Selector) :
    Option Int64 → EStateM.Result Cause Store Action
  | some value => .ok (.answer (.int value)) store
  | none => .error (.integerOverflow reported) store

theorem exactOrOverflow {store : Store} {receiver : Int64} {selector reported : Selector}
    {arguments : List Int64} {exact : Int}
    (outcome : store.outcomeOf? (.int receiver) selector (arguments.map .int) =
      some (store.checkedOutcome reported (Checked.fits? exact))) :
    store.ExactOrOverflow receiver selector arguments reported exact := by
  unfold checkedOutcome at outcome
  split at outcome
  · rename_i value held
    obtain rfl := Checked.fits?_eq_some_iff.mp held
    have fits := Checked.fits_toInt value
    constructor
    · intro n
      simp [AnswersInteger, outcome, fits, eq_comm]
    · simp [Raises, outcome, fits]
  · rename_i unfit
    have unfit := Checked.fits?_eq_none_iff.mp unfit
    constructor
    · intro n
      simp [AnswersInteger, outcome, unfit]
    · simp [Raises, outcome, unfit]

/-- A message that a receiver of this kind knows by its selector. -/
theorem outcomeOf?_named {Message : Type} {ofSelector? : Selector → Option Message}
    {perform : Message → Response} {store : Store} {receiver : Value} {selector : Selector}
    {message : Message}
    (responds : store.builtinResponse? receiver selector = (ofSelector? selector).map perform)
    (named : ofSelector? selector = some message) (arguments : List Value) :
    store.outcomeOf? receiver selector arguments = some (perform message arguments store) := by
  unfold outcomeOf?
  rw [responds, named]
  rfl

theorem builtinResponse?_int (store : Store) (x : Int64) (selector : Selector) :
    store.builtinResponse? (.int x) selector =
      (NumberMessage.ofSelector? selector).map (·.perform (.int x)) := rfl

theorem outcomeOf?_arithmetic (store : Store) (operation : Arithmetic) (x y : Int64) :
    store.outcomeOf? (.int x) operation.selector [.int y] =
      some (if operation.divides = true ∧ y = 0 then .error .divisionByZero store
        else store.checkedOutcome operation.selector (operation.ofInts? x y)) := by
  rw [outcomeOf?_named (builtinResponse?_int store x _) operation.ofSelector?_selector]
  change some ((liftExcept (operation.apply (.int x) (.int y)) >>= fun number =>
    answer number.value : Effect Action) store) = _
  by_cases byZero : operation.divides = true ∧ y = 0
  · rw [if_pos byZero, show operation.apply (.int x) (.int y) = .error .divisionByZero from
      if_pos byZero]
    rfl
  · rw [if_neg byZero, show operation.apply (.int x) (.int y) = _ from if_neg byZero]
    cases operation.ofInts? x y <;> rfl

theorem outcomeOf?_power (store : Store) (x y : Int64) (natural : 0 ≤ y) :
    store.outcomeOf? (.int x) "raisedTo:" [.int y] =
      some (if y.toInt < 0x100000000 then
          store.checkedOutcome "raisedTo:" (Checked.power? x y.toInt.toNat)
        else .error (.integerOverflow "raisedTo:") store) := by
  rw [outcomeOf?_named (builtinResponse?_int store x _)
    (show NumberMessage.ofSelector? "raisedTo:" = some .raisedTo by decide)]
  change some (Number.power "raisedTo:" (.int x) (.int y) store) = _
  have natural : 0 ≤ y.toInt := by
    rwa [Int64.le_iff_toInt_le, Int64.toInt_zero] at natural
  unfold Number.power
  simp only [natural, if_true]
  split
  · cases Checked.power? x y.toInt.toNat <;> rfl
  · rfl

theorem raises_divisionByZero_iff (store : Store) (operation : Arithmetic) (x y : Int64) :
    store.Raises x operation.selector [y] .divisionByZero ↔
      operation.divides = true ∧ y = 0 := by
  change store.outcomeOf? (.int x) operation.selector [.int y] = _ ↔ _
  rw [outcomeOf?_arithmetic]
  split
  · simp [*]
  · cases operation.ofInts? x y <;> simp [checkedOutcome, *]

theorem exactOrOverflow_arithmetic (store : Store) (operation : Arithmetic) (x y : Int64)
    (byZero : ¬ (operation.divides = true ∧ y = 0))
    (refused : ¬ (operation.isRemainder = true ∧ x = Int64.minValue ∧ y = -1)) :
    store.ExactOrOverflow x operation.selector [y] operation.selector
      (operation.exact x.toInt y.toInt) := by
  apply exactOrOverflow
  rw [← (operation.ofInts?_eq byZero).trans (if_neg refused)]
  exact (store.outcomeOf?_arithmetic operation x y).trans (congrArg some (if_neg byZero))

theorem exactOrOverflow_power (store : Store) (x : Int64) {y : Int64} (natural : 0 ≤ y)
    (low : y.toInt < 2 ^ 32) :
    store.ExactOrOverflow x "raisedTo:" [y] "raisedTo:" (x.toInt ^ y.toInt.toNat) := by
  apply exactOrOverflow
  rw [← Checked.power?_eq]
  exact (store.outcomeOf?_power x y natural).trans (congrArg some (if_pos low))

theorem raises_of_high_power (store : Store) (x : Int64) {y : Int64} (high : 2 ^ 32 ≤ y.toInt) :
    store.Raises x "raisedTo:" [y] (.integerOverflow "raisedTo:") := by
  have natural : 0 ≤ y := by
    rw [Int64.le_iff_toInt_le, Int64.toInt_zero]
    omega
  exact (store.outcomeOf?_power x y natural).trans (congrArg some (if_neg (by omega)))

theorem exactOrOverflow_negated (store : Store) (x : Int64) :
    store.ExactOrOverflow x "negated" [] "negated" (-x.toInt) := by
  apply exactOrOverflow
  rw [outcomeOf?_named (builtinResponse?_int store x _)
    (show NumberMessage.ofSelector? "negated" = some .negated by decide)]
  change some (Number.checked "negated" (Checked.negate? x) store) = _
  unfold Checked.negate?
  cases Checked.fits? (-x.toInt) <;> rfl

theorem exactOrOverflow_abs (store : Store) (x : Int64) :
    store.ExactOrOverflow x "abs" [] "abs" |x.toInt| := by
  apply exactOrOverflow
  rw [outcomeOf?_named (builtinResponse?_int store x _)
    (show NumberMessage.ofSelector? "abs" = some .abs by decide)]
  change some (Number.checked "abs" (Checked.magnitude? x) store) = _
  unfold Checked.magnitude?
  rw [Int.abs_eq_natAbs]
  cases Checked.fits? x.toInt.natAbs <;> rfl

/-- The overflow of a square is reported for the multiplication. -/
theorem exactOrOverflow_squared (store : Store) (x : Int64) :
    store.ExactOrOverflow x "squared" [] "*" (x.toInt ^ 2) := by
  apply exactOrOverflow
  calc
    store.outcomeOf? (.int x) "squared" [] =
        some (NumberMessage.squared.perform (.int x) [] store) :=
      outcomeOf?_named (builtinResponse?_int store x _) (by decide) []
    _ = store.outcomeOf? (.int x) Arithmetic.multiply.selector [.int x] :=
      (outcomeOf?_named (builtinResponse?_int store x _)
        Arithmetic.multiply.ofSelector?_selector [.int x]).symm
    _ = some (store.checkedOutcome "*" (Checked.fits? (x.toInt ^ 2))) := by
      rw [sq]
      exact store.outcomeOf?_arithmetic .multiply x x

end Store

/-! ## Quotients and remainders together -/

/-- The two numbers make up the division of `x` by `y`, with a remainder on the side of zero on
which `side` is. -/
structure Divides (x y side quotient remainder : Int) : Prop where
  split : quotient * y + remainder = x
  small : remainder.natAbs < y.natAbs
  notBelow : 0 ≤ side → 0 ≤ remainder
  notAbove : side ≤ 0 → remainder ≤ 0

theorem divides_downward {x y : Int} (nonzero : y ≠ 0) :
    Divides x y y ⌊(x : ℚ) / y⌋ (x - y * ⌊(x : ℚ) / y⌋) := by
  obtain ⟨nonnegative, nonpositive, small⟩ := tmod_bounds (x := x) nonzero
  refine ⟨by ring, ?_, ?_, ?_⟩ <;> rw [sub_mul_floor_div nonzero] <;> split <;> omega

theorem divides_towardZero {x y : Int} (nonzero : y ≠ 0) :
    Divides x y x (truncated ((x : ℚ) / y)) (x - y * truncated ((x : ℚ) / y)) := by
  have split := Int.mul_tdiv_add_tmod x y
  obtain ⟨nonnegative, nonpositive, small⟩ := tmod_bounds (x := x) nonzero
  rw [truncated_div nonzero, show x - y * x.tdiv y = x.tmod y by omega]
  exact ⟨by linarith, small, nonnegative, nonpositive⟩

section Laws

variable {store : Store} {x y : Int64} {n : Int}

/-- An answer is the exact result, also where a remainder may be refused. -/
theorem exact_of_answersInteger (operation : Arithmetic)
    (answered : store.AnswersInteger x operation.selector [y] n) :
    ¬ (operation.divides = true ∧ y = 0) ∧ n = operation.exact x.toInt y.toInt := by
  obtain ⟨value, rfl, outcome⟩ := answered
  change store.outcomeOf? (.int x) operation.selector [.int y] = _ at outcome
  rw [Store.outcomeOf?_arithmetic] at outcome
  split at outcome
  · cases outcome
  · rename_i byZero
    refine ⟨byZero, ?_⟩
    rw [operation.ofInts?_eq byZero] at outcome
    split at outcome
    · cases outcome
    · cases held : Checked.fits? (operation.exact x.toInt y.toInt) with
      | none =>
          rw [held] at outcome
          cases outcome
      | some result =>
          rw [held] at outcome
          cases outcome
          exact Checked.fits?_eq_some_iff.mp held

end Laws

/-- Every arithmetic message between integers is answered with the exact result, or fails with an
overflow where that has no word, or with a division by zero.  Two remainders are left out, those of
the least integer by minus one; a power with an exponent of `2 ^ 32` or more always overflows. -/
theorem integers_exact_or_overflow (store : Store) (x y : Int64) :
    (∀ operation : Arithmetic,
      (store.Raises x operation.selector [y] .divisionByZero ↔
        operation.divides = true ∧ y = 0) ∧
      (¬ (operation.divides = true ∧ y = 0) →
        ¬ (operation.isRemainder = true ∧ x = Int64.minValue ∧ y = -1) →
        store.ExactOrOverflow x operation.selector [y] operation.selector
          (operation.exact x.toInt y.toInt))) ∧
    (0 ≤ y → y.toInt < 2 ^ 32 →
      store.ExactOrOverflow x "raisedTo:" [y] "raisedTo:" (x.toInt ^ y.toInt.toNat)) ∧
    (2 ^ 32 ≤ y.toInt → store.Raises x "raisedTo:" [y] (.integerOverflow "raisedTo:")) ∧
    store.ExactOrOverflow x "negated" [] "negated" (-x.toInt) ∧
    store.ExactOrOverflow x "abs" [] "abs" |x.toInt| ∧
    store.ExactOrOverflow x "squared" [] "*" (x.toInt ^ 2) ∧
    (∀ quotient remainder, store.AnswersInteger x "//" [y] quotient →
      store.AnswersInteger x "\\\\" [y] remainder →
        Divides x.toInt y.toInt y.toInt quotient remainder) ∧
    ∀ quotient remainder, store.AnswersInteger x "/" [y] quotient →
      store.AnswersInteger x "rem:" [y] remainder →
        Divides x.toInt y.toInt x.toInt quotient remainder := by
  refine ⟨?_, ?_, ?_, ?_, ?_, ?_, ?_, ?_⟩
  · intro operation
    exact ⟨store.raises_divisionByZero_iff operation x y,
      store.exactOrOverflow_arithmetic operation x y⟩
  · exact store.exactOrOverflow_power x
  · exact store.raises_of_high_power x
  · exact store.exactOrOverflow_negated x
  · exact store.exactOrOverflow_abs x
  · exact store.exactOrOverflow_squared x
  · intro quotient remainder isQuotient isRemainder
    obtain ⟨byZero, rfl⟩ := exact_of_answersInteger .floorDivide isQuotient
    obtain ⟨_, rfl⟩ := exact_of_answersInteger .modulo isRemainder
    exact divides_downward (Checked.toInt_ne_zero fun zero => byZero ⟨rfl, zero⟩)
  · intro quotient remainder isQuotient isRemainder
    obtain ⟨byZero, rfl⟩ := exact_of_answersInteger .divide isQuotient
    obtain ⟨_, rfl⟩ := exact_of_answersInteger .remainder isRemainder
    exact divides_towardZero (Checked.toInt_ne_zero fun zero => byZero ⟨rfl, zero⟩)

theorem integers_exact_or_overflow_minusSeven :
    (¬ (Arithmetic.modulo.divides = true ∧ (2 : Int64) = 0) ∧
      ¬ (Arithmetic.modulo.isRemainder = true ∧ (-7 : Int64) = Int64.minValue ∧ (2 : Int64) = -1) ∧
      Store.empty.AnswersInteger (-7) "\\\\" [2] 1) ∧
    (0 ≤ (2 : Int64) ∧ (2 : Int64).toInt < 2 ^ 32 ∧
      Store.empty.AnswersInteger (-7) "raisedTo:" [2] 49) ∧
    2 ^ 32 ≤ (4294967296 : Int64).toInt ∧
      Store.empty.Raises (-7) "raisedTo:" [4294967296] (.integerOverflow "raisedTo:") := by
  have isRest : Arithmetic.modulo.exact (-7 : Int64).toInt (2 : Int64).toInt = 1 :=
    (sub_mul_floor_div (by decide)).trans (by decide)
  have modulo := ((integers_exact_or_overflow Store.empty (-7) 2).1 .modulo).2
    (by decide) (by decide)
  have power := (integers_exact_or_overflow Store.empty (-7) 2).2.1 (by decide) (by decide)
  have highPower := (integers_exact_or_overflow Store.empty (-7) 4294967296).2.2.1 (by decide)
  refine ⟨⟨by decide, by decide, ?_⟩, ⟨by decide, by decide, ?_⟩, by decide, highPower⟩
  · exact (modulo.answers 1).mpr ⟨isRest ▸ by decide, isRest.symm⟩
  · exact (power.answers 49).mpr ⟨by decide, by decide⟩

/-- The remainders of the least integer by minus one are zero, and the powers of one are one, but
these messages overflow. -/
theorem overflow_of_fitting_results :
    (Store.empty.Raises Int64.minValue "rem:" [-1] (.integerOverflow "rem:") ∧
      Checked.Fits (Arithmetic.remainder.exact Int64.minValue.toInt (-1 : Int64).toInt)) ∧
    (Store.empty.Raises Int64.minValue "\\\\" [-1] (.integerOverflow "\\\\") ∧
      Checked.Fits (Arithmetic.modulo.exact Int64.minValue.toInt (-1 : Int64).toInt)) ∧
    (Store.empty.Raises 1 "raisedTo:" [4294967296] (.integerOverflow "raisedTo:") ∧
      Checked.Fits ((1 : Int64).toInt ^ (4294967296 : Int64).toInt.toNat)) := by
  have noRest : Arithmetic.remainder.exact Int64.minValue.toInt (-1 : Int64).toInt = 0 := by
    rw [Arithmetic.exact, truncated_div (by decide)]
    decide
  have noRestDownward : Arithmetic.modulo.exact Int64.minValue.toInt (-1 : Int64).toInt = 0 :=
    (sub_mul_floor_div (by decide)).trans (by decide)
  refine ⟨⟨rfl, noRest ▸ by decide⟩, ⟨rfl, noRestDownward ▸ by decide⟩,
    ⟨Store.empty.raises_of_high_power 1 (by decide), ?_⟩⟩
  rw [Int64.toInt_one, one_pow]
  decide

end Missive
