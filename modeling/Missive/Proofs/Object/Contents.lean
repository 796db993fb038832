import Mathlib.Logic.Relation
import Missive.Proofs.Object.Comparison

/-!
# What values contain

A comparison looks into arrays and dictionaries.  It crashes for two reasons only.  Without end it
is only where an object contains itself, perhaps by way of others: otherwise the parts of a value
involve fewer objects than the value.  And it meets a dictionary that is being changed only where
one of the values involves that dictionary.
-/

namespace Missive

/-- The values that equality compares when it looks into an object. -/
def Object.contents : Object → List Value
  | .array items => items
  | .dictionary entries => entries.flatMap fun entry => [entry.1, entry.2]
  | .block _ | .record .. | .classObject _ => []

theorem Object.mem_contents_dictionary {entries : List (Value × Value)} {entry : Value × Value}
    (member : entry ∈ entries) :
    entry.1 ∈ (Object.dictionary entries).contents ∧
      entry.2 ∈ (Object.dictionary entries).contents := by
  constructor <;> exact List.mem_flatMap.mpr ⟨entry, member, by simp⟩

namespace Store

/-- The value is an array or a dictionary that contains the other one. -/
def Contains (store : Store) (whole part : Value) : Prop :=
  ∃ id object, whole = .ref id ∧ store.get? id = some object ∧ part ∈ object.contents

/-- The other value is the value itself, or what it contains, or what that contains, and so on. -/
abbrev Involves (store : Store) : Value → Value → Prop := Relation.ReflTransGen store.Contains

/-- The value involves nothing that contains itself. -/
def Acyclic (store : Store) (value : Value) : Prop :=
  ∀ part, store.Involves value part → ¬ Relation.TransGen store.Contains part part

/-! ## Weights -/

section Weights

variable {store : Store} {whole inner : Value}

theorem Acyclic.of_contains (acyclic : store.Acyclic whole)
    (contains : store.Contains whole inner) : store.Acyclic inner :=
  fun part involves => acyclic part (involves.head contains)

open Classical in
/-- How many objects a value involves. -/
noncomputable def weight (store : Store) (value : Value) : Nat :=
  ((Finset.range store.cells.size).filter fun index =>
    store.Involves value (.ref ⟨index⟩)).card

theorem weight_le_size (store : Store) (value : Value) :
    store.weight value ≤ store.cells.size := by
  classical
  exact (Finset.card_filter_le _ _).trans_eq (Finset.card_range _)

theorem weight_lt (acyclic : store.Acyclic whole) (contains : store.Contains whole inner) :
    store.weight inner < store.weight whole := by
  classical
  obtain ⟨id, object, rfl, found, member⟩ := contains
  have contains : store.Contains (.ref id) inner := ⟨id, object, rfl, found, member⟩
  have inside := index_lt_of_get? found
  unfold weight
  apply Finset.card_lt_card
  rw [Finset.ssubset_iff_of_subset]
  · -- the value itself is not among what its part involves
    refine ⟨id.index, ?_, ?_⟩
    · simp [inside, Relation.ReflTransGen.refl]
    · intro back
      have back := (Finset.mem_filter.mp back).2
      exact acyclic _ .refl (.head' contains back)
  · intro index involved
    simp only [Finset.mem_filter] at involved ⊢
    exact ⟨involved.1, involved.2.head contains⟩

end Weights

/-! ## Crashes -/

section Crashes

variable {store : Store} {held : Option ObjectId} {depth fuel : Nat} {a b : Value} {cause : Crash}

/-- A level of a comparison crashes over the two objects themselves, or a part of it has crashed. -/
theorem Level.crash {step : Comparer → Except Crash Bool} {compare : Comparer}
    (level : Level store held depth a b step) (crashed : step compare = .error cause) :
    (cause = .alreadyBorrowed ∧ ∃ id, held = some id ∧ (a = .ref id ∨ b = .ref id)) ∨
      ∃ x y, store.Contains a x ∧ store.Contains b y ∧
        ∃ deeper, compare deeper x y = .error cause ∨ compare deeper y x = .error cause := by
  cases level with
  | same _ | numbers _ | apart _ _ =>
      cases crashed
  | borrowed _ isA isB isHeld =>
      cases crashed
      rcases isHeld with isLeft | isRight
      · exact Or.inl ⟨rfl, _, isLeft, Or.inl isA⟩
      · exact Or.inl ⟨rfl, _, isRight, Or.inr isB⟩
  | @arrays id other xs ys _ _ isA isB foundA foundB _ =>
      obtain ⟨⟨x, y⟩, isPair, crashes⟩ := crash_of_allM crashed
      obtain ⟨inXs, inYs⟩ := List.of_mem_zip isPair
      exact Or.inr ⟨x, y, ⟨id, _, isA, foundA, inXs⟩, ⟨other, _, isB, foundB, inYs⟩, _,
        Or.inl crashes⟩
  | @dictionaries id other xs ys _ _ isA isB foundA foundB _ _ =>
      obtain ⟨x, inXs, crashes⟩ := crash_of_allM crashed
      obtain ⟨keyX, valueX⟩ := Object.mem_contents_dictionary inXs
      rcases Except.bind_eq_error.mp crashes with searching | ⟨found, isFound, comparing⟩
      · obtain ⟨y, inYs, crashes⟩ := crash_of_findM? searching
        exact Or.inr ⟨x.1, y.1, ⟨id, _, isA, foundA, keyX⟩,
          ⟨other, _, isB, foundB, (Object.mem_contents_dictionary inYs).1⟩, _, Or.inr crashes⟩
      · cases found with
        | none =>
            cases comparing
        | some y =>
            have inYs := mem_of_findM? isFound
            exact Or.inr ⟨x.2, y.2, ⟨id, _, isA, foundA, valueX⟩,
              ⟨other, _, isB, foundB, (Object.mem_contents_dictionary inYs).2⟩, _,
              Or.inl comparing⟩

/-- A comparison that crashes has met a dictionary that is being changed, or it has no end. -/
theorem crash_of_equalsAt (crashed : store.equalsAt held fuel depth a b = .error cause) :
    cause = .endlessComparison ∨ cause = .alreadyBorrowed ∧
      ∃ id, held = some id ∧ (store.Involves a (.ref id) ∨ store.Involves b (.ref id)) := by
  induction fuel generalizing depth a b with
  | zero =>
      cases crashed
      exact Or.inl rfl
  | succ fuel inductionHypothesis =>
      obtain ⟨step, level, isStep⟩ := store.exists_level held depth a b
      rw [equalsAt_succ, isStep] at crashed
      rcases level.crash crashed with ⟨isBorrow, id, isHeld, isId⟩ |
        ⟨x, y, containsX, containsY, deeper, partCrashed⟩
      · refine Or.inr ⟨isBorrow, id, isHeld, isId.imp ?_ ?_⟩
        · rintro rfl
          exact .refl
        · rintro rfl
          exact .refl
      · rcases partCrashed with partCrashed | partCrashed
        · refine (inductionHypothesis partCrashed).imp_right ?_
          rintro ⟨isBorrow, id, isHeld, involves⟩
          exact ⟨isBorrow, id, isHeld, involves.imp (.head containsX) (.head containsY)⟩
        · refine (inductionHypothesis partCrashed).imp_right ?_
          rintro ⟨isBorrow, id, isHeld, involves⟩
          exact ⟨isBorrow, id, isHeld, involves.symm.imp (.head containsX) (.head containsY)⟩

/-- Where no dictionary is being changed, only a comparison without end crashes. -/
theorem endless_of_equals (crashed : store.equals none a b = .error cause) :
    cause = .endlessComparison := by
  rcases crash_of_equalsAt crashed with isEndless | ⟨_, _, impossible, _⟩
  · exact isEndless
  · cases impossible

/-- Values without cycles are compared to an end, by induction on how much they involve. -/
theorem not_endless_of_acyclic (acyclicA : store.Acyclic a) (acyclicB : store.Acyclic b)
    (depth : Nat) :
    store.equalsAt held store.equalityFuel depth a b ≠ .error .endlessComparison := by
  generalize isBound : store.weight a + store.weight b = bound
  induction bound using Nat.strongRecOn generalizing a b depth with
  | ind bound inductionHypothesis =>
      intro endless
      obtain ⟨step, level, isStep⟩ := store.exists_level held depth a b
      rw [equalsAt_fixed, isStep] at endless
      rcases level.crash endless with ⟨impossible, _⟩ |
        ⟨x, y, containsX, containsY, deeper, partEndless⟩
      · cases impossible
      · have lighterX := weight_lt acyclicA containsX
        have lighterY := weight_lt acyclicB containsY
        have acyclicX := acyclicA.of_contains containsX
        have acyclicY := acyclicB.of_contains containsY
        rcases partEndless with partEndless | partEndless
        · exact inductionHypothesis _ (by omega) acyclicX acyclicY deeper rfl partEndless
        · exact inductionHypothesis _ (by omega) acyclicY acyclicX deeper rfl partEndless

/-- Where no dictionary is being changed, values without cycles are either equal or not. -/
theorem equalsAt_isOk (acyclicA : store.Acyclic a) (acyclicB : store.Acyclic b) (depth : Nat) :
    ∃ answer, store.equalsAt none store.equalityFuel depth a b = .ok answer := by
  cases compared : store.equalsAt none store.equalityFuel depth a b with
  | ok answer =>
      exact ⟨answer, rfl⟩
  | error cause =>
      rcases crash_of_equalsAt compared with rfl | ⟨_, _, impossible, _⟩
      · exact (not_endless_of_acyclic acyclicA acyclicB depth compared).elim
      · cases impossible

end Crashes

end Store

end Missive
