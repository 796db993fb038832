import Mathlib.Data.Finset.Card
import Mathlib.Data.Finset.Prod
import Missive.Object.Dictionary
import Missive.Proofs.Answers
import Missive.Proofs.Object.Store

/-!
# Comparisons and how far they go down

One level of a comparison compares the contents of two objects, and the fuel counts the levels.
With more fuel a comparison answers what it has answered before.  The comparisons that can follow
each other are those of two objects at some depth, and there are only so many of these: a comparison
that has not come to an end within that number of levels has none, however much fuel there is.
-/

namespace Missive

/-! ## Tests that may crash -/

section Tests

variable {α : Type} {test other : α → Except Crash Bool} {decided : α → Bool} {items : List α}
  {cause : Crash}

theorem findPosition_eq_ok (answers : ∀ item ∈ items, test item = .ok (decided item)) :
    findPosition test items = .ok (items.findIdx? decided) := by
  induction items with
  | nil =>
      rfl
  | cons item rest inductionHypothesis =>
      obtain ⟨first, others⟩ := List.forall_mem_cons.mp answers
      rw [findPosition, first, List.findIdx?_cons, inductionHypothesis others]
      cases decided item with
      | false | true =>
          rfl

theorem findM?_eq_ok (answers : ∀ item ∈ items, test item = .ok (decided item)) :
    items.findM? test = .ok (items.find? decided) := by
  induction items with
  | nil =>
      rfl
  | cons item rest inductionHypothesis =>
      obtain ⟨first, others⟩ := List.forall_mem_cons.mp answers
      rw [List.findM?, first, List.find?_cons]
      cases decided item with
      | false =>
          exact inductionHypothesis others
      | true =>
          rfl

theorem allM_eq_ok (answers : ∀ item ∈ items, test item = .ok (decided item)) :
    items.allM test = .ok (items.all decided) := by
  induction items with
  | nil =>
      rfl
  | cons item rest inductionHypothesis =>
      obtain ⟨first, others⟩ := List.forall_mem_cons.mp answers
      rw [List.allM, first, List.all_cons]
      cases decided item with
      | false =>
          rfl
      | true =>
          exact inductionHypothesis others

theorem passes_of_findPosition {index : Nat} (found : findPosition test items = .ok (some index)) :
    ∃ inside : index < items.length, test items[index] = .ok true := by
  induction items generalizing index with
  | nil =>
      cases found
  | cons item rest inductionHypothesis =>
      obtain ⟨passes, first, further⟩ := Except.bind_eq_ok.mp found
      cases passes with
      | true =>
          cases further
          exact ⟨Nat.succ_pos _, first⟩
      | false =>
          obtain ⟨answer, searched, isIndex⟩ := Except.bind_eq_ok.mp further
          obtain ⟨before, rfl, rfl⟩ := Option.map_eq_some_iff.mp (Except.ok.inj isIndex)
          obtain ⟨inside, passes⟩ := inductionHypothesis searched
          exact ⟨Nat.succ_lt_succ inside, passes⟩

theorem fails_of_findPosition (missed : findPosition test items = .ok none) :
    ∀ item ∈ items, test item = .ok false := by
  induction items with
  | nil =>
      exact fun item impossible => (List.not_mem_nil impossible).elim
  | cons item rest inductionHypothesis =>
      obtain ⟨passes, first, further⟩ := Except.bind_eq_ok.mp missed
      cases passes with
      | true =>
          cases further
      | false =>
          obtain ⟨answer, searched, isNone⟩ := Except.bind_eq_ok.mp further
          rw [Option.map_eq_none_iff.mp (Except.ok.inj isNone)] at searched
          exact List.forall_mem_cons.mpr ⟨first, inductionHypothesis searched⟩

/-- A search crashes where one of its tests does. -/
theorem crash_of_findPosition (crashed : findPosition test items = .error cause) :
    ∃ item ∈ items, test item = .error cause := by
  induction items with
  | nil =>
      cases crashed
  | cons item rest inductionHypothesis =>
      rcases Except.bind_eq_error.mp crashed with first | ⟨passes, _, further⟩
      · exact ⟨item, List.mem_cons_self, first⟩
      · cases passes with
        | true =>
            cases further
        | false =>
            rcases Except.bind_eq_error.mp further with further | ⟨_, _, impossible⟩
            · obtain ⟨culprit, isItem, crashes⟩ := inductionHypothesis further
              exact ⟨culprit, List.mem_cons_of_mem _ isItem, crashes⟩
            · cases impossible

theorem crash_of_anyM (crashed : items.anyM test = .error cause) :
    ∃ item ∈ items, test item = .error cause := by
  induction items with
  | nil =>
      cases crashed
  | cons item rest inductionHypothesis =>
      rcases Except.bind_eq_error.mp crashed with first | ⟨passes, _, further⟩
      · exact ⟨item, List.mem_cons_self, first⟩
      · cases passes with
        | true =>
            cases further
        | false =>
            obtain ⟨culprit, isItem, crashes⟩ := inductionHypothesis further
            exact ⟨culprit, List.mem_cons_of_mem _ isItem, crashes⟩

theorem crash_of_findM? (crashed : items.findM? test = .error cause) :
    ∃ item ∈ items, test item = .error cause := by
  induction items with
  | nil =>
      cases crashed
  | cons item rest inductionHypothesis =>
      rcases Except.bind_eq_error.mp crashed with first | ⟨passes, _, further⟩
      · exact ⟨item, List.mem_cons_self, first⟩
      · cases passes with
        | true =>
            cases further
        | false =>
            obtain ⟨culprit, isItem, crashes⟩ := inductionHypothesis further
            exact ⟨culprit, List.mem_cons_of_mem _ isItem, crashes⟩

theorem crash_of_allM (crashed : items.allM test = .error cause) :
    ∃ item ∈ items, test item = .error cause := by
  induction items with
  | nil =>
      cases crashed
  | cons item rest inductionHypothesis =>
      rcases Except.bind_eq_error.mp crashed with first | ⟨passes, _, further⟩
      · exact ⟨item, List.mem_cons_self, first⟩
      · cases passes with
        | false =>
            cases further
        | true =>
            obtain ⟨culprit, isItem, crashes⟩ := inductionHypothesis further
            exact ⟨culprit, List.mem_cons_of_mem _ isItem, crashes⟩

theorem mem_of_findM? {item : α} (found : items.findM? test = .ok (some item)) : item ∈ items := by
  induction items with
  | nil =>
      cases found
  | cons first rest inductionHypothesis =>
      obtain ⟨passes, _, further⟩ := Except.bind_eq_ok.mp found
      cases passes with
      | true =>
          cases further
          exact List.mem_cons_self
      | false =>
          exact List.mem_cons_of_mem _ (inductionHypothesis further)

end Tests

/-! ## One level of a comparison -/

/-- Two arrays or two dictionaries of the same size. -/
def Object.Matches : Object → Object → Prop
  | .array xs, .array ys => xs.length = ys.length
  | .dictionary xs, .dictionary ys => xs.length = ys.length
  | _, _ => False

/-- A way to compare two values at a depth of nesting. -/
abbrev Comparer := Nat → Value → Value → Except Crash Bool

namespace Store

/-- One level of a comparison, whose parts are compared by another comparison. -/
def equalsStep (store : Store) (held : Option ObjectId) (compare : Comparer) : Comparer :=
  fun depth a b =>
    if a.identical b then return true
    else if maxDepth < depth then return false
    else
      match store.see a, store.see b with
      | .int x, .float y => return (Binary64.ofInt x.toInt).numericEq y
      | .float x, .int y => return (Binary64.ofInt y.toInt).numericEq x
      | .float x, .float y => return x.numericEq y
      | .array _ xs, .array _ ys =>
        if xs.length = ys.length then
          (xs.zip ys).allM fun (x, y) => compare (depth + 1) x y
        else return false
      | .dictionary left xs, .dictionary right ys =>
        if held = some left ∨ held = some right then throw .alreadyBorrowed
        else if xs.length = ys.length then
          xs.allM fun (key, x) => do
            match ← ys.findM? fun entry => compare 0 entry.1 key with
            | some (_, y) => compare (depth + 1) x y
            | none => return false
        else return false
      | _, _ => return false

theorem equalsAt_succ (store : Store) (held : Option ObjectId) (fuel : Nat) :
    store.equalsAt held (fuel + 1) = store.equalsStep held (store.equalsAt held fuel) := by
  funext depth a b
  rw [equalsAt]
  rfl

/-- What one level of a comparison can be. -/
inductive Level (store : Store) (held : Option ObjectId) (depth : Nat) (a b : Value) :
    (Comparer → Except Crash Bool) → Prop
  | same : a = b → Level store held depth a b fun _ => .ok true
  /-- Numbers of which one is a floating-point number. -/
  | numbers {x : Binary64} {answer : Bool} : store.see a = .float x ∨ store.see b = .float x →
      Level store held depth a b fun _ => .ok answer
  /-- There is nothing to be compared, or it is too deep down. -/
  | apart : a ≠ b → (depth ≤ maxDepth → ∀ id other left right, a = .ref id → b = .ref other →
        store.get? id = some left → store.get? other = some right → ¬ left.Matches right) →
      Level store held depth a b fun _ => .ok false
  | arrays {id other : ObjectId} {xs ys : List Value} : a ≠ b → depth ≤ maxDepth → a = .ref id →
      b = .ref other → store.get? id = some (.array xs) → store.get? other = some (.array ys) →
      xs.length = ys.length →
      Level store held depth a b fun compare =>
        (xs.zip ys).allM fun (x, y) => compare (depth + 1) x y
  | borrowed {id other : ObjectId} : depth ≤ maxDepth → a = .ref id → b = .ref other →
      held = some id ∨ held = some other →
      Level store held depth a b fun _ => .error .alreadyBorrowed
  | dictionaries {id other : ObjectId} {xs ys : List (Value × Value)} : a ≠ b →
      depth ≤ maxDepth → a = .ref id → b = .ref other → store.get? id = some (.dictionary xs) →
      store.get? other = some (.dictionary ys) → ¬ (held = some id ∨ held = some other) →
      xs.length = ys.length →
      Level store held depth a b fun compare =>
        xs.allM fun (key, x) => do
          match ← ys.findM? fun entry => compare 0 entry.1 key with
          | some (_, y) => compare (depth + 1) x y
          | none => return false

/-- Two objects that do not match are apart. -/
theorem apart_of_found {store : Store} {depth : Nat} {a b : Value} {id other : ObjectId}
    {left right : Object} (isA : a = .ref id) (isB : b = .ref other)
    (foundA : store.get? id = some left) (foundB : store.get? other = some right)
    (unlike : ¬ left.Matches right) :
    depth ≤ maxDepth → ∀ id other left right, a = .ref id → b = .ref other →
      store.get? id = some left → store.get? other = some right → ¬ left.Matches right := by
  intro _ id other left right isId isOther isLeft isRight
  cases isA.symm.trans isId
  cases isB.symm.trans isOther
  cases foundA.symm.trans isLeft
  cases foundB.symm.trans isRight
  exact unlike

theorem exists_level (store : Store) (held : Option ObjectId) (depth : Nat) (a b : Value) :
    ∃ step, Level store held depth a b step ∧
      ∀ compare, store.equalsStep held compare depth a b = step compare := by
  refine ⟨fun compare => store.equalsStep held compare depth a b, ?_, fun _ => rfl⟩
  unfold equalsStep
  by_cases same : a = b
  · have identical : a.identical b = true := beq_iff_eq.mpr same
    simp only [identical, if_true]
    exact .same same
  · have differ : a.identical b = false := beq_eq_false_iff_ne.mpr same
    simp only [differ, Bool.false_eq_true, if_false]
    by_cases deep : maxDepth < depth
    · simp only [deep, if_true]
      exact .apart same fun shallow => (Nat.not_le_of_lt deep shallow).elim
    · simp only [deep, if_false]
      have shallow := Nat.le_of_not_lt deep
      split
      · rename_i seen
        exact .numbers (Or.inr seen)
      · rename_i seen _
        exact .numbers (Or.inl seen)
      · rename_i seen _
        exact .numbers (Or.inl seen)
      · rename_i id xs other ys seenA seenB
        obtain ⟨isA, foundA⟩ := of_see (congrArg Seen.object? seenA)
        obtain ⟨isB, foundB⟩ := of_see (congrArg Seen.object? seenB)
        by_cases sameLength : xs.length = ys.length
        · simp only [sameLength, if_true]
          exact .arrays same shallow isA isB foundA foundB sameLength
        · simp only [sameLength, if_false]
          exact .apart same (apart_of_found isA isB foundA foundB sameLength)
      · rename_i id xs other ys seenA seenB
        obtain ⟨isA, foundA⟩ := of_see (congrArg Seen.object? seenA)
        obtain ⟨isB, foundB⟩ := of_see (congrArg Seen.object? seenB)
        by_cases isHeld : held = some id ∨ held = some other
        · simp only [isHeld, if_true]
          exact .borrowed shallow isA isB isHeld
        · simp only [isHeld, if_false]
          by_cases sameLength : xs.length = ys.length
          · simp only [sameLength, if_true]
            exact .dictionaries same shallow isA isB foundA foundB isHeld sameLength
          · simp only [sameLength, if_false]
            exact .apart same (apart_of_found isA isB foundA foundB sameLength)
      · rename_i notArrays notDictionaries
        refine .apart same fun _ id other left right isId isOther isLeft isRight alike => ?_
        have seenA := congrArg store.see isId
        have seenB := congrArg store.see isOther
        unfold Object.Matches at alike
        split at alike
        · simp only [see, isLeft] at seenA
          simp only [see, isRight] at seenB
          exact notArrays _ _ _ _ seenA seenB
        · simp only [see, isLeft] at seenA
          simp only [see, isRight] at seenB
          exact notDictionaries _ _ _ _ seenA seenB
        · exact alike

end Store

/-! ## Fuel -/

/-- The second computation answers as the first one does, unless that has run out of fuel. -/
def Outlasts {α : Type} (longer shorter : Except Crash α) : Prop :=
  shorter = .error .endlessComparison ∨ longer = shorter

namespace Outlasts

variable {α β : Type}

theorem refl (computation : Except Crash α) : Outlasts computation computation := Or.inr rfl

theorem trans {longest longer shorter : Except Crash α} (first : Outlasts longest longer)
    (second : Outlasts longer shorter) : Outlasts longest shorter := by
  rcases second with ranOut | rfl
  · exact Or.inl ranOut
  · exact first

theorem bind {longer shorter : Except Crash α} {further next : α → Except Crash β}
    (first : Outlasts longer shorter) (second : ∀ answer, Outlasts (further answer) (next answer)) :
    Outlasts (longer >>= further) (shorter >>= next) := by
  rcases first with rfl | rfl
  · exact Or.inl rfl
  · cases longer with
    | error _ =>
        exact .refl _
    | ok answer =>
        exact second answer

theorem findM? {test other : α → Except Crash Bool}
    (outlasts : ∀ item, Outlasts (other item) (test item))
    (items : List α) : Outlasts (items.findM? other) (items.findM? test) := by
  induction items with
  | nil =>
      exact .refl _
  | cons item rest inductionHypothesis =>
      refine bind (outlasts item) fun passes => ?_
      cases passes with
      | true =>
          exact .refl _
      | false =>
          exact inductionHypothesis

theorem allM {test other : α → Except Crash Bool}
    (outlasts : ∀ item, Outlasts (other item) (test item))
    (items : List α) : Outlasts (items.allM other) (items.allM test) := by
  induction items with
  | nil =>
      exact .refl _
  | cons item rest inductionHypothesis =>
      refine bind (outlasts item) fun passes => ?_
      cases passes with
      | true =>
          exact inductionHypothesis
      | false =>
          exact .refl _

end Outlasts

namespace Store

variable {store : Store} {held : Option ObjectId}

theorem equalsStep_outlasts {longer shorter : Comparer}
    (outlasts : ∀ depth a b, Outlasts (longer depth a b) (shorter depth a b)) (depth : Nat)
    (a b : Value) :
    Outlasts (store.equalsStep held longer depth a b)
      (store.equalsStep held shorter depth a b) := by
  obtain ⟨step, level, isStep⟩ := store.exists_level held depth a b
  rw [isStep, isStep]
  cases level with
  | same _ | numbers _ | apart _ _ | borrowed _ _ _ _ =>
      exact .refl _
  | arrays _ _ _ _ _ _ _ =>
      refine .allM (fun pair => ?_) _
      exact outlasts (depth + 1) pair.1 pair.2
  | dictionaries _ _ _ _ _ _ _ _ =>
      refine .allM (fun entry => .bind (.findM? (fun other => ?_) _) fun found => ?_) _
      · exact outlasts 0 other.1 entry.1
      · cases found with
        | none =>
            exact .refl _
        | some other =>
            exact outlasts (depth + 1) entry.2 other.2

theorem equalsAt_succ_outlasts (fuel depth : Nat) (a b : Value) :
    Outlasts (store.equalsAt held (fuel + 1) depth a b) (store.equalsAt held fuel depth a b) := by
  induction fuel generalizing depth a b with
  | zero =>
      exact Or.inl rfl
  | succ fuel inductionHypothesis =>
      rw [equalsAt_succ, equalsAt_succ]
      exact equalsStep_outlasts inductionHypothesis depth a b

/-- What a comparison has answered it answers with more fuel, too. -/
theorem equalsAt_outlasts {fuel more : Nat} (isMore : fuel ≤ more) (depth : Nat) (a b : Value) :
    Outlasts (store.equalsAt held more depth a b) (store.equalsAt held fuel depth a b) := by
  induction isMore with
  | refl =>
      exact .refl _
  | step _ inductionHypothesis =>
      exact (equalsAt_succ_outlasts _ depth a b).trans inductionHypothesis

/-! ## Ample fuel -/

/-- Once another unit of fuel changes nothing, no more of it does. -/
theorem equalsAt_steady {fuel : Nat}
    (steady : store.equalsAt held (fuel + 1) = store.equalsAt held fuel) (more : Nat) :
    store.equalsAt held (fuel + more) = store.equalsAt held fuel := by
  induction more with
  | zero =>
      rfl
  | succ more inductionHypothesis =>
      rw [← Nat.add_assoc, equalsAt_succ, inductionHypothesis, ← equalsAt_succ, steady]

open Classical in
/-- The comparisons of two objects, by their depth, that run out of the fuel. -/
noncomputable def unfinished (store : Store) (held : Option ObjectId) (fuel : Nat) :
    Finset (Nat × Nat × Nat) :=
  (Finset.range (maxDepth + 1) ×ˢ Finset.range store.cells.size ×ˢ
    Finset.range store.cells.size).filter fun (depth, index, other) =>
      store.equalsAt held fuel depth (.ref ⟨index⟩) (.ref ⟨other⟩) = .error .endlessComparison

theorem card_unfinished_le (fuel : Nat) :
    (store.unfinished held fuel).card + 1 ≤ store.equalityFuel := by
  classical
  refine Nat.succ_le_succ ((Finset.card_filter_le _ _).trans_eq ?_)
  simp only [Finset.card_product, Finset.card_range]

theorem mem_unfinished {fuel depth : Nat} {a b : Value}
    (ranOut : store.equalsAt held (fuel + 1) depth a b = .error .endlessComparison) :
    ∃ id other, a = .ref id ∧ b = .ref other ∧
      (depth, id.index, other.index) ∈ store.unfinished held (fuel + 1) := by
  have isMember : ∀ {id other left right}, depth ≤ maxDepth → a = .ref id → b = .ref other →
      store.get? id = some left → store.get? other = some right →
      (depth, id.index, other.index) ∈ store.unfinished held (fuel + 1) := by
    rintro id other left right shallow rfl rfl isLeft isRight
    have inside := index_lt_of_get? isLeft
    have otherInside := index_lt_of_get? isRight
    unfold unfinished
    simp only [Finset.mem_filter, Finset.mem_product, Finset.mem_range]
    exact ⟨⟨Nat.lt_succ_of_le shallow, inside, otherInside⟩, ranOut⟩
  obtain ⟨step, level, isStep⟩ := store.exists_level held depth a b
  have stepRanOut := ranOut
  rw [equalsAt_succ, isStep] at stepRanOut
  cases level with
  | same _ | numbers _ | apart _ _ | borrowed _ _ _ _ =>
      cases stepRanOut
  | arrays _ shallow isA isB foundA foundB _ =>
      exact ⟨_, _, isA, isB, isMember shallow isA isB foundA foundB⟩
  | dictionaries _ shallow isA isB foundA foundB _ _ =>
      exact ⟨_, _, isA, isB, isMember shallow isA isB foundA foundB⟩

theorem unfinished_succ_subset (fuel : Nat) :
    store.unfinished held (fuel + 1) ⊆ store.unfinished held fuel := by
  intro comparison member
  unfold unfinished at member ⊢
  simp only [Finset.mem_filter] at member ⊢
  refine ⟨member.1, ?_⟩
  rcases equalsAt_succ_outlasts fuel _ _ _ with ranOut | same
  · exact ranOut
  · exact same ▸ member.2

/-- Where the same comparisons as before run out of fuel, all the others have come to an end. -/
theorem steady_of_unfinished {fuel : Nat}
    (same : store.unfinished held (fuel + 2) = store.unfinished held (fuel + 1)) :
    store.equalsAt held (fuel + 2) = store.equalsAt held (fuel + 1) := by
  funext depth a b
  rcases equalsAt_succ_outlasts (fuel + 1) depth a b with ranOut | kept
  · obtain ⟨id, other, rfl, rfl, member⟩ := mem_unfinished ranOut
    rw [← same] at member
    unfold unfinished at member
    rw [ranOut]
    exact (Finset.mem_filter.mp member).2
  · exact kept

/-- With each unit of fuel another comparison comes to an end, until none does any more. -/
theorem steady_or_card_unfinished (fuel : Nat) :
    store.equalsAt held (fuel + 2) = store.equalsAt held (fuel + 1) ∨
      (store.unfinished held (fuel + 1)).card + fuel + 1 ≤ store.equalityFuel := by
  induction fuel with
  | zero =>
      exact Or.inr (card_unfinished_le _)
  | succ fuel inductionHypothesis =>
      rcases inductionHypothesis with steady | few
      · exact Or.inl (equalsAt_steady steady 2 |>.trans (equalsAt_steady steady 1).symm)
      · by_cases same : store.unfinished held (fuel + 2) = store.unfinished held (fuel + 1)
        · have steady := steady_of_unfinished same
          exact Or.inl (equalsAt_steady steady 2 |>.trans (equalsAt_steady steady 1).symm)
        · have fewer := Finset.card_lt_card
            ((unfinished_succ_subset (fuel + 1)).ssubset_of_ne same)
          exact Or.inr (by omega)

/-- The fuel of a comparison is ample: with another unit everything is compared as before. -/
theorem equalsAt_equalityFuel (store : Store) (held : Option ObjectId) :
    store.equalsAt held (store.equalityFuel + 1) = store.equalsAt held store.equalityFuel := by
  obtain ⟨levels, isFuel⟩ : ∃ levels, store.equalityFuel = levels + 1 := ⟨_, rfl⟩
  rw [isFuel]
  rcases @steady_or_card_unfinished store held levels with steady | few
  · exact steady
  · have none : store.unfinished held (levels + 1) = ∅ := Finset.card_eq_zero.mp (by omega)
    refine steady_of_unfinished (none ▸ ?_)
    exact Finset.subset_empty.mp (none ▸ unfinished_succ_subset (levels + 1))

/-- A comparison goes down by one level. -/
theorem equalsAt_fixed (store : Store) (held : Option ObjectId) :
    store.equalsAt held store.equalityFuel =
      store.equalsStep held (store.equalsAt held store.equalityFuel) := by
  rw [← equalsAt_succ, equalsAt_equalityFuel]

/-- A comparison that has come to an end at all has come to this end. -/
theorem equals_of_equalsAt {fuel : Nat} {a b : Value} {answer : Except Crash Bool}
    (answered : store.equalsAt held fuel 0 a b = answer)
    (ended : answer ≠ .error .endlessComparison) : store.equals held a b = answer := by
  unfold equals
  rcases Nat.le_total fuel store.equalityFuel with less | more
  · rcases equalsAt_outlasts less 0 a b with ranOut | kept
    · exact (ended (answered.symm.trans ranOut)).elim
    · exact kept.trans answered
  · obtain ⟨rest, rfl⟩ := Nat.exists_eq_add_of_le more
    rw [← equalsAt_steady (equalsAt_equalityFuel store held) rest]
    exact answered

/-- A comparison is said to be endless exactly if it comes to no end with any fuel. -/
theorem equals_endless_iff {a b : Value} :
    store.equals held a b = .error .endlessComparison ↔
      ∀ fuel, store.equalsAt held fuel 0 a b = .error .endlessComparison := by
  constructor
  · intro endless fuel
    by_contra ended
    exact ended ((equals_of_equalsAt rfl ended).symm.trans endless)
  · intro endless
    exact endless _

-- Two dictionaries, each of which is its own only key.
example :
    let (first, store) := Store.empty.alloc (.dictionary [(.ref ⟨0⟩, .int 1)])
    let (second, store) := store.alloc (.dictionary [(.ref ⟨1⟩, .int 1)])
    store.equals none (.ref first) (.ref second) = .error .endlessComparison := by
  decide +kernel

end Store

end Missive
