import Mathlib.Data.List.Perm.Subperm
import Mathlib.Tactic.IntervalCases
import Missive.Proofs.Object.Contents

/-!
# Equality is an equivalence

Equality looks into arrays and dictionaries, and only so deep.  Keys are compared from the start
again, and of two dictionaries only one is gone through.  On values that contain neither a cycle nor
a number with a fractional part, and whose dictionaries have no two equal keys, equality is an
equivalence all the same: by induction on how much a value contains, symmetry and transitivity
together, since the keys of a dictionary are matched with those of another by an equivalence
already.
-/

namespace Missive

/-! ## Lists with unequal members -/

section Lists

variable {α : Type} {related : α → α → Prop} {items : List α}

theorem eq_of_related (unrelated : items.Pairwise fun a b => ¬ related a b)
    (symm : ∀ a ∈ items, ∀ b ∈ items, related a b → related b a) {a b : α} (memberA : a ∈ items)
    (memberB : b ∈ items) (isRelated : related a b) : a = b := by
  induction items with
  | nil =>
      cases memberA
  | cons head rest hypothesis =>
      obtain ⟨apart, unrelatedRest⟩ := List.pairwise_cons.mp unrelated
      rcases List.mem_cons.mp memberA with rfl | inRestA
      · rcases List.mem_cons.mp memberB with rfl | inRestB
        · rfl
        · exact (apart b inRestB isRelated).elim
      · rcases List.mem_cons.mp memberB with rfl | inRestB
        · exact (apart a inRestA (symm a memberA b memberB isRelated)).elim
        · exact hypothesis unrelatedRest
            (fun a memberA b memberB => symm a (List.mem_cons_of_mem _ memberA) b
              (List.mem_cons_of_mem _ memberB)) inRestA inRestB

theorem find?_eq_some_of_unique {test : α → Bool} {item : α} (member : item ∈ items)
    (passes : test item = true) (unique : ∀ other ∈ items, test other = true → other = item) :
    items.find? test = some item := by
  cases found : items.find? test with
  | none =>
      exact (List.find?_eq_none.mp found item member passes).elim
  | some other =>
      rw [unique other (List.mem_of_find?_eq_some found) (List.find?_some found)]

/-- A function between two lists of the same length that tells the members of the first one apart
reaches all members of the second one. -/
theorem exists_of_injective {β : Type} {others : List β} (f : α → β)
    (sameLength : items.length = others.length) (maps : ∀ item ∈ items, f item ∈ others)
    (apart : items.Pairwise fun a b => f a ≠ f b) {other : β} (member : other ∈ others) :
    ∃ item ∈ items, f item = other := by
  have nodup : (items.map f).Nodup := List.pairwise_map.mpr apart
  have inside : items.map f ⊆ others := by
    intro image isImage
    obtain ⟨item, isItem, rfl⟩ := List.mem_map.mp isImage
    exact maps item isItem
  have all : (items.map f).Perm others :=
    (nodup.subperm inside).perm_of_length_le (by simp [sameLength])
  exact List.mem_map.mp (all.mem_iff.mpr member)

end Lists

/-! ## Comparable values -/

namespace Store

/-- A value without cycles and without floating-point numbers, the keys of whose dictionaries are
pairwise unequal. -/
structure Comparable (store : Store) (value : Value) : Prop where
  acyclic : store.Acyclic value
  noFloat : ∀ x, ¬ store.Involves value (.float x)
  unequalKeys : ∀ id entries, store.Involves value (.ref id) →
    store.get? id = some (.dictionary entries) →
      entries.Pairwise fun a b => ¬ store.equals none a.1 b.1 = .ok true

theorem Comparable.of_contains {store : Store} {whole inner : Value}
    (comparable : store.Comparable whole) (contains : store.Contains whole inner) :
    store.Comparable inner where
  acyclic := comparable.acyclic.of_contains contains
  noFloat := fun x involves => comparable.noFloat x (involves.head contains)
  unequalKeys := fun id entries involves =>
    comparable.unequalKeys id entries (involves.head contains)

/-- If no object contains itself, a newer object or a floating-point number, and no dictionary has
two equal keys, then all values but the floating-point numbers are comparable. -/
theorem comparable_of_ordered {store : Store}
    (older : ∀ id object, store.get? id = some object →
      ∀ inner, Value.ref inner ∈ object.contents → inner.index < id.index)
    (noFloat : ∀ id object, store.get? id = some object → ∀ x, Value.float x ∉ object.contents)
    (unequalKeys : ∀ id entries, store.get? id = some (.dictionary entries) →
      entries.Pairwise fun a b => ¬ store.equals none a.1 b.1 = .ok true)
    {value : Value} (notFloat : ∀ x, value ≠ .float x) : store.Comparable value where
  acyclic := by
    have descends : ∀ {whole part}, Relation.TransGen store.Contains whole part →
        ∀ inner, part = .ref inner → ∃ id, whole = .ref id ∧ inner.index < id.index := by
      intro whole part path
      induction path with
      | single contains =>
          rintro inner rfl
          obtain ⟨id, object, rfl, found, member⟩ := contains
          exact ⟨id, rfl, older id object found inner member⟩
      | tail path contains hypothesis =>
          rintro inner rfl
          obtain ⟨id, object, isMiddle, found, member⟩ := contains
          obtain ⟨top, isWhole, higher⟩ := hypothesis id isMiddle
          exact ⟨top, isWhole, (older id object found inner member).trans higher⟩
    intro part _ cycle
    obtain ⟨id, _, isPart, _, _⟩ := (Relation.TransGen.head'_iff.mp cycle).choose_spec.1
    obtain ⟨same, isSame, below⟩ := descends cycle id isPart
    rw [isPart] at isSame
    cases isSame
    exact Nat.lt_irrefl _ below
  noFloat := by
    intro x involves
    rcases Relation.ReflTransGen.cases_tail involves with same | ⟨_, _, contains⟩
    · exact notFloat x same.symm
    · obtain ⟨id, object, _, found, member⟩ := contains
      exact noFloat id object found x member
  unequalKeys := fun id entries _ => unequalKeys id entries

/-! ## One level of a comparison -/

/-- Two objects with equal contents, where values are compared by a function of the depth. -/
inductive ContentsAgree (equal : Nat → Value → Value → Bool) (depth : Nat) : Object → Object → Prop
  | arrays {xs ys : List Value} (sameLength : xs.length = ys.length)
      (items : ∀ (place : Nat) {x y : Value}, xs[place]? = some x → ys[place]? = some y →
        equal (depth + 1) x y = true) :
      ContentsAgree equal depth (.array xs) (.array ys)
  | dictionaries {xs ys : List (Value × Value)} (sameLength : xs.length = ys.length)
      (entries : ∀ x ∈ xs, ∃ y, (ys.find? fun entry => equal 0 entry.1 x.1) = some y ∧
        equal (depth + 1) x.2 y.2 = true) :
      ContentsAgree equal depth (.dictionary xs) (.dictionary ys)

theorem contentsAgree_arrays_iff {equal : Nat → Value → Value → Bool} {depth : Nat}
    {xs ys : List Value} (sameLength : xs.length = ys.length) :
    ((xs.zip ys).all fun (x, y) => equal (depth + 1) x y) = true ↔
      ContentsAgree equal depth (.array xs) (.array ys) := by
  rw [List.all_eq_true]
  constructor
  · intro items
    refine .arrays sameLength fun place x y isX isY => ?_
    exact items (x, y) (List.mem_of_getElem? (List.getElem?_zip_eq_some.mpr ⟨isX, isY⟩))
  · rintro (⟨_, items⟩ | _) pair member
    obtain ⟨place, isPair⟩ := List.mem_iff_getElem?.mp member
    obtain ⟨isX, isY⟩ := List.getElem?_zip_eq_some.mp isPair
    exact items place isX isY

theorem contentsAgree_dictionaries_iff {equal : Nat → Value → Value → Bool} {depth : Nat}
    {xs ys : List (Value × Value)} (sameLength : xs.length = ys.length) :
    (xs.all fun (key, x) =>
      match ys.find? fun entry => equal 0 entry.1 key with
      | some (_, y) => equal (depth + 1) x y
      | none => false) = true ↔
      ContentsAgree equal depth (.dictionary xs) (.dictionary ys) := by
  rw [List.all_eq_true]
  constructor
  · intro entries
    refine .dictionaries sameLength fun x member => ?_
    have agrees := entries x member
    dsimp only at agrees
    split at agrees
    · rename_i found
      exact ⟨_, found, agrees⟩
    · cases agrees
  · rintro (_ | ⟨_, entries⟩) x member
    obtain ⟨y, found, agrees⟩ := entries x member
    simp only [found, agrees]

theorem ContentsAgree.matches {equal : Nat → Value → Value → Bool} {depth : Nat}
    {left right : Object} (agree : ContentsAgree equal depth left right) : left.Matches right := by
  cases agree with
  | arrays sameLength _ | dictionaries sameLength _ =>
      exact sameLength

section Levels

variable {store : Store} {a b : Value}

/-- The two values are objects whose contents agree, at a depth that is looked into. -/
def ObjectsAgree (store : Store) (equal : Nat → Value → Value → Bool) (depth : Nat)
    (a b : Value) : Prop :=
  depth ≤ maxDepth ∧ ∃ id other left right, a = .ref id ∧ b = .ref other ∧
    store.get? id = some left ∧ store.get? other = some right ∧ ContentsAgree equal depth left right

theorem see_ne_float (comparable : store.Comparable a) (x : Binary64) :
    store.see a ≠ .float x := by
  intro seen
  cases a with
  | float y =>
      exact comparable.noFloat y .refl
  | ref id =>
      simp only [see] at seen
      split at seen <;> cases seen
  | nil | bool _ | int _ | string _ =>
      cases seen

/-- Equality at a depth of nesting, as far as it comes to an answer. -/
def alike (store : Store) (depth : Nat) (a b : Value) : Bool :=
  match store.equalsAt none store.equalityFuel depth a b with
  | .ok answer => answer
  | .error _ => false

/-- The two values are equal at a depth of nesting. -/
def SameAt (store : Store) (depth : Nat) (a b : Value) : Prop := store.alike depth a b = true

theorem equals_eq_ok_true_iff : store.equals none a b = .ok true ↔ store.SameAt 0 a b := by
  unfold SameAt alike equals
  cases store.equalsAt none store.equalityFuel 0 a b with
  | ok answer =>
      exact Except.ok.injEq answer true ▸ Iff.rfl
  | error _ =>
      exact iff_of_false nofun nofun

theorem equalsAt_eq_alike (comparableA : store.Comparable a) (comparableB : store.Comparable b)
    (depth : Nat) :
    store.equalsAt none store.equalityFuel depth a b = .ok (store.alike depth a b) := by
  obtain ⟨answer, answered⟩ := equalsAt_isOk comparableA.acyclic comparableB.acyclic depth
  unfold alike
  rw [answered]

theorem objectsAgree_iff {equal : Nat → Value → Value → Bool} {depth : Nat} {id other : ObjectId}
    {left right : Object} (differ : a ≠ b) (shallow : depth ≤ maxDepth) (isA : a = .ref id)
    (isB : b = .ref other) (foundA : store.get? id = some left)
    (foundB : store.get? other = some right) :
    ContentsAgree equal depth left right ↔ a = b ∨ store.ObjectsAgree equal depth a b := by
  constructor
  · intro agree
    exact Or.inr ⟨shallow, id, other, left, right, isA, isB, foundA, foundB, agree⟩
  · rintro (same | ⟨_, _, _, _, _, isId, isOther, isLeft, isRight, agree⟩)
    · exact (differ same).elim
    · cases isA.symm.trans isId
      cases isB.symm.trans isOther
      cases foundA.symm.trans isLeft
      cases foundB.symm.trans isRight
      exact agree

/-- Equality goes down by one level. -/
theorem sameAt_iff (comparableA : store.Comparable a) (comparableB : store.Comparable b)
    (depth : Nat) :
    store.SameAt depth a b ↔ a = b ∨ store.ObjectsAgree store.alike depth a b := by
  have answered := equalsAt_eq_alike comparableA comparableB depth
  obtain ⟨step, level, isStep⟩ := store.exists_level none depth a b
  rw [equalsAt_fixed, isStep] at answered
  unfold SameAt
  cases level with
  | same isSame =>
      exact iff_of_true (Except.ok.inj answered).symm (Or.inl isSame)
  | @numbers x _ isFloat =>
      rcases isFloat with isFloat | isFloat
      · exact (see_ne_float comparableA x isFloat).elim
      · exact (see_ne_float comparableB x isFloat).elim
  | apart differ unlike =>
      rw [← Except.ok.inj answered]
      refine iff_of_false nofun (not_or.mpr ⟨differ, ?_⟩)
      rintro ⟨shallow, id, other, left, right, isA, isB, foundA, foundB, agree⟩
      exact unlike shallow id other left right isA isB foundA foundB agree.matches
  | @arrays id other xs ys differ shallow isA isB foundA foundB sameLength =>
      have items : ∀ pair ∈ xs.zip ys, store.equalsAt none store.equalityFuel (depth + 1) pair.1
          pair.2 = .ok (store.alike (depth + 1) pair.1 pair.2) := by
        intro pair isPair
        obtain ⟨inXs, inYs⟩ := List.of_mem_zip isPair
        exact equalsAt_eq_alike (comparableA.of_contains ⟨id, _, isA, foundA, inXs⟩)
          (comparableB.of_contains ⟨other, _, isB, foundB, inYs⟩) (depth + 1)
      rw [← Except.ok.inj ((allM_eq_ok items).symm.trans answered),
        contentsAgree_arrays_iff sameLength]
      exact objectsAgree_iff differ shallow isA isB foundA foundB
  | borrowed _ _ _ isHeld =>
      rcases isHeld with impossible | impossible <;> cases impossible
  | @dictionaries id other xs ys differ shallow isA isB foundA foundB _ sameLength =>
      have entries : ∀ x ∈ xs, (do
          match ← ys.findM? fun entry : Value × Value =>
            store.equalsAt none store.equalityFuel 0 entry.1 x.1 with
          | some (_, y) => store.equalsAt none store.equalityFuel (depth + 1) x.2 y
          | none => return false) =
          .ok (match ys.find? fun entry : Value × Value => store.alike 0 entry.1 x.1 with
            | some (_, y) => store.alike (depth + 1) x.2 y
            | none => false) := by
        intro x inXs
        obtain ⟨keyX, valueX⟩ := Object.mem_contents_dictionary inXs
        have comparableKey := comparableA.of_contains ⟨id, _, isA, foundA, keyX⟩
        have comparableValue := comparableA.of_contains ⟨id, _, isA, foundA, valueX⟩
        have partsOf : ∀ y ∈ ys, store.Comparable y.1 ∧ store.Comparable y.2 := fun y inYs =>
          have inContents := Object.mem_contents_dictionary inYs
          ⟨comparableB.of_contains ⟨other, _, isB, foundB, inContents.1⟩,
            comparableB.of_contains ⟨other, _, isB, foundB, inContents.2⟩⟩
        rw [findM?_eq_ok fun y inYs => equalsAt_eq_alike (partsOf y inYs).1 comparableKey 0]
        cases found : ys.find? fun entry => store.alike 0 entry.1 x.1 with
        | none =>
            rfl
        | some y =>
            exact equalsAt_eq_alike comparableValue
              (partsOf y (List.mem_of_find?_eq_some found)).2 (depth + 1)
      rw [← Except.ok.inj ((allM_eq_ok entries).symm.trans answered),
        contentsAgree_dictionaries_iff sameLength]
      exact objectsAgree_iff differ shallow isA isB foundA foundB

end Levels

/-! ## Symmetry and transitivity -/

/-- A comparable value below a weight. -/
structure Light (store : Store) (bound : Nat) (value : Value) : Prop where
  comparable : store.Comparable value
  weight_lt : store.weight value < bound

/-- Equality is symmetric and transitive below a weight. -/
structure PartialEquivalence (store : Store) (bound : Nat) : Prop where
  symm : ∀ {a b : Value}, store.Light bound a → store.Light bound b →
    ∀ {depth : Nat}, store.SameAt depth a b → store.SameAt depth b a
  trans : ∀ {a b c : Value}, store.Light bound a → store.Light bound b → store.Light bound c →
    ∀ {depth : Nat}, store.SameAt depth a b → store.SameAt depth b c → store.SameAt depth a c

/-- An object with contents below a weight and without two equal keys. -/
structure Bounded (store : Store) (bound : Nat) (object : Object) : Prop where
  light : ∀ value ∈ object.contents, store.Light bound value
  unequalKeys : ∀ entries, object = .dictionary entries →
    entries.Pairwise fun a b => ¬ store.SameAt 0 a.1 b.1

section Induction

variable {store : Store} {bound depth : Nat} {left middle right : Object}

theorem Light.bounded {id : ObjectId} (light : store.Light (bound + 1) (.ref id))
    (found : store.get? id = some left) : store.Bounded bound left where
  light := fun value member =>
    have contains : store.Contains (.ref id) value := ⟨id, left, rfl, found, member⟩
    have lighter := Store.weight_lt light.comparable.acyclic contains
    ⟨light.comparable.of_contains contains, by have := light.weight_lt; omega⟩
  unequalKeys := fun entries isDictionary =>
    (light.comparable.unequalKeys id entries .refl (isDictionary ▸ found)).imp
      fun unequal same => unequal (equals_eq_ok_true_iff.mpr same)

section Keys

variable {xs ys : List (Value × Value)}

theorem Bounded.key (bounded : store.Bounded bound (.dictionary xs)) {x : Value × Value}
    (member : x ∈ xs) : store.Light bound x.1 :=
  bounded.light _ (Object.mem_contents_dictionary member).1

theorem Bounded.value (bounded : store.Bounded bound (.dictionary xs)) {x : Value × Value}
    (member : x ∈ xs) : store.Light bound x.2 :=
  bounded.light _ (Object.mem_contents_dictionary member).2

theorem sameAt_of_find? {key : Value} {y : Value × Value}
    (found : (ys.find? fun entry => store.alike 0 entry.1 key) = some y) :
    y ∈ ys ∧ store.SameAt 0 y.1 key :=
  have passed := List.find?_some found
  ⟨List.mem_of_find?_eq_some found, passed⟩

/-- Of the entries with a key equal to a given one there is only one, and it is found. -/
theorem find?_eq_some_of_same (below : store.PartialEquivalence bound)
    (bounded : store.Bounded bound (.dictionary ys)) {key : Value} (light : store.Light bound key)
    {y : Value × Value} (member : y ∈ ys) (same : store.SameAt 0 y.1 key) :
    (ys.find? fun entry => store.alike 0 entry.1 key) = some y := by
  have symm : ∀ a ∈ ys, ∀ b ∈ ys, store.SameAt 0 a.1 b.1 → store.SameAt 0 b.1 a.1 := by
    intro a memberA b memberB
    exact below.symm (bounded.key memberA) (bounded.key memberB)
  refine find?_eq_some_of_unique member same ?_
  intro other memberOther sameOther
  have keysSame : store.SameAt 0 other.1 y.1 :=
    below.trans (bounded.key memberOther) light (bounded.key member) sameOther
      (below.symm (bounded.key member) light same)
  exact eq_of_related (bounded.unequalKeys ys rfl) symm memberOther member keysSame

/-- If each entry of a dictionary has a partner with an equal key in another one of the same size,
then so has each entry of the other one. -/
theorem exists_partner (below : store.PartialEquivalence bound)
    (boundedX : store.Bounded bound (.dictionary xs))
    (boundedY : store.Bounded bound (.dictionary ys)) (sameLength : xs.length = ys.length)
    {partner : Value × Value → Value × Value}
    (matched : ∀ x ∈ xs, partner x ∈ ys ∧ store.SameAt 0 (partner x).1 x.1) {y : Value × Value}
    (member : y ∈ ys) : ∃ x ∈ xs, partner x = y := by
  refine exists_of_injective partner sameLength (fun x memberX => (matched x memberX).1) ?_ member
  refine (boundedX.unequalKeys xs rfl).imp_of_mem ?_
  intro a b memberA memberB unequal samePartner
  obtain ⟨isEntry, sameA⟩ := matched a memberA
  have sameB := (matched b memberB).2
  rw [← samePartner] at sameB
  have lightPartner := boundedY.key isEntry
  exact unequal (below.trans (boundedX.key memberA) lightPartner (boundedX.key memberB)
    (below.symm lightPartner (boundedX.key memberA) sameA) sameB)

end Keys

theorem ContentsAgree.symm (below : store.PartialEquivalence bound)
    (boundedLeft : store.Bounded bound left) (boundedRight : store.Bounded bound right)
    (agree : ContentsAgree (store.alike) depth left right) :
    ContentsAgree (store.alike) depth right left := by
  cases agree with
  | arrays sameLength items =>
      refine .arrays sameLength.symm fun place y x isY isX => ?_
      exact below.symm (boundedLeft.light x (List.mem_of_getElem? isX))
        (boundedRight.light y (List.mem_of_getElem? isY)) (items place isX isY)
  | @dictionaries xs ys sameLength entries =>
      refine .dictionaries sameLength.symm fun y memberY => ?_
      let partner (x : Value × Value) : Value × Value :=
        (ys.find? fun entry => store.alike 0 entry.1 x.1).getD x
      have matched : ∀ x ∈ xs, (partner x ∈ ys ∧ store.SameAt 0 (partner x).1 x.1) ∧
          store.SameAt (depth + 1) x.2 (partner x).2 := by
        intro x memberX
        obtain ⟨other, found, agrees⟩ := entries x memberX
        have isPartner : partner x = other := by
          simp only [partner, found, Option.getD_some]
        rw [isPartner]
        exact ⟨sameAt_of_find? found, agrees⟩
      obtain ⟨x, memberX, rfl⟩ := exists_partner below boundedLeft boundedRight sameLength
        (fun x memberX => (matched x memberX).1) memberY
      obtain ⟨⟨_, sameKey⟩, sameValue⟩ := matched x memberX
      have keyY := boundedRight.key memberY
      exact ⟨x, find?_eq_some_of_same below boundedLeft keyY memberX
          (below.symm keyY (boundedLeft.key memberX) sameKey),
        below.symm (boundedLeft.value memberX) (boundedRight.value memberY) sameValue⟩

theorem ContentsAgree.trans (below : store.PartialEquivalence bound)
    (boundedLeft : store.Bounded bound left) (boundedMiddle : store.Bounded bound middle)
    (boundedRight : store.Bounded bound right)
    (first : ContentsAgree (store.alike) depth left middle)
    (second : ContentsAgree (store.alike) depth middle right) :
    ContentsAgree (store.alike) depth left right := by
  cases first with
  | @arrays xs ys firstLength firstItems =>
      cases second with
      | @arrays _ zs secondLength secondItems =>
          refine .arrays (firstLength.trans secondLength) fun place x z isX isZ => ?_
          obtain ⟨y, isY⟩ : ∃ y, ys[place]? = some y := by
            have inside := (List.getElem?_eq_some_iff.mp isX).1
            exact ⟨_, List.getElem?_eq_getElem (firstLength ▸ inside)⟩
          exact below.trans (boundedLeft.light x (List.mem_of_getElem? isX))
            (boundedMiddle.light y (List.mem_of_getElem? isY))
            (boundedRight.light z (List.mem_of_getElem? isZ)) (firstItems place isX isY)
            (secondItems place isY isZ)
  | @dictionaries xs ys firstLength firstEntries =>
      cases second with
      | @dictionaries _ zs secondLength secondEntries =>
          refine .dictionaries (firstLength.trans secondLength) fun x memberX => ?_
          obtain ⟨y, foundY, sameXY⟩ := firstEntries x memberX
          obtain ⟨memberY, keyYX⟩ := sameAt_of_find? foundY
          obtain ⟨z, foundZ, sameYZ⟩ := secondEntries y memberY
          obtain ⟨memberZ, keyZY⟩ := sameAt_of_find? foundZ
          have keyZX : store.SameAt 0 z.1 x.1 :=
            below.trans (boundedRight.key memberZ) (boundedMiddle.key memberY)
              (boundedLeft.key memberX) keyZY keyYX
          exact ⟨z,
            find?_eq_some_of_same below boundedRight (boundedLeft.key memberX) memberZ keyZX,
            below.trans (boundedLeft.value memberX) (boundedMiddle.value memberY)
              (boundedRight.value memberZ) sameXY sameYZ⟩

variable {a b c : Value}

theorem ObjectsAgree.symm (below : store.PartialEquivalence bound)
    (lightA : store.Light (bound + 1) a) (lightB : store.Light (bound + 1) b)
    (agree : store.ObjectsAgree (store.alike) depth a b) :
    store.ObjectsAgree (store.alike) depth b a := by
  obtain ⟨looked, id, other, left, right, rfl, rfl, foundA, foundB, agree⟩ := agree
  exact ⟨looked, other, id, right, left, rfl, rfl, foundB, foundA,
    agree.symm below (lightA.bounded foundA) (lightB.bounded foundB)⟩

theorem ObjectsAgree.trans (below : store.PartialEquivalence bound)
    (lightA : store.Light (bound + 1) a) (lightB : store.Light (bound + 1) b)
    (lightC : store.Light (bound + 1) c)
    (first : store.ObjectsAgree (store.alike) depth a b)
    (second : store.ObjectsAgree (store.alike) depth b c) :
    store.ObjectsAgree (store.alike) depth a c := by
  obtain ⟨looked, id, other, left, middle, rfl, rfl, foundA, foundB, first⟩ := first
  obtain ⟨_, same, third, again, right, isB, rfl, foundAgain, foundC, second⟩ := second
  cases isB
  obtain rfl : middle = again := Option.some.inj (foundB.symm.trans foundAgain)
  exact ⟨looked, id, third, left, right, rfl, rfl, foundA, foundC, first.trans below
    (lightA.bounded foundA) (lightB.bounded foundB) (lightC.bounded foundC) second⟩

/-- By induction on the weight: what an object contains weighs less than the object. -/
theorem partialEquivalence (store : Store) (bound : Nat) : store.PartialEquivalence bound := by
  induction bound with
  | zero =>
      constructor
      · intro a b lightA
        exact (Nat.not_lt_zero _ lightA.weight_lt).elim
      · intro a b c lightA
        exact (Nat.not_lt_zero _ lightA.weight_lt).elim
  | succ bound below =>
      constructor
      · intro a b lightA lightB depth same
        rw [sameAt_iff lightA.comparable lightB.comparable] at same
        rw [sameAt_iff lightB.comparable lightA.comparable]
        rcases same with rfl | agree
        · exact Or.inl rfl
        · exact Or.inr (agree.symm below lightA lightB)
      · intro a b c lightA lightB lightC depth first second
        rw [sameAt_iff lightA.comparable lightB.comparable] at first
        rw [sameAt_iff lightB.comparable lightC.comparable] at second
        rw [sameAt_iff lightA.comparable lightC.comparable]
        rcases first with rfl | first
        · exact second
        · rcases second with rfl | second
          · exact Or.inr first
          · exact Or.inr (first.trans below lightA lightB lightC second)

theorem Comparable.light (comparable : store.Comparable a) :
    store.Light (store.cells.size + 1) a :=
  ⟨comparable, Nat.lt_succ_of_le (store.weight_le_size a)⟩

end Induction

/-- On the values without cycles, without floating-point numbers and without equal keys in one
dictionary, equality always comes to an answer, and it is reflexive, symmetric and transitive. -/
theorem equals_equivalence (store : Store) :
    (∀ a b : { value // store.Comparable value }, ∃ answer,
      store.equals none a.1 b.1 = .ok answer) ∧
    Equivalence fun a b : { value // store.Comparable value } =>
      store.equals none a.1 b.1 = .ok true := by
  refine ⟨fun a b => equalsAt_isOk a.2.acyclic b.2.acyclic 0, ?_⟩
  simp only [equals_eq_ok_true_iff]
  constructor
  · intro a
    exact (sameAt_iff a.2 a.2 0).mpr (Or.inl rfl)
  · intro a b same
    exact (store.partialEquivalence _).symm a.2.light b.2.light same
  · intro a b c first second
    exact (store.partialEquivalence _).trans a.2.light b.2.light c.2.light first second

/-- Two dictionaries with the same entries in another order.  One of their keys is an array, of
which there are two. -/
def reordered : Store where
  cells := #[⟨some (.array [.int 1]), false⟩, ⟨some (.array [.int 1]), false⟩,
    ⟨some (.dictionary [(.ref ⟨0⟩, .string "a"), (.int 2, .ref ⟨1⟩)]), false⟩,
    ⟨some (.dictionary [(.int 2, .ref ⟨0⟩), (.ref ⟨1⟩, .string "a")]), false⟩]
  trackedCount := 0

theorem reordered_cases {id : ObjectId} {object : Object}
    (found : reordered.get? id = some object) :
    (id = ⟨0⟩ ∨ id = ⟨1⟩) ∧ object = .array [.int 1] ∨
    id = ⟨2⟩ ∧ object = .dictionary [(.ref ⟨0⟩, .string "a"), (.int 2, .ref ⟨1⟩)] ∨
    id = ⟨3⟩ ∧ object = .dictionary [(.int 2, .ref ⟨0⟩), (.ref ⟨1⟩, .string "a")] := by
  obtain ⟨index⟩ := id
  have inside : index < 4 := index_lt_of_get? found
  interval_cases index <;> cases found <;> simp

theorem comparable_reordered (id : ObjectId) : reordered.Comparable (.ref id) := by
  apply comparable_of_ordered
  · intro id object found inner member
    rcases reordered_cases found with ⟨_, rfl⟩ | ⟨rfl, rfl⟩ | ⟨rfl, rfl⟩
    · simp [Object.contents] at member
    · have isArray : inner = ⟨0⟩ ∨ inner = ⟨1⟩ := by simpa [Object.contents] using member
      rcases isArray with rfl | rfl <;> decide
    · have isArray : inner = ⟨0⟩ ∨ inner = ⟨1⟩ := by simpa [Object.contents] using member
      rcases isArray with rfl | rfl <;> decide
  · intro id object found x member
    rcases reordered_cases found with ⟨_, rfl⟩ | ⟨_, rfl⟩ | ⟨_, rfl⟩ <;>
      simp [Object.contents] at member
  · intro id entries found
    rcases reordered_cases found with ⟨_, impossible⟩ | ⟨_, isFirst⟩ | ⟨_, isSecond⟩
    · cases impossible
    · cases isFirst
      decide
    · cases isSecond
      decide
  · intro x impossible
    cases impossible

theorem equals_equivalence_reordered :
    reordered.equals none (.ref ⟨2⟩) (.ref ⟨3⟩) = .ok true ∧
      reordered.equals none (.ref ⟨3⟩) (.ref ⟨2⟩) = .ok true :=
  have same : reordered.equals none (.ref ⟨2⟩) (.ref ⟨3⟩) = .ok true := by decide
  ⟨same, reordered.equals_equivalence.2.symm (x := ⟨.ref ⟨2⟩, comparable_reordered _⟩)
    (y := ⟨.ref ⟨3⟩, comparable_reordered _⟩) same⟩

end Store

end Missive
