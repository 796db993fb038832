import Missive.Proofs.Protocol.Arithmetic
import Missive.Proofs.Protocol.Faults
import Missive.Proofs.Protocol.Loops

/-!
# Built-in messages stay inside

A built-in message takes its arguments out of a list by their positions, and the items of an array
and the characters of a text by indices that come from the program and may be any 64-bit integers.
None of these accesses goes outside.  A list with as many arguments as the selector asks for has all
that the message looks at.  An index is used only if it counts from one up to the size, and the
steps from the index to the position never leave the 64-bit words.
-/

namespace Missive

/-! ## Positions -/

/-- The position of an index that counts from one, in a sequence of the given size. -/
def position? (size : Nat) (index : Int64) : Option (Fin size) :=
  if inside : 1 ≤ index.toInt ∧ index.toInt ≤ size then some ⟨index.toInt.toNat - 1, by omega⟩
  else none

/-- A part of a sequence of the given size: the position where it starts and the one behind it. -/
structure Part (size : Nat) where
  lower : Nat
  upper : Nat
  lower_le_upper : lower ≤ upper
  upper_le_size : upper ≤ size

/-- The items of a part in their order. -/
def Part.items {α : Type} {whole : List α} (part : Part whole.length) : List α :=
  List.ofFn fun offset : Fin (part.upper - part.lower) =>
    whole.get ⟨part.lower + offset, by have := part.upper_le_size; omega⟩

/-- The part from one index to another, both included.  It is empty if the last index comes just
before the first. -/
def part? (size : Nat) (first last : Int64) : Option (Part size) :=
  if inside : 1 ≤ first.toInt ∧ last.toInt ≤ size ∧ first.toInt ≤ last.toInt + 1 then
    some ⟨first.toInt.toNat - 1, last.toInt.toNat, by omega, by omega⟩
  else none

theorem Part.items_eq {α : Type} {whole : List α} (part : Part whole.length) :
    part.items = (whole.take part.upper).drop part.lower := by
  have inside := part.upper_le_size
  refine List.ext_getElem ?_ fun offset _ _ => ?_
  · rw [items, List.length_ofFn, List.length_drop, List.length_take, Nat.min_eq_left inside]
  · rw [List.getElem_drop, List.getElem_take]
    exact List.getElem_ofFn _

theorem position?_of_small {size : Nat} (small : size < 2 ^ 63) (place : Fin size) :
    position? size (Int64.ofNat (place + 1)) = some place := by
  have exact : (Int64.ofNat (place + 1)).toInt = place + 1 :=
    Int64.toInt_ofNat_of_lt (by omega)
  unfold position?
  rw [dif_pos (by omega)]
  refine congrArg some (Fin.ext ?_)
  change (Int64.ofNat (place + 1)).toInt.toNat - 1 = place
  omega

/-! ## Positions in machine words -/

/-- The position of an index, computed in 64-bit words.  There is no result if a step overflows, and
no position if the index is refused. -/
def wordPosition? (size : Nat) (index : Int64) : Option (Option Nat) :=
  if index < 1 ∨ size < index.toUInt64.toNat then some none
  else (Checked.sub? index 1).map fun position => some position.toUInt64.toNat

/-- The ends of a part, computed in 64-bit words.  The index of its end is increased only after it
has been compared with the size. -/
def wordPart? (size : Nat) (first last : Int64) : Option (Option (Nat × Nat)) :=
  if first < 1 ∨ Int64.ofNat size < last then some none
  else (Checked.add? last 1).bind fun next =>
    if next < first then some none
    else (Checked.sub? first 1).map fun lower =>
      some (lower.toUInt64.toNat, last.toUInt64.toNat)

theorem toNat_toUInt64 {x : Int64} (natural : 0 ≤ x.toInt) :
    x.toUInt64.toNat = x.toInt.toNat := by
  have word : x.toInt = if 2 * x.toUInt64.toNat < 2 ^ 64 then (x.toUInt64.toNat : Int)
      else (x.toUInt64.toNat : Int) - (2 ^ 64 : Nat) := BitVec.toInt_eq_toNat_cond x.toBitVec
  have below : x.toUInt64.toNat < 2 ^ 64 := x.toUInt64.toNat_lt
  split at word <;> omega

/-- The position before a positive index. -/
theorem sub?_one {index : Int64} (positive : 1 ≤ index.toInt) :
    ∃ before : Int64, Checked.sub? index 1 = some before ∧
      before.toUInt64.toNat = index.toInt.toNat - 1 := by
  have bounds := Checked.fits_toInt index
  obtain ⟨before, isBefore⟩ :=
    Checked.exists_of_fits (n := index.toInt - 1) (by unfold Checked.Fits at *; omega)
  refine ⟨before, Checked.fits?_eq_some_iff.mpr isBefore, ?_⟩
  rw [toNat_toUInt64 (by omega), isBefore]
  omega

theorem wordPosition?_eq (size : Nat) (index : Int64) :
    wordPosition? size index = some ((position? size index).map Fin.val) := by
  unfold wordPosition? position?
  simp only [Int64.lt_iff_toInt_lt, Int64.toInt_one]
  by_cases positive : 1 ≤ index.toInt
  · obtain ⟨before, isBefore, isPosition⟩ := sub?_one positive
    rw [toNat_toUInt64 (by omega), isBefore]
    by_cases low : index.toInt ≤ size
    · rw [if_neg (by omega), dif_pos ⟨positive, low⟩, Option.map_some, Option.map_some, isPosition]
    · rw [if_pos (by omega), dif_neg (fun inside => low inside.2), Option.map_none]
  · rw [if_pos (by omega), dif_neg (fun inside => positive inside.1), Option.map_none]

theorem wordPart?_eq {size : Nat} (small : size < 2 ^ 63 - 1) (first last : Int64) :
    wordPart? size first last =
      some ((part? size first last).map fun part => (part.lower, part.upper)) := by
  have isSize : (Int64.ofNat size).toInt = size := Int64.toInt_ofNat_of_lt (by omega)
  unfold wordPart? part?
  simp only [Int64.lt_iff_toInt_lt, Int64.toInt_one, isSize]
  by_cases within : 1 ≤ first.toInt ∧ last.toInt ≤ size
  -- Here the last index is at most the size, which leaves room for one more.
  · have bounds := Checked.fits_toInt last
    obtain ⟨next, isNext⟩ :=
      Checked.exists_of_fits (n := last.toInt + 1) (by unfold Checked.Fits at *; omega)
    obtain ⟨before, isBefore, isLower⟩ := sub?_one within.1
    rw [if_neg (by omega), show Checked.add? last 1 = some next from
      Checked.fits?_eq_some_iff.mpr isNext, Option.bind_some, isNext, isBefore, Option.map_some,
      isLower]
    by_cases ordered : first.toInt ≤ last.toInt + 1
    · rw [if_neg (by omega), dif_pos ⟨within.1, within.2, ordered⟩, Option.map_some,
        toNat_toUInt64 (by omega)]
    · rw [if_pos (by omega), dif_neg (fun inside => ordered inside.2.2), Option.map_none]
  · rw [if_pos (by omega), dif_neg (fun inside => within ⟨inside.1, inside.2.1⟩), Option.map_none]

/-! ## Items and characters -/

/-- An integer index becomes a position or is refused with the index and the size. -/
theorem indexArgument_int (selector : Selector) (size : Nat) (index : Int64) (store : Store) :
    indexArgument selector size (.int index) store =
      match position? size index with
      | some place => .ok place.val store
      | none => .error (.indexOutOfBounds index.toInt size) store := by
  change (if index.toInt < 1 ∨ (size : Int) < index.toInt then
    throw (.indexOutOfBounds index.toInt size)
    else pure (index.toInt.toNat - 1) : Effect Nat) store = _
  unfold position?
  by_cases inside : 1 ≤ index.toInt ∧ index.toInt ≤ size
  · rw [if_neg (by omega), dif_pos inside]
    rfl
  · rw [if_pos (by omega), dif_neg inside]
    rfl

/-- The two ends become a part or are refused with the end that is outside. -/
theorem copy_eq (characters : List Char) (first last : Int64) :
    StringMessage.copy characters first.toInt last.toInt =
      match part? characters.length first last with
      | some part => .ok part.items
      | none => .error (.indexOutOfBounds
          (if first.toInt < 1 then first.toInt else last.toInt) characters.length) := by
  unfold StringMessage.copy part?
  by_cases inside : 1 ≤ first.toInt ∧ last.toInt ≤ characters.length ∧
      first.toInt ≤ last.toInt + 1
  · rw [if_neg (by omega), dif_pos inside]
    dsimp only
    rw [Part.items_eq]
    rfl
  · rw [if_pos (by omega), dif_neg inside]
    rfl

theorem intArgument_of_other {place : Value} (other : ∀ index, place ≠ .int index)
    (selector : Selector) : intArgument selector place = mismatch selector "integer" place := by
  cases place with
  | int index =>
      exact absurd rfl (other index)
  | _ =>
      rfl

theorem indexArgument_of_other {place : Value} (other : ∀ index, place ≠ .int index)
    (selector : Selector) (size : Nat) (store : Store) :
    indexArgument selector size place store =
      .error (.typeMismatch selector "integer" (store.className place)) store := by
  unfold indexArgument
  rw [intArgument_of_other other]
  rfl

namespace Store

/-- The messages to an array that take or give the index of an item.  Items are only taken from
positions inside, and what is refused changes nothing. -/
structure ArrayIndexing (store : Store) (id : ObjectId) (items : List Value) : Prop where
  at_integer : ∀ index, store.outcomeOf? (.ref id) "at:" [.int index] =
    some (match position? items.length index with
      | some place => .ok (.answer (items.get place)) store
      | none => .error (.indexOutOfBounds index.toInt items.length) store)
  at_other : ∀ place, (∀ index, place ≠ .int index) →
    store.outcomeOf? (.ref id) "at:" [place] =
      some (.error (.typeMismatch "at:" "integer" (store.className place)) store)
  atPut_integer : ∀ index item, store.outcomeOf? (.ref id) "at:put:" [.int index, item] =
    some (match position? items.length index with
      | some place => .ok (.answer item) (store.set id (.array (items.set place item)))
      | none => .error (.indexOutOfBounds index.toInt items.length) store)
  stored : ∀ (place : Fin items.length) item,
    (store.set id (.array (items.set place item))).get? id = some (.array (items.set place item)) ∧
      ∀ other, other ≠ id →
        (store.set id (.array (items.set place item))).get? other = store.get? other
  atPut_other : ∀ place item, (∀ index, place ≠ .int index) →
    store.outcomeOf? (.ref id) "at:put:" [place, item] =
      some (.error (.typeMismatch "at:put:" "integer" (store.className place)) store)
  first : store.outcomeOf? (.ref id) "first" [] =
    some (if nonempty : 0 < items.length then .ok (.answer (items.get ⟨0, nonempty⟩)) store
      else .error (.indexOutOfBounds 1 0) store)
  last : store.outcomeOf? (.ref id) "last" [] =
    some (if nonempty : 0 < items.length then
        .ok (.answer (items.get ⟨items.length - 1, Nat.sub_lt nonempty Nat.one_pos⟩)) store
      else .error (.indexOutOfBounds 1 0) store)
  indexOf : items.length < 2 ^ 63 → ∀ item,
    (∃ index,
      store.outcomeOf? (.ref id) "indexOf:" [item] = some (.ok (.answer (.int index)) store) ∧
        match position? items.length index with
        | some place => store.equals none (items.get place) item = .ok true
        | none => index = 0 ∧ ∀ member ∈ items, store.equals none member item = .ok false) ∨
    (store.outcomeOf? (.ref id) "indexOf:" [item] =
        some (.error (.crash .endlessComparison) store) ∧
      ∃ member ∈ items, store.equals none member item = .error .endlessComparison)
  size : items.length < 2 ^ 63 → ∃ count : Int64, count.toInt = items.length ∧
    store.outcomeOf? (.ref id) "size" [] = some (.ok (.answer (.int count)) store)

/-- The messages to a text that take or give the index of a character. -/
structure TextIndexing (store : Store) (text : String) : Prop where
  at_integer : ∀ index, store.outcomeOf? (.string text) "at:" [.int index] =
    some (match position? text.toList.length index with
      | some place => .ok (.answer (.string (String.singleton (text.toList.get place)))) store
      | none => .error (.indexOutOfBounds index.toInt text.toList.length) store)
  at_other : ∀ place, (∀ index, place ≠ .int index) →
    store.outcomeOf? (.string text) "at:" [place] =
      some (.error (.typeMismatch "at:" "integer" (store.className place)) store)
  copy_integers : ∀ first last,
    store.outcomeOf? (.string text) "copyFrom:to:" [.int first, .int last] =
      some (match part? text.toList.length first last with
        | some part => .ok (.answer (.string (String.ofList part.items))) store
        | none => .error (.indexOutOfBounds (if first.toInt < 1 then first.toInt else last.toInt)
            text.toList.length) store)
  copy_otherFirst : ∀ first last, (∀ index, first ≠ .int index) →
    store.outcomeOf? (.string text) "copyFrom:to:" [first, last] =
      some (.error (.typeMismatch "copyFrom:to:" "integer" (store.className first)) store)
  copy_otherLast : ∀ first last, (∀ index, last ≠ .int index) →
    store.outcomeOf? (.string text) "copyFrom:to:" [.int first, last] =
      some (.error (.typeMismatch "copyFrom:to:" "integer" (store.className last)) store)
  size : text.toList.length < 2 ^ 63 → ∃ count : Int64, count.toInt = text.toList.length ∧
    store.outcomeOf? (.string text) "size" [] = some (.ok (.answer (.int count)) store)

variable {store : Store} {id : ObjectId} {selector : Selector}

theorem builtinResponse?_array {items : List Value}
    (isArray : store.get? id = some (.array items)) :
    store.builtinResponse? (.ref id) selector =
      (ArrayMessage.ofSelector? selector).map (·.perform id items) := by
  unfold builtinResponse?
  rw [see_ref_of_array isArray]

theorem builtinResponse?_text (text : String) :
    store.builtinResponse? (.string text) selector =
      (StringMessage.ofSelector? selector).map (·.perform text) := rfl

/-- A message that goes on with a position where the index has one. -/
theorem indexArgument_bind (size : Nat) (index : Int64) (next : Nat → Effect Action) :
    (indexArgument selector size (.int index) >>= next) store =
      match position? size index with
      | some place => next place store
      | none => .error (.indexOutOfBounds index.toInt size) store := by
  change EStateM.bind _ _ _ = _
  unfold EStateM.bind
  rw [indexArgument_int]
  cases position? size index <;> rfl

theorem indexArgument_bind_of_other {place : Value} (other : ∀ index, place ≠ .int index)
    (size : Nat) (next : Nat → Effect Action) :
    (indexArgument selector size place >>= next) store =
      .error (.typeMismatch selector "integer" (store.className place)) store := by
  change EStateM.bind _ _ _ = _
  unfold EStateM.bind
  rw [indexArgument_of_other other]

theorem arrayIndexing {items : List Value} (isArray : store.get? id = some (.array items)) :
    store.ArrayIndexing id items where
  at_integer index := by
    rw [outcomeOf?_named (builtinResponse?_array isArray)
      (show ArrayMessage.ofSelector? "at:" = some .at by decide)]
    refine congrArg some ((indexArgument_bind items.length index _).trans ?_)
    cases position? items.length index with
    | none =>
        rfl
    | some place =>
        change EStateM.Result.ok (Action.answer (items.getD place .nil)) store = _
        rw [List.getD_eq_getElem?_getD, List.getElem?_eq_getElem place.isLt]
        rfl
  at_other place other := by
    rw [outcomeOf?_named (builtinResponse?_array isArray)
      (show ArrayMessage.ofSelector? "at:" = some .at by decide)]
    exact congrArg some (indexArgument_bind_of_other other items.length _)
  atPut_integer index item := by
    rw [outcomeOf?_named (builtinResponse?_array isArray)
      (show ArrayMessage.ofSelector? "at:put:" = some .atPut by decide)]
    refine congrArg some ((indexArgument_bind items.length index _).trans ?_)
    cases position? items.length index <;> rfl
  stored place item :=
    ⟨get?_set_self _ isArray, fun _ different => get?_set_of_ne _ different⟩
  atPut_other place item other := by
    rw [outcomeOf?_named (builtinResponse?_array isArray)
      (show ArrayMessage.ofSelector? "at:put:" = some .atPut by decide)]
    exact congrArg some (indexArgument_bind_of_other other items.length _)
  first := by
    rw [outcomeOf?_named (builtinResponse?_array isArray)
      (show ArrayMessage.ofSelector? "first" = some .first by decide)]
    cases items <;> rfl
  last := by
    rw [outcomeOf?_named (builtinResponse?_array isArray)
      (show ArrayMessage.ofSelector? "last" = some .last by decide)]
    change some (ArrayMessage.endItem items.getLast? store) = _
    split
    · rename_i nonempty
      rw [List.getLast?_eq_getElem?, List.getElem?_eq_getElem (Nat.sub_lt nonempty Nat.one_pos)]
      rfl
    · rename_i isEmpty
      rw [List.eq_nil_of_length_eq_zero (Nat.eq_zero_of_not_pos isEmpty)]
      rfl
  indexOf small item := by
    rw [outcomeOf?_named (builtinResponse?_array isArray)
      (show ArrayMessage.ofSelector? "indexOf:" = some .indexOf by decide)]
    unfold ArrayMessage.perform
    dsimp only
    rw [effect_get_bind]
    cases searched : findPosition (fun member => store.equals none member (argument [item] 0))
      items with
    | error crash =>
        obtain ⟨member, isMember, crashed⟩ := crash_of_findPosition searched
        obtain rfl := endless_of_equals crashed
        rw [settle_error_bind]
        exact Or.inr ⟨rfl, member, isMember, crashed⟩
    | ok found =>
        rw [settle_ok_bind]
        cases found with
        | none =>
            exact Or.inl ⟨0, rfl, rfl, fails_of_findPosition searched⟩
        | some place =>
            obtain ⟨inside, isEqual⟩ := passes_of_findPosition searched
            refine Or.inl ⟨Int64.ofNat (place + 1), rfl, ?_⟩
            rw [position?_of_small small ⟨place, inside⟩]
            exact isEqual
  size small := by
    refine ⟨_, Int64.toInt_ofNat_of_lt small, ?_⟩
    rw [outcomeOf?_named (builtinResponse?_array isArray)
      (show ArrayMessage.ofSelector? "size" = some .size by decide)]
    rfl

theorem intArgument_bind_of_other {place : Value} (other : ∀ index, place ≠ .int index)
    (next : Int64 → Effect Action) :
    (intArgument selector place >>= next) store =
      .error (.typeMismatch selector "integer" (store.className place)) store := by
  rw [intArgument_of_other other]
  rfl

theorem textIndexing (store : Store) (text : String) : store.TextIndexing text where
  at_integer index := by
    rw [outcomeOf?_named (builtinResponse?_text _)
      (show StringMessage.ofSelector? "at:" = some .at by decide)]
    refine congrArg some ((indexArgument_bind text.length index _).trans ?_)
    rw [← String.length_toList]
    cases position? text.toList.length index with
    | none =>
        rfl
    | some place =>
        change EStateM.Result.ok (Action.answer
          (.string (String.ofList text.toList[place.val]?.toList))) store = _
        rw [List.getElem?_eq_getElem place.isLt]
        rfl
  at_other place other := by
    rw [outcomeOf?_named (builtinResponse?_text _)
      (show StringMessage.ofSelector? "at:" = some .at by decide)]
    exact congrArg some (indexArgument_bind_of_other other text.length _)
  copy_integers first last := by
    rw [outcomeOf?_named (builtinResponse?_text _)
      (show StringMessage.ofSelector? "copyFrom:to:" = some .copyFromTo by decide)]
    change some ((liftExcept (StringMessage.copy text.toList first.toInt last.toInt) >>=
      fun characters => answer (.string (String.ofList characters)) : Effect Action) store) = _
    rw [copy_eq]
    cases part? text.toList.length first last <;> rfl
  copy_otherFirst first last other := by
    rw [outcomeOf?_named (builtinResponse?_text _)
      (show StringMessage.ofSelector? "copyFrom:to:" = some .copyFromTo by decide)]
    exact congrArg some (intArgument_bind_of_other other _)
  copy_otherLast first last other := by
    rw [outcomeOf?_named (builtinResponse?_text _)
      (show StringMessage.ofSelector? "copyFrom:to:" = some .copyFromTo by decide)]
    exact congrArg some (intArgument_bind_of_other other fun last => do
      answer (.string (String.ofList
        (← liftExcept (StringMessage.copy text.toList first.toInt last.toInt)))))
  size small := by
    refine ⟨_, Int64.toInt_ofNat_of_lt small, ?_⟩
    rw [outcomeOf?_named (builtinResponse?_text _)
      (show StringMessage.ofSelector? "size" = some .size by decide)]
    rfl

end Store

/-! ## Arguments -/

section Congruence

variable {given other : List Value}

/-- The lists have the same arguments at the positions for which a selector asks. -/
def SameArguments (selector : Selector) (given other : List Value) : Prop :=
  ∀ position < selector.arity, argument given position = argument other position

/-- Arguments behind those for which a selector asks make no difference. -/
theorem sameArguments_append {selector : Selector} (fits : given.length = selector.arity)
    (beyond : List Value) : SameArguments selector (given ++ beyond) given := by
  intro position inside
  unfold argument
  rw [List.getD_eq_getElem?_getD, List.getD_eq_getElem?_getD,
    List.getElem?_append_left (fits ▸ inside)]

theorem NumberMessage.perform_congr (message : NumberMessage) (n : Number)
    (same : SameArguments message.selector given other) :
    message.perform n given = message.perform n other := by
  cases message with
  | arithmetic operation =>
      have first := same 0 (by cases operation <;> decide)
      simp only [perform, first]
  | compare comparison =>
      have first := same 0 (by cases comparison <;> decide)
      simp only [perform, first]
  | max | min | raisedTo | interval | timesRepeat =>
      simp only [perform, same 0 (by decide)]
  | between | toDo =>
      simp only [perform, same 0 (by decide), same 1 (by decide)]
  | toByDo =>
      simp only [perform, same 0 (by decide), same 1 (by decide), same 2 (by decide)]
  | negated | abs | sqrt | squared | isZero | even | odd | asFloat | asInteger | floor | ceiling
  | rounded | truncated =>
      rfl

theorem StringMessage.perform_congr (message : StringMessage) (text : String)
    (same : SameArguments message.selector given other) :
    message.perform text given = message.perform text other := by
  cases message with
  | compare comparison =>
      have first := same 0 (by cases comparison <;> decide)
      simp only [perform, first]
  | join | «at» | includesSubstring | «do» =>
      simp only [perform, same 0 (by decide)]
  | copyFromTo =>
      simp only [perform, same 0 (by decide), same 1 (by decide)]
  | size | isEmpty | notEmpty | reversed | asUppercase | asLowercase | asString | asSymbol
  | asInteger =>
      rfl

theorem BoolMessage.perform_congr (message : BoolMessage) (value : Bool)
    (same : SameArguments message.selector given other) :
    message.perform value given = message.perform value other := by
  cases message with
  | not =>
      rfl
  | conjunction | disjunction | and | or | xor | ifTrue | ifFalse =>
      simp only [perform, same 0 (by decide)]
  | ifTrueIfFalse | ifFalseIfTrue =>
      simp only [perform, same 0 (by decide), same 1 (by decide)]

theorem ArrayMessage.perform_congr (message : ArrayMessage) (id : ObjectId) (items : List Value)
    (same : SameArguments message.selector given other) :
    message.perform id items given = message.perform id items other := by
  cases message with
  | «at» | includes | indexOf | add | join | «do» | collect | select | reject | detect
  | keysAndValuesDo =>
      simp only [perform, same 0 (by decide)]
  | atPut | detectIfNone | injectInto =>
      simp only [perform, same 0 (by decide), same 1 (by decide)]
  | size | first | last | isEmpty | notEmpty | reversed =>
      rfl

theorem DictionaryMessage.perform_congr (message : DictionaryMessage) (id : ObjectId)
    (entries : List (Value × Value)) (same : SameArguments message.selector given other) :
    message.perform id entries given = message.perform id entries other := by
  cases message with
  | «at» | includesKey | removeKey | «do» | keysDo | keysAndValuesDo =>
      simp only [perform, same 0 (by decide)]
  | atPut | atIfAbsent =>
      simp only [perform, same 0 (by decide), same 1 (by decide)]
  | size | keys | values | isEmpty | notEmpty =>
      rfl

theorem UniversalMessage.perform_congr (message : UniversalMessage) (receiver : Value)
    (same : SameArguments message.selector given other) :
    message.perform receiver given = message.perform receiver other := by
  cases message with
  | identical | notIdentical | equal | notEqual | ifNil | ifNotNil | respondsTo | error | isKindOf
  | isMemberOf =>
      simp only [perform, same 0 (by decide)]
  | ifNilIfNotNil | ifNotNilIfNil =>
      simp only [perform, same 0 (by decide), same 1 (by decide)]
  | isNil | notNil | printString | displayString | println | print | yourself | className | classOf
  | isString | isNumber | isBlock | isClass =>
      rfl

/-- A message that calls the block takes the whole list; any other looks at its arguments by their
positions. -/
theorem BlockMessage.perform_congr (message : BlockMessage) (block : BlockRef) :
    (∀ given, message.perform block given = pure (.call block given none)) ∨
      ∀ {given other}, SameArguments message.selector given other →
        message.perform block given = message.perform block other := by
  cases message with
  -- Whether they are as many as the block has parameters is checked when it is called.
  | value count =>
      exact Or.inl fun _ => rfl
  | valueWithArguments =>
      exact Or.inr fun same => by simp only [perform, same 0 (by decide)]
  | whileLoop goOn =>
      refine Or.inr fun same => ?_
      have first := same 0 (by cases goOn <;> decide)
      simp only [perform, first]
  | numArgs | whileAlone _ | «repeat» =>
      exact Or.inr fun _ => rfl

end Congruence

namespace Store

variable {store : Store} {receiver : Value} {selector : Selector} {response : Response}

/-- The response looks at no argument but the given ones, and at nothing in place of a missing one:
further arguments make no difference.  Or else it calls the receiver with the whole list. -/
def StaysWithin (store : Store) (receiver : Value) (response : Response) (given : List Value) :
    Prop :=
  (∀ beyond, response (given ++ beyond) = response given) ∨
    ∃ id closure, store.see receiver = .block id closure ∧
      ∀ list, response list = pure (.call ⟨id, closure⟩ list none)

theorem staysWithin_of_builtinResponse? {given : List Value}
    (fits : given.length = selector.arity)
    (found : store.builtinResponse? receiver selector = some response) :
    store.StaysWithin receiver response given := by
  unfold builtinResponse? at found
  cases seen : store.see receiver with
  | nil | record _ _ _ | classObject _ _ | gone _ =>
      rw [seen] at found
      cases found
  | int value | float value =>
      rw [seen] at found
      obtain ⟨message, named, rfl⟩ := Option.map_eq_some_iff.mp found
      obtain rfl := selector_of_find? named
      exact Or.inl fun beyond => message.perform_congr _ (sameArguments_append fits beyond)
  | string text =>
      rw [seen] at found
      obtain ⟨message, named, rfl⟩ := Option.map_eq_some_iff.mp found
      obtain rfl := selector_of_find? named
      exact Or.inl fun beyond => message.perform_congr text (sameArguments_append fits beyond)
  | bool value =>
      rw [seen] at found
      obtain ⟨message, named, rfl⟩ := Option.map_eq_some_iff.mp found
      obtain rfl := selector_of_find? named
      exact Or.inl fun beyond => message.perform_congr value (sameArguments_append fits beyond)
  | block id closure =>
      rw [seen] at found
      obtain ⟨message, named, rfl⟩ := Option.map_eq_some_iff.mp found
      obtain rfl := selector_of_find? named
      rcases message.perform_congr ⟨id, closure⟩ with handsOn | congruent
      · exact Or.inr ⟨id, closure, seen, handsOn⟩
      · exact Or.inl fun beyond => congruent (sameArguments_append fits beyond)
  | array id items =>
      rw [seen] at found
      obtain ⟨message, named, rfl⟩ := Option.map_eq_some_iff.mp found
      obtain rfl := selector_of_find? named
      exact Or.inl fun beyond => message.perform_congr id items (sameArguments_append fits beyond)
  | dictionary id entries =>
      rw [seen] at found
      obtain ⟨message, named, rfl⟩ := Option.map_eq_some_iff.mp found
      obtain rfl := selector_of_find? named
      exact Or.inl fun beyond => message.perform_congr id entries (sameArguments_append fits beyond)

theorem staysWithin_of_universalResponse? {given : List Value}
    (fits : given.length = selector.arity)
    (found : store.universalResponse? receiver selector = some response) :
    store.StaysWithin receiver response given := by
  unfold universalResponse? at found
  cases isUniversal : UniversalMessage.ofSelector? selector with
  | some message =>
      rw [isUniversal] at found
      cases found
      obtain rfl := selector_of_find? isUniversal
      exact Or.inl fun beyond => message.perform_congr receiver (sameArguments_append fits beyond)
  | none =>
      rw [isUniversal] at found
      change store.classResponse? receiver selector = some response at found
      unfold classResponse? at found
      split at found
      · obtain ⟨message, _, rfl⟩ := Option.map_eq_some_iff.mp found
        exact Or.inl fun _ => rfl
      · cases found

/-- No built-in message goes outside.  With as many arguments as its selector asks for, it looks at
none but these.  Items and characters are taken by an index exactly if it counts from one up to the
size, and by two of them exactly if the part between them is inside; otherwise the message fails and
no object changes.  From the indices to the positions and back no step overflows a 64-bit word, as
long as the size itself is below the greatest of them. -/
theorem messages_stay_inside (store : Store) (receiver : Value) (selector : Selector)
    (given : List Value) (fits : given.length = selector.arity) :
    (∀ response, store.builtinResponse? receiver selector = some response ∨
        store.universalResponse? receiver selector = some response →
      store.StaysWithin receiver response given) ∧
    (∀ id items, store.get? id = some (.array items) → store.ArrayIndexing id items) ∧
    (∀ text, store.TextIndexing text) ∧
    (∀ size index, wordPosition? size index = some ((position? size index).map Fin.val)) ∧
    (∀ size < 2 ^ 63 - 1, ∀ first last, wordPart? size first last =
      some ((part? size first last).map fun part => (part.lower, part.upper))) ∧
    ∀ size < 2 ^ 63, ∀ place : Fin size,
      position? size (Int64.ofNat (place + 1)) = some place := by
  refine ⟨?_, ?_, store.textIndexing, wordPosition?_eq, ?_, ?_⟩
  · rintro response (found | found)
    · exact staysWithin_of_builtinResponse? fits found
    · exact staysWithin_of_universalResponse? fits found
  · intro id items isArray
    exact arrayIndexing isArray
  · intro size small first last
    exact wordPart?_eq small first last
  · intro size small place
    exact position?_of_small small place

/-- At the ends of an array of three numbers and of a text, and far outside. -/
theorem messages_stay_inside_three :
    (∃ response, threeNumbersAndBlock.builtinResponse? (.ref ⟨0⟩) "at:put:" = some response ∧
      threeNumbersAndBlock.StaysWithin (.ref ⟨0⟩) response [.int 3, .nil]) ∧
    threeNumbersAndBlock.outcomeOf? (.ref ⟨0⟩) "at:" [.int 3] =
      some (.ok (.answer (.int 3)) threeNumbersAndBlock) ∧
    threeNumbersAndBlock.outcomeOf? (.ref ⟨0⟩) "at:" [.int Int64.minValue] =
      some (.error (.indexOutOfBounds (-0x8000000000000000) 3) threeNumbersAndBlock) ∧
    threeNumbersAndBlock.outcomeOf? (.string "ab") "copyFrom:to:" [.int 3, .int 2] =
      some (.ok (.answer (.string "")) threeNumbersAndBlock) ∧
    threeNumbersAndBlock.outcomeOf? (.string "ab") "copyFrom:to:" [.int 1, .int Int64.maxValue] =
      some (.error (.indexOutOfBounds 0x7FFFFFFFFFFFFFFF 2) threeNumbersAndBlock) ∧
    wordPart? 2 1 Int64.maxValue = some none := by
  obtain ⟨within, arrays, texts, _, words, _⟩ :=
    threeNumbersAndBlock.messages_stay_inside (.ref ⟨0⟩) "at:put:" [.int 3, .nil] (by decide)
  have array := arrays ⟨0⟩ [.int 1, .int 2, .int 3] rfl
  have text := texts "ab"
  exact ⟨⟨_, rfl, within _ (Or.inl rfl)⟩, array.at_integer 3, array.at_integer Int64.minValue,
    text.copy_integers 3 2, text.copy_integers 1 Int64.maxValue, words 2 (by decide) 1 _⟩

end Store

end Missive
