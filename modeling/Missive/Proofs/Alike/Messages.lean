import Missive.Proofs.Alike.Effects
import Missive.Protocol.Universal

/-!
# Built-in messages agree

A built-in message that is sent to the same value in two linked stores does the same in both.
-/

namespace Missive

open Effect

variable {link : Link} {left right : Store} {arguments : List Value}

theorem knows_argument (known : ∀ value ∈ arguments, link.Knows value) (position : Nat) :
    link.Knows (argument arguments position) :=
  Link.knows_getD known position

@[simp]
theorem knows_number (n : Number) : link.Knows n.value := by
  cases n with
  | int value => exact Link.knows_int value
  | float value => exact Link.knows_float value

theorem Arithmetic.external_of_apply {operation : Arithmetic} {x y : Number} {cause : Cause}
    (failed : operation.apply x y = .error cause) : cause.isOfMessage = true := by
  unfold Arithmetic.apply at failed
  split at failed
  · split at failed
    · cases failed
      rfl
    · split at failed
      · cases failed
      · cases failed
        rfl
  · split at failed
    · cases failed
      rfl
    · cases failed

theorem Number.int_of_mem_range {first last : Int64} {items : List Value} {item : Value}
    (isRange : Number.range first last = .ok items) (member : item ∈ items) :
    ∃ number, item = .int number := by
  unfold Number.range at isRange
  dsimp only at isRange
  split at isRange
  · cases isRange
  · cases isRange
    obtain ⟨offset, _, rfl⟩ := List.mem_map.mp member
    exact ⟨_, rfl⟩

section Responses

variable (stores : link.Stores left right) (known : ∀ value ∈ arguments, link.Knows value)
include stores

/-! ## Steps of responses to numbers -/

theorem agrees_checked (selector : Selector) (result : Option Int64) :
    Agrees link left right (Number.checked selector result) (Number.checked selector result)
      Link.Actions := by
  cases result with
  | none =>
      exact agrees_throw stores rfl
  | some value =>
      exact agrees_answer stores (Link.knows_int value)

theorem agrees_roundTo (n : Number) (selector : Selector) (rounding : Binary64.Rounding) :
    Agrees link left right (n.roundTo selector rounding) (n.roundTo selector rounding)
      Link.Actions := by
  cases n with
  | int value =>
      exact agrees_answer stores (Link.knows_int value)
  | float value =>
      exact agrees_checked stores selector _

theorem agrees_power (selector : Selector) (base exponent : Number) :
    Agrees link left right (Number.power selector base exponent)
      (Number.power selector base exponent) Link.Actions := by
  unfold Number.power
  split
  · split
    · split
      · exact agrees_checked stores selector _
      · exact agrees_throw stores rfl
    · exact agrees_answer stores (Link.knows_float _)
  · exact agrees_answer stores (Link.knows_float _)

theorem agrees_countTo {leftBlock rightBlock : BlockRef} (selector : Selector)
    (first stop step : Number) (blocks : link.Blocks leftBlock rightBlock) :
    Agrees link left right (Number.countTo selector first stop step leftBlock)
      (Number.countTo selector first stop step rightBlock) Link.Actions := by
  by_cases zero : step.toFloat.isZero = true
  · simp only [Number.countTo, zero, if_true]
    exact agrees_throw_bind stores rfl
  · simp only [Number.countTo, zero]
    exact agrees_begin stores (.count _ blocks (knows_number first))

theorem agrees_arithmetic (operation : Arithmetic) (x y : Number) :
    Agrees link left right (do answer (← liftExcept (operation.apply x y)).value)
      (do answer (← liftExcept (operation.apply x y)).value) Link.Actions := by
  refine (agrees_liftExcept stores fun cause => Arithmetic.external_of_apply).bind ?_
  rintro later leftReached rightReached result _ _ laterStores rfl
  exact agrees_answer laterStores (knows_number result)

/-! ## Kinds of responses -/

theorem agrees_endItem {item : Option Value} (knownItem : ∀ value ∈ item, link.Knows value) :
    Agrees link left right (ArrayMessage.endItem item) (ArrayMessage.endItem item)
      Link.Actions := by
  cases item with
  | none =>
      exact agrees_throw stores rfl
  | some value =>
      exact agrees_answer stores (knownItem value rfl)

/-- A message that starts a loop with a block. -/
theorem agrees_blockLoop {block : Value} {loop : BlockRef → Iteration} (selector : Selector)
    (knownBlock : link.Knows block)
    (loops : ∀ {later leftBlock rightBlock}, Link.Within link later →
      later.Blocks leftBlock rightBlock → later.Loops (loop leftBlock) (loop rightBlock)) :
    Agrees link left right (do (loop (← blockArgument selector block)).begin)
      (do (loop (← blockArgument selector block)).begin) Link.Actions := by
  apply (agrees_blockArgument stores knownBlock selector).bind
  intro later leftReached rightReached leftBlock rightBlock grows laterStores blocks
  exact agrees_begin laterStores (loops grows.within blocks)

/-- An array or a dictionary gets new contents. -/
theorem agrees_set_answer {id : ObjectId} {leftChange rightChange : Store → Store}
    {object : Object} {value : Value} (linked : link.objects id object.cleared object.cleared)
    (leftSame : leftChange left = left.set id object)
    (rightSame : rightChange right = right.set id object) (objects : link.Objects object object)
    (knownValue : link.Knows value) :
    Agrees link left right (do modify leftChange; answer value)
      (do modify rightChange; answer value)
      Link.Actions := by
  refine agrees_modify_bind (Link.Grows.refl link) ?_ ?_
  · rw [leftSame]
    exact stores.inherits_set linked
  · rw [leftSame, rightSame]
    exact agrees_answer (stores.set linked objects) knownValue

include known

/-! ## Messages to numbers -/

theorem NumberMessage.agrees_perform (message : NumberMessage) (n : Number) :
    Agrees link left right (message.perform n arguments) (message.perform n arguments)
      Link.Actions := by
  have knownFirst := knows_argument known 0
  have knownSecond := knows_argument known 1
  cases message with
  | arithmetic operation =>
      apply (agrees_numberArgument stores knownFirst _).bind
      rintro later leftReached rightReached other _ _ laterStores rfl
      exact agrees_arithmetic laterStores operation n other
  | compare comparison =>
      apply (agrees_numberArgument stores knownFirst _).bind
      rintro later leftReached rightReached other _ _ laterStores rfl
      split
      · exact agrees_answer laterStores (Link.knows_bool _)
      · exact agrees_answer laterStores (Link.knows_bool _)
  | max =>
      apply (agrees_numberArgument stores knownFirst _).bind
      rintro later leftReached rightReached other _ grows laterStores rfl
      apply agrees_answer laterStores
      split
      · exact grows.within.knows knownFirst
      · exact knows_number n
  | min =>
      apply (agrees_numberArgument stores knownFirst _).bind
      rintro later leftReached rightReached other _ grows laterStores rfl
      apply agrees_answer laterStores
      split
      · exact knows_number n
      · exact grows.within.knows knownFirst
  | between =>
      apply (agrees_numberArgument stores knownFirst _).bind
      rintro later leftReached rightReached low _ grows laterStores rfl
      apply (agrees_numberArgument laterStores (grows.within.knows knownSecond) _).bind
      rintro last leftLast rightLast high _ _ lastStores rfl
      exact agrees_answer lastStores (Link.knows_bool _)
  | negated =>
      cases n with
      | int value =>
          exact agrees_checked stores _ _
      | float value =>
          exact agrees_answer stores (Link.knows_float _)
  | abs =>
      cases n with
      | int value =>
          dsimp only [NumberMessage.perform]
          exact agrees_checked stores _ _
      | float value =>
          exact agrees_answer stores (Link.knows_float _)
  | squared =>
      exact agrees_arithmetic stores Arithmetic.multiply n n
  | even | odd =>
      apply (agrees_intArgument stores (knows_number n) _).bind
      rintro later leftReached rightReached value _ _ laterStores rfl
      exact agrees_answer laterStores (Link.knows_bool _)
  | sqrt | asFloat =>
      exact agrees_answer stores (Link.knows_float _)
  | isZero =>
      exact agrees_answer stores (Link.knows_bool _)
  | asInteger | truncated | floor | ceiling | rounded =>
      exact agrees_roundTo stores n _ _
  | raisedTo =>
      apply (agrees_numberArgument stores knownFirst _).bind
      rintro later leftReached rightReached exponent _ _ laterStores rfl
      exact agrees_power laterStores _ n exponent
  | interval =>
      apply (agrees_intArgument stores (knows_number n) _).bind
      rintro later leftReached rightReached start _ grows laterStores rfl
      apply (agrees_intArgument laterStores (grows.within.knows knownFirst) _).bind
      rintro last leftLast rightLast stop _ _ lastStores rfl
      refine agrees_settle_bind lastStores fun items isRange => ?_
      apply agrees_answer_newArray lastStores
      intro value member
      obtain ⟨number, rfl⟩ := Number.int_of_mem_range isRange member
      exact Link.knows_int number
  | toDo =>
      apply (agrees_numberArgument stores knownFirst _).bind
      rintro later leftReached rightReached stop _ grows laterStores rfl
      apply (agrees_blockArgument laterStores (grows.within.knows knownSecond) _).bind
      intro last leftLast rightLast leftBlock rightBlock _ lastStores blocks
      exact agrees_countTo lastStores _ n stop _ blocks
  | toByDo =>
      apply (agrees_numberArgument stores knownFirst _).bind
      rintro later leftReached rightReached stop _ grows laterStores rfl
      apply (agrees_numberArgument laterStores (grows.within.knows knownSecond) _).bind
      rintro third leftThird rightThird step _ growsAgain thirdStores rfl
      have knownThird := (grows.trans growsAgain).within.knows (knows_argument known 2)
      apply (agrees_blockArgument thirdStores knownThird _).bind
      intro last leftLast rightLast leftBlock rightBlock _ lastStores blocks
      exact agrees_countTo lastStores _ n stop step blocks
  | timesRepeat =>
      apply (agrees_blockArgument stores knownFirst _).bind
      intro later leftReached rightReached leftBlock rightBlock grows laterStores blocks
      apply (agrees_intArgument laterStores (knows_number n) _).bind
      rintro last leftLast rightLast count _ growsAgain lastStores rfl
      exact agrees_begin lastStores (.times _ (growsAgain.within.blocks blocks) (knows_number n))

/-! ## Texts and truth values -/

theorem StringMessage.agrees_perform (message : StringMessage) (text : String) :
    Agrees link left right (message.perform text arguments) (message.perform text arguments)
      Link.Actions := by
  have knownFirst := knows_argument known 0
  have knownSecond := knows_argument known 1
  cases message with
  | join =>
      apply (agrees_stringArgument stores knownFirst _).bind
      rintro later leftReached rightReached other _ _ laterStores rfl
      exact agrees_answer laterStores (Link.knows_string _)
  | size =>
      exact agrees_answer stores (Link.knows_int _)
  | «at» =>
      apply (agrees_indexArgument stores knownFirst _ _).bind
      rintro later leftReached rightReached index _ _ laterStores rfl
      exact agrees_answer laterStores (Link.knows_string _)
  | isEmpty | notEmpty =>
      exact agrees_answer stores (Link.knows_bool _)
  | reversed | asUppercase | asLowercase | asString | asSymbol =>
      exact agrees_answer stores (Link.knows_string _)
  | asInteger =>
      dsimp only [StringMessage.perform]
      split
      · exact agrees_answer stores (Link.knows_int _)
      · exact agrees_answer stores Link.knows_nil
  | includesSubstring | compare =>
      apply (agrees_stringArgument stores knownFirst _).bind
      rintro later leftReached rightReached part _ _ laterStores rfl
      exact agrees_answer laterStores (Link.knows_bool _)
  | copyFromTo =>
      apply (agrees_intArgument stores knownFirst _).bind
      rintro later leftReached rightReached start _ grows laterStores rfl
      apply (agrees_intArgument laterStores (grows.within.knows knownSecond) _).bind
      rintro third leftThird rightThird stop _ _ thirdStores rfl
      refine (agrees_liftExcept thirdStores fun cause failed => ?_).bind ?_
      · unfold StringMessage.copy at failed
        split at failed
        · cases failed
          rfl
        · cases failed
      · rintro last leftLast rightLast part _ _ lastStores rfl
        exact agrees_answer lastStores (Link.knows_string _)
  | «do» =>
      apply (agrees_blockArgument stores knownFirst _).bind
      intro later leftReached rightReached leftBlock rightBlock _ laterStores blocks
      refine agrees_begin laterStores
        (.each blocks (fun value member => ?_) (Link.knows_string text))
      obtain ⟨c, _, rfl⟩ := List.mem_map.mp member
      exact Link.knows_string _

theorem BoolMessage.agrees_perform (message : BoolMessage) (value : Bool) :
    Agrees link left right (message.perform value arguments) (message.perform value arguments)
      Link.Actions := by
  have knownFirst := knows_argument known 0
  have knownSecond := knows_argument known 1
  cases message with
  | not =>
      exact agrees_answer stores (Link.knows_bool _)
  | conjunction | disjunction | xor =>
      apply (agrees_expectBool stores knownFirst _).bind
      rintro later leftReached rightReached other _ _ laterStores rfl
      exact agrees_answer laterStores (Link.knows_bool _)
  | and | ifTrue =>
      cases value with
      | false => exact agrees_answer stores (Link.knows_of_references_nil rfl)
      | true => exact agrees_evaluate stores knownFirst
  | or | ifFalse =>
      cases value with
      | false => exact agrees_evaluate stores knownFirst
      | true => exact agrees_answer stores (Link.knows_of_references_nil rfl)
  | ifTrueIfFalse =>
      cases value with
      | false => exact agrees_evaluate stores knownSecond
      | true => exact agrees_evaluate stores knownFirst
  | ifFalseIfTrue =>
      cases value with
      | false => exact agrees_evaluate stores knownFirst
      | true => exact agrees_evaluate stores knownSecond

/-! ## Blocks -/

theorem BlockMessage.agrees_perform {leftBlock rightBlock : BlockRef} (message : BlockMessage)
    (blocks : link.Blocks leftBlock rightBlock) :
    Agrees link left right (message.perform leftBlock arguments)
      (message.perform rightBlock arguments) Link.Actions := by
  have knownFirst := knows_argument known 0
  cases message with
  | value count =>
      exact agrees_pure stores (.call blocks known .none)
  | valueWithArguments =>
      apply (agrees_arrayArgument stores knownFirst _).bind
      rintro later leftReached rightReached items _ grows laterStores ⟨rfl, knownItems⟩
      exact agrees_pure laterStores (.call (grows.within.blocks blocks) knownItems .none)
  | numArgs =>
      dsimp only [BlockMessage.perform]
      rw [(stores.closures blocks).2.2.same]
      exact agrees_answer stores (Link.knows_int _)
  | whileLoop goOn =>
      apply (agrees_blockArgument stores knownFirst _).bind
      intro later leftReached rightReached leftBody rightBody grows laterStores bodies
      exact agrees_begin laterStores (.whileLoop goOn false (grows.within.blocks blocks) bodies)
  | whileAlone goOn =>
      exact agrees_begin stores (.whileAlone goOn false blocks)
  | «repeat» =>
      exact agrees_begin stores (.forever blocks)

/-! ## Arrays and dictionaries -/

theorem ArrayMessage.agrees_perform {id : ObjectId} {items : List Value} (message : ArrayMessage)
    (linked : link.objects id (.array []) (.array []))
    (knownItems : ∀ value ∈ items, link.Knows value) :
    Agrees link left right (message.perform id items arguments)
      (message.perform id items arguments) Link.Actions := by
  have knownFirst := knows_argument known 0
  have knownSecond := knows_argument known 1
  have knownItem : ∀ {value : Value}, value ∈ items → link.Knows value :=
    fun member => knownItems _ member
  have knownSelf : link.Knows (.ref id) := Link.knows_ref.mpr ⟨_, _, linked⟩
  cases message with
  | size =>
      exact agrees_answer stores (Link.knows_int _)
  | «at» =>
      apply (agrees_indexArgument stores knownFirst _ _).bind
      rintro later leftReached rightReached index _ grows laterStores rfl
      exact agrees_answer laterStores (grows.within.knows (Link.knows_getD knownItems index))
  | atPut =>
      apply (agrees_indexArgument stores knownFirst _ _).bind
      rintro later leftReached rightReached index _ grows laterStores rfl
      refine agrees_set_answer laterStores (grows.within.objects linked) rfl rfl
        (Link.linkedArray fun value member => grows.within.knows ?_)
        (grows.within.knows knownSecond)
      rcases List.mem_or_eq_of_mem_set member with old | rfl
      · exact knownItem old
      · exact knownSecond
  | first =>
      exact agrees_endItem stores fun value member => knownItem (List.mem_of_mem_head? member)
  | last =>
      exact agrees_endItem stores fun value member => knownItem (List.mem_of_mem_getLast? member)
  | isEmpty | notEmpty =>
      exact agrees_answer stores (Link.knows_bool _)
  | includes =>
      apply agrees_get_bind
      rw [Link.anyM_eq_of_mem fun item member => stores.equals (knownItems item member) knownFirst]
      exact agrees_settle_bind stores fun _ _ => agrees_answer stores (Link.knows_bool _)
  | indexOf =>
      apply agrees_get_bind
      rw [Link.findPosition_eq_of_mem
        fun item member => stores.equals (knownItems item member) knownFirst]
      refine agrees_settle_bind stores fun found _ => ?_
      cases found with
      | some _ | none =>
          exact agrees_answer stores (Link.knows_int _)
  | add =>
      refine agrees_set_answer stores linked rfl rfl (Link.linkedArray ?_) knownFirst
      exact List.forall_mem_append.mpr ⟨knownItems, oneKnown knownFirst⟩
  | join =>
      apply (agrees_arrayArgument stores knownFirst _).bind
      rintro later leftReached rightReached others _ grows laterStores ⟨rfl, knownOthers⟩
      exact agrees_answer_newArray laterStores (List.forall_mem_append.mpr
        ⟨fun value member => grows.within.knows (knownItem member), knownOthers⟩)
  | reversed =>
      exact agrees_answer_newArray stores fun value member => knownItem (List.mem_reverse.mp member)
  | «do» =>
      exact agrees_blockLoop stores _ knownFirst fun within blocks =>
        .each blocks (within.allKnown knownItems) (within.knows knownSelf)
  | collect =>
      exact agrees_blockLoop stores _ knownFirst fun within blocks =>
        .collect blocks (within.allKnown knownItems) noneKnown
  | select =>
      exact agrees_blockLoop stores _ knownFirst fun within blocks =>
        .filter true blocks (within.allKnown knownItems) noneKnown
  | reject =>
      exact agrees_blockLoop stores _ knownFirst fun within blocks =>
        .filter false blocks (within.allKnown knownItems) noneKnown
  | detect =>
      exact agrees_blockLoop stores _ knownFirst fun within blocks =>
        .detect blocks (within.allKnown knownItems)
          fun _ impossible => (Option.not_mem_none _ impossible).elim
  | detectIfNone =>
      exact agrees_blockLoop stores _ knownFirst fun within blocks =>
        .detect blocks (within.allKnown knownItems)
          fun _ member => Option.some.inj member ▸ within.knows knownSecond
  | injectInto =>
      exact agrees_blockLoop stores _ knownSecond fun within blocks =>
        .fold blocks (within.allKnown knownItems) (within.knows knownFirst)
  | keysAndValuesDo =>
      refine agrees_blockLoop stores _ knownFirst fun within blocks =>
        .eachPair blocks (within.allPairsKnown fun pair member => ?_) (within.knows knownSelf)
      obtain ⟨⟨item, position⟩, itemMember, rfl⟩ := List.mem_map.mp member
      exact ⟨Link.knows_int _, knownItem (List.fst_mem_of_mem_zipIdx itemMember)⟩

omit known in
theorem agrees_missingKey {α : Type} {answers : Link → α → α → Prop} {key : Value}
    (knownKey : link.Knows key) :
    Agrees link left right (DictionaryMessage.missingKey key) (DictionaryMessage.missingKey key)
      answers := by
  apply agrees_get_bind
  rw [stores.print knownKey]
  exact agrees_throw stores rfl

theorem DictionaryMessage.agrees_perform {id : ObjectId} {entries : List (Value × Value)}
    (message : DictionaryMessage) (linked : link.objects id (.dictionary []) (.dictionary []))
    (knownEntries : ∀ entry ∈ entries, link.Knows entry.1 ∧ link.Knows entry.2) :
    Agrees link left right (message.perform id entries arguments)
      (message.perform id entries arguments) Link.Actions := by
  have knownFirst := knows_argument known 0
  have knownSecond := knows_argument known 1
  have knownSelf : link.Knows (.ref id) := Link.knows_ref.mpr ⟨_, _, linked⟩
  have knownKeys : ∀ value ∈ entries.map Prod.fst, link.Knows value :=
    List.forall_mem_map.mpr fun entry member => (knownEntries entry member).1
  have knownValues : ∀ value ∈ entries.map Prod.snd, link.Knows value :=
    List.forall_mem_map.mpr fun entry member => (knownEntries entry member).2
  have sameEntry : ∀ {held}, Entries.get? left held entries (argument arguments 0) =
      Entries.get? right held entries (argument arguments 0) :=
    stores.entriesGet? knownEntries knownFirst
  cases message with
  | size =>
      exact agrees_answer stores (Link.knows_int _)
  | «at» =>
      apply agrees_get_bind
      rw [← sameEntry]
      refine agrees_settle_bind stores fun entry found => ?_
      cases entry with
      | some value =>
          exact agrees_answer stores (Link.knows_of_entriesGet? knownEntries found)
      | none =>
          exact agrees_missingKey stores knownFirst
  | atPut =>
      apply agrees_get_bind
      rw [← stores.entriesInsert knownEntries knownFirst]
      refine agrees_settle_bind stores fun changed inserted => ?_
      exact agrees_set_answer stores linked rfl rfl (Link.linkedDictionary
        (Link.knows_entriesInsert knownEntries knownFirst knownSecond inserted)) knownSecond
  | atIfAbsent =>
      apply agrees_get_bind
      rw [← sameEntry]
      refine agrees_settle_bind stores fun entry found => ?_
      cases entry with
      | some value =>
          exact agrees_answer stores (Link.knows_of_entriesGet? knownEntries found)
      | none =>
          exact agrees_evaluate stores knownSecond
  | includesKey =>
      apply agrees_get_bind
      rw [← sameEntry]
      exact agrees_settle_bind stores fun _ _ => agrees_answer stores (Link.knows_bool _)
  | removeKey =>
      apply agrees_get_bind
      rw [← sameEntry]
      refine agrees_settle_bind stores fun entry found => ?_
      cases entry with
      | some value =>
          apply agrees_get_bind
          rw [← stores.entriesRemove knownEntries knownFirst]
          refine agrees_settle_bind stores fun changed removed => ?_
          exact agrees_set_answer stores linked rfl rfl
            (Link.linkedDictionary (Link.knows_entriesRemove knownEntries removed))
            (Link.knows_of_entriesGet? knownEntries found)
      | none =>
          exact agrees_missingKey stores knownFirst
  | keys =>
      exact agrees_answer_newArray stores knownKeys
  | values =>
      exact agrees_answer_newArray stores knownValues
  | isEmpty | notEmpty =>
      exact agrees_answer stores (Link.knows_bool _)
  | «do» =>
      exact agrees_blockLoop stores _ knownFirst fun within blocks =>
        .each blocks (within.allKnown knownValues) (within.knows knownSelf)
  | keysDo =>
      exact agrees_blockLoop stores _ knownFirst fun within blocks =>
        .each blocks (within.allKnown knownKeys) (within.knows knownSelf)
  | keysAndValuesDo =>
      exact agrees_blockLoop stores _ knownFirst fun within blocks =>
        .eachPair blocks (within.allPairsKnown knownEntries) (within.knows knownSelf)

omit known

/-! ## Classes and dispatch -/

theorem agrees_answer_newRecord {classId : ObjectId} {definition : ClassObject}
    (hasClass : link.Has classId) (isClass : left.class? classId = some definition) :
    Agrees link left right
      (do
        let (record, store) := (← get).newRecord classId
        set store
        answer (.ref record))
      (do
        let (record, store) := (← get).newRecord classId
        set store
        answer (.ref record)) Link.Actions := by
  obtain ⟨sameId, later, grows, has, laterStores⟩ := stores.newRecord hasClass
  have answered : later.Actions (.answer (.ref (left.newRecord classId).1))
      (.answer (.ref (right.newRecord classId).1)) := by
    rw [← sameId]
    exact .answer (Link.knows_ref.mpr has)
  exact .ok ⟨grows, laterStores, Store.inherits_newRecord isClass⟩ answered

theorem ClassMessage.agrees_perform {id : ObjectId} {definition : ClassObject}
    (message : ClassMessage)
    (linked : link.objects id (Object.classObject definition).cleared
      (Object.classObject definition).cleared)
    (parent : ∀ above ∈ definition.superclass, link.Has above) :
    Agrees link left right (message.perform id definition) (message.perform id definition)
      Link.Actions := by
  cases message with
  | new | basicNew =>
      obtain ⟨object, _, found, _, fixed, _⟩ := stores.linked linked
      obtain ⟨current, rfl, _⟩ := Object.eq_classObject_of_cleared fixed
      exact agrees_answer_newRecord stores ⟨_, _, linked⟩ (Store.class?_of_get? found)
  | name =>
      exact agrees_answer stores (Link.knows_string _)
  | superclass =>
      dsimp only [ClassMessage.perform]
      cases above : definition.superclass with
      | none =>
          exact agrees_answer stores Link.knows_nil
      | some id =>
          exact agrees_answer stores (Link.knows_ref.mpr (parent id above))

theorem agrees_evaluateWith {block value : Value} (knownBlock : link.Knows block)
    (knownValue : link.Knows value) :
    Agrees link left right (evaluateWith block value) (evaluateWith block value) Link.Actions := by
  apply agrees_get_bind
  have sights := stores.see knownBlock
  generalize left.see block = leftSeen, right.see block = rightSeen at sights ⊢
  cases sights with
  | block blocks parameters =>
      dsimp only
      rw [parameters]
      split
      · exact agrees_pure stores (.call blocks (oneKnown knownValue) .none)
      · exact agrees_evaluate stores knownBlock
  | _ =>
      exact agrees_evaluate stores knownBlock

theorem agrees_classArgument {value : Value} (knownValue : link.Knows value)
    (selector : Selector) :
    Agrees link left right (UniversalMessage.classArgument selector value)
      (UniversalMessage.classArgument selector value) (fun _ a b => a = b) := by
  apply agrees_get_bind
  have sights := stores.see knownValue
  generalize left.see value = leftSeen, right.see value = rightSeen at sights ⊢
  cases sights with
  | classObject _ _ _ =>
      exact agrees_pure stores rfl
  | _ =>
      exact agrees_mismatch stores knownValue selector "class"

/-- The responses on either side: none, or two that agree on known arguments. -/
inductive Link.Responses (link : Link) (left right : Store) :
    Option Response → Option Response → Prop
  | none : Link.Responses link left right none none
  | some {leftResponse rightResponse : Response} :
      (∀ {arguments : List Value}, (∀ value ∈ arguments, link.Knows value) →
        Agrees link left right (leftResponse arguments) (rightResponse arguments) Link.Actions) →
      Link.Responses link left right (some leftResponse) (some rightResponse)

omit stores in
/-- The responses that two families of messages give for a selector. -/
theorem responses_map {Message : Type} {found : Option Message}
    {leftPerform rightPerform : Message → Response}
    (agrees : ∀ message {arguments : List Value}, (∀ value ∈ arguments, link.Knows value) →
      Agrees link left right (leftPerform message arguments) (rightPerform message arguments)
        Link.Actions) :
    link.Responses left right (found.map leftPerform) (found.map rightPerform) := by
  cases found with
  | none =>
      exact .none
  | some message =>
      exact .some (agrees message)

theorem responses_builtin {receiver : Value} (knownReceiver : link.Knows receiver)
    (selector : Selector) :
    link.Responses left right (left.builtinResponse? receiver selector)
      (right.builtinResponse? receiver selector) := by
  unfold Store.builtinResponse?
  have sights := stores.see knownReceiver
  generalize left.see receiver = leftSeen, right.see receiver = rightSeen at sights ⊢
  cases sights with
  | int n =>
      exact responses_map fun message _ known =>
        NumberMessage.agrees_perform stores known message (.int n)
  | float x =>
      exact responses_map fun message _ known =>
        NumberMessage.agrees_perform stores known message (.float x)
  | string text =>
      exact responses_map fun message _ known =>
        StringMessage.agrees_perform stores known message text
  | bool value =>
      exact responses_map fun message _ known =>
        BoolMessage.agrees_perform stores known message value
  | block blocks _ =>
      exact responses_map fun message _ known =>
        BlockMessage.agrees_perform stores known message blocks
  | array linked items =>
      exact responses_map fun message _ known =>
        ArrayMessage.agrees_perform stores known message linked items
  | dictionary linked entries =>
      exact responses_map fun message _ known =>
        DictionaryMessage.agrees_perform stores known message linked entries
  | nil | record _ _ _ | classObject _ _ _ =>
      exact .none

theorem method?_eq {receiver : Value} (knownReceiver : link.Knows receiver)
    (selector : Selector) : left.method? receiver selector = right.method? receiver selector := by
  unfold Store.method?
  have sights := stores.see knownReceiver
  generalize left.see receiver = leftSeen, right.see receiver = rightSeen at sights ⊢
  cases sights with
  | record _ hasClass _ =>
      dsimp only
      rw [stores.lookup false selector hasClass]
  | classObject linked _ _ =>
      dsimp only
      rw [stores.lookup true selector ⟨_, _, linked⟩]
  | _ => rfl

theorem has_of_method? {receiver : Value} {selector : Selector} {owner : ObjectId}
    {definition : ClassObject} {method : MethodDescriptor} {classSide : Bool}
    (knownReceiver : link.Knows receiver)
    (found : left.method? receiver selector = some (owner, definition, method, classSide)) :
    link.Has owner := by
  unfold Store.method? at found
  have sights := stores.see knownReceiver
  generalize left.see receiver = leftSeen, right.see receiver = rightSeen at sights found
  cases sights with
  | record _ hasClass _ =>
      obtain ⟨entry, isFound, same⟩ := Option.map_eq_some_iff.mp found
      cases same
      exact stores.has_of_lookup hasClass isFound
  | classObject linked _ _ =>
      obtain ⟨entry, isFound, same⟩ := Option.map_eq_some_iff.mp found
      cases same
      exact stores.has_of_lookup ⟨_, _, linked⟩ isFound
  | _ => cases found

theorem responses_class {receiver : Value} (knownReceiver : link.Knows receiver)
    (selector : Selector) :
    link.Responses left right (left.classResponse? receiver selector)
      (right.classResponse? receiver selector) := by
  unfold Store.classResponse?
  have sights := stores.see knownReceiver
  generalize left.see receiver = leftSeen, right.see receiver = rightSeen at sights ⊢
  cases sights with
  | classObject linked parent _ =>
      exact responses_map fun message _ _ =>
        ClassMessage.agrees_perform stores message linked parent
  | _ =>
      exact .none

theorem respondsTo_eq {receiver : Value} (knownReceiver : link.Knows receiver)
    (selector : Selector) :
    left.respondsTo receiver selector = right.respondsTo receiver selector := by
  have sameList : left.listedSelectors receiver = right.listedSelectors receiver := by
    unfold Store.listedSelectors
    have sights := stores.see knownReceiver
    generalize left.see receiver = leftSeen, right.see receiver = rightSeen at sights ⊢
    cases sights <;> rfl
  unfold Store.respondsTo
  rw [method?_eq stores knownReceiver, sameList]

theorem UniversalMessage.agrees_perform {receiver : Value} (message : UniversalMessage)
    (knownReceiver : link.Knows receiver) (known : ∀ value ∈ arguments, link.Knows value) :
    Agrees link left right (message.perform receiver arguments) (message.perform receiver arguments)
      Link.Actions := by
  have knownFirst := knows_argument known 0
  have knownSecond := knows_argument known 1
  have sights := stores.see knownReceiver
  have answersBool : ∀ value, Agrees link left right (answer (.bool value)) (answer (.bool value))
      Link.Actions := fun value => agrees_answer stores (Link.knows_bool value)
  apply agrees_get_bind
  cases message with
  | identical | notIdentical | isNil | notNil =>
      exact answersBool _
  | equal | notEqual =>
      dsimp only
      rw [stores.equals knownReceiver knownFirst]
      exact agrees_settle_bind stores fun _ _ => answersBool _
  | ifNil =>
      dsimp only
      split
      · exact agrees_evaluate stores knownFirst
      · exact agrees_answer stores knownReceiver
  | ifNotNil =>
      dsimp only
      split
      · exact agrees_answer stores Link.knows_nil
      · exact agrees_evaluateWith stores knownFirst knownReceiver
  | ifNilIfNotNil =>
      dsimp only
      split
      · exact agrees_evaluate stores knownFirst
      · exact agrees_evaluateWith stores knownSecond knownReceiver
  | ifNotNilIfNil =>
      dsimp only
      split
      · exact agrees_evaluate stores knownSecond
      · exact agrees_evaluateWith stores knownFirst knownReceiver
  | printString =>
      dsimp only
      rw [stores.print knownReceiver]
      exact agrees_answer stores (Link.knows_string _)
  | displayString =>
      dsimp only
      rw [stores.display knownReceiver]
      exact agrees_answer stores (Link.knows_string _)
  | println | print =>
      dsimp only
      rw [stores.display knownReceiver]
      exact agrees_pure stores (.write _ knownReceiver)
  | yourself =>
      exact agrees_answer stores knownReceiver
  | className =>
      dsimp only
      rw [stores.className knownReceiver]
      exact agrees_answer stores (Link.knows_string _)
  | classOf =>
      dsimp only
      rw [stores.className knownReceiver]
      generalize left.see receiver = leftSeen, right.see receiver = rightSeen at sights ⊢
      cases sights with
      | record _ hasClass _ =>
          exact agrees_answer stores (Link.knows_ref.mpr hasClass)
      | classObject linked _ _ =>
          exact agrees_answer stores (Link.knows_ref.mpr ⟨_, _, linked⟩)
      | _ =>
          exact agrees_answer stores (Link.knows_string _)
  | respondsTo =>
      dsimp only
      split
      · rw [respondsTo_eq stores knownReceiver]
        exact answersBool _
      · exact agrees_mismatch stores knownFirst _ _
  | error =>
      dsimp only
      rw [stores.display knownFirst]
      exact agrees_throw stores rfl
  | isKindOf =>
      apply (agrees_classArgument stores knownFirst _).bind
      rintro later leftReached rightReached target _ _ laterStores rfl
      generalize left.see receiver = leftSeen, right.see receiver = rightSeen at sights ⊢
      cases sights with
      | record _ hasClass _ =>
          dsimp only
          rw [stores.inheritsFrom hasClass]
          exact agrees_answer laterStores (Link.knows_bool _)
      | _ =>
          exact agrees_answer laterStores (Link.knows_bool _)
  | isMemberOf =>
      apply (agrees_classArgument stores knownFirst _).bind
      rintro later leftReached rightReached target _ _ laterStores rfl
      generalize left.see receiver = leftSeen, right.see receiver = rightSeen at sights ⊢
      cases sights <;> exact agrees_answer laterStores (Link.knows_bool _)
  | isString | isNumber | isBlock | isClass =>
      dsimp only
      generalize left.see receiver = leftSeen, right.see receiver = rightSeen at sights ⊢
      cases sights <;> exact answersBool _

theorem responses_universal {receiver : Value} (knownReceiver : link.Knows receiver)
    (selector : Selector) :
    link.Responses left right (left.universalResponse? receiver selector)
      (right.universalResponse? receiver selector) := by
  unfold Store.universalResponse?
  split
  · exact .some fun known => UniversalMessage.agrees_perform stores _ knownReceiver known
  · exact responses_class stores knownReceiver selector

end Responses

end Missive
