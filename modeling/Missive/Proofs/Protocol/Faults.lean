import Missive.Proofs.Object.Contents
import Missive.Protocol.Universal

/-!
# How built-in messages fail

Nearly all messages fail for ordinary causes only: an argument is of the wrong kind or an index is
outside.  What else can happen is that the machine goes down.  Messages that compare values do this
when a comparison has no end.  While a dictionary is being changed, it cannot be compared with
anything either.  And there are more integers between two others than a list can hold.
-/

namespace Missive

/-! ## Ordinary causes -/

/-- The cause is neither that a message is not ordinary nor a crash. -/
def Cause.isOrdinary : Cause → Bool
  | .doesNotUnderstand .. | .crash _ => false
  | _ => true

/-- The computation fails for ordinary causes only. -/
def Ordinary {σ α : Type} (x : EStateM Cause σ α) : Prop :=
  ∀ state cause reached, x state = .error cause reached → cause.isOrdinary = true

section Computations

variable {σ α β : Type}

theorem ordinary_pure (result : α) : Ordinary (pure result : EStateM Cause σ α) := by
  rintro _ _ _ ⟨⟩

theorem ordinary_throw {cause : Cause} (other : cause.isOrdinary = true) :
    Ordinary (throw cause : EStateM Cause σ α) := by
  rintro _ _ _ ⟨⟩
  exact other

theorem Ordinary.bind {x : EStateM Cause σ α} {f : α → EStateM Cause σ β}
    (first : Ordinary x) (next : ∀ result, Ordinary (f result)) : Ordinary (x >>= f) := by
  intro state cause reached failed
  change EStateM.bind x f state = .error cause reached at failed
  unfold EStateM.bind at failed
  cases outcome : x state with
  | ok result between =>
      rw [outcome] at failed
      exact next result between cause reached failed
  | error other between =>
      rw [outcome] at failed
      cases failed
      exact first state cause reached outcome

theorem ordinary_get : Ordinary (get : EStateM Cause σ σ) := by
  rintro _ _ _ ⟨⟩

theorem ordinary_set (state : σ) : Ordinary (set state : EStateM Cause σ PUnit) := by
  rintro _ _ _ ⟨⟩

theorem ordinary_modify (change : σ → σ) :
    Ordinary (modify change : EStateM Cause σ PUnit) := by
  rintro _ _ _ ⟨⟩

theorem ordinary_get_bind {f : σ → EStateM Cause σ α} (next : ∀ state, Ordinary (f state)) :
    Ordinary (get >>= f) :=
  ordinary_get.bind next

end Computations

/-! ## Crashes -/

/-- What fails from the state fails for an ordinary cause, or it is a crash that was provoked and
that has changed nothing before. -/
def Excused {σ α : Type} (state : σ) (provoked : Crash → Prop) (x : EStateM Cause σ α) : Prop :=
  ∀ cause reached, x state = .error cause reached →
    cause.isOrdinary = true ∨ ∃ crash, cause = .crash crash ∧ reached = state ∧ provoked crash

section Excuses

variable {σ α β : Type} {provoked : Crash → Prop}

theorem Ordinary.excused {state : σ} {x : EStateM Cause σ α} (ordinary : Ordinary x) :
    Excused state provoked x :=
  fun cause reached failed => Or.inl (ordinary state cause reached failed)

theorem excused_get_bind {state : σ} {f : σ → EStateM Cause σ α}
    (next : Excused state provoked (f state)) : Excused state provoked (get >>= f) :=
  next

theorem excused_settle_bind {store : Store} {outcome : Except Crash α} {next : α → Effect β}
    (crashes : ∀ crash, outcome = .error crash → provoked crash)
    (further : ∀ result, Excused store provoked (next result)) :
    Excused store provoked (settle outcome >>= next) := by
  cases outcome with
  | ok result =>
      exact further result
  | error crash =>
      rintro _ _ ⟨⟩
      exact Or.inr ⟨crash, rfl, rfl, crashes crash rfl⟩

end Excuses

namespace Store

/-- The message makes the machine go down. -/
inductive Provokes (store : Store) (receiver : Value) (selector : Selector)
    (arguments : List Value) : Crash → Prop
  /-- The integers from one to another are more than a list can hold. -/
  | interval {first last : Int64} : selector = "to:" → receiver = .int first →
      argument arguments 0 = .int last → Number.maxItems < last.toInt - first.toInt + 1 →
      Provokes store receiver selector arguments .capacityOverflow
  /-- The receiver, or what it contains, is compared with the argument, and this has no end. -/
  | comparison {held : Option ObjectId} {part : Value} :
      part = receiver ∨ store.Contains receiver part →
      (∀ fuel, store.equalsAt held fuel 0 part (argument arguments 0) =
        .error .endlessComparison) →
      Provokes store receiver selector arguments .endlessComparison
  /-- The dictionary is to be changed, and one of its keys or the given key involves it. -/
  | change {id : ObjectId} {entries : List (Value × Value)} :
      selector = "at:put:" ∨ selector = "removeKey:" → receiver = .ref id →
      store.get? id = some (.dictionary entries) →
      store.Involves (argument arguments 0) receiver ∨
        (∃ entry ∈ entries, store.Involves entry.1 receiver) →
      Provokes store receiver selector arguments .alreadyBorrowed

variable {store : Store} {receiver part : Value} {selector : Selector} {arguments : List Value}
  {crash : Crash}

/-- A comparison has no end only where something contains itself. -/
theorem Provokes.not_acyclic (provokes : store.Provokes receiver selector arguments crash)
    (endless : crash = .endlessComparison) :
    ¬ store.Acyclic receiver ∨ ¬ store.Acyclic (argument arguments 0) := by
  cases provokes with
  | interval _ _ _ _ | change _ _ _ _ =>
      cases endless
  | comparison isPart compared =>
      by_contra acyclic
      obtain ⟨acyclicReceiver, acyclicArgument⟩ := not_or.mp acyclic
      refine not_endless_of_acyclic ?_ (not_not.mp acyclicArgument) 0 (compared _)
      rcases isPart with rfl | contains
      · exact not_not.mp acyclicReceiver
      · exact (not_not.mp acyclicReceiver).of_contains contains

theorem provokes_of_equals (isPart : part = receiver ∨ store.Contains receiver part)
    (crashed : store.equals none part (argument arguments 0) = .error crash) :
    store.Provokes receiver selector arguments crash := by
  obtain rfl := endless_of_equals crashed
  exact .comparison isPart (equals_endless_iff.mp crashed)

/-- The keys of a dictionary are compared with the argument.  They may be compared while the
dictionary is being changed. -/
theorem provokes_of_position? {id : ObjectId} {held : Option ObjectId}
    {entries : List (Value × Value)} (found : store.get? id = some (.dictionary entries))
    (changes : held = none ∨ held = some id ∧ (selector = "at:put:" ∨ selector = "removeKey:"))
    (crashed : Entries.position? store held entries (argument arguments 0) = .error crash) :
    store.Provokes (.ref id) selector arguments crash := by
  obtain ⟨entry, isEntry, crashes⟩ := crash_of_findPosition crashed
  rcases crash_of_equalsAt crashes with rfl | ⟨rfl, other, isHeld, involves⟩
  · refine .comparison (Or.inr ⟨id, _, rfl, found, ?_⟩) (equals_endless_iff.mp crashes)
    exact (Object.mem_contents_dictionary isEntry).1
  · rcases changes with rfl | ⟨rfl, isChange⟩
    · cases isHeld
    · cases isHeld
      exact .change isChange rfl found
        (involves.symm.imp_right fun inKey => ⟨entry, isEntry, inKey⟩)

end Store

namespace Entries

variable {store : Store} {held : Option ObjectId} {entries : List (Value × Value)} {key : Value}
  {crash : Crash}

theorem crash_of_get? (crashed : get? store held entries key = .error crash) :
    position? store held entries key = .error crash := by
  rcases Except.bind_eq_error.mp crashed with searching | ⟨_, _, impossible⟩
  · exact searching
  · cases impossible

theorem crash_of_insert {value : Value}
    (crashed : insert store held entries key value = .error crash) :
    position? store held entries key = .error crash := by
  rcases Except.bind_eq_error.mp crashed with searching | ⟨place, _, impossible⟩
  · exact searching
  · cases place <;> cases impossible

theorem crash_of_remove (crashed : remove store held entries key = .error crash) :
    position? store held entries key = .error crash := by
  rcases Except.bind_eq_error.mp crashed with searching | ⟨place, _, impossible⟩
  · exact searching
  · cases place <;> cases impossible

end Entries

/-! ## Arguments -/

theorem ordinary_mismatch {α : Type} (selector : Selector) (expected : String)
    (found : Value) : Ordinary (mismatch selector expected found : Effect α) :=
  ordinary_get_bind fun _ => ordinary_throw rfl

theorem ordinary_expectBool (selector : Selector) (value : Value) :
    Ordinary (expectBool selector value) := by
  cases value with
  | bool value =>
      exact ordinary_pure value
  | _ =>
      exact ordinary_mismatch selector _ _

theorem ordinary_numberArgument (selector : Selector) (value : Value) :
    Ordinary (numberArgument selector value) := by
  cases value with
  | int _ | float _ =>
      exact ordinary_pure _
  | _ =>
      exact ordinary_mismatch selector _ _

theorem ordinary_intArgument (selector : Selector) (value : Value) :
    Ordinary (intArgument selector value) := by
  cases value with
  | int value =>
      exact ordinary_pure value
  | _ =>
      exact ordinary_mismatch selector _ _

theorem ordinary_stringArgument (selector : Selector) (value : Value) :
    Ordinary (stringArgument selector value) := by
  cases value with
  | string text =>
      exact ordinary_pure text
  | _ =>
      exact ordinary_mismatch selector _ _

theorem ordinary_blockArgument (selector : Selector) (value : Value) :
    Ordinary (blockArgument selector value) := by
  refine ordinary_get_bind fun store => ?_
  split
  · exact ordinary_pure _
  · exact ordinary_mismatch selector _ _

theorem ordinary_arrayArgument (selector : Selector) (value : Value) :
    Ordinary (arrayArgument selector value) := by
  refine ordinary_get_bind fun store => ?_
  split
  · exact ordinary_pure _
  · exact ordinary_mismatch selector _ _

theorem ordinary_indexArgument (selector : Selector) (size : Nat) (value : Value) :
    Ordinary (indexArgument selector size value) := by
  refine (ordinary_intArgument selector value).bind fun index => ?_
  split
  · exact ordinary_throw rfl
  · exact ordinary_pure _

theorem ordinary_classArgument (selector : Selector) (value : Value) :
    Ordinary (UniversalMessage.classArgument selector value) := by
  refine ordinary_get_bind fun store => ?_
  split
  · exact ordinary_pure _
  · exact ordinary_mismatch selector _ _

/-! ## Answers -/

theorem ordinary_answer (value : Value) : Ordinary (answer value) := ordinary_pure _

theorem ordinary_newArray (items : List Value) : Ordinary (newArray items) :=
  ordinary_get_bind fun _ => (ordinary_set _).bind fun _ => ordinary_pure _

theorem ordinary_answer_newArray (items : List Value) :
    Ordinary (do answer (← newArray items)) :=
  (ordinary_newArray items).bind ordinary_answer

theorem ordinary_liftExcept {α : Type} {result : Except Cause α}
    (other : ∀ cause, result = .error cause → cause.isOrdinary = true) :
    Ordinary (liftExcept result : Effect α) := by
  cases result with
  | ok value =>
      exact ordinary_pure value
  | error cause =>
      exact ordinary_throw (other cause rfl)

theorem ordinary_evaluate (value : Value) : Ordinary (evaluate value) := by
  refine ordinary_get_bind fun store => ?_
  split <;> exact ordinary_pure _

theorem ordinary_evaluateWith (block value : Value) : Ordinary (evaluateWith block value) := by
  refine ordinary_get_bind fun store => ?_
  split
  · split
    · exact ordinary_pure _
    · exact ordinary_evaluate block
  · exact ordinary_evaluate block

/-! ## Loops -/

theorem Iteration.ordinary_advance (iteration : Iteration) (last : Option Value) :
    Ordinary (iteration.advance last) := by
  unfold advance
  cases iteration with
  | whileLoop condition body goOn inBody =>
      cases last with
      | none =>
          exact ordinary_pure _
      | some value =>
          cases inBody with
          | true =>
              exact ordinary_pure _
          | false =>
              refine (ordinary_expectBool _ value).bind fun answer => ?_
              cases answer == goOn <;> cases body <;> exact ordinary_pure _
  | forever body =>
      exact ordinary_pure _
  | times body remaining receiver =>
      cases remaining <;> exact ordinary_pure _
  | count body counter receiver =>
      dsimp only
      split <;> exact ordinary_pure _
  | each body walk receiver | eachPair body walk receiver | fold body walk accumulator =>
      dsimp only
      split <;> exact ordinary_pure _
  | collect body walk results =>
      dsimp only
      split
      · exact ordinary_pure _
      · exact ordinary_answer_newArray _
  | filter body walk keep results =>
      cases last with
      | none =>
          dsimp only
          split
          · exact ordinary_pure _
          · exact ordinary_answer_newArray _
      | some value =>
          refine (ordinary_expectBool _ value).bind fun answer => ?_
          dsimp only
          split
          · exact ordinary_pure _
          · exact ordinary_answer_newArray _
  | detect body walk fallback =>
      have goesOn : Ordinary (advance (.detect body walk fallback) none) := by
        unfold advance
        dsimp only
        rw [pure_bind, if_neg Bool.false_ne_true]
        split
        · exact ordinary_pure _
        · split
          · exact ordinary_evaluate _
          · exact ordinary_pure _
      cases last with
      | none =>
          exact goesOn
      | some value =>
          refine (ordinary_expectBool _ value).bind fun found => ?_
          cases found with
          | true =>
              exact ordinary_pure _
          | false =>
              exact goesOn

/-- A message that starts a loop with a block. -/
theorem ordinary_blockLoop (selector : Selector) (block : Value) (loop : BlockRef → Iteration) :
    Ordinary (do (loop (← blockArgument selector block)).begin) :=
  (ordinary_blockArgument selector block).bind fun body => (loop body).ordinary_advance none

/-! ## Numbers -/

theorem ordinary_checked (selector : Selector) (result : Option Int64) :
    Ordinary (Number.checked selector result) := by
  cases result with
  | none =>
      exact ordinary_throw rfl
  | some value =>
      exact ordinary_answer _

theorem ordinary_roundTo (n : Number) (selector : Selector) (rounding : Binary64.Rounding) :
    Ordinary (n.roundTo selector rounding) := by
  cases n with
  | int value =>
      exact ordinary_answer _
  | float value =>
      exact ordinary_checked selector _

theorem ordinary_power (selector : Selector) (base exponent : Number) :
    Ordinary (Number.power selector base exponent) := by
  unfold Number.power
  split
  · split
    · split
      · exact ordinary_checked selector _
      · exact ordinary_throw rfl
    · exact ordinary_answer _
  · exact ordinary_answer _

theorem ordinary_countTo (selector : Selector) (first stop step : Number) (body : BlockRef) :
    Ordinary (Number.countTo selector first stop step body) := by
  unfold Number.countTo
  cases step.toFloat.isZero with
  | true =>
      exact ordinary_throw rfl
  | false =>
      exact (Iteration.count body _ first.value).ordinary_advance none

theorem ordinary_arithmetic (operation : Arithmetic) (x y : Number) :
    Ordinary (do answer (← liftExcept (operation.apply x y)).value) := by
  refine (ordinary_liftExcept fun cause failed => ?_).bind fun _ => ordinary_answer _
  unfold Arithmetic.apply at failed
  repeat' split at failed
  all_goals cases failed
  all_goals rfl

theorem NumberMessage.ordinary_perform {message : NumberMessage} (notInterval : message ≠ .interval)
    (n : Number) (arguments : List Value) : Ordinary (message.perform n arguments) := by
  cases message with
  | arithmetic operation =>
      exact (ordinary_numberArgument _ _).bind fun other => ordinary_arithmetic operation n other
  | compare comparison =>
      refine (ordinary_numberArgument _ _).bind fun other => ?_
      split <;> exact ordinary_answer _
  | max | min =>
      exact (ordinary_numberArgument _ _).bind fun _ => ordinary_answer _
  | between =>
      exact (ordinary_numberArgument _ _).bind fun _ =>
        (ordinary_numberArgument _ _).bind fun _ => ordinary_answer _
  | negated =>
      cases n with
      | int value =>
          exact ordinary_checked "negated" (Checked.negate? value)
      | float value =>
          exact ordinary_answer _
  | abs =>
      cases n with
      | int value =>
          exact ordinary_checked "abs" (Checked.magnitude? value)
      | float value =>
          exact ordinary_answer _
  | squared =>
      exact ordinary_arithmetic .multiply n n
  | sqrt | isZero | asFloat =>
      exact ordinary_answer _
  | even | odd =>
      exact (ordinary_intArgument _ _).bind fun _ => ordinary_answer _
  | asInteger | floor | ceiling | rounded | truncated =>
      exact ordinary_roundTo n _ _
  | raisedTo =>
      exact (ordinary_numberArgument _ _).bind fun exponent => ordinary_power _ n exponent
  | interval =>
      exact (notInterval rfl).elim
  | toDo =>
      exact (ordinary_numberArgument _ _).bind fun stop =>
        (ordinary_blockArgument _ _).bind fun body => ordinary_countTo _ n stop _ body
  | toByDo =>
      exact (ordinary_numberArgument _ _).bind fun stop =>
        (ordinary_numberArgument _ _).bind fun step =>
          (ordinary_blockArgument _ _).bind fun body => ordinary_countTo _ n stop step body
  | timesRepeat =>
      exact (ordinary_blockArgument _ _).bind fun body =>
        (ordinary_intArgument _ _).bind fun count => Iteration.ordinary_advance _ none

theorem provokes_of_range {store : Store} {first last : Int64} {arguments : List Value}
    {crash : Crash} (isLast : argument arguments 0 = .int last)
    (crashed : Number.range first last = .error crash) :
    store.Provokes (.int first) "to:" arguments crash := by
  unfold Number.range at crashed
  dsimp only at crashed
  split at crashed
  · rename_i tooMany
    cases crashed
    exact .interval rfl rfl isLast (by omega)
  · cases crashed

theorem NumberMessage.excused_perform (message : NumberMessage) (n : Number)
    (arguments : List Value) (store : Store) :
    Excused store (store.Provokes n.value message.selector arguments)
      (message.perform n arguments) := by
  by_cases isInterval : message = .interval
  · subst isInterval
    unfold perform
    dsimp only
    cases n with
    | float value =>
        exact (ordinary_mismatch _ _ _).excused
    | int first =>
        cases given : argument arguments 0 with
        | int last =>
            refine excused_settle_bind (fun crash crashed => ?_) fun items =>
              (ordinary_answer_newArray items).excused
            exact provokes_of_range given crashed
        | _ =>
            exact (ordinary_mismatch _ _ _).excused
  · exact (ordinary_perform isInterval n arguments).excused

/-! ## Other values -/

theorem StringMessage.ordinary_perform (message : StringMessage) (text : String)
    (arguments : List Value) : Ordinary (message.perform text arguments) := by
  cases message with
  | size | isEmpty | notEmpty | reversed | asUppercase | asLowercase | asString | asSymbol =>
      exact ordinary_answer _
  | join | includesSubstring | compare _ =>
      exact (ordinary_stringArgument _ _).bind fun _ => ordinary_answer _
  | «at» =>
      exact (ordinary_indexArgument _ _ _).bind fun _ => ordinary_answer _
  | asInteger =>
      unfold perform
      dsimp only
      split <;> exact ordinary_answer _
  | copyFromTo =>
      refine (ordinary_intArgument _ _).bind fun start => (ordinary_intArgument _ _).bind
        fun stop => (ordinary_liftExcept fun cause failed => ?_).bind fun _ => ordinary_answer _
      unfold copy at failed
      split at failed <;> cases failed
      rfl
  | «do» =>
      exact (ordinary_blockArgument _ _).bind fun body => Iteration.ordinary_advance _ none

theorem BoolMessage.ordinary_perform (message : BoolMessage) (value : Bool)
    (arguments : List Value) : Ordinary (message.perform value arguments) := by
  cases message with
  | not =>
      exact ordinary_answer _
  | conjunction | disjunction | xor =>
      exact (ordinary_expectBool _ _).bind fun _ => ordinary_answer _
  | and | or | ifTrue | ifFalse =>
      cases value
      all_goals first
        | exact ordinary_evaluate _
        | exact ordinary_answer _
  | ifTrueIfFalse | ifFalseIfTrue =>
      exact ordinary_evaluate _

theorem BlockMessage.ordinary_perform (message : BlockMessage) (block : BlockRef)
    (arguments : List Value) : Ordinary (message.perform block arguments) := by
  cases message with
  | value _ =>
      exact ordinary_pure _
  | valueWithArguments =>
      exact (ordinary_arrayArgument _ _).bind fun _ => ordinary_pure _
  | numArgs =>
      exact ordinary_answer _
  | whileLoop goOn =>
      exact ordinary_blockLoop _ _ fun body => .whileLoop block (some body) goOn false
  | whileAlone goOn =>
      exact (Iteration.whileLoop block none goOn false).ordinary_advance none
  | «repeat» =>
      exact (Iteration.forever block).ordinary_advance none

theorem ArrayMessage.excused_perform {store : Store} {id : ObjectId} {items : List Value}
    (found : store.get? id = some (.array items)) (message : ArrayMessage)
    (arguments : List Value) :
    Excused store (store.Provokes (.ref id) message.selector arguments)
      (message.perform id items arguments) := by
  have endItem : ∀ item, Ordinary (ArrayMessage.endItem item) := by
    rintro (_ | value)
    · exact ordinary_throw rfl
    · exact ordinary_answer value
  have provokes : ∀ crash, (∃ item ∈ items,
      store.equals none item (argument arguments 0) = .error crash) →
      store.Provokes (.ref id) message.selector arguments crash :=
    fun crash ⟨item, isItem, crashes⟩ =>
      Store.provokes_of_equals (Or.inr ⟨id, _, rfl, found, isItem⟩) crashes
  cases message with
  | size | isEmpty | notEmpty =>
      exact (ordinary_answer _).excused
  | «at» =>
      exact ((ordinary_indexArgument _ _ _).bind fun _ => ordinary_answer _).excused
  | atPut =>
      exact ((ordinary_indexArgument _ _ _).bind fun _ =>
        (ordinary_modify _).bind fun _ => ordinary_answer _).excused
  | first | last =>
      exact (endItem _).excused
  | includes =>
      refine excused_get_bind (excused_settle_bind (fun crash crashed => ?_) fun _ =>
        (ordinary_answer _).excused)
      exact provokes crash (crash_of_anyM crashed)
  | indexOf =>
      refine excused_get_bind (excused_settle_bind (fun crash crashed => ?_) fun place => ?_)
      · exact provokes crash (crash_of_findPosition crashed)
      · cases place with
        | some _ | none =>
            exact (ordinary_answer _).excused
  | add =>
      exact ((ordinary_modify _).bind fun _ => ordinary_answer _).excused
  | join =>
      exact ((ordinary_arrayArgument _ _).bind fun _ => ordinary_answer_newArray _).excused
  | reversed =>
      exact (ordinary_answer_newArray _).excused
  | «do» | keysAndValuesDo | collect | select | reject | detect | detectIfNone | injectInto =>
      exact ((ordinary_blockArgument _ _).bind fun body =>
        Iteration.ordinary_advance _ none).excused

/-- The value of the given key is looked up, and the message goes on with it. -/
theorem excused_lookup {α : Type} {store : Store} {id : ObjectId}
    {entries : List (Value × Value)} (found : store.get? id = some (.dictionary entries))
    {selector : Selector} {arguments : List Value} {held : Option ObjectId}
    (changes : held = none ∨ held = some id ∧ (selector = "at:put:" ∨ selector = "removeKey:"))
    {next : Option Value → Effect α}
    (further : ∀ value, Excused store (store.Provokes (.ref id) selector arguments)
      (next value)) :
    Excused store (store.Provokes (.ref id) selector arguments)
      (do next (← settle (Entries.get? (← get) held entries (argument arguments 0)))) :=
  excused_get_bind (excused_settle_bind
    (fun _ crashed => Store.provokes_of_position? found changes (Entries.crash_of_get? crashed))
    further)

theorem DictionaryMessage.excused_perform {store : Store} {id : ObjectId}
    {entries : List (Value × Value)} (found : store.get? id = some (.dictionary entries))
    (message : DictionaryMessage) (arguments : List Value) :
    Excused store (store.Provokes (.ref id) message.selector arguments)
      (message.perform id entries arguments) := by
  have missingKey : ∀ key, Ordinary (DictionaryMessage.missingKey key : Effect Action) :=
    fun key => ordinary_get_bind fun _ => ordinary_throw rfl
  cases message with
  | size | isEmpty | notEmpty =>
      exact (ordinary_answer _).excused
  | «at» =>
      refine excused_lookup found (Or.inl rfl) fun value => ?_
      cases value with
      | some _ =>
          exact (ordinary_answer _).excused
      | none =>
          exact (missingKey _).excused
  | atPut =>
      refine excused_get_bind (excused_settle_bind (fun crash crashed => ?_) fun changed =>
        ((ordinary_modify _).bind fun _ => ordinary_answer _).excused)
      exact Store.provokes_of_position? found (Or.inr ⟨rfl, Or.inl rfl⟩)
        (Entries.crash_of_insert crashed)
  | atIfAbsent =>
      refine excused_lookup found (Or.inl rfl) fun value => ?_
      cases value with
      | some _ =>
          exact (ordinary_answer _).excused
      | none =>
          exact (ordinary_evaluate _).excused
  | includesKey =>
      exact excused_lookup found (Or.inl rfl) fun _ => (ordinary_answer _).excused
  | removeKey =>
      have changes : some id = none ∨ some id = some id ∧
          (selector .removeKey = "at:put:" ∨ selector .removeKey = "removeKey:") :=
        Or.inr ⟨rfl, Or.inr rfl⟩
      refine excused_lookup found changes fun value => ?_
      cases value with
      | some value =>
          refine excused_get_bind (excused_settle_bind (fun crash crashed => ?_) fun changed =>
            ((ordinary_modify _).bind fun _ => ordinary_answer _).excused)
          exact Store.provokes_of_position? found changes (Entries.crash_of_remove crashed)
      | none =>
          exact (missingKey _).excused
  | keys | values =>
      exact (ordinary_answer_newArray _).excused
  | «do» | keysDo | keysAndValuesDo =>
      exact ((ordinary_blockArgument _ _).bind fun body =>
        Iteration.ordinary_advance _ none).excused

theorem ClassMessage.ordinary_perform (message : ClassMessage) (id : ObjectId)
    (definition : ClassObject) : Ordinary (message.perform id definition) := by
  cases message with
  | new | basicNew =>
      exact ordinary_get_bind fun _ => (ordinary_set _).bind fun _ => ordinary_answer _
  | name =>
      exact ordinary_answer _
  | superclass =>
      unfold perform
      dsimp only
      split <;> exact ordinary_answer _

theorem UniversalMessage.ordinary_perform {message : UniversalMessage}
    (notEqual : message ≠ .equal) (notUnequal : message ≠ .notEqual) (receiver : Value)
    (arguments : List Value) : Ordinary (message.perform receiver arguments) := by
  refine ordinary_get_bind fun store => ?_
  cases message with
  | equal =>
      exact (notEqual rfl).elim
  | notEqual =>
      exact (notUnequal rfl).elim
  | identical | notIdentical | isNil | notNil | printString | displayString | yourself
  | className =>
      exact ordinary_answer _
  | ifNil =>
      dsimp only
      split
      · exact ordinary_evaluate _
      · exact ordinary_answer _
  | ifNotNil =>
      dsimp only
      split
      · exact ordinary_answer _
      · exact ordinary_evaluateWith _ _
  | ifNilIfNotNil | ifNotNilIfNil =>
      dsimp only
      split
      · exact ordinary_evaluate _
      · exact ordinary_evaluateWith _ _
  | println | print =>
      exact ordinary_pure _
  | classOf | isString | isNumber | isBlock | isClass =>
      dsimp only
      split <;> exact ordinary_answer _
  | respondsTo =>
      dsimp only
      split
      · exact ordinary_answer _
      · exact ordinary_mismatch _ _ _
  | error =>
      exact ordinary_throw rfl
  | isKindOf | isMemberOf =>
      refine (ordinary_classArgument _ _).bind fun target => ?_
      split <;> exact ordinary_answer _

theorem UniversalMessage.excused_perform (message : UniversalMessage) (receiver : Value)
    (arguments : List Value) (store : Store) :
    Excused store (store.Provokes receiver message.selector arguments)
      (message.perform receiver arguments) := by
  have compares : ∀ answered : Bool → Value,
      Excused store (store.Provokes receiver message.selector arguments)
        (do answer (answered (← settle (store.equals none receiver (argument arguments 0))))) :=
    fun answered => excused_settle_bind
      (fun crash crashed => Store.provokes_of_equals (Or.inl rfl) crashed)
      fun _ => (ordinary_answer _).excused
  by_cases isEqual : message = .equal
  · subst isEqual
    exact excused_get_bind (compares .bool)
  · by_cases isNotEqual : message = .notEqual
    · subst isNotEqual
      exact excused_get_bind (compares fun same => .bool !same)
    · exact (ordinary_perform isEqual isNotEqual receiver arguments).excused

/-! ## Responses -/

/-- The message that is found for a selector has it. -/
theorem selector_of_find? {Message : Type} {messages : List Message}
    {nameOf : Message → Selector} {selector : Selector} {message : Message}
    (found : messages.find? (fun message => nameOf message == selector) = some message) :
    nameOf message = selector := by
  simpa using List.find?_some found

/-- The number that is seen. -/
def Seen.number? : Seen → Option Number
  | .int value => some (.int value)
  | .float value => some (.float value)
  | _ => none

theorem Store.number_of_see {store : Store} {value : Value} {n : Number}
    (seen : (store.see value).number? = some n) : value = n.value := by
  cases value with
  | int _ | float _ =>
      cases seen
      rfl
  | ref id =>
      unfold Store.see at seen
      dsimp only at seen
      split at seen
      all_goals cases seen
  | _ =>
      cases seen

namespace Store

variable {store : Store} {receiver : Value} {selector : Selector} {response : Response}

theorem excused_of_builtinResponse?
    (found : store.builtinResponse? receiver selector = some response) (arguments : List Value) :
    Excused store (store.Provokes receiver selector arguments) (response arguments) := by
  unfold builtinResponse? at found
  cases seen : store.see receiver with
  | nil | record _ _ _ | classObject _ _ | gone _ =>
      rw [seen] at found
      cases found
  | int value | float value =>
      rw [seen] at found
      obtain rfl := number_of_see (congrArg Seen.number? seen)
      obtain ⟨message, named, rfl⟩ := Option.map_eq_some_iff.mp found
      rw [← selector_of_find? named]
      exact message.excused_perform _ arguments store
  | string text =>
      rw [seen] at found
      obtain ⟨message, -, rfl⟩ := Option.map_eq_some_iff.mp found
      exact (message.ordinary_perform text arguments).excused
  | bool value =>
      rw [seen] at found
      obtain ⟨message, -, rfl⟩ := Option.map_eq_some_iff.mp found
      exact (message.ordinary_perform value arguments).excused
  | block id closure =>
      rw [seen] at found
      obtain ⟨message, -, rfl⟩ := Option.map_eq_some_iff.mp found
      exact (message.ordinary_perform ⟨id, closure⟩ arguments).excused
  | array id items =>
      rw [seen] at found
      obtain ⟨rfl, isArray⟩ := of_see (congrArg Seen.object? seen)
      obtain ⟨message, named, rfl⟩ := Option.map_eq_some_iff.mp found
      rw [← selector_of_find? named]
      exact message.excused_perform isArray arguments
  | dictionary id entries =>
      rw [seen] at found
      obtain ⟨rfl, isDictionary⟩ := of_see (congrArg Seen.object? seen)
      obtain ⟨message, named, rfl⟩ := Option.map_eq_some_iff.mp found
      rw [← selector_of_find? named]
      exact message.excused_perform isDictionary arguments

theorem excused_of_universalResponse?
    (found : store.universalResponse? receiver selector = some response)
    (arguments : List Value) :
    Excused store (store.Provokes receiver selector arguments) (response arguments) := by
  unfold universalResponse? at found
  cases named : UniversalMessage.ofSelector? selector with
  | some message =>
      rw [named] at found
      cases found
      rw [← selector_of_find? named]
      exact message.excused_perform receiver arguments store
  | none =>
      rw [named] at found
      change store.classResponse? receiver selector = some response at found
      unfold classResponse? at found
      split at found
      · obtain ⟨message, -, rfl⟩ := Option.map_eq_some_iff.mp found
        exact (message.ordinary_perform _ _).excused
      · cases found

end Store

end Missive
