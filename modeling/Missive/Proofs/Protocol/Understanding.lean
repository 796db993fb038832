import Mathlib.Tactic.Tauto
import Missive.Proofs.Protocol.Faults
import Missive.Proofs.Steps.Returns

/-!
# Which messages are understood

A value says that it responds to a message where a written list for its kind, or the one for all
values, has the selector, or where its class has a method for it.  A message that is sent is looked
for elsewhere: among the messages to the kind of the value, then among the methods, then among the
messages to all values.

The two agree in both directions.  The lists have just the selectors of the messages, and no message
that is found complains afterwards that something is not understood.
-/

namespace Missive

/-! ## The lists of selectors -/

theorem contains_map_selector {Message : Type} (messages : List Message)
    (nameOf : Message → Selector) (selector : Selector) :
    (messages.map nameOf).contains selector =
      (messages.find? fun message => nameOf message == selector).isSome := by
  rw [List.isSome_find?, List.contains_eq_any_beq, List.any_map]
  refine congrArg (List.any messages) (funext fun message => ?_)
  exact Bool.beq_comm

namespace Store

variable (store : Store) (receiver : Value) (selector : Selector)

/-- What is listed for the kind of a value is what a response is found for. -/
theorem contains_listedSelectors :
    (store.listedSelectors receiver).contains selector =
      ((store.builtinResponse? receiver selector).isSome ||
        (store.classResponse? receiver selector).isSome) := by
  unfold listedSelectors builtinResponse? classResponse?
  cases store.see receiver with
  | nil | record _ _ _ | gone _ =>
      rfl
  | int _ | float _ =>
      rw [Option.isSome_map, Option.isSome_none, Bool.or_false]
      exact contains_map_selector NumberMessage.all NumberMessage.selector selector
  | string _ =>
      rw [Option.isSome_map, Option.isSome_none, Bool.or_false]
      exact contains_map_selector StringMessage.all StringMessage.selector selector
  | bool _ =>
      rw [Option.isSome_map, Option.isSome_none, Bool.or_false]
      exact contains_map_selector BoolMessage.all BoolMessage.selector selector
  | block _ _ =>
      rw [Option.isSome_map, Option.isSome_none, Bool.or_false]
      exact contains_map_selector BlockMessage.all BlockMessage.selector selector
  | array _ _ =>
      rw [Option.isSome_map, Option.isSome_none, Bool.or_false]
      exact contains_map_selector ArrayMessage.all ArrayMessage.selector selector
  | dictionary _ _ =>
      rw [Option.isSome_map, Option.isSome_none, Bool.or_false]
      exact contains_map_selector DictionaryMessage.all DictionaryMessage.selector selector
  | classObject _ _ =>
      rw [Option.isSome_map, Option.isSome_none, Bool.false_or]
      exact contains_map_selector ClassMessage.all ClassMessage.selector selector

theorem contains_listed_universal :
    UniversalMessage.listed.contains selector =
      (UniversalMessage.ofSelector? selector).isSome :=
  contains_map_selector UniversalMessage.all UniversalMessage.selector selector

theorem isSome_universalResponse? :
    (store.universalResponse? receiver selector).isSome =
      ((UniversalMessage.ofSelector? selector).isSome ||
        (store.classResponse? receiver selector).isSome) := by
  unfold universalResponse?
  cases UniversalMessage.ofSelector? selector <;> simp

/-- A value says that it does not respond exactly where each way to find the message fails. -/
theorem respondsTo_eq_false_iff :
    store.respondsTo receiver selector = false ↔
      store.builtinResponse? receiver selector = none ∧
        store.method? receiver selector = none ∧
        store.universalResponse? receiver selector = none := by
  unfold respondsTo
  rw [contains_listedSelectors, contains_listed_universal]
  have universally := store.isSome_universalResponse? receiver selector
  simp only [← Option.not_isSome_iff_eq_none, Bool.not_eq_true, universally,
    Bool.or_eq_false_iff]
  tauto

end Store

/-! ## Messages on the stack -/

/-- The instruction sends a message that lies on the stack, the receiver below the arguments.  There
are as many arguments as the selector takes. -/
structure Frame.Sends (frame : Frame) (instruction : Instruction) (receiver : Value)
    (selector : Selector) (arguments operands : List Value) : Prop where
  selected : frame.code.constants[(Instruction.unpack instruction.operand).1]? =
    some (.string selector)
  count : (Instruction.unpack instruction.operand).2 = arguments.length
  arity : selector.arity = arguments.length
  stack : frame.stack = arguments.reverse ++ receiver :: operands

namespace Exec

variable {machine reached : Machine} {current : Frame} {rest : List Frame}

theorem popMany_of_append {values operands : List Value} (frames : machine.frames = current :: rest)
    (stack : current.stack = values.reverse ++ operands) :
    popMany values.length machine =
      .ok values { machine with frames := { current with stack := operands } :: rest } := by
  have taken : current.stack.take values.length = values.reverse := by
    rw [stack, List.take_left' List.length_reverse]
  have dropped : current.stack.drop values.length = operands := by
    rw [stack, List.drop_left' List.length_reverse]
  unfold popMany
  rw [bind_of_ok (frame_of_cons frames)]
  dsimp only
  rw [taken, if_neg (by simp)]
  refine (bind_of_ok (modifyFrame_of_cons frames _)).trans ?_
  rw [dropped, List.reverse_reverse]
  rfl

theorem append_of_popMany {count : Nat} {values : List Value}
    (frames : machine.frames = current :: rest)
    (popped : popMany count machine = .ok values reached) :
    ∃ operands, values.length = count ∧ current.stack = values.reverse ++ operands ∧
      reached = { machine with frames := { current with stack := operands } :: rest } := by
  unfold popMany at popped
  rw [bind_of_ok (frame_of_cons frames)] at popped
  dsimp only at popped
  split at popped
  · cases popped
  · rename_i enough
    rw [List.length_take] at enough
    rw [bind_of_ok (modifyFrame_of_cons frames _)] at popped
    cases popped
    refine ⟨current.stack.drop count, ?_, ?_, rfl⟩
    · rw [List.length_reverse, List.length_take]
      omega
    · rw [List.reverse_reverse, List.take_append_drop]

theorem cons_of_pop {value : Value} (frames : machine.frames = current :: rest)
    (popped : pop machine = .ok value reached) :
    ∃ operands, current.stack = value :: operands ∧
      reached = { machine with frames := { current with stack := operands } :: rest } := by
  unfold pop at popped
  rw [bind_of_ok (frame_of_cons frames)] at popped
  cases stack : current.stack with
  | nil =>
      simp only [stack] at popped
      cases popped
  | cons top operands =>
      simp only [stack] at popped
      rw [bind_of_ok (modifyFrame_of_cons frames _)] at popped
      cases popped
      exact ⟨operands, rfl, rfl⟩

theorem takeMessage_of_sends {instruction : Instruction} {selector : Selector} {receiver : Value}
    {arguments operands : List Value} (frames : machine.frames = current :: rest)
    (sends : current.Sends instruction receiver selector arguments operands) :
    takeMessage instruction machine = .ok (receiver, selector, arguments)
      { machine with frames := { current with stack := operands } :: rest } := by
  have selected : constantAt? (some (Instruction.unpack instruction.operand).1) machine =
      .ok (some (.string selector)) machine := by
    unfold constantAt?
    rw [bind_of_ok (frame_of_cons frames), Option.bind_some, sends.selected]
    rfl
  unfold takeMessage
  dsimp only
  rw [bind_of_ok selected, sends.count]
  dsimp only
  rw [bind_of_ok (popMany_of_append frames sends.stack), bind_of_ok (pop_of_cons rfl rfl)]
  rfl

/-- What is taken as a message lies on the stack as one. -/
theorem sends_of_takeMessage {instruction : Instruction} {receiver : Value} {selector : Selector}
    {arguments : List Value} (frames : machine.frames = current :: rest)
    (taken : takeMessage instruction machine = .ok (receiver, selector, arguments) reached) :
    ∃ operands, (selector.arity = arguments.length →
        current.Sends instruction receiver selector arguments operands) ∧
      reached = { machine with frames := { current with stack := operands } :: rest } := by
  have looked : constantAt? (some (Instruction.unpack instruction.operand).1) machine =
      .ok current.code.constants[(Instruction.unpack instruction.operand).1]? machine := by
    unfold constantAt?
    rw [bind_of_ok (frame_of_cons frames)]
    rfl
  unfold takeMessage at taken
  obtain ⟨constant, _, isConstant, taken⟩ := bind_eq_ok.mp taken
  cases looked.symm.trans isConstant
  cases selected : current.code.constants[(Instruction.unpack instruction.operand).1]? with
  | none =>
      rw [selected] at taken
      cases taken
  | some constant =>
      rw [selected] at taken
      cases constant with
      | string name =>
          obtain ⟨values, between, argumentsPopped, taken⟩ := bind_eq_ok.mp taken
          obtain ⟨target, last, receiverPopped, taken⟩ := bind_eq_ok.mp taken
          cases taken
          obtain ⟨operands, count, isStack, rfl⟩ := append_of_popMany frames argumentsPopped
          obtain ⟨below, rfl, isReached⟩ := cons_of_pop rfl receiverPopped
          exact ⟨below, fun fits => ⟨selected, count.symm, fits, isStack⟩, isReached⟩
      | _ =>
          cases taken

end Exec

/-! ## Sends -/

namespace Exec

theorem ordinary_onStore {α : Type} {effect : Effect α} (ordinary : Ordinary effect) :
    Ordinary (onStore effect) := by
  intro machine cause reached failed
  unfold onStore at failed
  cases outcome : effect machine.store with
  | ok result store =>
      rw [outcome] at failed
      cases failed
  | error other store =>
      rw [outcome] at failed
      cases failed
      exact ordinary machine.store cause store outcome

theorem ordinary_frame : Ordinary frame := by
  refine ordinary_get_bind fun machine => ?_
  split
  · exact ordinary_pure _
  · exact ordinary_throw rfl

theorem ordinary_push (value : Value) : Ordinary (push value) := by
  refine ordinary_get_bind fun machine => ordinary_frame.bind fun current => ?_
  dsimp only
  split
  · exact ordinary_throw rfl
  · exact ordinary_modify _

theorem ordinary_pushTracked (value : Value) : Ordinary (pushTracked value) :=
  (ordinary_modify _).bind fun _ => ordinary_push value

theorem ordinary_write (text : String) : Ordinary (write text) := by
  refine ordinary_get_bind fun machine => ?_
  dsimp only
  split
  · split
    · exact ordinary_throw rfl
    · exact ordinary_pure _
  · exact ordinary_modify _

theorem ordinary_checkDepth : Ordinary checkDepth := by
  refine ordinary_get_bind fun machine => ?_
  split
  · exact ordinary_throw rfl
  · exact ordinary_pure _

theorem ordinary_newContext (outer : Option ContextId) (locals : List Value) :
    Ordinary (newContext outer locals) :=
  ordinary_get_bind fun _ => (ordinary_modify _).bind fun _ => ordinary_pure _

theorem ordinary_callMethod (receiver : Value) (owner : ObjectId) (definition : ClassObject)
    (method : MethodDescriptor) (classSide : Bool) (arguments : List Value) :
    Ordinary (callMethod receiver owner definition method classSide arguments) :=
  ordinary_checkDepth.bind fun _ => (ordinary_newContext _ _).bind fun _ => ordinary_modify _

theorem ordinary_callBlock (block : BlockRef) (arguments : List Value)
    (loop : Option Iteration) : Ordinary (callBlock block arguments loop) := by
  unfold callBlock
  dsimp only
  split
  · exact ordinary_throw rfl
  · exact ordinary_checkDepth.bind fun _ => (ordinary_newContext _ _).bind fun _ =>
      ordinary_modify _

theorem ordinary_perform (action : Action) : Ordinary (perform action) := by
  cases action with
  | answer value =>
      exact ordinary_pushTracked value
  | call block arguments loop =>
      exact ordinary_callBlock block arguments loop
  | write text value =>
      exact (ordinary_write text).bind fun _ => ordinary_pushTracked value

variable {machine : Machine} {receiver : Value} {selector : Selector} {arguments : List Value}

theorem excused_perform_onStore {provoked : Crash → Prop} {effect : Effect Action}
    (excused : Excused machine.store provoked effect) :
    Excused machine provoked (do perform (← onStore effect)) := by
  intro cause reached failed
  change EStateM.bind (onStore effect) perform machine = _ at failed
  unfold EStateM.bind onStore at failed
  cases outcome : effect machine.store with
  | ok action store =>
      rw [outcome] at failed
      exact Or.inl (ordinary_perform action _ cause reached failed)
  | error other store =>
      rw [outcome] at failed
      cases failed
      refine (excused cause store outcome).imp_right ?_
      rintro ⟨crash, isCrash, rfl, isProvoked⟩
      exact ⟨crash, isCrash, rfl, isProvoked⟩

/-- A message with as many arguments as its selector asks for is looked for in three places. -/
theorem send_of_fits (fits : arguments.length = selector.arity) :
    send receiver selector arguments machine =
      (match machine.store.builtinResponse? receiver selector with
        | some response => do perform (← onStore (response arguments))
        | none =>
          match machine.store.method? receiver selector with
          | some (owner, definition, method, classSide) =>
            callMethod receiver owner definition method classSide arguments
          | none => respondUniversally receiver selector arguments : Exec Unit) machine := by
  unfold send checkArgumentCount
  rw [if_neg (by rw [fits]; exact fun differs => differs rfl)]
  rfl

theorem respondUniversally_of_some {response : Response}
    (found : machine.store.universalResponse? receiver selector = some response) :
    respondUniversally receiver selector arguments machine =
      (do perform (← onStore (response arguments)) : Exec Unit) machine := by
  unfold respondUniversally
  rw [get_bind, found]

theorem respondUniversally_of_none
    (silent : machine.store.universalResponse? receiver selector = none) :
    respondUniversally receiver selector arguments machine =
      .error (.doesNotUnderstand (machine.store.print receiver) (machine.store.className receiver)
        selector) machine := by
  unfold respondUniversally
  rw [get_bind, silent]
  rfl

/-- A value that does not respond lets the send fail at once, and nothing else has happened. -/
theorem send_of_not_respondsTo (fits : arguments.length = selector.arity)
    (silent : machine.store.respondsTo receiver selector = false) :
    send receiver selector arguments machine =
      .error (.doesNotUnderstand (machine.store.print receiver) (machine.store.className receiver)
        selector) machine := by
  obtain ⟨notBuiltin, noMethod, notUniversal⟩ :=
    (machine.store.respondsTo_eq_false_iff receiver selector).mp silent
  rw [send_of_fits fits, notBuiltin, noMethod]
  exact respondUniversally_of_none notUniversal

/-- A value that responds gets the message.  Whatever then fails fails for another reason. -/
theorem excused_send_of_respondsTo (fits : arguments.length = selector.arity)
    (responds : machine.store.respondsTo receiver selector = true) :
    Excused machine (machine.store.Provokes receiver selector arguments)
      (send receiver selector arguments) := by
  intro cause reached failed
  rw [send_of_fits fits] at failed
  cases builtin : machine.store.builtinResponse? receiver selector with
  | some response =>
      rw [builtin] at failed
      exact excused_perform_onStore (Store.excused_of_builtinResponse? builtin arguments)
        cause reached failed
  | none =>
      rw [builtin] at failed
      cases method : machine.store.method? receiver selector with
      | some found =>
          rw [method] at failed
          exact Or.inl (ordinary_callMethod _ _ _ _ _ _ machine cause reached failed)
      | none =>
          rw [method] at failed
          cases universal : machine.store.universalResponse? receiver selector with
          | some response =>
              have performed := (respondUniversally_of_some universal).symm.trans failed
              exact excused_perform_onStore
                (Store.excused_of_universalResponse? universal arguments) cause reached performed
          | none =>
              have silent := (machine.store.respondsTo_eq_false_iff receiver selector).mpr
                ⟨builtin, method, universal⟩
              rw [silent] at responds
              cases responds

/-- A send fails because the message is not understood exactly where the receiver says that it does
not respond. -/
theorem send_doesNotUnderstand_iff (fits : arguments.length = selector.arity) :
    (∃ shown className missing reached,
      send receiver selector arguments machine =
        .error (.doesNotUnderstand shown className missing) reached) ↔
      machine.store.respondsTo receiver selector = false := by
  constructor
  · rintro ⟨shown, className, missing, reached, failed⟩
    refine Bool.eq_false_iff.mpr fun responds => ?_
    rcases excused_send_of_respondsTo fits responds _ _ failed with impossible | ⟨_, impossible, _⟩
    · cases impossible
    · cases impossible
  · intro silent
    exact ⟨_, _, _, _, send_of_not_respondsTo fits silent⟩

/-- A number does not know how to be increased.  Whether it lies between two values is a message
that it does know, although the values are no numbers. -/
theorem send_doesNotUnderstand_iff_three :
    ([Value.nil].length = Selector.arity "increaseBy:" ∧
      ∃ shown className missing reached,
        send (.int 3) "increaseBy:" [.nil] (Machine.new {} none) =
          .error (.doesNotUnderstand shown className missing) reached) ∧
    ([Value.nil, Value.nil].length = Selector.arity "between:and:" ∧
      ¬ ∃ shown className missing reached,
        send (.int 3) "between:and:" [.nil, .nil] (Machine.new {} none) =
          .error (.doesNotUnderstand shown className missing) reached) := by
  refine ⟨⟨by decide, (send_doesNotUnderstand_iff (by decide)).mpr (by decide)⟩, by decide, ?_⟩
  intro failed
  have silent := (send_doesNotUnderstand_iff (by decide)).mp failed
  exact absurd silent (by decide)

end Exec

end Missive
