import Missive.Proofs.Protocol.Courses

/-!
# The courses of the loops

A pending loop is resumed with the answer of its block.  In all loops over items, resuming is the
same as beginning a loop over what lies ahead, with the answer taken in: so the course of a loop
follows by induction on the items ahead, and that of a loop with a condition by induction on the
answers.

Every message that starts a loop takes the items as they are when it is sent.  Its course is
therefore fixed by these items and the answers, whatever the blocks do to the receiver.
-/

namespace Missive

namespace Iteration

variable {body condition : BlockRef} {receiver : Value} {store : Store}

/-! ## Resuming -/

theorem resume_collect (walk : Walk Value) (results : List Value) (value : Value) :
    (collect body walk results).resume value = (collect body walk (value :: results)).begin := rfl

theorem resume_fold (walk : Walk Value) (accumulator value : Value) :
    (fold body walk accumulator).resume value = (fold body walk value).begin := rfl

theorem resume_filter (passed ahead results : List Value) (item : Value) (keep verdict : Bool) :
    (filter body ⟨item :: passed, ahead⟩ keep results).resume (.bool verdict) =
      (filter body ⟨item :: passed, ahead⟩ keep
        (if verdict == keep then item :: results else results)).begin := by
  cases verdict <;> cases keep <;> rfl

theorem resume_detect_true (passed ahead : List Value) (item : Value) (fallback : Option Value)
    (store : Store) :
    (detect body ⟨item :: passed, ahead⟩ fallback).resume (.bool true) store =
      .ok (.answer item) store := rfl

theorem resume_detect_false (walk : Walk Value) (fallback : Option Value) :
    (detect body walk fallback).resume (.bool false) = (detect body walk fallback).begin := rfl

theorem resume_filter_of_other {walk : Walk Value} {keep : Bool} {results : List Value}
    {value : Value} (other : ∀ verdict, value ≠ .bool verdict) (store : Store) :
    (filter body walk keep results).resume value store =
      .error (.typeMismatch (filterSelector keep) "boolean" (store.className value)) store := by
  cases value with
  | bool verdict =>
      exact (other verdict rfl).elim
  | nil | int _ | float _ | string _ | ref _ =>
      rfl

theorem resume_detect_of_other {walk : Walk Value} {fallback : Option Value} {value : Value}
    (other : ∀ verdict, value ≠ .bool verdict) (store : Store) :
    (detect body walk fallback).resume value store =
      .error (.typeMismatch "detect:" "boolean" (store.className value)) store := by
  cases value with
  | bool verdict =>
      exact (other verdict rfl).elim
  | nil | int _ | float _ | string _ | ref _ =>
      rfl

/-! ## Loops that only visit -/

/-- A loop that calls its block once for each item and does nothing with the answers. -/
theorem course_of_visits {α : Type} (loop : Walk α → Iteration) (row : α → List Value)
    (ends : ∀ passed store, (loop ⟨passed, []⟩).begin store = .ok (.answer receiver) store)
    (calls : ∀ passed item rest store, (loop ⟨passed, item :: rest⟩).begin store =
      .ok (callThen body (row item) (loop ⟨item :: passed, rest⟩)) store)
    (resumes : ∀ walk value, (loop walk).resume value = (loop walk).begin)
    (passed items : List α) (store : Store) (answers : List BlockAnswer) :
    course (loop ⟨passed, items⟩).begin store answers =
      visits body (items.map row) (returns receiver) store answers := by
  induction items generalizing passed store answers with
  | nil =>
      rw [List.map_nil, visits_nil]
      exact course_of_value (ends passed store) answers
  | cons item rest hypothesis =>
      rw [List.map_cons]
      cases answers with
      | nil =>
          rw [visits_of_call]
          exact course_of_call (calls passed item rest store)
      | cons answer others =>
          rw [visits_of_answer, course_of_answer (calls passed item rest store), resumes,
            hypothesis]

theorem course_each (items : List Value) (answers : List BlockAnswer) :
    course (each body (Walk.start items) receiver).begin store answers =
      visits body (items.map fun item => [item]) (returns receiver) store answers := by
  apply course_of_visits (fun walk => each body walk receiver)
  all_goals intros; rfl

theorem course_eachPair (pairs : List (Value × Value)) (answers : List BlockAnswer) :
    course (eachPair body (Walk.start pairs) receiver).begin store answers =
      visits body (pairs.map fun pair => [pair.1, pair.2]) (returns receiver) store answers := by
  apply course_of_visits (fun walk => eachPair body walk receiver)
  all_goals intros; rfl

theorem course_times (count : Nat) (answers : List BlockAnswer) :
    course (times body count receiver).begin store answers =
      visits body (List.replicate count []) (returns receiver) store answers := by
  let loop : Walk Unit → Iteration := fun walk => times body walk.ahead.length receiver
  have asWalk : course (loop (Walk.start (List.replicate count ()))).begin store answers =
      visits body ((List.replicate count ()).map fun _ => []) (returns receiver) store answers := by
    apply course_of_visits loop
    all_goals intros; rfl
  simpa [loop, Walk.start] using asWalk

/-! ## Loops that use the answers -/

theorem course_evaluate (value : Value) (store : Store) (answers : List BlockAnswer) :
    course (evaluate value) store answers = ⟨[], returnsEvaluated value store⟩ := by
  unfold course evaluate returnsEvaluated
  rw [effect_get_bind]
  cases store.see value <;> rfl

theorem course_collect (passed items results : List Value) (store : Store)
    (answers : List BlockAnswer) :
    course (collect body ⟨passed, items⟩ results).begin store answers =
      visits body (items.map fun item => [item])
        (returnsArray (results.reverse ++ (answers.take items.length).map BlockAnswer.value)) store
        answers := by
  induction items generalizing passed results store answers with
  | nil =>
      have ends : (collect body ⟨passed, []⟩ results).begin store =
          .ok (.answer (.ref (store.alloc (.array results.reverse)).1))
            (store.alloc (.array results.reverse)).2 := rfl
      rw [List.map_nil, visits_nil, List.length_nil, List.take_zero, List.map_nil, List.append_nil,
        course_of_value ends]
      rfl
  | cons item rest hypothesis =>
      have calls : (collect body ⟨passed, item :: rest⟩ results).begin store =
          .ok (callThen body [item] (collect body ⟨item :: passed, rest⟩ results)) store := rfl
      rw [List.map_cons]
      cases answers with
      | nil =>
          rw [visits_of_call, course_of_call calls]
      | cons answer others =>
          rw [visits_of_answer, course_of_answer calls, resume_collect, hypothesis]
          simp

theorem course_fold (passed items : List Value) (accumulator : Value) (store : Store)
    (answers : List BlockAnswer) :
    course (fold body ⟨passed, items⟩ accumulator).begin store answers =
      folds body items accumulator store answers := by
  induction items generalizing passed accumulator store answers with
  | nil =>
      rw [folds_nil]
      exact course_of_value rfl answers
  | cons item rest hypothesis =>
      have calls : (fold body ⟨passed, item :: rest⟩ accumulator).begin store =
          .ok (callThen body [accumulator, item] (fold body ⟨item :: passed, rest⟩ accumulator))
            store := rfl
      cases answers with
      | nil =>
          rw [folds_of_call, course_of_call calls]
      | cons answer others =>
          rw [folds_of_answer, course_of_answer calls, resume_fold, hypothesis]

theorem chosen_cons (keep verdict : Bool) (item : Value) (items : List Value) (told : List Bool) :
    chosen keep (item :: items) (verdict :: told) =
      (if verdict == keep then [item] else []) ++ chosen keep items told := by
  cases kept : verdict == keep <;> simp [chosen, kept]

theorem course_filter (keep : Bool) (passed items results : List Value) (store : Store)
    (answers : List BlockAnswer) :
    course (filter body ⟨passed, items⟩ keep results).begin store answers =
      judges body items (filterSelector keep)
        (fun told => returnsArray (results.reverse ++ chosen keep items told)) store answers := by
  induction items generalizing passed results store answers with
  | nil =>
      have ends : (filter body ⟨passed, []⟩ keep results).begin store =
          .ok (.answer (.ref (store.alloc (.array results.reverse)).1))
            (store.alloc (.array results.reverse)).2 := rfl
      rw [judges_nil, show chosen keep [] [] = [] from rfl, List.append_nil,
        course_of_value ends]
      rfl
  | cons item rest hypothesis =>
      have calls : (filter body ⟨passed, item :: rest⟩ keep results).begin store =
          .ok (callThen body [item] (filter body ⟨item :: passed, rest⟩ keep results)) store := rfl
      cases answers with
      | nil =>
          rw [judges_of_call, course_of_call calls]
      | cons answer others =>
          rw [course_of_answer calls]
          by_cases isVerdict : ∃ verdict, answer.value = .bool verdict
          · obtain ⟨verdict, told⟩ := isVerdict
            rw [judges_of_verdict told, told, resume_filter, hypothesis]
            cases kept : verdict == keep <;> simp [chosen_cons, kept]
          · have other : ∀ verdict, answer.value ≠ .bool verdict := by
              simpa using isVerdict
            rw [judges_of_other other,
              course_of_error (resume_filter_of_other other answer.store)]
            rfl

/-- How the search ends when no item was found. -/
def missed : Option Value → Store → Stage
  | some fallback => returnsEvaluated fallback
  | none => returns .nil

theorem course_detect (fallback : Option Value) (passed items : List Value) (store : Store)
    (answers : List BlockAnswer) :
    course (detect body ⟨passed, items⟩ fallback).begin store answers =
      detects body items (missed fallback) store answers := by
  induction items generalizing passed store answers with
  | nil =>
      rw [detects_nil]
      cases fallback with
      | none =>
          exact course_of_value rfl answers
      | some value =>
          exact course_evaluate value store answers
  | cons item rest hypothesis =>
      have calls : (detect body ⟨passed, item :: rest⟩ fallback).begin store =
          .ok (callThen body [item] (detect body ⟨item :: passed, rest⟩ fallback)) store := rfl
      cases answers with
      | nil =>
          rw [detects_of_call, course_of_call calls]
      | cons answer others =>
          rw [course_of_answer calls]
          by_cases isVerdict : ∃ verdict, answer.value = .bool verdict
          · obtain ⟨verdict, told⟩ := isVerdict
            rw [told]
            cases verdict with
            | true =>
                rw [detects_of_true told,
                  course_of_value (resume_detect_true passed rest item fallback answer.store)]
                rfl
            | false =>
                rw [detects_of_false told, resume_detect_false, hypothesis]
          · have other : ∀ verdict, answer.value ≠ .bool verdict := by
              simpa using isVerdict
            rw [detects_of_other other,
              course_of_error (resume_detect_of_other other answer.store)]
            rfl

/-! ## Loops with a condition -/

section While

variable {next : Option BlockRef} {goOn : Bool}

theorem resume_while_stop {verdict : Bool} (isOther : verdict ≠ goOn) (store : Store) :
    (whileLoop condition next goOn false).resume (.bool verdict) store =
      .ok (.answer .nil) store := by
  cases verdict <;> cases goOn <;> first | rfl | exact (isOther rfl).elim

theorem resume_while_of_other {value : Value} (other : ∀ verdict, value ≠ .bool verdict)
    (store : Store) :
    (whileLoop condition next goOn false).resume value store =
      .error (.typeMismatch (whileSelector next goOn) "boolean" (store.className value)) store := by
  cases value with
  | bool verdict =>
      exact (other verdict rfl).elim
  | nil | int _ | float _ | string _ | ref _ =>
      rfl

/-- An answer of the condition other than to go on ends the loop. -/
theorem course_resume_while {answer : BlockAnswer} (stops : answer.value ≠ .bool goOn)
    (rest : List BlockAnswer) :
    course ((whileLoop condition next goOn false).resume answer.value) answer.store rest =
      ⟨[], whileEnding (whileSelector next goOn) (some answer)⟩ := by
  by_cases isVerdict : ∃ verdict, answer.value = .bool verdict
  · obtain ⟨verdict, told⟩ := isVerdict
    have isOther : verdict ≠ goOn := by
      intro same
      exact stops (by rw [told, same])
    rw [told, course_of_value (resume_while_stop isOther answer.store)]
    simp [whileEnding, told, returns]
  · have other : ∀ verdict, answer.value ≠ .bool verdict := by
      simpa using isVerdict
    rw [course_of_error (resume_while_of_other other answer.store), whileEnding_of_other other]
    rfl

theorem course_repeats (store : Store) (answers : List BlockAnswer) :
    course (whileLoop condition none goOn false).begin store answers =
      repeats condition goOn (whileSelector none goOn) answers := by
  have calls : ∀ store, (whileLoop condition none goOn false).begin store =
      .ok (callThen condition [] (whileLoop condition none goOn false)) store := by
    intro store
    rfl
  induction answers generalizing store with
  | nil =>
      rw [repeats_nil, course_of_call (calls store)]
  | cons answer rest hypothesis =>
      rw [course_of_answer (calls store)]
      by_cases told : answer.value = .bool goOn
      · have goesOn : (whileLoop condition none goOn false).resume (.bool goOn) =
            (whileLoop condition none goOn false).begin := by
          cases goOn <;> rfl
        rw [repeats_of_goOn told, told, goesOn, hypothesis]
      · rw [repeats_of_stop told, course_resume_while told]
        rfl

/-- The answers are taken in pairs, one of the condition and one of the body. -/
theorem course_alternates (store : Store) (answers : List BlockAnswer) :
    course (whileLoop condition (some body) goOn false).begin store answers =
      alternates condition body goOn (whileSelector (some body) goOn) answers := by
  have calls : ∀ store, (whileLoop condition (some body) goOn false).begin store =
      .ok (callThen condition [] (whileLoop condition (some body) goOn false)) store := by
    intro store
    rfl
  have goesOn : ∀ store, (whileLoop condition (some body) goOn false).resume (.bool goOn) store =
      .ok (callThen body [] (whileLoop condition (some body) goOn true)) store := by
    intro store
    cases goOn <;> rfl
  have resumes : ∀ value, (whileLoop condition (some body) goOn true).resume value =
      (whileLoop condition (some body) goOn false).begin := by
    intro value
    rfl
  induction answers using everySecond.induct generalizing store with
  | case1 answer ofBody rest hypothesis =>
      rw [course_of_answer (calls store)]
      by_cases told : answer.value = .bool goOn
      · rw [alternates_of_round told, told, course_of_answer (goesOn answer.store),
          resumes, hypothesis]
      · rw [alternates_of_stop told, course_resume_while told]
        rfl
  | case2 answers short =>
      cases answers with
      | nil =>
          rw [alternates_nil, course_of_call (calls store)]
      | cons answer rest =>
          cases rest with
          | cons ofBody others =>
              exact (short answer ofBody others rfl).elim
          | nil =>
              rw [course_of_answer (calls store)]
              by_cases told : answer.value = .bool goOn
              · rw [alternates_of_goOn told, told, course_of_call (goesOn answer.store)]
                rfl
              · rw [alternates_of_stop told, course_resume_while told]
                rfl

end While

end Iteration

/-! ## Messages that start a loop -/

/-- The course of a message to a built-in value. -/
def Store.courseOf? (store : Store) (receiver : Value) (selector : Selector)
    (arguments : List Value) (answers : List BlockAnswer) : Option Course :=
  (store.builtinResponse? receiver selector).map fun respond =>
    course (respond arguments) store answers

section Messages

variable {store : Store} {block : BlockRef} {id : ObjectId} {selector : Selector}

theorem see_ref_of_block {closure : Closure} (isBlock : store.get? id = some (.block closure)) :
    store.see (.ref id) = .block id closure := by
  simp only [Store.see, isBlock]

theorem see_ref_of_array {items : List Value} (isArray : store.get? id = some (.array items)) :
    store.see (.ref id) = .array id items := by
  simp only [Store.see, isArray]

theorem see_ref_of_dictionary {entries : List (Value × Value)}
    (isDictionary : store.get? id = some (.dictionary entries)) :
    store.see (.ref id) = .dictionary id entries := by
  simp only [Store.see, isDictionary]

theorem courseOf?_of_response {receiver : Value} {respond : Response}
    (responds : store.builtinResponse? receiver selector = some respond) (arguments : List Value)
    (answers : List BlockAnswer) :
    store.courseOf? receiver selector arguments answers =
      some (course (respond arguments) store answers) := by
  unfold Store.courseOf?
  rw [responds, Option.map_some]

/-- A message that takes a block first goes on with the block. -/
theorem course_blockArgument (isBlock : store.get? block.id = some (.block block.closure))
    (next : BlockRef → Effect Action) (answers : List BlockAnswer) :
    course (blockArgument selector block.value >>= next) store answers =
      course (next block) store answers := by
  apply course_congr
  have accepted : blockArgument selector block.value store = .ok block store := by
    unfold blockArgument
    rw [effect_get_bind, show store.see block.value = _ from see_ref_of_block isBlock]
    rfl
  change EStateM.bind _ _ _ = _
  unfold EStateM.bind
  rw [accepted]

/-- The courses of the loops over an array. -/
structure ArrayLoops (store : Store) (id : ObjectId) (items : List Value) (block : BlockRef)
    (answers : List BlockAnswer) : Prop where
  each : store.courseOf? (.ref id) "do:" [block.value] answers =
    some (visits block (items.map fun item => [item]) (returns (.ref id)) store answers)
  eachPlace : store.courseOf? (.ref id) "keysAndValuesDo:" [block.value] answers =
    some (visits block (items.mapIdx fun place item => [.int (Int64.ofNat (place + 1)), item])
      (returns (.ref id)) store answers)
  collect : store.courseOf? (.ref id) "collect:" [block.value] answers =
    some (visits block (items.map fun item => [item])
      (returnsArray ((answers.take items.length).map BlockAnswer.value)) store answers)
  select : store.courseOf? (.ref id) "select:" [block.value] answers =
    some (judges block items "select:" (fun told => returnsArray (chosen true items told)) store
      answers)
  reject : store.courseOf? (.ref id) "reject:" [block.value] answers =
    some (judges block items "reject:" (fun told => returnsArray (chosen false items told)) store
      answers)
  detect : store.courseOf? (.ref id) "detect:" [block.value] answers =
    some (detects block items (returns .nil) store answers)
  detectOr : ∀ fallback,
    store.courseOf? (.ref id) "detect:ifNone:" [block.value, fallback] answers =
      some (detects block items (returnsEvaluated fallback) store answers)
  inject : ∀ initial, store.courseOf? (.ref id) "inject:into:" [initial, block.value] answers =
    some (folds block items initial store answers)

theorem arrayLoops {items : List Value} (isArray : store.get? id = some (.array items))
    (isBlock : store.get? block.id = some (.block block.closure)) (answers : List BlockAnswer) :
    ArrayLoops store id items block answers := by
  have responds : ∀ {selector message} (_ : ArrayMessage.ofSelector? selector = some message)
      (arguments : List Value), store.courseOf? (.ref id) selector arguments answers =
        some (course (message.perform id items arguments) store answers) := by
    intro selector message named arguments
    apply courseOf?_of_response
    unfold Store.builtinResponse?
    rw [see_ref_of_array isArray]
    simp only [named, Option.map_some]
  have taken : ∀ {selector : Selector} (next : BlockRef → Effect Action),
      course (blockArgument selector block.value >>= next) store answers =
        course (next block) store answers := by
    intro selector next
    exact course_blockArgument isBlock next answers
  refine ⟨?_, ?_, ?_, ?_, ?_, ?_, ?_, ?_⟩
  · rw [responds (show ArrayMessage.ofSelector? "do:" = some .do by decide)]
    exact congrArg some ((taken _).trans (Iteration.course_each items answers))
  · rw [responds (show ArrayMessage.ofSelector? "keysAndValuesDo:" = some .keysAndValuesDo by
      decide)]
    refine congrArg some ((taken _).trans ((Iteration.course_eachPair _ answers).trans ?_))
    simp only [ArrayMessage.indexed, List.map_map, List.mapIdx_eq_zipIdx_map]
    rfl
  · rw [responds (show ArrayMessage.ofSelector? "collect:" = some .collect by decide)]
    exact congrArg some ((taken _).trans (Iteration.course_collect [] items [] store answers))
  · rw [responds (show ArrayMessage.ofSelector? "select:" = some .select by decide)]
    exact congrArg some ((taken _).trans (Iteration.course_filter true [] items [] store answers))
  · rw [responds (show ArrayMessage.ofSelector? "reject:" = some .reject by decide)]
    exact congrArg some ((taken _).trans (Iteration.course_filter false [] items [] store answers))
  · rw [responds (show ArrayMessage.ofSelector? "detect:" = some .detect by decide)]
    exact congrArg some ((taken _).trans (Iteration.course_detect none [] items store answers))
  · intro fallback
    rw [responds (show ArrayMessage.ofSelector? "detect:ifNone:" = some .detectIfNone by decide)]
    exact congrArg some
      ((taken _).trans (Iteration.course_detect (some fallback) [] items store answers))
  · intro initial
    rw [responds (show ArrayMessage.ofSelector? "inject:into:" = some .injectInto by decide)]
    exact congrArg some ((taken _).trans (Iteration.course_fold [] items initial store answers))

/-- The courses of the loops over a dictionary. -/
structure DictionaryLoops (store : Store) (id : ObjectId) (entries : List (Value × Value))
    (block : BlockRef) (answers : List BlockAnswer) : Prop where
  eachValue : store.courseOf? (.ref id) "do:" [block.value] answers =
    some (visits block (entries.map fun entry => [entry.2]) (returns (.ref id)) store answers)
  eachKey : store.courseOf? (.ref id) "keysDo:" [block.value] answers =
    some (visits block (entries.map fun entry => [entry.1]) (returns (.ref id)) store answers)
  eachEntry : store.courseOf? (.ref id) "keysAndValuesDo:" [block.value] answers =
    some (visits block (entries.map fun entry => [entry.1, entry.2]) (returns (.ref id)) store
      answers)

theorem dictionaryLoops {entries : List (Value × Value)}
    (isDictionary : store.get? id = some (.dictionary entries))
    (isBlock : store.get? block.id = some (.block block.closure)) (answers : List BlockAnswer) :
    DictionaryLoops store id entries block answers := by
  have responds : ∀ {selector message} (_ : DictionaryMessage.ofSelector? selector = some message)
      (arguments : List Value), store.courseOf? (.ref id) selector arguments answers =
        some (course (message.perform id entries arguments) store answers) := by
    intro selector message named arguments
    apply courseOf?_of_response
    unfold Store.builtinResponse?
    rw [see_ref_of_dictionary isDictionary]
    simp only [named, Option.map_some]
  refine ⟨?_, ?_, ?_⟩
  · rw [responds (show DictionaryMessage.ofSelector? "do:" = some .do by decide)]
    refine congrArg some
      ((course_blockArgument isBlock _ answers).trans ((Iteration.course_each _ answers).trans ?_))
    rw [List.map_map]
    rfl
  · rw [responds (show DictionaryMessage.ofSelector? "keysDo:" = some .keysDo by decide)]
    refine congrArg some
      ((course_blockArgument isBlock _ answers).trans ((Iteration.course_each _ answers).trans ?_))
    rw [List.map_map]
    rfl
  · rw [responds (show DictionaryMessage.ofSelector? "keysAndValuesDo:" = some .keysAndValuesDo by
      decide)]
    exact congrArg some
      ((course_blockArgument isBlock _ answers).trans (Iteration.course_eachPair entries answers))

theorem course_textDo (isBlock : store.get? block.id = some (.block block.closure)) (text : String)
    (answers : List BlockAnswer) :
    store.courseOf? (.string text) "do:" [block.value] answers =
      some (visits block (text.toList.map fun c => [.string (String.singleton c)])
        (returns (.string text)) store answers) := by
  have responds : store.builtinResponse? (.string text) "do:" =
      some (StringMessage.do.perform text) := rfl
  rw [courseOf?_of_response responds]
  refine congrArg some
    ((course_blockArgument isBlock _ answers).trans ((Iteration.course_each _ answers).trans ?_))
  rw [List.map_map]
  rfl

theorem course_timesRepeat (isBlock : store.get? block.id = some (.block block.closure)) (n : Int64)
    (answers : List BlockAnswer) :
    store.courseOf? (.int n) "timesRepeat:" [block.value] answers =
      some (visits block (List.replicate n.toInt.toNat []) (returns (.int n)) store answers) := by
  have responds : store.builtinResponse? (.int n) "timesRepeat:" =
      some (NumberMessage.timesRepeat.perform (.int n)) := rfl
  rw [courseOf?_of_response responds]
  exact congrArg some ((course_blockArgument isBlock _ answers).trans
    (Iteration.course_times n.toInt.toNat answers))

/-- The courses of the loops with a condition. -/
structure ConditionLoops (store : Store) (condition body : BlockRef)
    (answers : List BlockAnswer) : Prop where
  whileTrue : store.courseOf? condition.value "whileTrue:" [body.value] answers =
    some (alternates condition body true "whileTrue:" answers)
  whileFalse : store.courseOf? condition.value "whileFalse:" [body.value] answers =
    some (alternates condition body false "whileFalse:" answers)
  whileTrueAlone : store.courseOf? condition.value "whileTrue" [] answers =
    some (repeats condition true "whileTrue" answers)
  whileFalseAlone : store.courseOf? condition.value "whileFalse" [] answers =
    some (repeats condition false "whileFalse" answers)

theorem conditionLoops {condition : BlockRef}
    (isCondition : store.get? condition.id = some (.block condition.closure))
    (isBlock : store.get? block.id = some (.block block.closure)) (answers : List BlockAnswer) :
    ConditionLoops store condition block answers := by
  have responds : ∀ {selector message} (_ : BlockMessage.ofSelector? selector = some message)
      (arguments : List Value), store.courseOf? condition.value selector arguments answers =
        some (course (message.perform condition arguments) store answers) := by
    intro selector message named arguments
    apply courseOf?_of_response
    unfold Store.builtinResponse?
    rw [show store.see condition.value = _ from see_ref_of_block isCondition]
    simp only [named, Option.map_some]
  refine ⟨?_, ?_, ?_, ?_⟩
  · rw [responds (show BlockMessage.ofSelector? "whileTrue:" = some (.whileLoop true) by decide)]
    exact congrArg some
      ((course_blockArgument isBlock _ answers).trans (Iteration.course_alternates store answers))
  · rw [responds (show BlockMessage.ofSelector? "whileFalse:" = some (.whileLoop false) by decide)]
    exact congrArg some
      ((course_blockArgument isBlock _ answers).trans (Iteration.course_alternates store answers))
  · rw [responds (show BlockMessage.ofSelector? "whileTrue" = some (.whileAlone true) by decide)]
    exact congrArg some (Iteration.course_repeats store answers)
  · rw [responds (show BlockMessage.ofSelector? "whileFalse" = some (.whileAlone false) by decide)]
    exact congrArg some (Iteration.course_repeats store answers)

end Messages

/-- Every message that starts a loop takes the course that its items, as they are at the start, and
the answers of its blocks determine. -/
theorem loops_take_their_courses (store : Store) (block : BlockRef)
    (isBlock : store.get? block.id = some (.block block.closure)) (answers : List BlockAnswer) :
    (∀ id items, store.get? id = some (.array items) →
      ArrayLoops store id items block answers ∧
        ∀ (initial : Value) (step : Value → Value → Value),
          answers.map BlockAnswer.value =
              List.zipWith step (initial :: answers.map BlockAnswer.value) items →
            (store.courseOf? (.ref id) "inject:into:" [initial, block.value] answers).map
              Course.ending = some (returns (items.foldl step initial) (leftBy store answers))) ∧
    (∀ id entries, store.get? id = some (.dictionary entries) →
      DictionaryLoops store id entries block answers) ∧
    (∀ text : String, store.courseOf? (.string text) "do:" [block.value] answers =
      some (visits block (text.toList.map fun c => [.string (String.singleton c)])
        (returns (.string text)) store answers)) ∧
    (∀ n : Int64, store.courseOf? (.int n) "timesRepeat:" [block.value] answers =
      some (visits block (List.replicate (max n.toInt 0).toNat []) (returns (.int n)) store
        answers)) ∧
    ∀ condition : BlockRef, store.get? condition.id = some (.block condition.closure) →
      ConditionLoops store condition block answers := by
  refine ⟨?_, ?_, ?_, ?_, ?_⟩
  · intro id items isArray
    have loops := arrayLoops isArray isBlock answers
    refine ⟨loops, ?_⟩
    intro initial step computed
    rw [loops.inject initial, Option.map_some, folds_of_function computed]
  · intro id entries isDictionary
    exact dictionaryLoops isDictionary isBlock answers
  · intro text
    exact course_textDo isBlock text answers
  · intro n
    rw [show (max n.toInt 0).toNat = n.toInt.toNat by omega]
    exact course_timesRepeat isBlock n answers
  · intro condition isCondition
    exact conditionLoops isCondition isBlock answers

/-- An array of three numbers and a block. -/
def threeNumbersAndBlock : Store where
  cells := #[⟨some (.array [.int 1, .int 2, .int 3]), false⟩, ⟨some (.block default), false⟩]
  trackedCount := 0

theorem select_first_and_last :
    threeNumbersAndBlock.courseOf? (.ref ⟨0⟩) "select:" [.ref ⟨1⟩]
        [⟨.bool true, .empty⟩, ⟨.bool false, .empty⟩, ⟨.bool true, .empty⟩] =
      some ⟨[(⟨⟨1⟩, default⟩, [.int 1]), (⟨⟨1⟩, default⟩, [.int 2]), (⟨⟨1⟩, default⟩, [.int 3])],
        returnsArray [.int 1, .int 3] .empty⟩ :=
  ((loops_take_their_courses threeNumbersAndBlock ⟨⟨1⟩, default⟩ rfl _).1 ⟨0⟩ _ rfl).1.select

end Missive
