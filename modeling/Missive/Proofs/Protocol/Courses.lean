import Mathlib.Data.List.Basic
import Missive.Protocol.Universal

/-!
# The course of a message

A message that calls blocks is carried out piece by piece: it calls a block, and is resumed with the
answer.  Its course is the list of its calls together with its end.  The answers of the blocks are
given, and so are the objects as each block leaves them, since a block may change anything.

The courses of loops are written down here in closed form, from the list of items and the list of
answers: which blocks are called with which arguments, after how many answers the loop ends, and
with what.  Each of these forms comes with equations for one answer more.
-/

namespace Missive

/-- What a block has answered, and the objects as it leaves them. -/
structure BlockAnswer where
  value : Value
  store : Store

/-- How far a message has come. -/
inductive Stage where
  /-- The block called last has not answered. -/
  | waiting
  /-- The message is answered, or a block is called whose answer is that of the message. -/
  | done (action : Action) (store : Store)
  | failed (cause : Cause) (store : Store)

/-- The blocks that a message calls, each with its arguments, and how far it comes. -/
structure Course where
  calls : List (BlockRef × List Value)
  ending : Stage

/-- The course with a call in front. -/
def Course.after (course : Course) (block : BlockRef) (arguments : List Value) : Course :=
  { course with calls := (block, arguments) :: course.calls }

/-- The course of a message when the blocks that it calls give these answers in turn. -/
def course (message : Effect Action) (store : Store) (answers : List BlockAnswer) : Course :=
  match message store with
  | .ok (.call block arguments (some loop)) _ =>
    match answers with
    | [] => ⟨[(block, arguments)], .waiting⟩
    | answer :: rest =>
      (course (loop.resume answer.value) answer.store rest).after block arguments
  | .ok action reached => ⟨[], .done action reached⟩
  | .error cause reached => ⟨[], .failed cause reached⟩

theorem effect_get_bind {α : Type} (next : Store → Effect α) (store : Store) :
    (get >>= next : Effect α) store = next store store := rfl

theorem settle_ok_bind {α β : Type} (result : α) (next : α → Effect β) :
    (settle (.ok result) >>= next) = next result := rfl

theorem settle_error_bind {α β : Type} (crash : Crash) (next : α → Effect β) :
    (settle (.error crash) >>= next) = throw (.crash crash) := rfl

section Equations

variable {message : Effect Action} {store reached : Store} {block : BlockRef}
  {arguments : List Value} {loop : Iteration}

theorem course_congr {other : Effect Action} (same : message store = other store)
    (answers : List BlockAnswer) : course message store answers = course other store answers := by
  unfold course
  rw [same]

theorem course_of_call
    (called : message store = .ok (Iteration.callThen block arguments loop) reached) :
    course message store [] = ⟨[(block, arguments)], .waiting⟩ := by
  unfold course
  rw [called]
  rfl

theorem course_of_answer
    (called : message store = .ok (Iteration.callThen block arguments loop) reached)
    (answer : BlockAnswer) (rest : List BlockAnswer) :
    course message store (answer :: rest) =
      (course (loop.resume answer.value) answer.store rest).after block arguments := by
  rw [course, called]
  rfl

theorem course_of_value {value : Value} (isAnswer : message store = .ok (.answer value) reached)
    (answers : List BlockAnswer) :
    course message store answers = ⟨[], .done (.answer value) reached⟩ := by
  unfold course
  rw [isAnswer]

theorem course_of_error {cause : Cause} (isError : message store = .error cause reached)
    (answers : List BlockAnswer) : course message store answers = ⟨[], .failed cause reached⟩ := by
  unfold course
  rw [isError]

end Equations

/-! ## Ends of loops -/

/-- The objects after the answers. -/
def leftBy (store : Store) (answers : List BlockAnswer) : Store :=
  answers.foldl (fun _ answer => answer.store) store

/-- The message is answered with a value. -/
def returns (value : Value) (store : Store) : Stage := .done (.answer value) store

/-- The message is answered with a new array. -/
def returnsArray (items : List Value) (store : Store) : Stage :=
  let (id, extended) := store.alloc (.array items)
  .done (.answer (.ref id)) extended

/-- The message is answered with a value, or with what the block answers if the value is one. -/
def returnsEvaluated (value : Value) (store : Store) : Stage :=
  match store.see value with
  | .block id closure => .done (.call ⟨id, closure⟩ [] none) store
  | _ => .done (.answer value) store

/-- The block has answered something else than a truth value. -/
def BlockAnswer.refused (selector : Selector) (answer : BlockAnswer) : Stage :=
  .failed (.typeMismatch selector "boolean" (answer.store.className answer.value)) answer.store

/-! ## Loops over items -/

/-- The block is called with one row of arguments after the other.  Then the loop ends. -/
def visits (body : BlockRef) (rows : List (List Value)) (finish : Store → Stage) (store : Store)
    (answers : List BlockAnswer) : Course where
  calls := (rows.take (answers.length + 1)).map fun arguments => (body, arguments)
  ending :=
    if answers.length < rows.length then .waiting
    else finish (leftBy store (answers.take rows.length))

section Visits

variable {body : BlockRef} {row : List Value} {rows : List (List Value)} {finish : Store → Stage}
  {store : Store}

theorem visits_nil (answers : List BlockAnswer) :
    visits body [] finish store answers = ⟨[], finish store⟩ := by
  simp [visits, leftBy]

theorem visits_of_call :
    visits body (row :: rows) finish store [] = ⟨[(body, row)], .waiting⟩ := by
  simp [visits]

theorem visits_of_answer (answer : BlockAnswer) (rest : List BlockAnswer) :
    visits body (row :: rows) finish store (answer :: rest) =
      (visits body rows finish answer.store rest).after body row := by
  simp [visits, leftBy, Course.after]

end Visits

/-- The block is called with what it has answered last and the next item.  The loop ends with its
last answer. -/
def folds (body : BlockRef) (items : List Value) (initial : Value) (store : Store)
    (answers : List BlockAnswer) : Course :=
  let heard := answers.take items.length
  let accumulators := initial :: heard.map BlockAnswer.value
  { calls := (accumulators.zip items).map fun (accumulator, item) => (body, [accumulator, item])
    ending :=
      if answers.length < items.length then .waiting
      else returns (accumulators.getLastD .nil) (leftBy store heard) }

section Folds

variable {body : BlockRef} {item : Value} {items : List Value} {initial : Value} {store : Store}

theorem folds_nil (answers : List BlockAnswer) :
    folds body [] initial store answers = ⟨[], returns initial store⟩ := by
  simp [folds, leftBy]

theorem folds_of_call :
    folds body (item :: items) initial store [] = ⟨[(body, [initial, item])], .waiting⟩ := by
  simp [folds]

theorem folds_of_answer (answer : BlockAnswer) (rest : List BlockAnswer) :
    folds body (item :: items) initial store (answer :: rest) =
      (folds body items answer.value answer.store rest).after body [initial, item] := by
  simp [folds, leftBy, Course.after]

/-- If the answers are those of a function to the calls, then the loop ends with the left fold of
the function. -/
theorem folds_of_function {step : Value → Value → Value} {answers : List BlockAnswer}
    (computed : answers.map BlockAnswer.value =
      List.zipWith step (initial :: answers.map BlockAnswer.value) items) :
    (folds body items initial store answers).ending =
      returns (items.foldl step initial) (leftBy store answers) := by
  induction items generalizing initial store answers with
  | nil =>
      have noAnswers : answers = [] := by
        simpa using computed
      rw [noAnswers, folds_nil]
      rfl
  | cons item items hypothesis =>
      cases answers with
      | nil =>
          simp at computed
      | cons answer rest =>
          rw [List.map_cons, List.zipWith_cons_cons] at computed
          injection computed with isStep others
          rw [folds_of_answer, List.foldl_cons, ← isStep]
          exact hypothesis others

end Folds

/-- The truth values among the answers, up to the first answer that is none. -/
def verdicts : List BlockAnswer → List Bool
  | [] => []
  | answer :: rest =>
    match answer.value with
    | .bool verdict => verdict :: verdicts rest
    | _ => []

/-- The block is called with one item after the other and tells what to do with it.  An answer that
is no truth value stops the loop. -/
def judges (body : BlockRef) (items : List Value) (selector : Selector)
    (finish : List Bool → Store → Stage) (store : Store) (answers : List BlockAnswer) : Course :=
  let heard := answers.take items.length
  let told := verdicts heard
  { calls := (items.take (told.length + 1)).map fun item => (body, [item])
    ending :=
      match heard[told.length]? with
      | some wrong => wrong.refused selector
      | none => if told.length < items.length then .waiting else finish told (leftBy store heard) }

section Judges

variable {body : BlockRef} {item : Value} {items : List Value} {selector : Selector}
  {finish : List Bool → Store → Stage} {store : Store}

theorem judges_nil (answers : List BlockAnswer) :
    judges body [] selector finish store answers = ⟨[], finish [] store⟩ := by
  simp [judges, verdicts, leftBy]

theorem judges_of_call :
    judges body (item :: items) selector finish store [] = ⟨[(body, [item])], .waiting⟩ := by
  simp [judges, verdicts]

theorem judges_of_verdict {answer : BlockAnswer} {verdict : Bool}
    (told : answer.value = .bool verdict) (rest : List BlockAnswer) :
    judges body (item :: items) selector finish store (answer :: rest) =
      (judges body items selector (fun others => finish (verdict :: others)) answer.store
        rest).after body [item] := by
  simp [judges, verdicts, told, leftBy, Course.after]

theorem judges_of_other {answer : BlockAnswer} (other : ∀ verdict, answer.value ≠ .bool verdict)
    (rest : List BlockAnswer) :
    judges body (item :: items) selector finish store (answer :: rest) =
      ⟨[(body, [item])], answer.refused selector⟩ := by
  have noVerdicts : ∀ further, verdicts (answer :: further) = [] := by
    intro further
    unfold verdicts
    split
    · rename_i verdict told
      exact (other verdict told).elim
    · rfl
  simp [judges, noVerdicts]

end Judges

/-- The items to which the block has given the verdict. -/
def chosen (keep : Bool) (items : List Value) (told : List Bool) : List Value :=
  ((items.zip told).filter fun pair => pair.2 == keep).map Prod.fst

/-- The block is called with one item after the other until it answers true.  The loop ends with the
item then. -/
def detects (body : BlockRef) (items : List Value) (otherwise : Store → Stage) (store : Store)
    (answers : List BlockAnswer) : Course :=
  let told := verdicts (answers.take items.length)
  if true ∈ told then
    let place := told.idxOf true
    { calls := (items.take (place + 1)).map fun item => (body, [item])
      ending := returns (items.getD place .nil) (leftBy store (answers.take (place + 1))) }
  else judges body items "detect:" (fun _ => otherwise) store answers

section Detects

variable {body : BlockRef} {item : Value} {items : List Value} {otherwise : Store → Stage}
  {store : Store}

theorem detects_nil (answers : List BlockAnswer) :
    detects body [] otherwise store answers = ⟨[], otherwise store⟩ := by
  simp [detects, verdicts, judges_nil]

theorem detects_of_call :
    detects body (item :: items) otherwise store [] = ⟨[(body, [item])], .waiting⟩ := by
  simp [detects, verdicts, judges_of_call]

theorem detects_of_true {answer : BlockAnswer} (told : answer.value = .bool true)
    (rest : List BlockAnswer) :
    detects body (item :: items) otherwise store (answer :: rest) =
      ⟨[(body, [item])], returns item answer.store⟩ := by
  simp [detects, verdicts, told, leftBy]

theorem detects_of_false {answer : BlockAnswer} (told : answer.value = .bool false)
    (rest : List BlockAnswer) :
    detects body (item :: items) otherwise store (answer :: rest) =
      (detects body items otherwise answer.store rest).after body [item] := by
  have isVerdict : verdicts ((answer :: rest).take (item :: items).length) =
      false :: verdicts (rest.take items.length) := by
    simp [verdicts, told]
  unfold detects
  rw [isVerdict]
  by_cases found : true ∈ verdicts (rest.take items.length)
  · simp [found, leftBy, Course.after]
  · simp [found, judges_of_verdict told]

theorem detects_of_other {answer : BlockAnswer} (other : ∀ verdict, answer.value ≠ .bool verdict)
    (rest : List BlockAnswer) :
    detects body (item :: items) otherwise store (answer :: rest) =
      ⟨[(body, [item])], answer.refused "detect:"⟩ := by
  have noVerdicts : verdicts ((answer :: rest).take (item :: items).length) = [] := by
    rw [List.length_cons, List.take_succ_cons]
    unfold verdicts
    split
    · rename_i verdict told
      exact (other verdict told).elim
    · rfl
  unfold detects
  simp only [noVerdicts, List.not_mem_nil, if_false]
  exact judges_of_other other rest

end Detects

/-! ## Loops with a condition -/

/-- The last answer of a condition: still missing, a verdict that ends the loop, or none. -/
def whileEnding (selector : Selector) : Option BlockAnswer → Stage
  | none => .waiting
  | some last =>
    match last.value with
    | .bool _ => returns .nil last.store
    | _ => last.refused selector

/-- The condition is called until it answers something else than to go on. -/
def repeats (condition : BlockRef) (goOn : Bool) (selector : Selector)
    (answers : List BlockAnswer) : Course :=
  let rounds := (answers.takeWhile fun answer => answer.value = .bool goOn).length
  { calls := List.replicate (rounds + 1) (condition, [])
    ending := whileEnding selector answers[rounds]? }

/-- Every second answer, from the first one on. -/
def everySecond : List BlockAnswer → List BlockAnswer
  | test :: _ :: rest => test :: everySecond rest
  | answers => answers

/-- The condition and the body are called in turn until the condition answers something else than to
go on. -/
def alternates (condition body : BlockRef) (goOn : Bool) (selector : Selector)
    (answers : List BlockAnswer) : Course :=
  let rounds := ((everySecond answers).takeWhile fun test => test.value = .bool goOn).length
  { calls := (List.range (min answers.length (2 * rounds) + 1)).map fun place =>
      if place % 2 = 0 then (condition, []) else (body, [])
    ending := whileEnding selector answers[2 * rounds]? }

section While

variable {condition body : BlockRef} {goOn : Bool} {selector : Selector} {answer : BlockAnswer}

theorem whileEnding_of_other (other : ∀ verdict, answer.value ≠ .bool verdict) :
    whileEnding selector (some answer) = answer.refused selector := by
  cases isValue : answer.value with
  | bool verdict =>
      exact (other verdict isValue).elim
  | nil | int _ | float _ | string _ | ref _ =>
      simp only [whileEnding, isValue]

theorem repeats_nil :
    repeats condition goOn selector [] = ⟨[(condition, [])], .waiting⟩ := rfl

theorem repeats_of_goOn (told : answer.value = .bool goOn) (rest : List BlockAnswer) :
    repeats condition goOn selector (answer :: rest) =
      (repeats condition goOn selector rest).after condition [] := by
  simp [repeats, told, Course.after, List.replicate_succ]

theorem repeats_of_stop (told : answer.value ≠ .bool goOn) (rest : List BlockAnswer) :
    repeats condition goOn selector (answer :: rest) =
      ⟨[(condition, [])], whileEnding selector (some answer)⟩ := by
  simp [repeats, told]

theorem alternates_nil :
    alternates condition body goOn selector [] = ⟨[(condition, [])], .waiting⟩ := rfl

theorem alternates_of_goOn (told : answer.value = .bool goOn) :
    alternates condition body goOn selector [answer] =
      ⟨[(condition, []), (body, [])], .waiting⟩ := by
  simp [alternates, everySecond, told, whileEnding, List.range_succ]

/-- One round more puts two calls in front. -/
theorem alternates_of_round (told : answer.value = .bool goOn) (ofBody : BlockAnswer)
    (rest : List BlockAnswer) :
    alternates condition body goOn selector (answer :: ofBody :: rest) =
      ((alternates condition body goOn selector rest).after body []).after condition [] := by
  have twoMore : ∀ rounds : Nat, min (rest.length + 1 + 1) (2 * (rounds + 1)) + 1 =
      min rest.length (2 * rounds) + 1 + 1 + 1 := by
    intro rounds
    omega
  have later : ∀ rounds : Nat,
      (answer :: ofBody :: rest)[2 * (rounds + 1)]? = rest[2 * rounds]? := by
    intro rounds
    rw [show 2 * (rounds + 1) = 2 * rounds + 1 + 1 by omega, List.getElem?_cons_succ,
      List.getElem?_cons_succ]
  simp only [alternates, everySecond, told, decide_true, List.takeWhile_cons_of_pos,
    List.length_cons, twoMore, later, Course.after]
  rw [List.range_succ_eq_map, List.range_succ_eq_map]
  simp [Function.comp_def, Nat.add_assoc, Nat.add_mod_right]

theorem alternates_of_stop (told : answer.value ≠ .bool goOn) (rest : List BlockAnswer) :
    alternates condition body goOn selector (answer :: rest) =
      ⟨[(condition, [])], whileEnding selector (some answer)⟩ := by
  cases rest with
  | nil | cons _ _ =>
      simp [alternates, everySecond, told]

end While

end Missive
