import Missive.Proofs.Fragments.Closing

/-!
# Fragments compose

A program that is cut in two can be evaluated as one fragment or as two.  Where the first part ends
well, both ways lead to the same.  Where the first part fails, the program fails for the same cause
after the same output.  A first part that only declares variables is an exception on a machine whose
stacks have no room at all: by itself it fails to answer `nil`, and in front of other statements it
has nothing to do.
-/

namespace Missive

variable {config : Config}

/-! ## Both parts of a program -/

/-- The unit of a fragment, which a machine accepts and can run. -/
structure Session.Yields (session : Session) (fragment : Program) (extended : Session)
    (unit : CodeUnit) : Prop where
  compiled : session.compile fragment = (extended, .ok unit)
  verified : unit.verify = .ok ()
  safe : unit.Safe .topLevel

theorem Session.yields {session extended : Session} {fragment : Program} {unit : CodeUnit}
    (scopes : fragment.scopesFit session = true) (collections : fragment.collectionsFit = true)
    (compiled : session.compile fragment = (extended, .ok unit)) :
    session.Yields fragment extended unit := by
  obtain ⟨scopesBodies, fields⟩ := Bool.and_eq_true_iff.mp scopes
  have accepted :=
    accepted_program .empty scopesBodies fields collections (Session.compile_eq_ok.mp compiled)
  exact ⟨compiled, accepted.verify, safe_compile collections compiled⟩

namespace Session.Yields

variable {machine final : Machine} {fragment : Program} {extended : Session} {unit : CodeUnit}

theorem evaluates {result : Except Machine.EvalError Value}
    (yields : machine.session.Yields fragment extended unit) :
    machine.Evaluates fragment final result ↔
      ∃ outcome, (Machine.start { machine with session := extended } unit
        machine.sessionContext).Ends final outcome ∧ result = outcome.mapError .run :=
  Machine.evaluates_iff yields.compiled yields.verified

theorem ends_of_ok {value : Value}
    (yields : machine.session.Yields fragment extended unit)
    (evaluated : machine.Evaluates fragment final (.ok value)) :
    (Machine.start { machine with session := extended } unit machine.sessionContext).Ends final
      (.ok value) := by
  obtain ⟨outcome, ends, isOutcome⟩ := yields.evaluates.mp evaluated
  cases outcome with
  | error fault =>
      cases isOutcome
  | ok answer =>
      cases isOutcome
      exact ends

theorem ends_of_error {fault : Fault}
    (yields : machine.session.Yields fragment extended unit)
    (evaluated : machine.Evaluates fragment final (.error (.run fault))) :
    (Machine.start { machine with session := extended } unit machine.sessionContext).Ends final
      (.error fault) := by
  obtain ⟨outcome, ends, isOutcome⟩ := yields.evaluates.mp evaluated
  cases outcome with
  | error fault =>
      cases isOutcome
      exact ends
  | ok answer =>
      cases isOutcome

end Session.Yields

/-- A program that is cut in two, with the units of the whole and of the parts. -/
structure Session.Parts (session between final : Session) (first second : Program)
    (whole firstUnit secondUnit : CodeUnit) : Prop where
  ofWhole : session.Yields (first ++ second) final whole
  ofFirst : session.Yields first between firstUnit
  ofSecond : between.Yields second final secondUnit
  cut : (∃ body rest, Joined whole firstUnit secondUnit body rest) ∨
    first.declaresOnly = true ∧ firstUnit = .blank ∧ ∃ rest, Continued whole secondUnit [] rest

theorem Session.exists_parts {session final : Session} {first second : Program} {whole : CodeUnit}
    (someStatement : second ≠ [])
    (plain : ∀ statement ∈ second, statement.isDeclaration = false)
    (returnless : first.returnless = true)
    (scopes : (first ++ second : Program).scopesFit session = true)
    (collections : (first ++ second : Program).collectionsFit = true)
    (compiled : session.compile (first ++ second) = (final, .ok whole)) :
    ∃ between firstUnit secondUnit,
      session.Parts between final first second whole firstUnit secondUnit := by
  obtain ⟨between, firstUnit, secondUnit, firstCompiled, secondCompiled, cut⟩ :=
    compile_cut someStatement plain returnless compiled
  obtain ⟨firstCollections, secondCollections⟩ := collectionsFit_cut collections
  obtain ⟨firstScopes, secondScopes⟩ :=
    scopesFit_cut (Session.compile_eq_ok.mp firstCompiled) scopes
  exact ⟨between, firstUnit, secondUnit, yields scopes collections compiled,
    yields firstScopes firstCollections firstCompiled,
    yields secondScopes secondCollections secondCompiled, cut⟩

namespace Machine

variable {machine reached : Machine} {between final : Session} {first second : Program}
  {whole firstUnit secondUnit : CodeUnit}

/-- Where the first part ends well, the program gets to its second part. -/
theorem Regular.resumes {value : Value} (regular : machine.Regular config)
    (unlimited : config.maxSteps = none)
    (parts : machine.session.Parts between final first second whole firstUnit secondUnit)
    (ends : (Machine.start { machine with session := between } firstUnit
      machine.sessionContext).Ends reached (.ok value)) :
    (Machine.start { machine with session := final } whole machine.sessionContext).Resumes reached
      secondUnit := by
  rcases parts.cut with ⟨body, rest, joined⟩ | ⟨_, rfl, rest, continued⟩
  · have abreast := regular.abreast final between parts.ofWhole.verified parts.ofWhole.safe
      parts.ofFirst.safe body.length
    cases abreast.passes joined rfl rfl unlimited ends with
    | crossed advances crossed =>
        exact crossed.resumes joined unlimited advances
  · exact regular.resumes_blank unlimited continued parts.ofWhole.verified ends

/-- Where the first part fails, the program fails too. -/
theorem Regular.fails {fault : Fault} (regular : machine.Regular config)
    (unlimited : config.maxSteps = none)
    (parts : machine.session.Parts between final first second whole firstUnit secondUnit)
    (proper : first.declaresOnly = false ∨ 0 < config.maxStackDepth)
    (ends : (Machine.start { machine with session := between } firstUnit
      machine.sessionContext).Ends reached (.error fault)) :
    ∃ other otherFault,
      (Machine.start { machine with session := final } whole machine.sessionContext).Ends other
        (.error otherFault) ∧
      otherFault.cause = fault.cause ∧ other.output = reached.output := by
  rcases parts.cut with ⟨body, rest, joined⟩ | ⟨declaresOnly, rfl, _⟩
  · have abreast := regular.abreast final between parts.ofWhole.verified parts.ofWhole.safe
      parts.ofFirst.safe body.length
    cases abreast.passes joined rfl rfl unlimited ends with
    | failed otherEnds sameCause sameOutput =>
        exact ⟨_, _, otherEnds, sameCause, sameOutput⟩
  · rcases proper with notDeclaresOnly | room
    · rw [declaresOnly] at notDeclaresOnly
      cases notDeclaresOnly
    · obtain ⟨_, others, _⟩ := regular.ends_start_blank unlimited room between
      obtain ⟨_, impossible⟩ := others.unique ends
      cases impossible

/-! ## The same outcome -/

/-- The local variables of the session. -/
def sessionLocals (machine : Machine) : List Value :=
  match machine.contexts.get? machine.sessionContext with
  | some found => found.locals.toList
  | none => []

/-- The value of an evaluation, if it has one, and the values of the variables that are left. -/
def shown (machine : Machine) (result : Except EvalError Value) : List Value :=
  result.toOption.toList ++ machine.globals.values ++ machine.sessionLocals

/-- Two evaluations have the same value or failed for the same cause. -/
inductive SameResult : Except EvalError Value → Except EvalError Value → Prop
  | value (value : Value) : SameResult (.ok value) (.ok value)
  | failed {fault otherFault : Fault} : fault.cause = otherFault.cause →
      SameResult (.error (.run fault)) (.error (.run otherFault))

/-- Two evaluations come to the same.  The handles of contexts and the numbers of activations may
differ, and what no variable leads to. -/
structure SameOutcome (left : Machine) (result : Except EvalError Value) (right : Machine)
    (otherResult : Except EvalError Value) : Prop where
  sameResult : SameResult result otherResult
  output : left.output = right.output
  session : left.session = right.session
  globals : left.globals = right.globals
  locals : left.sessionLocals = right.sessionLocals
  texts : ∀ value ∈ left.shown result, left.store.print value = right.store.print value
  /-- All that the values lead to is the same. -/
  memories : ∃ link : Link, link.Memories left right ∧ ∀ value ∈ left.shown result, link.Knows value

variable {left right : Machine}

theorem sessionLocals_eq {link : Link} (memories : link.Memories left right) :
    left.sessionLocals = right.sessionLocals ∧ ∀ value ∈ left.sessionLocals, link.Knows value := by
  obtain ⟨leftContext, rightContext, leftFound, rightFound, contexts⟩ :=
    memories.arenas.linked memories.sessionContext
  unfold sessionLocals
  rw [leftFound, rightFound]
  exact ⟨congrArg Array.toList contexts.locals,
    fun value member => contexts.known value (Array.mem_toList_iff.mp member)⟩

theorem Ends.result {value : Value} (ends : machine.Ends reached (.ok value)) :
    reached.result = some value := by
  generalize isOutcome : (Except.ok value : Except Fault Value) = outcome at ends
  induction ends with
  | finished stepped =>
      cases isOutcome
      exact result_of_finished stepped
  | failed _ =>
      cases isOutcome
  | later _ _ inductionHypothesis =>
      exact inductionHypothesis isOutcome

theorem Concurs.sameOutcome {outcome otherOutcome : Except Fault Value}
    (concurs : left.Concurs outcome right otherOutcome) (ends : machine.Ends left outcome)
    (sameSession : left.session = right.session) :
    SameOutcome left (outcome.mapError .run) right (otherOutcome.mapError .run) := by
  obtain ⟨⟨pairing, link, _, machines⟩, sameCause⟩ := concurs
  obtain ⟨sameLocals, localsKnown⟩ := sessionLocals_eq machines.toMemories
  have known : ∀ value ∈ left.shown (outcome.mapError .run), link.Knows value := by
    intro value member
    rcases List.mem_append.mp member with inOthers | inLocals
    · rcases List.mem_append.mp inOthers with isValue | inGlobals
      · cases outcome with
        | error fault =>
            exact (List.not_mem_nil isValue).elim
        | ok answer =>
            cases List.mem_singleton.mp isValue
            exact machines.resultValue value ends.result
      · exact machines.globalValues value inGlobals
    · exact localsKnown value inLocals
  refine ⟨?_, machines.output, sameSession, machines.globals, sameLocals,
    fun value member => machines.stores.print (known value member), link, machines.toMemories,
    known⟩
  cases outcome with
  | ok value =>
      cases otherOutcome with
      | ok other =>
          cases sameCause
          exact .value value
      | error fault =>
          cases sameCause
  | error fault =>
      cases otherOutcome with
      | ok other =>
          cases sameCause
      | error otherFault =>
          exact .failed (Except.error.inj sameCause)

/-! ## Fragments compose -/

/-- A program is cut in two, and nothing in its first part returns outside of methods.  If the first
part succeeds, the program comes to the same as both parts one after the other.  If the first part
fails, the program fails for the same cause after the same output, unless the first part only
declares variables and there is no room for its answer. -/
theorem fragments_compose (config : Config) (refusal : Option String) (machine : Machine)
    (used : Used config refusal machine) (unlimited : config.maxSteps = none)
    (first second : Program) (someStatement : second ≠ [])
    (plain : ∀ statement ∈ second, statement.isDeclaration = false)
    (returnless : first.returnless = true)
    (scopes : (first ++ second : Program).scopesFit machine.session = true)
    (collections : (first ++ second : Program).collectionsFit = true)
    (final : Session) (whole : CodeUnit)
    (compiled : machine.session.compile (first ++ second) = (final, .ok whole)) :
    (∀ between value, machine.Evaluates first between (.ok value) →
      (∀ last result, between.Evaluates second last result →
        ∃ other otherResult, machine.Evaluates (first ++ second) other otherResult ∧
          SameOutcome last result other otherResult) ∧
      ∀ other otherResult, machine.Evaluates (first ++ second) other otherResult →
        ∃ last result, between.Evaluates second last result ∧
          SameOutcome last result other otherResult) ∧
    ∀ failed fault, machine.Evaluates first failed (.error (.run fault)) →
      (first.declaresOnly = false ∨ 0 < config.maxStackDepth) →
      ∃ other otherFault, machine.Evaluates (first ++ second) other (.error (.run otherFault)) ∧
        otherFault.cause = fault.cause ∧ other.output = failed.output := by
  have regular := used.regular
  obtain ⟨betweenSession, firstUnit, secondUnit, parts⟩ :=
    Session.exists_parts someStatement plain returnless scopes collections compiled
  refine ⟨fun between value evaluated => ?_, fun failed fault evaluated proper => ?_⟩
  · have ends := parts.ofFirst.ends_of_ok evaluated
    have resumes := regular.resumes unlimited parts ends
    obtain ⟨betweenRegular, isSession⟩ :=
      (regular_start regular betweenSession parts.ofFirst.verified).ends ends
    -- The second part is compiled in the session that the first one leaves.
    have ofSecond : between.session.Yields second final secondUnit := by
      rw [isSession]
      exact parts.ofSecond
    have begunWhole := regular_start regular final parts.ofWhole.verified
    have begunSecond := regular_start betweenRegular final parts.ofSecond.verified
    refine ⟨fun last result lastEvaluated => ?_, fun other otherResult otherEvaluated => ?_⟩
    · obtain ⟨outcome, lastEnds, rfl⟩ := ofSecond.evaluates.mp lastEvaluated
      obtain ⟨other, otherOutcome, otherEnds, concurs⟩ := resumes.of_second lastEnds
      exact ⟨other, _, parts.ofWhole.evaluates.mpr ⟨_, otherEnds, rfl⟩,
        concurs.sameOutcome lastEnds
          ((begunSecond.ends lastEnds).2.trans (begunWhole.ends otherEnds).2.symm)⟩
    · obtain ⟨otherOutcome, otherEnds, rfl⟩ := parts.ofWhole.evaluates.mp otherEvaluated
      obtain ⟨last, outcome, lastEnds, concurs⟩ := resumes.of_whole otherEnds
      exact ⟨last, _, ofSecond.evaluates.mpr ⟨_, lastEnds, rfl⟩,
        concurs.sameOutcome lastEnds
          ((begunSecond.ends lastEnds).2.trans (begunWhole.ends otherEnds).2.symm)⟩
  · obtain ⟨other, otherFault, otherEnds, sameCause, sameOutput⟩ :=
      regular.fails unlimited parts proper (parts.ofFirst.ends_of_error evaluated)
    exact ⟨other, otherFault, parts.ofWhole.evaluates.mpr ⟨_, otherEnds, rfl⟩, sameCause,
      sameOutput⟩

theorem evaluates_of_eval {fuel : Nat} {fragment : Program} {result : Except EvalError Value}
    (evaluated : (machine.eval fuel fragment).2 = some result) :
    machine.Evaluates fragment (machine.eval fuel fragment).1 result :=
  ⟨fuel, Prod.ext rfl evaluated⟩

/-- A fragment that stores a block in a variable, and one that calls it.  Another first fragment
fails after it has written something. -/
theorem fragments_compose_counting :
    let machine := new {} none
    let counting : Program :=
      [.declare ["count", "next"], .expr (.assign "count" (.literal (.int 1))),
        .expr (.assign "next"
          (.block [] [.expr (.assign "count" (.send (.var "count") "+" [.literal (.int 2)]))]))]
    let failing : Program :=
      [.expr (.send (.literal (.string "hello")) "print" []), .expr (.var "unknown")]
    let later : Program := [.expr (.send (.var "next") "value" []), .expr (.var "count")]
    (∃ between value last other otherResult, machine.Evaluates counting between (.ok value) ∧
      between.Evaluates later last (.ok (.int 3)) ∧
      machine.Evaluates (counting ++ later) other otherResult ∧
      SameOutcome last (.ok (.int 3)) other otherResult) ∧
    ∃ failed fault other otherFault, machine.Evaluates failing failed (.error (.run fault)) ∧
      failed.output.written = "hello" ∧
      machine.Evaluates (failing ++ later) other (.error (.run otherFault)) ∧
      otherFault.cause = fault.cause ∧ other.output = failed.output := by
  intro machine counting failing later
  have first : machine.Evaluates counting (machine.eval 20 counting).1 (.ok (.ref ⟨1⟩)) :=
    evaluates_of_eval (by decide +kernel)
  have second : (machine.eval 20 counting).1.Evaluates later
      ((machine.eval 20 counting).1.eval 20 later).1 (.ok (.int 3)) :=
    evaluates_of_eval (by decide +kernel)
  have fails : machine.Evaluates failing (machine.eval 20 failing).1
      (.error (.run ⟨.undefinedGlobal "unknown", [⟨"<top level>", 3⟩]⟩)) :=
    evaluates_of_eval (by decide +kernel)
  constructor
  · obtain ⟨other, otherResult, evaluated, same⟩ :=
      ((fragments_compose {} none machine .new rfl counting later (by decide) (by decide)
        (by decide) (by decide) (by decide) _ _ rfl).1 _ _ first).1 _ _ second
    exact ⟨_, _, _, other, otherResult, first, second, evaluated, same⟩
  · obtain ⟨other, otherFault, evaluated, sameCause, sameOutput⟩ :=
      (fragments_compose {} none machine .new rfl failing later (by decide) (by decide)
        (by decide) (by decide) (by decide) _ _ rfl).2 _ _ fails (Or.inl (by decide))
    exact ⟨_, _, other, otherFault, fails, by decide +kernel, evaluated, sameCause, sameOutput⟩

/-- Without room on the stack, a program without statements fails by itself, and in front of others
it does nothing. -/
theorem not_fragments_compose_without_room :
    let config : Config := { maxStackDepth := 0 }
    let machine := new config none
    let first : Program := []
    let second : Program := [.expr (.var "x")]
    Used config none machine ∧ config.maxSteps = none ∧ second ≠ [] ∧
      (∀ statement ∈ second, statement.isDeclaration = false) ∧ first.returnless = true ∧
      (∃ final whole, machine.session.compile (first ++ second) = (final, .ok whole)) ∧
      ∃ failed fault, machine.Evaluates first failed (.error (.run fault)) ∧
        ¬ ∃ other otherFault, machine.Evaluates (first ++ second) other (.error (.run otherFault)) ∧
          otherFault.cause = fault.cause := by
  intro config machine first second
  have yields : machine.session.Yields (first ++ second) _ _ :=
    Session.yields (by decide) (by decide) rfl
  have alone : machine.Evaluates first (machine.eval 20 first).1
      (.error (.run ⟨.stackOverflow 0, [⟨"<top level>", 0⟩]⟩)) :=
    evaluates_of_eval (by decide +kernel)
  have together : machine.Evaluates (first ++ second) (machine.eval 20 (first ++ second)).1
      (.error (.run ⟨.undefinedGlobal "x", [⟨"<top level>", 0⟩]⟩)) :=
    evaluates_of_eval (by decide +kernel)
  refine ⟨.new, rfl, by decide, by decide, by decide, ⟨_, _, yields.compiled⟩, _, _, alone, ?_⟩
  rintro ⟨other, otherFault, evaluated, sameCause⟩
  obtain ⟨_, sameResult⟩ :=
    (yields.ends_of_error together).unique (yields.ends_of_error evaluated)
  cases sameResult
  cases sameCause

end Machine

end Missive
