import Missive.Proofs.Compile.Verification
import Missive.Proofs.Fragments.Operations

/-!
# Two fragments in one unit

A program that is cut in two compiles to the operations of its first part, less the return at their
end, and then those of its second part.  Between them the value of the first part is dropped.  A
first part that only declares variables is an exception: by itself it answers `nil`, and in front of
other statements it leaves no operations at all.

The second part comes with a pool of its own when it is compiled alone.  So its instructions differ,
but they say the same.
-/

namespace Missive

/-! ## Plans of programs -/

def Stmt.isDeclaration : Stmt → Bool
  | .declare _ => true
  | .expr _ | .return _ | .define _ => false

/-- Every statement of the program declares variables. -/
def Program.declaresOnly (program : Program) : Bool := program.all Stmt.isDeclaration

/-- The operations of a program that consists of declarations. -/
def nilOps : List Op := [.bare (.bare .pushNil), .bare (.bare .return)]

/-- Where the first statement declares nothing, no declarations have to come before it. -/
theorem planProgram_of_plain {session : Session} {program : Program} (leading : Bool)
    (someStatement : program ≠ [])
    (plain : ∀ statement ∈ program, statement.isDeclaration = false) :
    planProgram leading session program = planProgram false session program := by
  cases program with
  | nil =>
      exact (someStatement rfl).elim
  | cons statement rest =>
      cases statement with
      | declare names =>
          cases plain _ List.mem_cons_self
      | define _ | expr _ | «return» _ =>
          simp only [planProgram]

/-- The operations of a program that is cut in two. -/
inductive Cut (leading : Bool) (session between final : Session) (first second : Program)
    (ops : List Op) : Prop
  | within {body rest : List Op} :
      planProgram leading session first = .ok (between, body ++ [.bare (.bare .return)]) →
      planProgram false between second = .ok (final, rest) →
      ops = body ++ .bare (.bare .pop) :: rest →
      (∀ op ∈ body, op.Onward ∧ op.Returnless) → Cut leading session between final first second ops
  | before : first.declaresOnly = true →
      planProgram leading session first = .ok (between, if leading then nilOps else []) →
      planProgram leading between second = .ok (final, ops) →
      Cut leading session between final first second ops

/-- A statement before a program that is cut. -/
theorem Cut.statement {leading : Bool} {session extended between final : Session} {plan : Plan}
    {statement : Stmt} {rest second : Program} {valueOps ops : List Op}
    (isPlan : ∀ others : Program, planProgram leading session (statement :: others) = do
      let valueOps ← plan
      let (reached, ops) ← planProgram false extended others
      pure (reached, valueOps ++ .bare (afterStatement others.isEmpty) :: ops))
    (planned : plan = .ok valueOps) (each : ∀ op ∈ valueOps, op.Onward ∧ op.Returnless)
    (cut : Cut false extended between final rest second ops) :
    Cut leading session between final (statement :: rest) second
      (valueOps ++ .bare (.bare .pop) :: ops) := by
  have dropped : (Op.bare (.bare .pop)).Onward ∧ (Op.bare (.bare .pop)).Returnless :=
    ⟨Op.onward_bare rfl (by decide) (by decide), Op.returnless_bare (by decide)⟩
  cases rest with
  | nil =>
      cases cut with
      | @within body _ firstPlanned _ _ _ =>
          cases body with
          | nil | cons _ _ =>
              cases firstPlanned
      | before _ firstPlanned secondPlanned =>
          cases firstPlanned
          refine .within ?_ secondPlanned rfl each
          rw [isPlan, planned]
          rfl
  | cons next others =>
      cases cut with
      | @within body restOps firstPlanned secondPlanned isOps eachBody =>
          refine @Cut.within _ _ _ _ _ _ _ (valueOps ++ .bare (.bare .pop) :: body) restOps ?_
            secondPlanned ?_ ?_
          · rw [isPlan, planned, firstPlanned, List.append_assoc]
            rfl
          · rw [isOps, List.append_assoc]
            rfl
          · exact List.forall_mem_append.mpr ⟨each, List.forall_mem_cons.mpr ⟨dropped, eachBody⟩⟩
      | before declaresOnly firstPlanned _ =>
          obtain ⟨isDeclaration, _⟩ := Bool.and_eq_true_iff.mp declaresOnly
          cases next with
          | declare names =>
              cases firstPlanned
          | define _ | expr _ | «return» _ =>
              cases isDeclaration

theorem exists_cut {leading : Bool} {session final : Session} {first second : Program}
    {ops : List Op} (someStatement : second ≠ []) (returnless : first.returnless = true)
    (planned : planProgram leading session (first ++ second) = .ok (final, ops)) :
    ∃ between, Cut leading session between final first second ops := by
  have notLast : ∀ rest : Program, (rest ++ second).isEmpty = false := by simp [someStatement]
  induction first generalizing leading session ops with
  | nil =>
      refine ⟨session, .before rfl ?_ planned⟩
      cases leading with
      | true | false =>
          rfl
  | cons statement rest inductionHypothesis =>
      cases statement with
      | declare names =>
          rw [List.cons_append] at planned
          obtain ⟨rfl, extended, declared, restPlanned⟩ := planProgram_declare_ok planned
          have same : planProgram true session (.declare names :: rest) =
              planProgram true extended rest := planProgram_declare declared
          obtain ⟨between, cut⟩ := inductionHypothesis returnless restPlanned
          refine ⟨between, ?_⟩
          cases cut with
          | within firstPlanned secondPlanned isOps each =>
              exact .within (same.trans firstPlanned) secondPlanned isOps each
          | before declaresOnly firstPlanned secondPlanned =>
              exact .before declaresOnly (same.trans firstPlanned) secondPlanned
      | define definition =>
          rw [List.cons_append] at planned
          obtain ⟨extended, descriptor, restOps, classLowered, restPlanned, rfl⟩ :=
            planProgram_define_ok planned
          obtain ⟨between, cut⟩ := inductionHypothesis returnless restPlanned
          rw [notLast]
          refine ⟨between, cut.statement (fun others => ?_) rfl ?_⟩
          · rw [planProgram, classLowered]
            rfl
          · have notReturn : ∀ {opcode : Opcode}, opcode ≠ .defineClass →
                (Op.pooled .defineClass (.classDescriptor descriptor) none).opcode ≠ opcode :=
              fun other same => other same.symm
            refine List.forall_mem_singleton.mpr
              ⟨⟨.classDescriptor, notReturn (by decide)⟩, notReturn (by decide), ?_⟩
            intro body member
            cases List.mem_singleton.mp member
      | expr value =>
          obtain ⟨ofValue, ofRest⟩ := Bool.and_eq_true_iff.mp returnless
          rw [List.cons_append] at planned
          obtain ⟨valueOps, restOps, valuePlanned, restPlanned, rfl⟩ := planProgram_expr_ok planned
          obtain ⟨between, cut⟩ := inductionHypothesis ofRest restPlanned
          rw [notLast]
          refine ⟨between, cut.statement (fun others => ?_) valuePlanned fun op member => ?_⟩
          · rw [planProgram]
          · exact ⟨onward_expr session.topLevel value valueOps valuePlanned op member,
              returnless_expr session.topLevel value ofValue valueOps valuePlanned op member⟩
      | «return» value =>
          cases returnless

theorem proper_program {leading : Bool} {session final : Session} {program : Program}
    {ops : List Op} (planned : planProgram leading session program = .ok (final, ops)) :
    ∀ op ∈ ops, op.Proper := by
  have bare : ∀ {opcode : Opcode}, opcode.operandKind.isPlain = true → opcode ≠ .nonLocalReturn →
      (Op.bare (.bare opcode)).Proper := fun plain notNonLocal => .bare plain notNonLocal
  have following : ∀ isLast, (Op.bare (afterStatement isLast)).Proper := by
    intro isLast
    cases isLast with
    | true | false =>
        exact bare rfl (by decide)
  induction program generalizing leading session ops with
  | nil =>
      cases leading with
      | true =>
          cases planned
          exact List.forall_mem_cons.mpr
            ⟨bare rfl (by decide), List.forall_mem_singleton.mpr (bare rfl (by decide))⟩
      | false =>
          cases planned
          exact fun _ impossible => (List.not_mem_nil impossible).elim
  | cons statement rest inductionHypothesis =>
      cases statement with
      | declare names =>
          obtain ⟨_, _, _, restPlanned⟩ := planProgram_declare_ok planned
          exact inductionHypothesis restPlanned
      | define definition =>
          obtain ⟨_, _, _, _, restPlanned, rfl⟩ := planProgram_define_ok planned
          exact List.forall_mem_append.mpr ⟨List.forall_mem_singleton.mpr .classDescriptor,
            List.forall_mem_cons.mpr ⟨following _, inductionHypothesis restPlanned⟩⟩
      | expr value =>
          obtain ⟨valueOps, _, valuePlanned, restPlanned, rfl⟩ := planProgram_expr_ok planned
          refine List.forall_mem_append.mpr ⟨fun op member => ?_,
            List.forall_mem_cons.mpr ⟨following _, inductionHypothesis restPlanned⟩⟩
          exact (onward_expr session.topLevel value valueOps valuePlanned op member).proper
      | «return» value =>
          obtain ⟨valueOps, _, valuePlanned, restPlanned, rfl⟩ := planProgram_return_ok planned
          refine List.forall_mem_append.mpr ⟨fun op member => ?_,
            List.forall_mem_cons.mpr ⟨bare rfl (by decide), inductionHypothesis restPlanned⟩⟩
          exact (onward_expr session.topLevel value valueOps valuePlanned op member).proper

/-! ## Units of programs -/

/-- The instructions of the unit denote the operations. -/
def CodeUnit.Renders (unit : CodeUnit) (ops : List Op) : Prop :=
  List.Forall₂ (Op.Denotes unit.constants) ops unit.code.toList

namespace CodeUnit.Renders

variable {unit : CodeUnit} {ops : List Op}

theorem of_assemble (isAssembled : assemble ops .empty = .ok ((), unit)) : unit.Renders ops := by
  obtain ⟨added, isCode, denotes⟩ :=
    (assembled_of_assemble CodeUnit.poolFits_empty isAssembled).code
  unfold CodeUnit.Renders
  rw [show unit.code.toList = added from isCode]
  exact denotes unit.constants (List.prefix_refl _)

theorem at_place (renders : unit.Renders ops) {place : Nat} {op : Op}
    (isOp : ops[place]? = some op) :
    ∃ instruction, unit.code[place]? = some instruction ∧
      op.Denotes unit.constants instruction := by
  rcases denoted_at renders place with ⟨missing, _⟩ | ⟨_, instruction, found, isThere, denotes⟩
  · rw [isOp] at missing
    cases missing
  · rw [isOp] at found
    cases found
    rw [Array.getElem?_toList] at isThere
    exact ⟨instruction, isThere, denotes⟩

theorem at_end (renders : unit.Renders ops) {place : Nat} (ended : ops[place]? = none) :
    unit.code[place]? = none := by
  rcases denoted_at renders place with ⟨_, missing⟩ | ⟨_, _, found, _, _⟩
  · rw [Array.getElem?_toList] at missing
    exact missing
  · rw [ended] at found
    cases found

theorem at_bare (renders : unit.Renders ops) {place : Nat} {instruction : Instruction}
    (isOp : ops[place]? = some (.bare instruction)) : unit.code[place]? = some instruction := by
  obtain ⟨_, isThere, denotes⟩ := renders.at_place isOp
  cases denotes
  exact isThere

end CodeUnit.Renders

/-- The unit of a program that only declares variables: it answers `nil`. -/
def CodeUnit.blank : CodeUnit := ⟨#[.bare .pushNil, .bare .return], []⟩

/-- The units of two fragments, and that of the program that they make together. -/
structure Joined (whole first second : CodeUnit) (body rest : List Op) : Prop where
  whole : whole.Renders (body ++ .bare (.bare .pop) :: rest)
  first : first.Renders (body ++ [.bare (.bare .return)])
  second : second.Renders rest
  body : ∀ op ∈ body, op.Onward ∧ op.Returnless
  rest : ∀ op ∈ rest, op.Proper

/-- The unit of a program and that of what is left of it after some operations. -/
structure Continued (whole second : CodeUnit) (skipped rest : List Op) : Prop where
  whole : whole.Renders (skipped ++ rest)
  second : second.Renders rest
  proper : ∀ op ∈ rest, op.Proper

theorem Joined.continued {whole first second : CodeUnit} {body rest : List Op}
    (joined : Joined whole first second body rest) :
    Continued whole second (body ++ [.bare (.bare .pop)]) rest := by
  refine ⟨?_, joined.second, joined.rest⟩
  rw [List.append_assoc]
  exact joined.whole

theorem Session.compile_eq_ok_of_plan {session final : Session} {program : Program} {ops : List Op}
    {unit : CodeUnit} (planned : planProgram true session program = .ok (final, ops))
    (isAssembled : assemble ops .empty = .ok ((), unit)) :
    session.compile program = (final, .ok unit) :=
  Session.compile_eq_ok.mpr (lowerProgramFrom_eq_ok.mpr ⟨ops, planned, isAssembled⟩)

/-- If a program compiles, the two parts into which it is cut compile one after the other. -/
theorem Session.compile_cut {session final : Session} {first second : Program} {whole : CodeUnit}
    (someStatement : second ≠ [])
    (plain : ∀ statement ∈ second, statement.isDeclaration = false)
    (returnless : first.returnless = true)
    (compiled : session.compile (first ++ second) = (final, .ok whole)) :
    ∃ between firstUnit secondUnit, session.compile first = (between, .ok firstUnit) ∧
      between.compile second = (final, .ok secondUnit) ∧
      ((∃ body rest, Joined whole firstUnit secondUnit body rest) ∨
        first.declaresOnly = true ∧ firstUnit = .blank ∧
          ∃ rest, Continued whole secondUnit [] rest) := by
  obtain ⟨ops, planned, isAssembled⟩ :=
    lowerProgramFrom_eq_ok.mp (Session.compile_eq_ok.mp compiled)
  obtain ⟨between, cut⟩ := exists_cut someStatement returnless planned
  cases cut with
  | @within body rest firstPlanned secondPlanned isOps each =>
      subst isOps
      obtain ⟨unit, bodyAssembled, restAssembled⟩ := assemble_append.mp isAssembled
      obtain ⟨⟨⟩, dropped, isDropped, restAssembled⟩ := Lower.bind_eq_ok.mp restAssembled
      have droppedFits := (assembled_one
        (assembled_of_assemble CodeUnit.poolFits_empty bodyAssembled).poolFits isDropped).poolFits
      -- The pool of the second part alone starts empty, so there is room in it.
      have part : CodeUnit.empty.constants.Subperm dropped.constants := List.nil_subperm
      obtain ⟨secondUnit, secondAssembled⟩ := assemble_of_subperm droppedFits part restAssembled
      have firstAssembled : assemble (body ++ [.bare (.bare .return)]) .empty =
          .ok ((), unit.add (.bare .return)) :=
        assemble_append.mpr ⟨unit, bodyAssembled, rfl⟩
      refine ⟨between, _, secondUnit, compile_eq_ok_of_plan firstPlanned firstAssembled,
        compile_eq_ok_of_plan ?_ secondAssembled, Or.inl ⟨body, rest, ?_⟩⟩
      · rw [planProgram_of_plain true someStatement plain]
        exact secondPlanned
      · exact ⟨.of_assemble isAssembled, .of_assemble firstAssembled, .of_assemble secondAssembled,
          each, proper_program secondPlanned⟩
  | before declaresOnly firstPlanned secondPlanned =>
      refine ⟨between, _, whole, compile_eq_ok_of_plan firstPlanned rfl,
        compile_eq_ok_of_plan secondPlanned isAssembled, Or.inr ⟨declaresOnly, rfl, ops, ?_⟩⟩
      exact ⟨.of_assemble isAssembled, .of_assemble isAssembled, proper_program secondPlanned⟩

/-! ## Sizes -/

theorem collectionsFit_cut {first second : Program}
    (small : (first ++ second : Program).collectionsFit = true) :
    first.collectionsFit = true ∧ second.collectionsFit = true := by
  induction first with
  | nil =>
      exact ⟨rfl, small⟩
  | cons statement rest inductionHypothesis =>
      cases statement with
      | declare names =>
          exact inductionHypothesis small
      | define definition =>
          obtain ⟨name, superclass, fields, classVars, methods, classMethods⟩ := definition
          obtain ⟨ofClass, ofRest⟩ := Bool.and_eq_true_iff.mp small
          obtain ⟨smallRest, smallSecond⟩ := inductionHypothesis ofRest
          exact ⟨Bool.and_eq_true_iff.mpr ⟨ofClass, smallRest⟩, smallSecond⟩
      | expr value | «return» value =>
          obtain ⟨ofValue, ofRest⟩ := Bool.and_eq_true_iff.mp small
          obtain ⟨smallRest, smallSecond⟩ := inductionHypothesis ofRest
          exact ⟨Bool.and_eq_true_iff.mpr ⟨ofValue, smallRest⟩, smallSecond⟩

/-- What the sizes in a program have to do with those in the program after its first statement. -/
theorem scopesFit_cons {leading : Bool} {session final : Session} {statement : Stmt}
    {rest : Program} {unit grown : CodeUnit}
    (lowered : lowerProgramFrom leading session unit (statement :: rest) = (final, .ok grown)) :
    ∃ extended flag between condition, lowerProgramFrom flag extended between rest =
        (final, .ok grown) ∧
      ∀ others : Program, Program.scopesFit session (statement :: others) = true ↔
        condition ∧ others.scopesFit extended = true := by
  cases statement with
  | declare names =>
      obtain ⟨_, extended, declared, restLowered⟩ := lowerProgramFrom_declare_ok lowered
      refine ⟨extended, _, _, True, restLowered, fun others => ?_⟩
      have sameScope := Session.declareAll_ok declared
      simp only [Program.scopesFit, scopesFitInBody, fieldsFitInProgram, declared, sameScope,
        true_and]
  | define definition =>
      obtain ⟨extended, descriptor, index, between, classLowered, _, restLowered⟩ :=
        lowerProgramFrom_define_ok lowered
      have sameLocals : extended.locals = session.locals := by
        rw [← lowerClass_locals session definition, classLowered]
      obtain ⟨name, superclass, fields, classVars, methods, classMethods⟩ := definition
      refine ⟨extended, _, _,
        (scopesFitInMethods methods = true ∧ scopesFitInMethods classMethods = true) ∧
          fieldsFitInProgram session
            [.define ⟨name, superclass, fields, classVars, methods, classMethods⟩] = true,
        restLowered, fun others => ?_⟩
      simp only [Program.scopesFit, scopesFitInBody, fieldsFitInProgram, classLowered,
        Bool.and_eq_true, Bool.and_true, sameLocals]
      constructor
      · rintro ⟨⟨ofMethods, ofBodies⟩, ofFields, ofOthers⟩
        exact ⟨⟨ofMethods, ofFields⟩, ofBodies, ofOthers⟩
      · rintro ⟨⟨ofMethods, ofFields⟩, ofBodies, ofOthers⟩
        exact ⟨⟨ofMethods, ofBodies⟩, ofFields, ofOthers⟩
  | expr value =>
      obtain ⟨between, _, restLowered⟩ := lowerProgramFrom_expr_ok lowered
      refine ⟨session, _, _, value.scopesFit = true, restLowered, fun others => ?_⟩
      simp only [Program.scopesFit, scopesFitInBody, fieldsFitInProgram, Bool.and_eq_true]
      exact and_assoc
  | «return» value =>
      obtain ⟨between, _, restLowered⟩ := lowerProgramFrom_return_ok lowered
      refine ⟨session, _, _, value.scopesFit = true, restLowered, fun others => ?_⟩
      simp only [Program.scopesFit, scopesFitInBody, fieldsFitInProgram, Bool.and_eq_true]
      exact and_assoc

theorem scopesFit_cut {leading : Bool} {session between : Session} {first second : Program}
    {unit grown : CodeUnit}
    (lowered : lowerProgramFrom leading session unit first = (between, .ok grown))
    (scopes : Program.scopesFit session (first ++ second) = true) :
    first.scopesFit session = true ∧ second.scopesFit between = true := by
  induction first generalizing leading session unit with
  | nil =>
      have ofBodies := (Bool.and_eq_true_iff.mp scopes).1
      have sameSession : between = session := by
        cases leading with
        | true | false =>
            cases lowered
            rfl
      rw [sameSession]
      exact ⟨Bool.and_eq_true_iff.mpr ⟨fits_of_scopesFitInBody ofBodies, rfl⟩, scopes⟩
  | cons statement rest inductionHypothesis =>
      obtain ⟨extended, _, _, _, restLowered, same⟩ := scopesFit_cons lowered
      obtain ⟨ofStatement, ofOthers⟩ := (same _).mp scopes
      obtain ⟨ofRest, ofSecond⟩ := inductionHypothesis restLowered ofOthers
      exact ⟨(same _).mpr ⟨ofStatement, ofRest⟩, ofSecond⟩

end Missive
