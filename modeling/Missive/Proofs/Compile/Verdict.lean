import Missive.Proofs.Compile.Decision

/-!
# The verdict on a program

The statements of a program are accepted one after the other, each in the session that the earlier
ones have reached.  A class is accepted if its superclass is known, its fields are new, and its
methods are accepted.  Put together, a program compiles exactly if it is well formed.
-/

namespace Missive

/-! ## Classes -/

theorem Except.mapM_isOk_iff {ε α β : Type} {f : α → Except ε β} {items : List α} :
    (∃ results, items.mapM f = .ok results) ↔ ∀ item ∈ items, ∃ result, f item = .ok result := by
  induction items with
  | nil =>
      exact iff_of_true ⟨[], rfl⟩ (List.forall_mem_nil _)
  | cons item rest inductionHypothesis =>
      rw [List.mapM_cons, List.forall_mem_cons, ← inductionHypothesis]
      constructor
      · rintro ⟨_, answered⟩
        obtain ⟨first, firstAnswered, answered⟩ := Except.bind_eq_ok.mp answered
        obtain ⟨others, othersAnswered, _⟩ := Except.bind_eq_ok.mp answered
        exact ⟨⟨first, firstAnswered⟩, others, othersAnswered⟩
      · rintro ⟨⟨first, firstAnswered⟩, others, othersAnswered⟩
        exact ⟨first :: others, Except.bind_eq_ok.mpr ⟨first, firstAnswered,
          Except.bind_eq_ok.mpr ⟨others, othersAnswered, rfl⟩⟩⟩

theorem lowerMethod_isOk_iff {session : Session} {owner : Owner} {method : MethodDef} :
    (∃ descriptor, lowerMethod session owner method = .ok descriptor) ↔
      Selector.Takes method.selector method.parameters.length ∧
        Surroundings.AcceptsBody
          ⟨session, [Scope.ofParameters .method method.parameters], some owner⟩ method.body := by
  rw [← checkArity_eq_ok_iff]
  have toUnit : ∀ {unit}, _ ↔ _ := @(realizes_statements
    ⟨session, [Scope.ofParameters .method method.parameters], some owner⟩ true method.body).toUnit
  constructor
  · rintro ⟨_, lowered⟩
    obtain ⟨body, checked, bodyLowered, _⟩ := lowerMethod_eq_ok.mp lowered
    exact ⟨checked, body, toUnit.mpr bodyLowered⟩
  · rintro ⟨checked, body, isUnit⟩
    exact ⟨_, lowerMethod_eq_ok.mpr ⟨body, checked, toUnit.mp isUnit, rfl⟩⟩

theorem extendFields_isOk_iff {className : String} {fields added : List String} :
    (∃ result, extendFields className fields added = .ok result) ↔
      added.Nodup ∧ ∀ field ∈ added, field ∉ fields := by
  induction added generalizing fields with
  | nil =>
      exact iff_of_true ⟨fields, rfl⟩ ⟨List.nodup_nil, List.forall_mem_nil _⟩
  | cons field rest inductionHypothesis =>
      rw [extendFields, List.nodup_cons, List.forall_mem_cons]
      by_cases isKnown : field ∈ fields
      · rw [if_pos (List.contains_iff_mem.mpr isKnown)]
        refine iff_of_false ?_ fun distinct => distinct.2.1 isKnown
        rintro ⟨_, impossible⟩
        cases impossible
      · have isNew : ¬ fields.contains field = true := fun known =>
          isKnown (List.contains_iff_mem.mp known)
        rw [if_neg isNew, inductionHypothesis]
        simp only [List.mem_append, List.mem_singleton, not_or]
        constructor
        · rintro ⟨distinct, others⟩
          refine ⟨⟨fun member => (others field member).2 rfl, distinct⟩, isKnown, ?_⟩
          exact fun other member => (others other member).1
        · rintro ⟨⟨notAgain, distinct⟩, _, others⟩
          refine ⟨distinct, fun other member => ⟨others other member, ?_⟩⟩
          rintro rfl
          exact notAgain member

namespace Session

/-- The superclass is known, and the fields are new. -/
structure AcceptsShape (session : Session) (definition : ClassDef) : Prop where
  known : ∀ superclass, definition.superclass = some superclass →
    (session.shape? superclass).isSome = true
  distinct : definition.fields.Nodup
  new : ∀ field ∈ definition.fields, field ∉ session.inheritedFields definition

/-- The definition of a class is accepted. -/
structure AcceptsClass (session : Session) (definition : ClassDef) : Prop extends
    session.AcceptsShape definition where
  arities : ∀ classSide, ∀ method ∈ definition.methodsOn classSide,
    Selector.Takes method.selector method.parameters.length
  bodies : ∀ classSide, ∀ method ∈ definition.methodsOn classSide,
    (session.inMethod definition classSide method.parameters).AcceptsBody method.body

theorem shapeOf_eq_ok_iff {session : Session} {definition : ClassDef} {shape : Shape} :
    shapeOf session definition = .ok shape ↔
      session.AcceptsShape definition ∧ session.shapeFor definition = shape := by
  have isInherited : ((definition.superclass.bind session.shape?).map Shape.fields).getD [] =
      session.inheritedFields definition := by
    unfold inheritedFields
    cases definition.superclass.bind session.shape? <;> rfl
  rw [shapeOf_eq_ok, isInherited]
  constructor
  · rintro ⟨known, fields, extended, rfl⟩
    obtain ⟨distinct, new⟩ := extendFields_isOk_iff.mp ⟨fields, extended⟩
    refine ⟨⟨known, distinct, new⟩, ?_⟩
    rw [shapeFor, extendFields_ok extended]
  · rintro ⟨accepts, rfl⟩
    obtain ⟨fields, extended⟩ := extendFields_isOk_iff.mpr ⟨accepts.distinct, accepts.new⟩
    refine ⟨accepts.known, fields, extended, ?_⟩
    rw [shapeFor, extendFields_ok extended]

theorem lowerMethods_isOk_iff {session : Session} {definition : ClassDef} {fields : List String} :
    (∃ descriptor, lowerMethods session definition fields = .ok descriptor) ↔
      ∀ classSide, ∀ method ∈ definition.methodsOn classSide,
        ∃ result, lowerMethod session ⟨definition.name, fields, classSide⟩ method = .ok result := by
  have onBothSides : ∀ {holds : Bool → Prop}, (∀ classSide, holds classSide) ↔
      holds false ∧ holds true := Bool.forall_bool
  rw [onBothSides, ← Except.mapM_isOk_iff, ← Except.mapM_isOk_iff]
  constructor
  · rintro ⟨_, lowered⟩
    obtain ⟨methods, classMethods, ofMethods, ofClassMethods, _⟩ := lowerMethods_eq_ok.mp lowered
    exact ⟨⟨methods, ofMethods⟩, classMethods, ofClassMethods⟩
  · rintro ⟨⟨methods, ofMethods⟩, classMethods, ofClassMethods⟩
    exact ⟨_, lowerMethods_eq_ok.mpr ⟨methods, classMethods, ofMethods, ofClassMethods, rfl⟩⟩

/-- A class compiles where it is accepted, and the session then knows it. -/
theorem lowerClass_isOk_iff {session extended : Session} {definition : ClassDef} :
    (∃ descriptor, lowerClass session definition = (extended, .ok descriptor)) ↔
      session.AcceptsClass definition ∧ session.past (.define definition) = extended := by
  have methods := @lowerMethods_isOk_iff (session.past (.define definition)) definition
    (session.shapeFor definition).fields
  simp only [lowerMethod_isOk_iff] at methods
  constructor
  · rintro ⟨descriptor, lowered⟩
    obtain ⟨shape, isShape, rfl, isDescriptor⟩ := lowerClass_eq_ok.mp lowered
    obtain ⟨accepts, rfl⟩ := shapeOf_eq_ok_iff.mp isShape
    have fit := methods.mp ⟨descriptor, isDescriptor⟩
    exact ⟨⟨accepts, fun classSide method member => (fit classSide method member).1,
      fun classSide method member => (fit classSide method member).2⟩, rfl⟩
  · rintro ⟨accepts, rfl⟩
    obtain ⟨descriptor, isDescriptor⟩ := methods.mpr fun classSide method member =>
      ⟨accepts.arities classSide method member, accepts.bodies classSide method member⟩
    have isShape := shapeOf_eq_ok_iff.mpr ⟨accepts.toAcceptsShape, rfl⟩
    exact ⟨descriptor, lowerClass_eq_ok.mpr ⟨_, isShape, rfl, isDescriptor⟩⟩

/-! ## Statements -/

theorem declareAll_eq_ok_iff {session extended : Session} {names : List String} :
    session.declareAll names = (extended, .ok ()) ↔
      (∀ name ∈ names, isPseudoVariable name = false) ∧
        session.past (.declare names) = extended := by
  induction names generalizing session with
  | nil =>
      constructor
      · rintro ⟨⟩
        exact ⟨List.forall_mem_nil _, rfl⟩
      · rintro ⟨_, rfl⟩
        rfl
  | cons name rest inductionHypothesis =>
      rw [declareAll, List.forall_mem_cons, and_assoc]
      cases isPseudoVariable name with
      | true =>
          refine iff_of_false (fun impossible => ?_) nofun
          cases impossible
      | false =>
          exact inductionHypothesis.trans ⟨fun holds => ⟨rfl, holds⟩, And.right⟩

/-- The statement is accepted where a program has reached the session. -/
def AcceptsStatement (session : Session) : Stmt → Prop
  | .expr value | .return value => ∀ part ∈ value.parts, session.topLevel.Accepts part
  | .declare names => ∀ name ∈ names, isPseudoVariable name = false
  | .define definition => session.AcceptsClass definition

/-- The statements are accepted one after the other. -/
def AcceptsAll (session : Session) : Program → Prop
  | [] => True
  | statement :: rest =>
    session.AcceptsStatement statement ∧ (session.past statement).AcceptsAll rest

theorem acceptsAll_iff {session : Session} {program : Program} :
    session.AcceptsAll program ↔ ∀ earlier statement later,
      program = earlier ++ statement :: later →
      (session.pastAll earlier).AcceptsStatement statement := by
  induction program generalizing session with
  | nil =>
      refine iff_of_true trivial fun earlier statement later impossible => ?_
      simp at impossible
  | cons first rest inductionHypothesis =>
      constructor
      · rintro ⟨accepts, others⟩ earlier statement later isWhole
        cases earlier with
        | nil =>
            obtain ⟨rfl, _⟩ := List.cons.inj isWhole
            exact accepts
        | cons head earlier =>
            obtain ⟨rfl, isRest⟩ := List.cons.inj isWhole
            exact inductionHypothesis.mp others earlier statement later isRest
      · intro accepts
        refine ⟨accepts [] first rest rfl, inductionHypothesis.mpr ?_⟩
        intro earlier statement later isRest
        exact accepts (first :: earlier) statement later (isRest ▸ rfl)

end Session

/-- The plan of a program exists and fits exactly under the condition, and its operations have the
given demands. -/
structure ProgramDecided (planned : Except CompileError (Session × List Op)) (condition : Prop)
    (demands : List Demand) : Prop where
  isOk : (∃ final ops, planned = .ok (final, ops) ∧ ∀ op ∈ ops, op.Fits) ↔ condition
  needs : ∀ final ops, planned = .ok (final, ops) → (ops.flatMap Op.demands).Perm demands

namespace ProgramDecided

variable {planned : Except CompileError (Session × List Op)} {condition other : Prop}
  {demands : List Demand}

theorem congr (decided : ProgramDecided planned condition demands) (same : condition ↔ other) :
    ProgramDecided planned other demands :=
  ⟨decided.isOk.trans same, decided.needs⟩

theorem refused (error : CompileError) : ProgramDecided (throw error) False demands := by
  refine ⟨iff_of_false ?_ id, fun final ops impossible => ?_⟩
  · rintro ⟨_, _, impossible, _⟩
    cases impossible
  · cases impossible

/-- A statement, the instruction after it and the statements that follow. -/
theorem statement {plan : Plan} {more : List Demand} (first : plan.Decided condition demands)
    (instruction : Instruction) (rest : ProgramDecided planned other more) :
    ProgramDecided (do
        let valueOps ← plan
        let (final, ops) ← planned
        pure (final, valueOps ++ .bare instruction :: ops))
      (condition ∧ other) (demands ++ more) := by
  constructor
  · rw [← first.isOk, ← rest.isOk]
    constructor
    · rintro ⟨_, _, isPlan, fit⟩
      obtain ⟨valueOps, isValue, isPlan⟩ := Except.bind_eq_ok.mp isPlan
      obtain ⟨⟨final, ops⟩, isRest, wrapped⟩ := Except.bind_eq_ok.mp isPlan
      cases wrapped
      obtain ⟨valueFit, restFit⟩ := List.forall_mem_append.mp fit
      exact ⟨⟨valueOps, isValue, valueFit⟩, _, ops, isRest, (List.forall_mem_cons.mp restFit).2⟩
    · rintro ⟨⟨valueOps, isValue, valueFit⟩, final, ops, isRest, restFit⟩
      refine ⟨final, _, Except.bind_eq_ok.mpr ⟨valueOps, isValue,
        Except.bind_eq_ok.mpr ⟨(final, ops), isRest, rfl⟩⟩, ?_⟩
      exact List.forall_mem_append.mpr ⟨valueFit, List.forall_mem_cons.mpr ⟨trivial, restFit⟩⟩
  · intro _ _ isPlan
    obtain ⟨valueOps, isValue, isPlan⟩ := Except.bind_eq_ok.mp isPlan
    obtain ⟨⟨final, ops⟩, isRest, wrapped⟩ := Except.bind_eq_ok.mp isPlan
    cases wrapped
    rw [List.flatMap_append]
    exact (first.needs valueOps isValue).append (rest.needs _ ops isRest)

end ProgramDecided

/-- No declaration comes late, where the statements are the first ones of a program or not. -/
def NoLateDeclaration (leading : Bool) (program : Program) : Prop :=
  ∀ names, .declare names ∉ (if leading then afterDeclarations program else program)

theorem noLateDeclaration_cons {leading : Bool} {first : Stmt} (rest : Program)
    (other : ∀ names, first ≠ .declare names) :
    NoLateDeclaration leading (first :: rest) ↔ NoLateDeclaration false rest := by
  have all : afterDeclarations (first :: rest) = first :: rest := by
    cases first with
    | declare names =>
        exact (other names rfl).elim
    | expr _ | «return» _ | define _ =>
        rfl
  have same : (if leading then afterDeclarations (first :: rest) else first :: rest) =
      first :: rest := by
    rw [all, ite_self]
  unfold NoLateDeclaration
  rw [same]
  constructor
  · intro noneLate names member
    exact noneLate names (List.mem_cons_of_mem _ member)
  · intro noneLate names member
    rcases List.mem_cons.mp member with isFirst | inRest
    · exact other names isFirst.symm
    · exact noneLate names inRest

theorem decided_program (leading : Bool) (session : Session) (program : Program) :
    ProgramDecided (planProgram leading session program)
      (NoLateDeclaration leading program ∧ session.AcceptsAll program)
      (Program.demands session program) := by
  induction program generalizing leading session with
  | nil =>
      have isPlan : ∃ ops, planProgram leading session [] = .ok (session, ops) ∧
          (∀ op ∈ ops, op.Fits) ∧ ops.flatMap Op.demands = [] := by
        cases leading with
        | true =>
            exact ⟨_, rfl, by simp [Op.Fits], rfl⟩
        | false =>
            exact ⟨_, rfl, List.forall_mem_nil _, rfl⟩
      obtain ⟨ops, isPlan, fit, noDemands⟩ := isPlan
      refine ⟨iff_of_true ⟨session, ops, isPlan, fit⟩ ⟨fun names => ?_, trivial⟩, ?_⟩
      · cases leading <;> exact List.not_mem_nil
      · intro final others isOther
        rw [isPlan] at isOther
        cases isOther
        rw [noDemands]
        exact .nil
  | cons first rest inductionHypothesis =>
      cases first with
      | declare names =>
          rw [planProgram]
          cases leading with
          | false =>
              exact (ProgramDecided.refused _).congr
                (iff_of_false id fun both => both.1 names List.mem_cons_self)
          | true =>
              rcases declared : session.declareAll names with ⟨extended, error | ⟨⟩⟩
              · refine (ProgramDecided.refused _).congr (iff_of_false id fun both => ?_)
                have fine : session.declareAll names = (session.past (.declare names), .ok ()) :=
                  Session.declareAll_eq_ok_iff.mpr ⟨both.2.1, rfl⟩
                rw [declared] at fine
                cases fine
              · obtain ⟨declarable, rfl⟩ := Session.declareAll_eq_ok_iff.mp declared
                refine (inductionHypothesis true (session.past (.declare names))).congr ?_
                exact and_congr_right fun _ => ⟨fun others => ⟨declarable, others⟩, And.right⟩
      | define definition =>
          rw [planProgram, noLateDeclaration_cons rest (by simp)]
          rcases lowered : lowerClass session definition with ⟨extended, error | descriptor⟩
          · refine (ProgramDecided.refused _).congr (iff_of_false id fun both => ?_)
            obtain ⟨descriptor, isLowered⟩ := Session.lowerClass_isOk_iff.mpr ⟨both.2.1, rfl⟩
            rw [lowered] at isLowered
            cases isLowered
          · obtain ⟨accepts, rfl⟩ := Session.lowerClass_isOk_iff.mp ⟨descriptor, lowered⟩
            refine (ProgramDecided.statement (Plan.Decided.one _) _
              (inductionHypothesis false (session.past (.define definition)))).congr ?_
            constructor
            · rintro ⟨_, lead, others⟩
              exact ⟨lead, accepts, others⟩
            · rintro ⟨lead, _, others⟩
              refine ⟨fun _ isCount => ?_, lead, others⟩
              cases isCount
      | expr value =>
          rw [planProgram, noLateDeclaration_cons rest (by simp)]
          exact (ProgramDecided.statement (decided_expr session.topLevel value) _
            (inductionHypothesis false session)).congr and_left_comm
      | «return» value =>
          rw [planProgram, noLateDeclaration_cons rest (by simp)]
          exact (ProgramDecided.statement (decided_expr session.topLevel value) _
            (inductionHypothesis false session)).congr and_left_comm

/-! ## The program as a whole -/

theorem Session.compile_isOk_iff {session : Session} {program : Program} :
    (∃ final unit, session.compile program = (final, .ok unit)) ↔
      DeclarationsLead program ∧ session.AcceptsAll program ∧
        poolSize (Program.demands session program) ≤ 2 ^ 23 := by
  have decided := decided_program true session program
  have lead : NoLateDeclaration true program ↔ DeclarationsLead program :=
    (declarationsLead_iff program).symm
  rw [lead] at decided
  simp only [Session.compile_eq_ok, lowerProgramFrom_eq_ok]
  rw [← and_assoc, ← decided.isOk]
  constructor
  · rintro ⟨final, unit, ops, planned, assembled⟩
    have fit := fits_of_assemble CodeUnit.poolFits_empty assembled
    refine ⟨⟨final, ops, planned, fit⟩, ?_⟩
    rw [← poolSize_of_perm (decided.needs final ops planned)]
    exact (assemble_isOk_iff tight_empty fit).mp ⟨unit, assembled⟩
  · rintro ⟨⟨final, ops, planned, fit⟩, fits⟩
    rw [← poolSize_of_perm (decided.needs final ops planned)] at fits
    obtain ⟨unit, assembled⟩ := (assemble_isOk_iff tight_empty fit).mpr fits
    exact ⟨final, unit, ops, planned, assembled⟩

/-! ## The session at a statement -/

namespace Session

/-- Declarations change no class. -/
theorem shape?_foldl_declare (session : Session) (names : List String) (className : String) :
    (names.foldl declare session).shape? className = session.shape? className := by
  induction names generalizing session with
  | nil =>
      rfl
  | cons name rest inductionHypothesis =>
      rw [List.foldl_cons, inductionHypothesis]
      unfold declare
      split <;> rfl

theorem isSome_shape?_past_iff {session : Session} {statement : Stmt} {className : String} :
    ((session.past statement).shape? className).isSome = true ↔
      (session.shape? className).isSome = true ∨
        ∃ definition, statement = .define definition ∧ definition.name = className := by
  cases statement with
  | declare names =>
      rw [past, shape?_foldl_declare]
      simp
  | define definition =>
      rw [past, shape?_defineClass]
      by_cases isNew : className = definition.name
      · simp [isNew]
      · simp [isNew, Ne.symm isNew]
  | expr _ | «return» _ =>
      simp [past]

/-- The classes that are known after statements are those known before and those defined. -/
theorem isSome_shape?_pastAll_iff {session : Session} {statements : List Stmt}
    {className : String} :
    ((session.pastAll statements).shape? className).isSome = true ↔
      (session.shape? className).isSome = true ∨
        ∃ definition, .define definition ∈ statements ∧ definition.name = className := by
  induction statements generalizing session with
  | nil =>
      simp [pastAll]
  | cons first rest inductionHypothesis =>
      have after := @inductionHypothesis (session.past first)
      rw [isSome_shape?_past_iff, or_assoc] at after
      refine after.trans (or_congr_right ?_)
      simp only [List.mem_cons, or_and_right, exists_or, eq_comm]

end Session

/-- Where declarations lead, the names that are declared first are all that are declared. -/
theorem DeclarationsLead.forall_declared_iff {statements : List Stmt} {holds : String → Prop}
    (lead : DeclarationsLead statements) : (∀ name ∈ declaredFirst statements, holds name) ↔
      ∀ names, .declare names ∈ statements → ∀ name ∈ names, holds name := by
  induction statements with
  | nil =>
      exact iff_of_true (by simp [declaredFirst]) (by simp)
  | cons first rest inductionHypothesis =>
      cases first with
      | declare names =>
          rw [declaredFirst, List.forall_mem_append,
            inductionHypothesis ((declarationsLead_declare names rest).mp lead)]
          simp
      | expr _ | «return» _ | define _ =>
          refine iff_of_true (by simp [declaredFirst]) fun names member => ?_
          exact ((declarationsLead_iff _).mp lead names member).elim

/-! ## Accepted programs are well formed -/

namespace Session.AcceptsAll

variable {session : Session} {program : Program} {surroundings : Surroundings}

theorem statement (accepts : session.AcceptsAll program) {earlier later : Program}
    {statement : Stmt} (isWhole : program = earlier ++ statement :: later) :
    (session.pastAll earlier).AcceptsStatement statement :=
  acceptsAll_iff.mp accepts earlier statement later isWhole

theorem partAtTop (accepts : session.AcceptsAll program) {earlier later : Program}
    {statement : Stmt} (isWhole : program = earlier ++ statement :: later) {part : Expr}
    (isPart : part ∈ statement.parts) : (session.pastAll earlier).topLevel.Accepts part := by
  have accepted := accepts.statement isWhole
  cases statement with
  | expr value | «return» value =>
      exact accepted part isPart
  | declare _ | define _ =>
      cases isPart

/-- Every method and every block becomes a unit. -/
theorem body (accepts : session.AcceptsAll program) {statements : List Stmt}
    (isBody : program.HasBody session surroundings statements) :
    surroundings.AcceptsBody statements := by
  induction isBody with
  | method isWhole isMethod =>
      exact (accepts.statement isWhole).bodies _ _ isMethod
  | blockAtTop isWhole isPart =>
      exact (accepts.partAtTop isWhole isPart).2
  | block _ isPart accepted =>
      obtain ⟨_, _, _, parts, _⟩ := (Surroundings.acceptsBody_iff _ _).mp accepted
      exact (parts _ isPart).2

/-- Every expression is accepted where it stands. -/
theorem part (accepts : session.AcceptsAll program) {part : Expr}
    (occurs : program.Occurs session surroundings part) : surroundings.Accepts part := by
  cases occurs with
  | atTop isWhole isPart =>
      exact accepts.partAtTop isWhole isPart
  | inBody isBody isPart =>
      obtain ⟨_, _, _, parts, _⟩ := (Surroundings.acceptsBody_iff _ _).mp (accepts.body isBody)
      exact parts _ isPart

theorem definition (accepts : session.AcceptsAll program) {definition : ClassDef}
    (isDefined : .define definition ∈ program) :
    ∃ earlier later, program = earlier ++ .define definition :: later ∧
      (session.pastAll earlier).AcceptsClass definition := by
  obtain ⟨earlier, later, isWhole⟩ := List.append_of_mem isDefined
  exact ⟨earlier, later, isWhole, accepts.statement isWhole⟩

end Session.AcceptsAll

theorem Surroundings.Accepts.variable {surroundings : Surroundings} {part : Expr} {name : String}
    (accepts : surroundings.Accepts part) (isVariable : part.variableName? = some name) :
    surroundings.Near name ∧ surroundings.Roomy name := by
  cases part with
  | var own =>
      obtain ⟨notPseudo, rfl⟩ : isPseudoVariable own = false ∧ own = name := by
        simpa [Expr.variableName?] using isVariable
      exact accepts.2 notPseudo
  | assign target value =>
      obtain rfl := Option.some.inj isVariable
      exact accepts.2
  | _ =>
      cases isVariable

theorem Program.WellFormed.of_accepts {session : Session} {program : Program}
    (lead : DeclarationsLead program) (accepts : session.AcceptsAll program)
    (fits : poolSize (Program.demands session program) ≤ 2 ^ 23) :
    Program.WellFormed session program where
  superReceives surroundings part occurs := (accepts.part occurs).not_super
  superInMethods surroundings receiver selector arguments occurs := (accepts.part occurs).2
  classesAtTop surroundings statements isBody :=
    ((surroundings.acceptsBody_iff statements).mp (accepts.body isBody)).2.1
  declarationsLead := ⟨lead, fun surroundings statements isBody =>
    ((surroundings.acceptsBody_iff statements).mp (accepts.body isBody)).2.2.1⟩
  namesDeclarable := by
    constructor
    · intro names member
      obtain ⟨earlier, later, isWhole⟩ := List.append_of_mem member
      exact accepts.statement isWhole
    · intro surroundings statements isBody
      obtain ⟨declarable, _, leadHere, _⟩ :=
        (surroundings.acceptsBody_iff statements).mp (accepts.body isBody)
      exact leadHere.forall_declared_iff.mp declarable
  targetsAssignable surroundings target value occurs := (accepts.part occurs).1
  sendsFit surroundings receiver selector arguments occurs := (accepts.part occurs).1
  messagesFit surroundings receiver messages occurs := (accepts.part occurs).2
  methodsFit definition isDefined := by
    obtain ⟨_, _, _, accepted⟩ := accepts.definition isDefined
    exact accepted.arities
  cascadesNotEmpty surroundings receiver messages occurs := (accepts.part occurs).1
  parametersFit surroundings parameters body occurs := (accepts.part occurs).1
  superclassesKnown earlier definition later isWhole superclass isSuperclass :=
    Session.isSome_shape?_pastAll_iff.mp
      ((accepts.statement isWhole).known superclass isSuperclass)
  fieldsDistinct earlier definition later isWhole :=
    ⟨(accepts.statement isWhole).distinct, (accepts.statement isWhole).new⟩
  variablesNear surroundings part occurs name isVariable :=
    ((accepts.part occurs).variable isVariable).1
  poolsFit := ⟨fits, fun surroundings statements isBody =>
    ((surroundings.acceptsBody_iff statements).mp (accepts.body isBody)).2.2.2.2⟩

/-! ## The size of expressions -/

mutual

theorem sizeOf_parts : (expr : Expr) → ∀ part ∈ expr.parts, sizeOf part ≤ sizeOf expr
  | .literal _ | .var _ | .self | .super | .block .. => by
      simp [Expr.parts]
  | .assign target value => by
      have inValue := sizeOf_parts value
      simp only [Expr.parts, List.forall_mem_cons, Expr.assign.sizeOf_spec]
      exact ⟨Nat.le_refl _, fun part isPart => Nat.le_trans (inValue part isPart) (by omega)⟩
  | .send receiver selector arguments => by
      have inReceiver := sizeOf_parts receiver
      have inArguments := sizeOf_partsOfAll arguments
      simp only [Expr.parts, List.forall_mem_cons, List.forall_mem_append, Expr.send.sizeOf_spec]
      refine ⟨Nat.le_refl _, fun part isPart => ?_, fun part isPart => ?_⟩
      · split at isPart
        · cases isPart
        · exact Nat.le_trans (inReceiver part isPart) (by omega)
      · exact Nat.le_trans (inArguments part isPart) (by omega)
  | .cascade receiver messages => by
      have inReceiver := sizeOf_parts receiver
      have inMessages := sizeOf_partsOfMessages messages
      simp only [Expr.parts, List.forall_mem_cons, List.forall_mem_append,
        Expr.cascade.sizeOf_spec]
      exact ⟨Nat.le_refl _, fun part isPart => Nat.le_trans (inReceiver part isPart) (by omega),
        fun part isPart => Nat.le_trans (inMessages part isPart) (by omega)⟩
  | .array elements => by
      have inElements := sizeOf_partsOfAll elements
      simp only [Expr.parts, List.forall_mem_cons, Expr.array.sizeOf_spec]
      exact ⟨Nat.le_refl _, fun part isPart => Nat.le_trans (inElements part isPart) (by omega)⟩
  | .dictionary entries => by
      have inEntries := sizeOf_partsOfEntries entries
      simp only [Expr.parts, List.forall_mem_cons, Expr.dictionary.sizeOf_spec]
      exact ⟨Nat.le_refl _, fun part isPart => Nat.le_trans (inEntries part isPart) (by omega)⟩

theorem sizeOf_partsOfAll : (exprs : List Expr) → ∀ part ∈ partsOfAll exprs,
    sizeOf part ≤ sizeOf exprs
  | [] => by
      simp [partsOfAll]
  | expr :: rest => by
      have inFirst := sizeOf_parts expr
      have inRest := sizeOf_partsOfAll rest
      simp only [partsOfAll, List.forall_mem_append, List.cons.sizeOf_spec]
      exact ⟨fun part isPart => Nat.le_trans (inFirst part isPart) (by omega),
        fun part isPart => Nat.le_trans (inRest part isPart) (by omega)⟩

theorem sizeOf_partsOfMessages : (messages : List Message) → ∀ part ∈ partsOfMessages messages,
    sizeOf part ≤ sizeOf messages
  | [] => by
      simp [partsOfMessages]
  | ⟨selector, arguments⟩ :: rest => by
      have inFirst := sizeOf_partsOfAll arguments
      have inRest := sizeOf_partsOfMessages rest
      simp only [partsOfMessages, List.forall_mem_append, List.cons.sizeOf_spec,
        Message.mk.sizeOf_spec]
      exact ⟨fun part isPart => Nat.le_trans (inFirst part isPart) (by omega),
        fun part isPart => Nat.le_trans (inRest part isPart) (by omega)⟩

theorem sizeOf_partsOfEntries : (entries : List Entry) → ∀ part ∈ partsOfEntries entries,
    sizeOf part ≤ sizeOf entries
  | [] => by
      simp [partsOfEntries]
  | ⟨key, value⟩ :: rest => by
      have inKey := sizeOf_parts key
      have inValue := sizeOf_parts value
      have inRest := sizeOf_partsOfEntries rest
      simp only [partsOfEntries, List.forall_mem_append, List.cons.sizeOf_spec,
        Entry.mk.sizeOf_spec]
      exact ⟨⟨fun part isPart => Nat.le_trans (inKey part isPart) (by omega),
        fun part isPart => Nat.le_trans (inValue part isPart) (by omega)⟩,
        fun part isPart => Nat.le_trans (inRest part isPart) (by omega)⟩

end

/-- What stands in the body of a block is smaller than the block. -/
theorem sizeOf_lt_block {parameters : List String} {body : List Stmt} {part : Expr}
    (isPart : part ∈ partsOfBody body) : sizeOf part < sizeOf (Expr.block parameters body) := by
  obtain ⟨statement, isStatement, isPart⟩ := List.mem_flatMap.mp isPart
  have statementLess := List.sizeOf_lt_of_mem isStatement
  rw [Expr.block.sizeOf_spec]
  cases statement with
  | expr value =>
      have partLess := sizeOf_parts value part isPart
      rw [Stmt.expr.sizeOf_spec] at statementLess
      omega
  | «return» value =>
      have partLess := sizeOf_parts value part isPart
      rw [Stmt.return.sizeOf_spec] at statementLess
      omega
  | declare _ | define _ =>
      cases isPart

/-! ## Well-formed programs are accepted -/

/-- A block that occurs in a program is one of its bodies. -/
theorem Program.Occurs.hasBody {session : Session} {program : Program}
    {surroundings : Surroundings} {parameters : List String} {body : List Stmt}
    (occurs : program.Occurs session surroundings (.block parameters body)) :
    program.HasBody session (surroundings.inBlock parameters) body := by
  cases occurs with
  | atTop isWhole isPart =>
      exact .blockAtTop isWhole isPart
  | inBody isBody isPart =>
      exact .block isBody isPart

namespace Program.WellFormed

variable {session : Session} {program : Program} {surroundings : Surroundings}

/-- A body is accepted if the expressions in it are. -/
theorem acceptsBody (wellFormed : Program.WellFormed session program) {statements : List Stmt}
    (isBody : program.HasBody session surroundings statements)
    (parts : ∀ part ∈ partsOfBody statements, (surroundings.within statements).Accepts part) :
    surroundings.AcceptsBody statements := by
  have lead := wellFormed.declarationsLead.2 surroundings statements isBody
  refine (surroundings.acceptsBody_iff statements).mpr ⟨?_, ?_, lead, parts, ?_⟩
  · exact lead.forall_declared_iff.mpr (wellFormed.namesDeclarable.2 surroundings statements isBody)
  · exact wellFormed.classesAtTop surroundings statements isBody
  · exact wellFormed.poolsFit.2 surroundings statements isBody

/-- Every expression of the program is accepted, by induction on its size. -/
theorem accepts (wellFormed : Program.WellFormed session program)
    (slotsFit : program.SlotsFit session) (surroundings : Surroundings) :
    (part : Expr) → program.Occurs session surroundings part → surroundings.Accepts part
  | .literal _, _ | .self, _ | .array _, _ | .dictionary _, _ => trivial
  | .super, occurs => nomatch wellFormed.superReceives surroundings _ occurs
  | .var name, occurs => by
      refine ⟨ne_of_beq_false (wellFormed.superReceives surroundings _ occurs), fun isPlain => ?_⟩
      have isVariable : (Expr.var name).variableName? = some name := by
        rw [Expr.variableName?, isPlain]
        rfl
      exact ⟨wellFormed.variablesNear surroundings _ occurs name isVariable,
        slotsFit surroundings _ occurs name isVariable⟩
  | .assign target value, occurs =>
      ⟨wellFormed.targetsAssignable surroundings target value occurs,
        wellFormed.variablesNear surroundings _ occurs target rfl,
        slotsFit surroundings _ occurs target rfl⟩
  | .send receiver selector arguments, occurs =>
      ⟨wellFormed.sendsFit surroundings receiver selector arguments occurs,
        wellFormed.superInMethods surroundings receiver selector arguments occurs⟩
  | .cascade receiver messages, occurs =>
      ⟨wellFormed.cascadesNotEmpty surroundings receiver messages occurs,
        wellFormed.messagesFit surroundings receiver messages occurs⟩
  | .block parameters body, occurs => by
      refine ⟨wellFormed.parametersFit surroundings parameters body occurs, ?_⟩
      refine wellFormed.acceptsBody occurs.hasBody fun inner isPart => ?_
      exact accepts wellFormed slotsFit _ inner (.inBody occurs.hasBody isPart)
termination_by part => sizeOf part
decreasing_by exact sizeOf_lt_block isPart

/-- Every statement is accepted in the session that the earlier ones have reached. -/
theorem acceptsAll (wellFormed : Program.WellFormed session program)
    (slotsFit : program.SlotsFit session) : session.AcceptsAll program := by
  refine Session.acceptsAll_iff.mpr fun earlier statement later isWhole => ?_
  have isStatement : statement ∈ program := by
    rw [isWhole]
    simp
  cases statement with
  | expr value | «return» value =>
      exact fun part isPart => wellFormed.accepts slotsFit _ part (.atTop isWhole isPart)
  | declare names =>
      exact wellFormed.namesDeclarable.1 names isStatement
  | define definition =>
      obtain ⟨distinct, new⟩ := wellFormed.fieldsDistinct earlier definition later isWhole
      refine ⟨⟨fun superclass isSuperclass => ?_, distinct, new⟩,
        wellFormed.methodsFit definition isStatement, fun classSide method isMethod => ?_⟩
      · exact Session.isSome_shape?_pastAll_iff.mpr
          (wellFormed.superclassesKnown earlier definition later isWhole superclass isSuperclass)
      · have isBody := @Program.HasBody.method session _ _ _ _ _ _ isWhole isMethod
        exact wellFormed.acceptsBody isBody fun part isPart =>
          wellFormed.accepts slotsFit _ part (.inBody isBody isPart)

end Program.WellFormed

/-- A program compiles in a session if it is well formed there and its slots fit, and only then. -/
theorem Session.exists_unit_iff (session : Session) (program : Program) :
    (∃ final unit, session.compile program = (final, .ok unit)) ↔
      Program.WellFormed session program ∧ program.SlotsFit session := by
  rw [Session.compile_isOk_iff]
  constructor
  · rintro ⟨lead, accepts, fits⟩
    exact ⟨.of_accepts lead accepts fits, fun surroundings part occurs name isVariable =>
      ((accepts.part occurs).variable isVariable).2⟩
  · rintro ⟨wellFormed, slotsFit⟩
    exact ⟨wellFormed.declarationsLead.1, wellFormed.acceptsAll slotsFit, wellFormed.poolsFit.1⟩

end Missive
