import Mathlib.Data.List.Dedup
import Missive.Proofs.Compile.Plan
import Missive.Proofs.Compile.WellFormed

/-!
# The compiler accepts the well-formed programs

A plan is decided by two things: a condition under which it exists, and what its operations need in
the pool.  Both are read off the expressions of the body, one after the other.  A block is accepted
where its body is, so the conditions on a whole program unfold body by body.
-/

namespace Missive

/-! ## The size of a pool -/

theorem poolSize_of_perm {demands others : List Demand} (perm : demands.Perm others) :
    poolSize demands = poolSize others := by
  unfold poolSize
  rw [perm.count_eq, (perm.filter _).dedup.length_eq]

theorem poolSize_cons_own (demands : List Demand) :
    poolSize (.own :: demands) = poolSize demands + 1 := by
  unfold poolSize
  rw [List.count_cons_self, List.filter_cons_of_neg (by simp)]
  omega

theorem poolSize_cons_of_mem {value : Literal} {demands : List Demand}
    (member : .literal value ∈ demands) :
    poolSize (.literal value :: demands) = poolSize demands := by
  have stillMember : .literal value ∈ demands.filter (· ≠ .own) :=
    List.mem_filter.mpr ⟨member, by simp⟩
  unfold poolSize
  rw [List.count_cons_of_ne (by simp), List.filter_cons_of_pos (by simp),
    List.dedup_cons_of_mem stillMember]

theorem poolSize_cons_of_not_mem {value : Literal} {demands : List Demand}
    (isNew : .literal value ∉ demands) :
    poolSize (.literal value :: demands) = poolSize demands + 1 := by
  have stillNew : .literal value ∉ demands.filter (· ≠ .own) :=
    fun member => isNew (List.mem_filter.mp member).1
  unfold poolSize
  rw [List.count_cons_of_ne (by simp), List.filter_cons_of_pos (by simp),
    List.dedup_cons_of_notMem stillNew, List.length_cons]
  omega

theorem poolSize_le_cons (demand : Demand) (demands : List Demand) :
    poolSize demands ≤ poolSize (demand :: demands) := by
  cases demand with
  | own =>
      rw [poolSize_cons_own]
      exact Nat.le_succ _
  | literal value =>
      by_cases member : .literal value ∈ demands
      · exact Nat.le_of_eq (poolSize_cons_of_mem member).symm
      · rw [poolSize_cons_of_not_mem member]
        exact Nat.le_succ _

theorem poolSize_le_append (demands more : List Demand) :
    poolSize demands ≤ poolSize (demands ++ more) := by
  rw [poolSize_of_perm List.perm_append_comm]
  induction more with
  | nil =>
      exact Nat.le_refl _
  | cons demand rest inductionHypothesis =>
      exact Nat.le_trans inductionHypothesis (poolSize_le_cons demand _)

/-- What a constant needs. -/
def Constant.demand : Constant → Demand
  | .int value => .literal (.int value)
  | .float value => .literal (.float value)
  | .string text => .literal (.string text)
  | .bool value => .literal (.bool value)
  | .nil => .literal .nil
  | .block _ | .classDescriptor _ => .own

theorem Constant.sameLiteral_iff (constant other : Constant) :
    constant.sameLiteral other = true ↔
      constant.demand = other.demand ∧ constant.demand ≠ .own := by
  cases constant <;> cases other <;> simp [Constant.sameLiteral, Constant.demand]

def CodeUnit.demands (unit : CodeUnit) : List Demand := unit.constants.map Constant.demand

def Op.demands (op : Op) : List Demand := op.constants.map Constant.demand

/-- No literal stands twice in the pool, and the pool is not too large. -/
structure CodeUnit.Tight (unit : CodeUnit) : Prop where
  size : poolSize unit.demands = unit.constants.length
  fits : unit.PoolFits

theorem tight_empty : CodeUnit.empty.Tight := ⟨rfl, CodeUnit.poolFits_empty⟩

theorem findIdx?_sameLiteral_eq_none_iff {constant : Constant} {constants : List Constant} :
    constants.findIdx? constant.sameLiteral = none ↔
      constant.demand = .own ∨ constant.demand ∉ constants.map Constant.demand := by
  have different : ∀ other, constant.sameLiteral other = false ↔
      constant.demand = .own ∨ constant.demand ≠ other.demand := by
    intro other
    rw [← Bool.not_eq_true, Constant.sameLiteral_iff, not_and_or, not_not, or_comm]
  rw [List.findIdx?_eq_none_iff]
  constructor
  · intro none
    by_cases isOwn : constant.demand = .own
    · exact Or.inl isOwn
    · refine Or.inr fun member => ?_
      obtain ⟨other, isThere, same⟩ := List.mem_map.mp member
      exact ((different other).mp (none other isThere)).elim isOwn fun unlike => unlike same.symm
  · rintro none other isThere
    refine (different other).mpr (none.imp id fun missing same => missing ?_)
    exact List.mem_map.mpr ⟨other, isThere, same.symm⟩

theorem poolSize_append_singleton (demands : List Demand) (demand : Demand) :
    poolSize (demands ++ [demand]) = poolSize (demand :: demands) :=
  poolSize_of_perm (List.perm_append_singleton demand demands)

/-- A constant gets a place of its own, or it shares one, or there is no place left. -/
inductive AddsConstant (constant : Constant) (unit : CodeUnit) : Prop
  | shares {index : Nat} : addConstant constant unit = .ok (index, unit) →
      constant.demand ≠ .own → constant.demand ∈ unit.demands → AddsConstant constant unit
  | adds {index : Nat} {grown : CodeUnit} : addConstant constant unit = .ok (index, grown) →
      grown.demands = unit.demands ++ [constant.demand] → grown.Tight → AddsConstant constant unit
  | full : addConstant constant unit = .error .tooManyConstants →
      2 ^ 23 < poolSize (constant.demand :: unit.demands) → AddsConstant constant unit

theorem CodeUnit.Tight.addConstant {unit : CodeUnit} (tight : unit.Tight) (constant : Constant) :
    AddsConstant constant unit := by
  have added := addConstant_eq constant unit
  cases found : unit.constants.findIdx? constant.sameLiteral with
  | some index =>
      rw [found] at added
      have shared : ¬ (constant.demand = .own ∨ constant.demand ∉ unit.demands) := by
        intro none
        rw [findIdx?_sameLiteral_eq_none_iff.mpr none] at found
        cases found
      rw [not_or, not_not] at shared
      exact .shares added shared.1 shared.2
  | none =>
      rw [found] at added
      have missing : constant.demand = .own ∨ constant.demand ∉ unit.demands :=
        findIdx?_sameLiteral_eq_none_iff.mp found
      have grows : poolSize (constant.demand :: unit.demands) = unit.constants.length + 1 := by
        cases demand : constant.demand with
        | own =>
            rw [poolSize_cons_own, tight.size]
        | literal value =>
            rw [demand] at missing
            rw [poolSize_cons_of_not_mem (missing.resolve_left nofun), tight.size]
      by_cases isFull : Instruction.maxPackedIndex < unit.constants.length
      · simp only [isFull, if_true] at added
        refine .full added ?_
        rw [grows]
        unfold Instruction.maxPackedIndex at isFull
        omega
      · simp only [isFull, if_false] at added
        have sameDemands : (unit.constants ++ [constant]).map Constant.demand =
            unit.demands ++ [constant.demand] := List.map_append
        refine .adds added sameDemands ⟨?_, ?_⟩
        · change poolSize ((unit.constants ++ [constant]).map Constant.demand) = _
          rw [sameDemands, poolSize_append_singleton, grows, List.length_append]
          rfl
        · change (unit.constants ++ [constant]).length ≤ _
          rw [List.length_append]
          exact Nat.succ_le_succ (Nat.le_of_not_lt isFull)

theorem assemble_cons_of_ok {op : Op} {rest : List Op} {unit between : CodeUnit}
    (added : op.add unit = .ok ((), between)) :
    assemble (op :: rest) unit = assemble rest between := by
  change Except.bind (op.add unit) _ = _
  rw [added]
  rfl

/-- Operations that fit can be assembled exactly if the pool has room for what they need. -/
theorem assemble_isOk_iff {ops : List Op} {unit : CodeUnit} (tight : unit.Tight)
    (fit : ∀ op ∈ ops, op.Fits) :
    (∃ grown, assemble ops unit = .ok ((), grown)) ↔
      poolSize (unit.demands ++ ops.flatMap Op.demands) ≤ 2 ^ 23 := by
  induction ops generalizing unit with
  | nil =>
      have fits := tight.fits
      rw [List.flatMap_nil, List.append_nil, tight.size]
      exact iff_of_true ⟨unit, rfl⟩ fits
  | cons op rest inductionHypothesis =>
      obtain ⟨opFits, restFits⟩ := List.forall_mem_cons.mp fit
      rw [List.flatMap_cons]
      cases op with
      | bare instruction =>
          have sameTight : (unit.add instruction).Tight := ⟨tight.size, tight.fits⟩
          rw [assemble_cons_of_ok rfl]
          exact inductionHypothesis sameTight restFits
      | pooled opcode constant count =>
          have added : ∀ {index between}, addConstant constant unit = .ok (index, between) →
              (Op.pooled opcode constant count).add unit =
                .ok ((), between.add (Op.placed opcode index count)) := fun constantAdded =>
            (Op.add_pooled_eq_ok tight.fits).mpr ⟨opFits, _, _, constantAdded, rfl⟩
          have front : poolSize (unit.demands ++ ([constant.demand] ++ rest.flatMap Op.demands)) =
              poolSize (constant.demand :: (unit.demands ++ rest.flatMap Op.demands)) :=
            poolSize_of_perm List.perm_middle
          change _ ↔ poolSize (unit.demands ++ ([constant.demand] ++ _)) ≤ _
          cases tight.addConstant constant with
          | @shares index constantAdded notOwn member =>
              have sameTight : (unit.add (Op.placed opcode index count)).Tight :=
                ⟨tight.size, tight.fits⟩
              rw [assemble_cons_of_ok (added constantAdded), front]
              cases demand : constant.demand with
              | own =>
                  exact (notOwn demand).elim
              | literal value =>
                  rw [demand] at member
                  rw [poolSize_cons_of_mem (List.mem_append_left _ member)]
                  exact inductionHypothesis sameTight restFits
          | @adds index grown constantAdded demands grownTight =>
              have stillTight : (grown.add (Op.placed opcode index count)).Tight :=
                ⟨grownTight.size, grownTight.fits⟩
              rw [assemble_cons_of_ok (added constantAdded), ← List.append_assoc, ← demands]
              exact inductionHypothesis stillTight restFits
          | full failed tooMany =>
              have more : poolSize (constant.demand :: unit.demands) ≤
                  poolSize (constant.demand :: (unit.demands ++ rest.flatMap Op.demands)) :=
                poolSize_le_append (constant.demand :: unit.demands) _
              rw [front]
              refine iff_of_false ?_ (by omega)
              rintro ⟨grown, assembled⟩
              obtain ⟨_, _, added, _⟩ := Lower.bind_eq_ok.mp assembled
              obtain ⟨_, _, constantAdded, _⟩ := Lower.bind_eq_ok.mp added
              rw [failed] at constantAdded
              cases constantAdded

/-! ## Plans that are decided -/

/-- There is a plan of operations that fit exactly under the condition, and the operations of a plan
have the given demands. -/
structure Plan.Decided (plan : Plan) (condition : Prop) (demands : List Demand) : Prop where
  isOk : (∃ ops, plan = .ok ops ∧ ∀ op ∈ ops, op.Fits) ↔ condition
  needs : ∀ ops, plan = .ok ops → (ops.flatMap Op.demands).Perm demands

namespace Plan.Decided

variable {plan next : Plan} {condition other : Prop} {demands more : List Demand}

theorem congr (decided : plan.Decided condition demands) (same : condition ↔ other)
    (perm : demands.Perm more) : plan.Decided other more :=
  ⟨decided.isOk.trans same, fun ops planned => (decided.needs ops planned).trans perm⟩

theorem nothing : Plan.Decided (pure []) True [] := by
  refine ⟨iff_of_true ⟨[], rfl, List.forall_mem_nil _⟩ trivial, ?_⟩
  rintro _ ⟨⟩
  exact List.Perm.nil

theorem one (op : Op) : (Plan.one op).Decided op.Fits op.demands := by
  refine ⟨⟨?_, fun fits => ⟨[op], rfl, List.forall_mem_singleton.mpr fits⟩⟩, ?_⟩
  · rintro ⟨_, ⟨⟩, fit⟩
    exact List.forall_mem_singleton.mp fit
  · rintro _ ⟨⟩
    rw [List.flatMap_singleton]

theorem bare (instruction : Instruction) :
    (Plan.one (.bare instruction)).Decided True [] :=
  one (.bare instruction)

theorem refused (error : CompileError) : Plan.Decided (throw error) False demands := by
  refine ⟨iff_of_false ?_ id, nofun⟩
  rintro ⟨_, impossible, _⟩
  cases impossible

theorem followedBy (first : plan.Decided condition demands) (second : next.Decided other more) :
    (plan.followedBy next).Decided (condition ∧ other) (demands ++ more) := by
  constructor
  · rw [← first.isOk, ← second.isOk]
    constructor
    · rintro ⟨_, planned, fit⟩
      obtain ⟨ops, nextOps, isFirst, isNext, rfl⟩ := Plan.followedBy_eq_ok.mp planned
      obtain ⟨firstFit, nextFit⟩ := List.forall_mem_append.mp fit
      exact ⟨⟨ops, isFirst, firstFit⟩, nextOps, isNext, nextFit⟩
    · rintro ⟨⟨ops, isFirst, firstFit⟩, nextOps, isNext, nextFit⟩
      exact ⟨_, Plan.followedBy_eq_ok.mpr ⟨ops, nextOps, isFirst, isNext, rfl⟩,
        List.forall_mem_append.mpr ⟨firstFit, nextFit⟩⟩
  · intro _ planned
    obtain ⟨ops, nextOps, isFirst, isNext, rfl⟩ := Plan.followedBy_eq_ok.mp planned
    rw [List.flatMap_append]
    exact (first.needs ops isFirst).append (second.needs nextOps isNext)

theorem check {refusal : Prop} [Decidable refusal] {error : CompileError}
    (decided : plan.Decided condition demands) :
    Plan.Decided (if refusal then throw error else plan) (¬ refusal ∧ condition) demands := by
  by_cases refuses : refusal
  · rw [if_pos refuses]
    exact (refused error).congr (iff_of_false id fun both => both.1 refuses) (.refl demands)
  · rw [if_neg refuses]
    exact decided.congr ⟨fun holds => ⟨refuses, holds⟩, And.right⟩ (.refl _)

end Plan.Decided

/-! ## Expressions -/

theorem checkArity_eq_ok_iff {selector : Selector} {given : Nat} :
    checkArity selector given = .ok () ↔ selector.Takes given := by
  constructor
  · intro checked
    obtain ⟨few, isArity⟩ := checkArity_ok checked
    exact ⟨isArity.symm, few⟩
  · rintro ⟨isArity, few⟩
    have notMany : ¬ Instruction.maxPackedCount < given := Nat.not_lt.mpr few
    unfold checkArity
    rw [if_neg notMany, if_neg (not_not.mpr isArity.symm)]
    rfl

theorem Plan.Decided.arity {plan : Plan} {condition : Prop} {demands : List Demand}
    (decided : plan.Decided condition demands) (selector : Selector) (given : Nat) :
    Plan.Decided (checkArity selector given >>= fun _ => plan) (selector.Takes given ∧ condition)
      demands := by
  by_cases takes : selector.Takes given
  · have passed := checkArity_eq_ok_iff.mpr takes
    rw [passed]
    exact decided.congr ⟨fun holds => ⟨takes, holds⟩, And.right⟩ (.refl _)
  · cases checked : checkArity selector given with
    | ok _ =>
        exact (takes (checkArity_eq_ok_iff.mp checked)).elim
    | error error =>
        exact (refused error).congr (iff_of_false id fun both => takes both.1) (.refl _)

namespace Surroundings

variable (surroundings : Surroundings)

/-- The body becomes a unit of its own. -/
def AcceptsBody (statements : List Stmt) : Prop :=
  ∃ unit, (planStatements surroundings true statements).toUnit = .ok unit

/-- The expression itself is accepted, whatever becomes of the expressions in it.  A block is
accepted with its body. -/
def Accepts : Expr → Prop
  | .literal _ | .self | .array _ | .dictionary _ => True
  | .super => False
  | .var name => name ≠ "super" ∧
    (isPseudoVariable name = false → surroundings.Near name ∧ surroundings.Roomy name)
  | .assign target _ =>
    isPseudoVariable target = false ∧ surroundings.Near target ∧ surroundings.Roomy target
  | .send receiver selector arguments => selector.Takes arguments.length ∧
    (receiver.isSuper = true → surroundings.owner.isSome = true)
  | .cascade _ messages => messages ≠ [] ∧
    ∀ message ∈ messages, Selector.Takes message.selector message.arguments.length
  | .block parameters body =>
    parameters.length ≤ 255 ∧ (surroundings.inBlock parameters).AcceptsBody body

theorem Accepts.not_super {surroundings : Surroundings} {expr : Expr}
    (accepts : surroundings.Accepts expr) : expr.isSuper = false := by
  cases expr with
  | super =>
      exact accepts.elim
  | var name =>
      exact beq_false_of_ne accepts.1
  | _ =>
      rfl

theorem resolve_isOk_iff {name : String} :
    (∃ location, surroundings.resolve name = .ok location) ↔ surroundings.Near name := by
  unfold resolve Near
  rcases found : findLocal name 0 surroundings.scopes with _ | ⟨slot, depth⟩
  · cases surroundings.owner with
    | none | some owner =>
        exact iff_of_true ⟨_, rfl⟩ nofun
  · cases depth with
    | zero =>
        refine iff_of_true ⟨_, rfl⟩ ?_
        rintro _ _ ⟨⟩
        exact Nat.zero_le _
    | succ depth =>
        by_cases deep : Instruction.maxPackedCount < depth + 1
        · simp only [deep, if_true]
          refine iff_of_false ?_ fun near => ?_
          · rintro ⟨_, impossible⟩
            cases impossible
          · exact absurd (near slot (depth + 1) rfl) (Nat.not_le.mpr deep)
        · simp only [deep, if_false]
          refine iff_of_true ⟨_, rfl⟩ ?_
          rintro _ _ ⟨⟩
          exact Nat.le_of_not_lt deep

/-- A name has its place where it is near enough and the operand has room for it. -/
theorem place_isOk_iff {name : String} :
    (∃ location, surroundings.place name = .ok location) ↔
      surroundings.Near name ∧ surroundings.Roomy name := by
  constructor
  · rintro ⟨location, placed⟩
    obtain ⟨resolved, roomy⟩ := place_eq_ok.mp placed
    have near := surroundings.resolve_isOk_iff.mp ⟨location, resolved⟩
    refine ⟨near, fun slot depth found => ?_⟩
    have isOuter := resolve_eq_outer_iff.mpr ⟨found, Nat.succ_pos depth, near _ _ found⟩
    rw [resolved] at isOuter
    cases isOuter
    exact roomy
  · rintro ⟨near, roomy⟩
    obtain ⟨location, resolved⟩ := surroundings.resolve_isOk_iff.mpr near
    refine ⟨location, place_eq_ok.mpr ⟨resolved, ?_⟩⟩
    cases location with
    | slot _ | field _ | classVar | global =>
        trivial
    | outer slot depth =>
        obtain ⟨found, positive, _⟩ := resolve_eq_outer_iff.mp resolved
        cases depth with
        | zero =>
            exact (Nat.lt_irrefl 0 positive).elim
        | succ depth =>
            exact roomy slot depth found

theorem decided_access (access : Access) (name : String) :
    (access.plan surroundings name).Decided (surroundings.Near name ∧ surroundings.Roomy name)
      (surroundings.nameDemands name) := by
  rw [← surroundings.place_isOk_iff]
  unfold Access.plan
  cases placed : surroundings.place name with
  | error error =>
      refine (Plan.Decided.refused error).congr (iff_of_false id ?_) (.refl _)
      rintro ⟨_, impossible⟩
      cases impossible
  | ok location =>
      unfold nameDemands
      rw [(place_eq_ok.mp placed).1]
      cases location with
      | slot _ | outer _ _ | field _ =>
          exact (Plan.Decided.bare _).congr (iff_of_true trivial ⟨_, rfl⟩) (.refl _)
      | classVar | global =>
          exact (Plan.Decided.one _).congr (iff_of_true nofun ⟨_, rfl⟩) (.refl _)

/-- A pseudo-variable other than `super` pushes what it always stands for. -/
theorem decided_pseudo {name : String} (instruction : Instruction)
    (isPseudo : isPseudoVariable name = true) (notSuper : name ≠ "super") :
    (Plan.one (.bare instruction)).Decided (surroundings.Accepts (.var name))
      (surroundings.demands (.var name)) := by
  have noDemand : surroundings.demands (.var name) = [] := by
    rw [demands, if_pos isPseudo]
  rw [noDemand]
  refine (Plan.Decided.bare instruction).congr (iff_of_true trivial ⟨notSuper, ?_⟩) .nil
  intro other
  rw [isPseudo] at other
  cases other

theorem decided_name (name : String) :
    (namePlan surroundings name).Decided (surroundings.Accepts (.var name))
      (surroundings.demands (.var name)) := by
  unfold namePlan
  by_cases isSelf : name = "self"
  · rw [if_pos isSelf]
    exact surroundings.decided_pseudo _ (by simp [isSelf, isPseudoVariable]) (by simp [isSelf])
  rw [if_neg isSelf]
  by_cases isSuper : name = "super"
  · rw [if_pos isSuper]
    exact (Plan.Decided.refused _).congr (iff_of_false id fun both => both.1 isSuper) (.refl _)
  rw [if_neg isSuper]
  by_cases isNil : name = "nil"
  · rw [if_pos isNil]
    exact surroundings.decided_pseudo _ (by simp [isNil, isPseudoVariable]) isSuper
  rw [if_neg isNil]
  by_cases isTrue : name = "true"
  · rw [if_pos isTrue]
    exact surroundings.decided_pseudo _ (by simp [isTrue, isPseudoVariable]) isSuper
  rw [if_neg isTrue]
  by_cases isFalse : name = "false"
  · rw [if_pos isFalse]
    exact surroundings.decided_pseudo _ (by simp [isFalse, isPseudoVariable]) isSuper
  rw [if_neg isFalse]
  have notPseudo : isPseudoVariable name = false := by
    simp [isPseudoVariable, isSelf, isSuper, isNil, isTrue, isFalse]
  refine (surroundings.decided_access .load name).congr ?_ ?_
  · exact ⟨fun near => ⟨isSuper, fun _ => near⟩, fun accepts => accepts.2 notPseudo⟩
  · rw [demands, notPseudo]
    exact .refl _

theorem decided_literal (value : Literal) :
    (Plan.one value.op).Decided True (surroundings.demands (.literal value)) := by
  cases value with
  | bool value =>
      cases value with
      | true | false =>
          exact .bare _
  | nil =>
      exact .bare _
  | int _ | float _ | string _ | symbol _ =>
      exact (Plan.Decided.one _).congr (iff_of_true nofun trivial) (.refl _)

end Surroundings

/-- The expressions are accepted one by one, and they need what they need one by one. -/
abbrev Plan.DecidedBy (plan : Plan) (surroundings : Surroundings) (parts : List Expr) : Prop :=
  plan.Decided (∀ part ∈ parts, surroundings.Accepts part) (parts.flatMap surroundings.demands)

namespace Plan.DecidedBy

variable {surroundings : Surroundings} {plan next : Plan} {parts others : List Expr}

theorem single {expr : Expr}
    (decided : plan.Decided (surroundings.Accepts expr) (surroundings.demands expr)) :
    plan.DecidedBy surroundings [expr] := by
  refine decided.congr ?_ ?_
  · rw [List.forall_mem_singleton]
  · rw [List.flatMap_singleton]

theorem followedBy (first : plan.DecidedBy surroundings parts)
    (second : next.DecidedBy surroundings others) :
    (plan.followedBy next).DecidedBy surroundings (parts ++ others) := by
  refine (Plan.Decided.followedBy first second).congr ?_ ?_
  · rw [List.forall_mem_append]
  · rw [List.flatMap_append]

/-- Operations without a demand do not count. -/
theorem andBare (first : plan.DecidedBy surroundings parts) (instruction : Instruction) :
    (plan.followedBy (Plan.one (.bare instruction))).DecidedBy surroundings parts := by
  refine (Plan.Decided.followedBy first (.bare instruction)).congr (Iff.of_eq (and_true _)) ?_
  rw [List.append_nil]

/-- An expression is accepted together with the expressions in it. -/
theorem cons {expr : Expr} {condition : Prop} {demands : List Demand}
    (decided : plan.Decided condition demands)
    (accepts : condition ↔ surroundings.Accepts expr ∧ ∀ part ∈ parts, surroundings.Accepts part)
    (needs : demands.Perm (surroundings.demands expr ++ parts.flatMap surroundings.demands)) :
    plan.DecidedBy surroundings (expr :: parts) := by
  refine decided.congr ?_ ?_
  · rw [List.forall_mem_cons]
    exact accepts
  · rw [List.flatMap_cons]
    exact needs

end Plan.DecidedBy

theorem Surroundings.decided_super (surroundings : Surroundings) :
    (superPlan surroundings).Decided (surroundings.owner.isSome = true) [] := by
  refine (Plan.Decided.bare (.bare .pushSelf)).check.congr ?_ .nil
  cases surroundings.owner with
  | none =>
      exact iff_of_false (fun both => both.1 rfl) nofun
  | some _ =>
      exact iff_of_true ⟨nofun, trivial⟩ rfl

theorem Plan.Decided.block (plan : Plan) (count : Nat) :
    Plan.Decided (do
        let unit ← plan.toUnit
        Plan.one (.pooled .makeClosure (.block unit) (some count)))
      (count ≤ 255 ∧ ∃ unit, plan.toUnit = .ok unit) [.own] := by
  cases plan.toUnit with
  | error error =>
      refine (Plan.Decided.refused error).congr (iff_of_false id ?_) (.refl _)
      rintro ⟨_, _, impossible⟩
      cases impossible
  | ok unit =>
      exact (Plan.Decided.one _).congr
        (Op.fits_counted_iff.trans ⟨fun few => ⟨few, unit, rfl⟩, And.left⟩) (.refl _)

mutual

theorem decided_expr (surroundings : Surroundings) : (expr : Expr) →
    (expr.plan surroundings).DecidedBy surroundings expr.parts
  | .literal value => by
      rw [Expr.plan, Expr.parts]
      exact .single (surroundings.decided_literal value)
  | .var name => by
      rw [Expr.plan, Expr.parts]
      exact .single (surroundings.decided_name name)
  | .self => by
      rw [Expr.plan, Expr.parts]
      exact .single (.bare _)
  | .super => by
      rw [Expr.plan, Expr.parts]
      exact .single (.refused _)
  | .assign target value => by
      rw [Expr.plan, Expr.parts]
      refine .cons (Plan.Decided.check (Plan.Decided.followedBy (decided_expr surroundings value)
        (surroundings.decided_access .store target))) ?_ List.perm_append_comm
      rw [Bool.not_eq_true, Surroundings.Accepts, and_assoc]
      exact and_congr_right fun _ => and_comm
  | .send receiver selector arguments => by
      rw [Expr.plan, Expr.parts]
      have sent := Plan.Decided.followedBy (decided_all surroundings arguments)
        (.one (.pooled (if receiver.isSuper then .superSend else .send) (.string selector)
          (some arguments.length)))
      have received : Plan.Decided
          (if receiver.isSuper then superPlan surroundings else receiver.plan surroundings)
          ((receiver.isSuper = true → surroundings.owner.isSome = true) ∧
            ∀ part ∈ (if receiver.isSuper then [] else receiver.parts), surroundings.Accepts part)
          ((if receiver.isSuper then [] else receiver.parts).flatMap surroundings.demands) := by
        cases receiver.isSuper with
        | true =>
            exact (surroundings.decided_super).congr (by simp) .nil
        | false =>
            exact (decided_expr surroundings receiver).congr (by simp) (.refl _)
      refine .cons ((received.followedBy sent).arity selector arguments.length) ?_ ?_
      · rw [List.forall_mem_append, Surroundings.Accepts, Op.fits_counted_iff]
        have few : selector.Takes arguments.length → arguments.length ≤ 255 := And.right
        tauto
      · rw [List.flatMap_append, ← List.append_assoc]
        exact List.perm_append_comm
  | .cascade receiver messages => by
      rw [Expr.plan, Expr.parts]
      have sent := Plan.Decided.followedBy (decided_expr surroundings receiver)
        (decided_messages surroundings messages)
      refine .cons sent.check.check ?_ ?_
      · rw [List.forall_mem_append, Surroundings.Accepts, List.isEmpty_iff]
        constructor
        · rintro ⟨some, _, receives, fit, arguments⟩
          exact ⟨⟨some, fit⟩, receives, arguments⟩
        · rintro ⟨⟨some, fit⟩, receives, arguments⟩
          have notSuper := (receives receiver receiver.mem_parts).not_super
          exact ⟨some, Bool.not_eq_true _ ▸ notSuper, receives, fit, arguments⟩
      · rw [List.flatMap_append, ← List.append_assoc, ← List.append_assoc]
        exact List.perm_append_comm.append_right _
  | .block parameters body => by
      rw [Expr.plan, Expr.parts]
      refine .single ((Plan.Decided.block _ parameters.length).check.congr ?_ (.refl _))
      exact ⟨And.right, fun accepts => ⟨Nat.not_lt.mpr accepts.1, accepts⟩⟩
  | .array elements => by
      rw [Expr.plan, Expr.parts]
      refine .cons ((decided_all surroundings elements).andBare _) ?_ (.refl _)
      exact (Iff.of_eq (true_and _)).symm
  | .dictionary entries => by
      rw [Expr.plan, Expr.parts]
      refine .cons ((decided_entries surroundings entries).andBare _) ?_ (.refl _)
      exact (Iff.of_eq (true_and _)).symm

theorem decided_all (surroundings : Surroundings) : (exprs : List Expr) →
    (planAll surroundings exprs).DecidedBy surroundings (partsOfAll exprs)
  | [] => by
      rw [planAll, partsOfAll]
      exact Plan.Decided.nothing.congr (by simp) .nil
  | expr :: rest => by
      rw [planAll, partsOfAll]
      exact (decided_expr surroundings expr).followedBy (decided_all surroundings rest)

theorem decided_messages (surroundings : Surroundings) : (messages : List Message) →
    (planMessages surroundings messages).Decided
      ((∀ message ∈ messages, Selector.Takes message.selector message.arguments.length) ∧
        ∀ part ∈ partsOfMessages messages, surroundings.Accepts part)
      (messages.map (fun message => .literal (.string message.selector)) ++
        (partsOfMessages messages).flatMap surroundings.demands)
  | [] => by
      rw [planMessages, partsOfMessages]
      exact Plan.Decided.nothing.congr (by simp) .nil
  | ⟨selector, arguments⟩ :: rest => by
      rw [planMessages, partsOfMessages]
      have sent := Plan.Decided.followedBy (decided_all surroundings arguments) <|
        Plan.Decided.followedBy (.one (.pooled .send (.string selector) (some arguments.length))) <|
          Plan.Decided.followedBy (.bare (.bare .pop)) (decided_messages surroundings rest)
      refine Plan.Decided.congr
        ((Plan.Decided.followedBy (.bare (.bare .dup)) sent).arity selector _) ?_ ?_
      · rw [List.forall_mem_append, List.forall_mem_cons, Op.fits_counted_iff]
        have few : selector.Takes arguments.length → arguments.length ≤ 255 := And.right
        tauto
      · refine List.perm_iff_count.mpr fun demand => ?_
        simp only [List.count_append, List.map_cons, List.count_cons, List.flatMap_append,
          List.count_nil, Op.demands, Op.constants, Constant.demand, List.map_nil]
        omega

theorem decided_entries (surroundings : Surroundings) : (entries : List Entry) →
    (planEntries surroundings entries).DecidedBy surroundings (partsOfEntries entries)
  | [] => by
      rw [planEntries, partsOfEntries]
      exact Plan.Decided.nothing.congr (by simp) .nil
  | ⟨key, value⟩ :: rest => by
      rw [planEntries, partsOfEntries, List.append_assoc]
      exact (decided_expr surroundings key).followedBy
        ((decided_expr surroundings value).followedBy (decided_entries surroundings rest))

end

/-! ## Bodies -/

/-- The statements after the declarations at the beginning. -/
def afterDeclarations : List Stmt → List Stmt
  | .declare _ :: rest => afterDeclarations rest
  | statements => statements

/-- The statement is an expression or a return. -/
def Stmt.isPlain : Stmt → Bool
  | .expr _ | .return _ => true
  | .declare _ | .define _ => false

theorem Surroundings.declareNames_nil (surroundings : Surroundings) :
    surroundings.declareNames [] = surroundings := by
  obtain ⟨session, scopes, owner⟩ := surroundings
  cases scopes with
  | nil | cons _ _ =>
      rfl

theorem Surroundings.declareNames_append (surroundings : Surroundings) (names more : List String) :
    surroundings.declareNames (names ++ more) =
      (surroundings.declareNames names).declareNames more := by
  obtain ⟨session, scopes, owner⟩ := surroundings
  cases scopes with
  | nil =>
      rfl
  | cons scope outer =>
      simp only [declareNames, Scope.declareAll_append]

theorem Surroundings.declare_eq (surroundings : Surroundings) (name : String) :
    surroundings.declare name =
      if isPseudoVariable name then throw (.invalidAssignment name)
      else pure (surroundings.declareNames [name]) := by
  obtain ⟨session, scopes, owner⟩ := surroundings
  cases scopes with
  | nil | cons _ _ =>
      rfl

theorem Surroundings.declareAll_eq_ok_iff {surroundings extended : Surroundings}
    {names : List String} :
    surroundings.declareAll names = .ok extended ↔
      (∀ name ∈ names, isPseudoVariable name = false) ∧
        surroundings.declareNames names = extended := by
  induction names generalizing surroundings with
  | nil =>
      rw [declareNames_nil]
      constructor
      · rintro ⟨⟩
        exact ⟨List.forall_mem_nil _, rfl⟩
      · rintro ⟨_, rfl⟩
        rfl
  | cons name rest inductionHypothesis =>
      have oneByOne : surroundings.declareNames (name :: rest) =
          (surroundings.declareNames [name]).declareNames rest :=
        surroundings.declareNames_append [name] rest
      rw [declareAll, surroundings.declare_eq, List.forall_mem_cons, and_assoc, oneByOne]
      cases isPseudoVariable name with
      | true =>
          refine iff_of_false (fun impossible => ?_) nofun
          cases impossible
      | false =>
          exact inductionHypothesis.trans ⟨fun holds => ⟨rfl, holds⟩, And.right⟩

/-- A statement, the instruction after it and the statements that follow. -/
theorem Plan.Decided.statement {surroundings : Surroundings} {plan next : Plan} {condition : Prop}
    {parts others : List Expr} (first : plan.DecidedBy surroundings parts)
    (instruction : Instruction)
    (rest : next.Decided (condition ∧ ∀ part ∈ others, surroundings.Accepts part)
      (others.flatMap surroundings.demands)) :
    (plan.followedBy ((Plan.one (.bare instruction)).followedBy next)).Decided
      (condition ∧ ∀ part ∈ parts ++ others, surroundings.Accepts part)
      ((parts ++ others).flatMap surroundings.demands) := by
  refine (Plan.Decided.followedBy first
    (Plan.Decided.followedBy (.bare instruction) rest)).congr ?_ ?_
  · rw [List.forall_mem_append]
    tauto
  · rw [List.flatMap_append]
    exact .refl _

theorem decided_plain (surroundings : Surroundings) (statements : List Stmt) :
    (planStatements surroundings false statements).Decided
      ((∀ statement ∈ statements, statement.isPlain = true) ∧
        ∀ part ∈ partsOfBody statements, surroundings.Accepts part)
      ((partsOfBody statements).flatMap surroundings.demands) := by
  induction statements with
  | nil =>
      rw [planStatements]
      exact Plan.Decided.nothing.congr (by simp [partsOfBody]) .nil
  | cons statement rest inductionHypothesis =>
      rw [List.forall_mem_cons]
      cases statement with
      | expr value | «return» value =>
          rw [planStatements]
          refine (Plan.Decided.statement (decided_expr surroundings value) _
            inductionHypothesis).congr ?_ (.refl _)
          exact and_congr_left fun _ => ⟨fun plain => ⟨rfl, plain⟩, And.right⟩
      | declare _ | define _ =>
          rw [planStatements]
          exact (Plan.Decided.refused _).congr (iff_of_false id nofun) (.refl _)

theorem Surroundings.within_declare (surroundings : Surroundings) (names : List String)
    (rest : List Stmt) :
    surroundings.within (.declare names :: rest) =
      (surroundings.declareNames names).within rest :=
  surroundings.declareNames_append names (declaredFirst rest)

/-- Where the body starts with something else than a declaration, its names are there already. -/
theorem decided_body_of_plain (surroundings : Surroundings) (statements : List Stmt)
    (noNames : declaredFirst statements = []) (all : afterDeclarations statements = statements) :
    (planStatements surroundings false statements).Decided
      ((∀ name ∈ declaredFirst statements, isPseudoVariable name = false) ∧
        (∀ statement ∈ afterDeclarations statements, statement.isPlain = true) ∧
        ∀ part ∈ partsOfBody statements, (surroundings.within statements).Accepts part)
      ((partsOfBody statements).flatMap (surroundings.within statements).demands) := by
  have same : surroundings.within statements = surroundings := by
    unfold Surroundings.within
    rw [noNames, Surroundings.declareNames_nil]
  rw [noNames, all, same]
  exact (decided_plain surroundings statements).congr
    ⟨fun holds => ⟨List.forall_mem_nil _, holds⟩, And.right⟩ (.refl _)

/-- A body is accepted if its declarations come first, if it contains no class, and if its
expressions are accepted where all its names are declared. -/
theorem decided_body (surroundings : Surroundings) (statements : List Stmt) :
    (planStatements surroundings true statements).Decided
      ((∀ name ∈ declaredFirst statements, isPseudoVariable name = false) ∧
        (∀ statement ∈ afterDeclarations statements, statement.isPlain = true) ∧
        ∀ part ∈ partsOfBody statements, (surroundings.within statements).Accepts part)
      ((partsOfBody statements).flatMap (surroundings.within statements).demands) := by
  induction statements generalizing surroundings with
  | nil =>
      rw [planStatements]
      exact Plan.Decided.congr (Plan.Decided.followedBy (.bare _) (.bare _))
        (by simp [declaredFirst, afterDeclarations, partsOfBody]) .nil
  | cons statement rest inductionHypothesis =>
      cases statement with
      | declare names =>
          rw [planStatements, surroundings.within_declare]
          have further := inductionHypothesis (surroundings.declareNames names)
          cases declared : surroundings.declareAll names with
          | error error =>
              refine (Plan.Decided.refused error).congr (iff_of_false id ?_) (.refl _)
              rintro ⟨declarable, _⟩
              have fine : surroundings.declareAll names = .ok (surroundings.declareNames names) :=
                Surroundings.declareAll_eq_ok_iff.mpr
                  ⟨fun name member => declarable name (List.mem_append_left _ member), rfl⟩
              rw [declared] at fine
              cases fine
          | ok extended =>
              obtain ⟨declarable, rfl⟩ := Surroundings.declareAll_eq_ok_iff.mp declared
              refine further.congr ?_ (.refl _)
              refine and_congr_left fun _ => ?_
              exact ⟨fun others => List.forall_mem_append.mpr ⟨declarable, others⟩,
                fun all => (List.forall_mem_append.mp all).2⟩
      | expr value =>
          have plain := decided_body_of_plain surroundings (.expr value :: rest) rfl rfl
          rw [planStatements] at plain ⊢
          exact plain
      | «return» value =>
          have plain := decided_body_of_plain surroundings (.return value :: rest) rfl rfl
          rw [planStatements] at plain ⊢
          exact plain
      | define definition =>
          have plain := decided_body_of_plain surroundings (.define definition :: rest) rfl rfl
          rw [planStatements] at plain ⊢
          exact plain

/-- A body becomes a unit if its plan exists and its pool has room. -/
theorem Plan.Decided.toUnit_isOk_iff {plan : Plan} {condition : Prop} {demands : List Demand}
    (decided : plan.Decided condition demands) :
    (∃ unit, plan.toUnit = .ok unit) ↔ condition ∧ poolSize demands ≤ 2 ^ 23 := by
  rw [← decided.isOk]
  constructor
  · rintro ⟨unit, isUnit⟩
    obtain ⟨ops, planned, isUnit⟩ := Except.bind_eq_ok.mp isUnit
    obtain ⟨⟨⟨⟩, _⟩, assembled, _⟩ := Except.bind_eq_ok.mp isUnit
    have fit := fits_of_assemble CodeUnit.poolFits_empty assembled
    refine ⟨⟨ops, planned, fit⟩, ?_⟩
    rw [← poolSize_of_perm (decided.needs ops planned)]
    exact (assemble_isOk_iff tight_empty fit).mp ⟨_, assembled⟩
  · rintro ⟨⟨ops, planned, fit⟩, fits⟩
    rw [← poolSize_of_perm (decided.needs ops planned)] at fits
    obtain ⟨unit, assembled⟩ := (assemble_isOk_iff tight_empty fit).mpr fits
    exact ⟨unit, Except.bind_eq_ok.mpr ⟨ops, planned,
      Except.bind_eq_ok.mpr ⟨((), unit), assembled, rfl⟩⟩⟩

theorem declarationsLead_declare (others : List String) (rest : List Stmt) :
    DeclarationsLead (.declare others :: rest) ↔ DeclarationsLead rest := by
  constructor
  · intro lead before names after isRest statement member
    exact lead (.declare others :: before) names after (isRest ▸ rfl) statement
      (List.mem_cons_of_mem _ member)
  · intro lead before names after isWhole statement member
    cases before with
    | nil =>
        cases member
    | cons first before =>
        obtain ⟨rfl, isRest⟩ := List.cons.inj isWhole
        rcases List.mem_cons.mp member with rfl | inRest
        · exact ⟨others, rfl⟩
        · exact lead before names after isRest statement inRest

theorem declarationsLead_of_other {first : Stmt} (other : ∀ names, first ≠ .declare names)
    (rest : List Stmt) :
    DeclarationsLead (first :: rest) ↔ ∀ names, .declare names ∉ first :: rest := by
  constructor
  · intro lead names member
    obtain ⟨before, after, isWhole⟩ := List.append_of_mem member
    cases before with
    | nil =>
        exact other names (List.cons.inj isWhole).1
    | cons head before =>
        obtain ⟨others, isDeclaration⟩ :=
          lead (head :: before) names after isWhole head List.mem_cons_self
        exact other others ((List.cons.inj isWhole).1.trans isDeclaration)
  · intro none before names after isWhole
    refine (none names ?_).elim
    rw [isWhole]
    simp

theorem declarationsLead_iff (statements : List Stmt) :
    DeclarationsLead statements ↔ ∀ names, .declare names ∉ afterDeclarations statements := by
  induction statements with
  | nil =>
      refine iff_of_true (fun before names after impossible => ?_) nofun
      simp at impossible
  | cons first rest inductionHypothesis =>
      cases first with
      | declare others =>
          exact (declarationsLead_declare others rest).trans inductionHypothesis
      | expr _ | «return» _ | define _ =>
          refine declarationsLead_of_other (fun names impossible => ?_) rest
          cases impossible

theorem define_mem_afterDeclarations {definition : ClassDef} (statements : List Stmt) :
    .define definition ∈ afterDeclarations statements ↔ .define definition ∈ statements := by
  induction statements with
  | nil =>
      exact Iff.rfl
  | cons first rest inductionHypothesis =>
      cases first with
      | declare names =>
          rw [afterDeclarations, inductionHypothesis]
          simp
      | expr _ | «return» _ | define _ =>
          exact Iff.rfl

theorem plain_iff (statements : List Stmt) :
    (∀ statement ∈ afterDeclarations statements, statement.isPlain = true) ↔
      (∀ definition, .define definition ∉ statements) ∧ DeclarationsLead statements := by
  rw [declarationsLead_iff]
  constructor
  · intro plain
    refine ⟨fun definition member => ?_, fun names member => ?_⟩
    · cases plain _ ((define_mem_afterDeclarations statements).mpr member)
    · cases plain _ member
  · rintro ⟨noClass, noNames⟩ statement member
    cases statement with
    | expr _ | «return» _ =>
        rfl
    | declare names =>
        exact (noNames names member).elim
    | define definition =>
        exact (noClass definition ((define_mem_afterDeclarations statements).mp member)).elim

/-- What makes a body a unit of its own. -/
theorem Surroundings.acceptsBody_iff (surroundings : Surroundings) (statements : List Stmt) :
    surroundings.AcceptsBody statements ↔
      (∀ name ∈ declaredFirst statements, isPseudoVariable name = false) ∧
        (∀ definition, .define definition ∉ statements) ∧ DeclarationsLead statements ∧
        (∀ part ∈ partsOfBody statements, (surroundings.within statements).Accepts part) ∧
        poolSize ((partsOfBody statements).flatMap (surroundings.within statements).demands) ≤
          2 ^ 23 := by
  unfold AcceptsBody
  rw [(decided_body surroundings statements).toUnit_isOk_iff, plain_iff]
  tauto

end Missive
