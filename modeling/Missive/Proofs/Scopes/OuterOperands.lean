import Missive.Proofs.Compile.Endings
import Missive.Proofs.Compile.References
import Missive.Proofs.Compile.Slots
import Missive.Proofs.Scopes.Rendering

/-!
# Operands of variables further out

A block uses the variables of the bodies around it.  The instruction for such a use holds the slot
of the variable and how many bodies further out it is declared.  In every body the instructions of
this kind stand for these uses, one by one and in the order of evaluation.

The operand holds both exactly.  The depth is checked before, and a variable that is too far out is
reported.  The slot is not: the names of a body are not counted anywhere, and a session can have
more of them than an operand has room for.  Then the compiler goes down over the operand.
-/

namespace Missive

/-! ## What an operand holds -/

namespace Instruction

/-- The instruction uses a variable further out. -/
def isOuter (instruction : Instruction) : Bool := instruction.opcode.operandKind == .outer

theorem isMarked_of_isOuter {instruction : Instruction} (isOuter : instruction.isOuter = true) :
    instruction.isMarked = true := by
  unfold isMarked
  rw [eq_of_beq isOuter]

/-- The instructions for variables further out are among those that stand for mentions. -/
theorem filter_isOuter (code : List Instruction) :
    (code.filter isMarked).filter isOuter = code.filter isOuter := by
  rw [List.filter_filter]
  refine List.filter_congr fun instruction _ => ?_
  cases outer : instruction.isOuter with
  | false =>
      rfl
  | true =>
      rw [isMarked_of_isOuter outer]
      rfl

end Instruction

/-- Elements that are kept on both sides stand for each other, if every two that stand for each
other are kept together. -/
theorem forall₂_filterMap_filter {α β γ : Type} {related : α → β → Prop} {kept : γ → β → Prop}
    {choose : α → Option γ} {keep : β → Bool} {left : List α} {right : List β}
    (together : List.Forall₂ related left right)
    (decides : ∀ item other, related item other →
      (choose item = none ∧ keep other = false) ∨
        ∃ chosen, choose item = some chosen ∧ keep other = true ∧ kept chosen other) :
    List.Forall₂ kept (left.filterMap choose) (right.filter keep) := by
  induction together with
  | nil =>
      exact .nil
  | @cons item other _ _ here _ inductionHypothesis =>
      rcases decides item other here with ⟨skipped, alsoSkipped⟩ | ⟨chosen, isChosen, isKept, holds⟩
      · rw [List.filterMap_cons_none skipped, List.filter_cons_of_neg (by simp [alsoSkipped])]
        exact inductionHypothesis
      · rw [List.filterMap_cons_some isChosen, List.filter_cons_of_pos isKept]
        exact .cons holds inductionHypothesis

/-! ## Uses of variables further out -/

/-- A use of a variable that is declared further out, as its name is resolved. -/
structure OuterUse where
  access : Access
  name : String
  slot : Nat
  depth : Nat
  deriving DecidableEq, Repr

namespace OuterUse

/-- The operand holds the slot and the depth of the use. -/
structure HeldBy (use : OuterUse) (instruction : Instruction) : Prop where
  opcode : instruction.opcode = use.access.opcode (.outer use.slot use.depth)
  near : 0 < use.depth ∧ use.depth ≤ Instruction.maxPackedCount
  roomy : use.slot ≤ Instruction.maxPackedIndex
  held : Instruction.unpack instruction.operand = (use.slot, use.depth)

theorem heldBy_packed (access : Access) (name : String) {slot depth : Nat}
    (positive : 0 < depth) (near : depth ≤ Instruction.maxPackedCount)
    (roomy : slot ≤ Instruction.maxPackedIndex) :
    HeldBy ⟨access, name, slot, depth⟩
      (.packed (access.opcode (.outer slot depth)) slot depth) :=
  ⟨rfl, ⟨positive, near⟩, roomy, Instruction.unpack_packedOperand roomy near⟩

end OuterUse

namespace Surroundings

/-- The use of a variable further out that is mentioned. -/
def outerUse? (surroundings : Surroundings) : Mention → Option OuterUse
  | .use access name =>
    match surroundings.resolve name with
    | .ok (.outer slot depth) => some ⟨access, name, slot, depth⟩
    | .ok (.slot _) | .ok (.field _) | .ok .classVar | .ok .global | .error _ => none
  | .block .. => none

/-- The uses of variables further out in a body, in the order of evaluation. -/
def outerUses (surroundings : Surroundings) (statements : List Stmt) : List OuterUse :=
  (mentionsInBody statements).filterMap (surroundings.within statements).outerUse?

variable {surroundings : Surroundings} {access : Access} {name : String}

theorem outerUse?_eq_some_iff {mention : Mention} {use : OuterUse} :
    surroundings.outerUse? mention = some use ↔
      mention = .use use.access use.name ∧
        surroundings.resolve use.name = .ok (.outer use.slot use.depth) := by
  obtain ⟨access, name, slot, depth⟩ := use
  cases mention with
  | block _ _ =>
      exact iff_of_false nofun nofun
  | use ofAccess ofName =>
      rw [outerUse?, Mention.use.injEq]
      constructor
      · intro isUse
        split at isUse
        · cases isUse
          exact ⟨⟨rfl, rfl⟩, ‹_›⟩
        all_goals cases isUse
      · rintro ⟨⟨rfl, rfl⟩, resolved⟩
        rw [resolved]

/-- A name that is found in the innermost body, or in none of them, is no variable further out. -/
theorem outerUse?_eq_none
    (near : ∀ slot depth, findLocal name 0 surroundings.scopes = some (slot, depth) → depth = 0) :
    surroundings.outerUse? (.use access name) = none := by
  refine Option.eq_none_iff_forall_ne_some.mpr fun use isUse => ?_
  obtain ⟨isMention, resolved⟩ := outerUse?_eq_some_iff.mp isUse
  cases isMention
  obtain ⟨found, positive, _⟩ := resolve_eq_outer_iff.mp resolved
  exact Nat.ne_of_gt positive (near _ _ found)

end Surroundings

/-! ## Bodies -/

/-- What a mention became tells whether it is the use of a variable further out, and which one. -/
theorem Rendered.outer_or_not {surroundings : Surroundings} {mention : Mention} {op : Op}
    {pool : List Constant} {instruction : Instruction}
    (rendered : Rendered surroundings.scopes mention op)
    (denotes : op.Denotes pool instruction) :
    (surroundings.outerUse? mention = none ∧ instruction.isOuter = false) ∨
      ∃ use, surroundings.outerUse? mention = some use ∧ instruction.isOuter = true ∧
        use.HeldBy instruction := by
  cases rendered with
  | @slot access name slot found =>
      cases denotes
      exact Or.inl ⟨Surroundings.outerUse?_eq_none (by simp [found]), by cases access <;> rfl⟩
  | @outer access name slot depth found near roomy =>
      cases denotes
      have positive : 0 < depth + 1 := Nat.succ_pos depth
      have resolved := Surroundings.resolve_eq_outer_iff.mpr ⟨found, positive, near⟩
      exact Or.inr ⟨⟨access, name, slot, depth + 1⟩,
        Surroundings.outerUse?_eq_some_iff.mpr ⟨rfl, resolved⟩, by cases access <;> rfl,
        OuterUse.heldBy_packed access name positive near roomy⟩
  | elsewhere missing isOther =>
      refine Or.inl ⟨Surroundings.outerUse?_eq_none (by simp [missing]), ?_⟩
      rw [denotes.opcode] at isOther
      unfold Instruction.isOuter
      rcases isOther with isField | isName
      · rw [isField]
        rfl
      · rw [isName]
        rfl
  | block _ _ =>
      cases denotes
      exact Or.inl ⟨rfl, rfl⟩

/-- The instructions for variables further out stand for the mentions of such variables. -/
theorem heldBy_of_rendered {surroundings : Surroundings} {mentions : List Mention} {ops : List Op}
    {unit : CodeUnit}
    (rendered : List.Forall₂ (Rendered surroundings.scopes) mentions (ops.filter Op.isMarked))
    (isAssembled : assemble ops .empty = .ok ((), unit)) :
    List.Forall₂ OuterUse.HeldBy (mentions.filterMap surroundings.outerUse?)
      (unit.code.toList.filter Instruction.isOuter) := by
  obtain ⟨added, isCode, denotes⟩ :=
    (assembled_of_assemble CodeUnit.poolFits_empty isAssembled).code
  have together := forall₂_comp rendered
    (Op.denotes_marked (denotes unit.constants (List.prefix_refl _)))
  rw [show unit.code.toList = added from isCode, ← Instruction.filter_isOuter]
  exact forall₂_filterMap_filter together
    fun _ _ ⟨_, rendered, denotes⟩ => rendered.outer_or_not denotes

theorem heldBy_body {surroundings : Surroundings} {scope : Scope} {outer : List Scope}
    {statements : List Stmt} {unit : CodeUnit} (scopes : surroundings.scopes = scope :: outer)
    (lowered : lowerStatements surroundings true statements .empty = .ok ((), unit)) :
    List.Forall₂ OuterUse.HeldBy (surroundings.outerUses statements)
      (unit.code.toList.filter Instruction.isOuter) := by
  obtain ⟨session, _, owner⟩ := surroundings
  cases scopes
  obtain ⟨ops, planned, isAssembled⟩ := (realizes_statements _ true _ _ _).mp lowered
  exact heldBy_of_rendered (renders_body statements ops planned) isAssembled

/-- No body is further out than the program itself. -/
theorem outerUse?_topLevel {surroundings : Surroundings} {scope : Scope}
    (scopes : surroundings.scopes = [scope]) (mention : Mention) :
    surroundings.outerUse? mention = none := by
  cases mention with
  | block _ _ =>
      rfl
  | use access name =>
      refine Surroundings.outerUse?_eq_none fun slot depth found => ?_
      rw [scopes, findLocal] at found
      split at found
      · cases found
        rfl
      · split at found <;> cases found

theorem Program.HasBody.scopes {session : Session} {program : Program}
    {surroundings : Surroundings} {statements : List Stmt}
    (isBody : program.HasBody session surroundings statements) :
    ∃ scope outer, surroundings.scopes = scope :: outer := by
  cases isBody with
  | method _ _ | blockAtTop _ _ | block _ _ =>
      exact ⟨_, _, rfl⟩

/-! ## Slots that do not fit -/

/-- A block that answers a variable of the top level. -/
def Program.reading (names : List String) (name : String) : Program :=
  [.declare names, .expr (.block [] [.expr (.var name)])]

theorem lowerName_of_ordinary (surroundings : Surroundings) {name : String}
    (ordinary : isPseudoVariable name = false) :
    lowerName surroundings name = lowerAccess surroundings .load name := by
  unfold isPseudoVariable at ordinary
  simp only [Bool.or_eq_false_iff, beq_eq_false_iff_ne] at ordinary
  obtain ⟨⟨⟨⟨notSelf, notSuper⟩, notNil⟩, notTrue⟩, notFalse⟩ := ordinary
  rw [lowerName, if_neg notSelf, if_neg notSuper, if_neg notNil, if_neg notTrue, if_neg notFalse]

theorem declareAll_initial {names : List String} (nodup : names.Nodup)
    (ordinary : ∀ name ∈ names, isPseudoVariable name = false) :
    ∃ session, Session.initial.declareAll names = (session, .ok ()) ∧ session.locals = names := by
  have declared : Session.initial.declareAll names =
      (Session.initial.past (.declare names), .ok ()) :=
    Session.declareAll_eq_ok_iff.mpr ⟨ordinary, rfl⟩
  have isScope := Session.declareAll_ok declared
  have isNames : Scope.declareAll ⟨.topLevel, []⟩ names = ⟨.topLevel, names⟩ :=
    Scope.ofParameters_eq nodup
  exact ⟨_, declared, (congrArg Scope.names (isNames.symm.trans isScope)).symm⟩

theorem lowerExpr_reading {surroundings : Surroundings} {name : String} {slot : Nat}
    (ordinary : isPseudoVariable name = false)
    (resolved : (surroundings.enter ⟨.block, []⟩).resolve name = .ok (.outer slot 1))
    (large : Instruction.maxPackedIndex < slot) (unit : CodeUnit) :
    lowerExpr surroundings (.block [] [.expr (.var name)]) unit =
      .error (.crash .indexTooLarge) := by
  have body : lowerStatements (surroundings.enter ⟨.block, []⟩) true [.expr (.var name)] .empty =
      .error (.crash .indexTooLarge) := by
    have packed : Instruction.pack slot 1 = .error .indexTooLarge := by
      unfold Instruction.pack
      rw [if_neg (by decide), if_pos large]
      rfl
    rw [lowerStatements, lowerExpr, lowerName_of_ordinary _ ordinary, lowerAccess, resolved]
    change (emitPacked .loadOuter slot 1 >>= _) _ = _
    unfold emitPacked
    rw [packed]
    rfl
  rw [lowerExpr]
  change (StateT.lift (lowerStatements (surroundings.enter ⟨.block, []⟩) true
    [.expr (.var name)] .empty) >>= _) _ = _
  rw [body]
  rfl

/-- A block that answers a variable with a slot too large brings the compiler down. -/
theorem Program.compile_reading {names : List String} (nodup : names.Nodup)
    (ordinary : ∀ name ∈ names, isPseudoVariable name = false) {name : String} {slot : Nat}
    (isName : names[slot]? = some name) (large : Instruction.maxPackedIndex < slot) :
    Session.initial.compile (.reading names name) =
      (.initial, .error (.crash .indexTooLarge)) := by
  obtain ⟨session, declared, isLocals⟩ := declareAll_initial nodup ordinary
  have resolved : (session.topLevel.enter ⟨.block, []⟩).resolve name = .ok (.outer slot 1) := by
    refine Surroundings.resolve_eq_outer_iff.mpr ⟨?_, by decide, by decide⟩
    have isSlot : Scope.slot? ⟨.topLevel, session.locals⟩ name = some slot :=
      isLocals ▸ idxOf?_of_nodup nodup isName
    change findLocal name 0 [⟨.block, []⟩, ⟨.topLevel, session.locals⟩] = _
    rw [findLocal, show Scope.slot? ⟨.block, []⟩ name = none from rfl]
    dsimp only
    rw [if_pos rfl, findLocal, isSlot]
  have block := lowerExpr_reading (ordinary name (List.mem_of_getElem? isName)) resolved large
  have statement : (do
      lowerExpr session.topLevel (.block [] [.expr (.var name)])
      emitAfterStatement true : Lower Unit).run .empty = .error (.crash .indexTooLarge) := by
    rw [StateT.run_bind]
    change (lowerExpr session.topLevel (.block [] [.expr (.var name)]) .empty >>= _) = _
    rw [block]
    rfl
  unfold Session.compile Session.lower Program.reading
  rw [lowerProgramFrom, if_pos rfl, declared]
  dsimp only
  rw [lowerProgramFrom, List.isEmpty_nil, statement]

-- More names than an operand has room for, none of which is ever written out.  They are two
-- characters long, so that none is a pseudo variable, and the characters are digits to base 5120.

/-- A name of two characters. -/
def pairName (number : Nat) : String :=
  .ofList [.ofNat (0x4E00 + number / 0x1400), .ofNat (0x4E00 + number % 0x1400)]

theorem toNat_ofNat_ideograph {offset : Nat} (inside : offset < 0x1400) :
    (Char.ofNat (0x4E00 + offset)).toNat = 0x4E00 + offset := by
  have valid : (0x4E00 + offset).isValidChar := Or.inl (by omega)
  rw [Char.ofNat, dif_pos valid]
  rfl

theorem pairName_injOn {number other : Nat} (small : number < 0x1400 * 0x1400)
    (otherSmall : other < 0x1400 * 0x1400) (same : pairName number = pairName other) :
    number = other := by
  have sameCharacters := String.ofList_inj.mp same
  have sameHigh := congrArg Char.toNat (List.cons.inj sameCharacters).1
  have sameLow := congrArg Char.toNat (List.cons.inj (List.cons.inj sameCharacters).2).1
  rw [toNat_ofNat_ideograph (Nat.div_lt_of_lt_mul small),
    toNat_ofNat_ideograph (Nat.div_lt_of_lt_mul otherSmall)] at sameHigh
  rw [toNat_ofNat_ideograph (Nat.mod_lt _ (by decide)),
    toNat_ofNat_ideograph (Nat.mod_lt _ (by decide))] at sameLow
  omega

theorem pairName_ordinary (number : Nat) : isPseudoVariable (pairName number) = false := by
  have isPair : (pairName number).length = 2 := String.length_ofList
  have other : ∀ {name : String}, name.length ≠ 2 → (pairName number == name) = false := by
    rintro name longer
    exact beq_eq_false_iff_ne.mpr fun same => longer (same ▸ isPair)
  unfold isPseudoVariable
  rw [other (by decide), other (by decide), other (by decide), other (by decide),
    other (by decide)]
  rfl

/-- As many names, all different. -/
def pairNames (count : Nat) : List String := (List.range count).map pairName

theorem nodup_pairNames {count : Nat} (few : count ≤ 0x1400 * 0x1400) :
    (pairNames count).Nodup := by
  refine List.Nodup.map_on (fun number member other otherMember same => ?_) List.nodup_range
  exact pairName_injOn (Nat.lt_of_lt_of_le (List.mem_range.mp member) few)
    (Nat.lt_of_lt_of_le (List.mem_range.mp otherMember) few) same

theorem pairNames_ordinary {count : Nat} {name : String} (member : name ∈ pairNames count) :
    isPseudoVariable name = false := by
  obtain ⟨number, _, rfl⟩ := List.mem_map.mp member
  exact pairName_ordinary number

theorem getElem?_pairNames {count number : Nat} (inside : number < count) :
    (pairNames count)[number]? = some (pairName number) := by
  unfold pairNames
  rw [List.getElem?_map, List.getElem?_range inside]
  rfl

/-- Of one variable more than an operand has room for, a block cannot answer the last one. -/
theorem Program.exists_reading_crash :
    ∃ names last, Session.initial.compile (.reading names last) =
      (.initial, .error (.crash .indexTooLarge)) := by
  let names := pairNames (Instruction.maxPackedIndex + 2)
  have nodup : names.Nodup := nodup_pairNames (by decide)
  have isLast := getElem?_pairNames (Nat.lt_succ_self (Instruction.maxPackedIndex + 1))
  exact ⟨names, _, compile_reading nodup (fun _ member => pairNames_ordinary member) isLast
    (Nat.lt_succ_self _)⟩

/-! ## Operands and slots -/

/-- In the code of a program, of its methods and of its blocks, the instructions for variables
further out stand for the uses of such variables in the body, one by one and in its order, and each
operand holds exactly the slot and the depth that the name was resolved to.  The compiler goes down
only over a variable with a slot that an operand has no room for. -/
theorem Session.outer_operands (session : Session) (program : Program) :
    (∀ final unit, session.compile program = (final, .ok unit) →
      unit.code.toList.filter Instruction.isOuter = [] ∧
        ∀ turn path inner, unit.unitAt? (turn :: path) = some inner →
          ∃ surroundings statements, program.HasBody session surroundings statements ∧
            lowerStatements surroundings true statements .empty = .ok ((), inner) ∧
            List.Forall₂ OuterUse.HeldBy (surroundings.outerUses statements)
              (inner.code.toList.filter Instruction.isOuter)) ∧
    ∀ final cause, session.compile program = (final, .error (.crash cause)) →
      cause = .indexTooLarge ∧ ∃ surroundings part name slot depth,
        program.Occurs session surroundings part ∧ part.variableName? = some name ∧
        findLocal name 0 surroundings.scopes = some (slot, depth + 1) ∧
        Instruction.maxPackedIndex < slot := by
  constructor
  · intro final unit compiled
    refine ⟨?_, fun turn path inner found => ?_⟩
    · obtain ⟨ops, planned, isAssembled⟩ :=
        lowerProgramFrom_eq_ok.mp (Session.compile_eq_ok.mp compiled)
      let atTop : Surroundings :=
        ⟨session, [Passage.scope ⟨.topLevel, session.locals, program⟩], none⟩
      have held : List.Forall₂ OuterUse.HeldBy ((mentionsInBody program).filterMap atTop.outerUse?)
          (unit.code.toList.filter Instruction.isOuter) :=
        heldBy_of_rendered (rendered_program planned) isAssembled
      have noUse : (mentionsInBody program).filterMap atTop.outerUse? = [] :=
        List.filterMap_eq_nil_iff.mpr fun mention _ => outerUse?_topLevel rfl mention
      rw [noUse] at held
      exact List.forall₂_nil_left_iff.mp held
    · obtain ⟨surroundings, statements, isBody, lowered⟩ := Program.exists_body compiled found
      obtain ⟨scope, outer, scopes⟩ := isBody.scopes
      exact ⟨surroundings, statements, isBody, lowered, heldBy_body scopes lowered⟩
  · intro final cause crashed
    obtain ⟨isIndex, slotsMiss⟩ := Session.crash_of_compile crashed
    unfold Program.SlotsFit Surroundings.Roomy at slotsMiss
    push Not at slotsMiss
    obtain ⟨surroundings, part, occurs, name, isVariable, slot, depth, found, large⟩ := slotsMiss
    exact ⟨isIndex, surroundings, part, name, slot, depth, occurs, isVariable, found, large⟩

/-- A block in a block that assigns a variable of the outer one to a variable of the top level. -/
def handingOut : Program :=
  [.declare ["m", "n"],
    .expr (.block ["k"] [.expr (.block [] [.expr (.assign "n" (.var "k"))])])]

/-- The inner block loads from one body further out and stores two bodies further out.  And there is
a program that brings the compiler down. -/
theorem outer_operands_handingOut :
    (∃ final unit inner, Session.initial.compile handingOut = (final, .ok unit) ∧
      unit.unitAt? [⟨0, 0⟩, ⟨0, 0⟩] = some inner ∧
      inner.code.toList =
        [.packed .loadOuter 0 1, .packed .storeOuter 1 2, .bare .return] ∧
      unit.code.toList.filter Instruction.isOuter = [] ∧
      ∃ surroundings statements, handingOut.HasBody .initial surroundings statements ∧
        List.Forall₂ OuterUse.HeldBy (surroundings.outerUses statements)
          [.packed .loadOuter 0 1, .packed .storeOuter 1 2]) ∧
    ∃ program final, Session.initial.compile program =
        (final, .error (.crash .indexTooLarge)) ∧
      ∃ surroundings part name slot depth, program.Occurs .initial surroundings part ∧
        part.variableName? = some name ∧
        findLocal name 0 surroundings.scopes = some (slot, depth + 1) ∧
        Instruction.maxPackedIndex < slot := by
  constructor
  · let final := (Session.initial.compile handingOut).1
    let unit := handingOut.compile.toOption.getD .empty
    have compiled : Session.initial.compile handingOut = (final, .ok unit) := rfl
    obtain ⟨noneAtTop, inside⟩ := (Session.outer_operands .initial handingOut).1 _ _ compiled
    obtain ⟨surroundings, statements, isBody, _, held⟩ := inside ⟨0, 0⟩ [⟨0, 0⟩] _ rfl
    exact ⟨final, unit, _, compiled, rfl, rfl, noneAtTop, surroundings, statements, isBody, held⟩
  · obtain ⟨names, last, crashed⟩ := Program.exists_reading_crash
    exact ⟨_, _, crashed, ((Session.outer_operands .initial _).2 _ _ crashed).2⟩

end Missive
