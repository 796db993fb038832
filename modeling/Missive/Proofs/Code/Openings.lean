import Mathlib.Data.List.Perm.Basic
import Missive.Proofs.Code.Occurrences
import Missive.Proofs.Code.Verified

/-!
# Listings of units that create their blocks and classes in order

A listing follows the instructions: it shows a block below the instruction that creates it, and the
methods of a class below the instruction that defines it.  The statistics follow the pool.  The two
agree on units whose code creates the blocks and classes of the pool one after the other, each of
them once.

In the listing of such a unit every instruction of the unit and of the units inside of it stands
exactly once.
-/

namespace Missive

/-! ## What instructions create -/

/-- The operation of an instruction that creates a block or a class, and where its constant is. -/
def Instruction.opened? (instruction : Instruction) : Option (Opcode × Nat) :=
  match instruction.opcode with
  | .makeClosure => some (.makeClosure, (unpack instruction.operand).1)
  | .defineClass => (Exec.operandIndex? instruction.operand).map fun index => (.defineClass, index)
  | _ => none

/-- The operation that creates something from the constant. -/
def Constant.opener? : Constant → Option Opcode
  | .block _ => some .makeClosure
  | .classDescriptor _ => some .defineClass
  | .int _ | .float _ | .string _ | .bool _ | .nil => none

/-- The blocks and classes of a pool with their places. -/
def openings (constants : List Constant) : List (Opcode × Nat) :=
  constants.zipIdx.filterMap fun (constant, index) =>
    constant.opener?.map fun opcode => (opcode, index)

theorem mem_openings {constants : List Constant} {opcode : Opcode} {index : Nat} :
    (opcode, index) ∈ openings constants ↔
      ∃ constant, constants[index]? = some constant ∧ constant.opener? = some opcode := by
  unfold openings
  simp only [List.mem_filterMap, Prod.exists, List.mem_zipIdx_iff_getElem?, Option.map_eq_some_iff,
    Prod.mk.injEq]
  constructor
  · rintro ⟨constant, _, isConstant, _, isOpener, rfl, rfl⟩
    exact ⟨constant, isConstant, isOpener⟩
  · rintro ⟨constant, isConstant, isOpener⟩
    exact ⟨constant, index, isConstant, opcode, isOpener, rfl, rfl⟩

theorem nodup_openings (constants : List Constant) : (openings constants).Nodup := by
  unfold openings
  refine List.pairwise_filterMap.mpr ((List.pairwise_map.mp
    (List.nodup_zipIdx_map_snd constants)).imp ?_)
  rintro ⟨constant, index⟩ ⟨other, place⟩ different one isOne another isAnother same
  obtain ⟨_, _, rfl⟩ := Option.map_eq_some_iff.mp isOne
  obtain ⟨_, _, rfl⟩ := Option.map_eq_some_iff.mp isAnother
  exact different (Prod.mk.inj same).2

theorem openings_append_singleton (constants : List Constant) (constant : Constant) :
    openings (constants ++ [constant]) = openings constants ++
      (constant.opener?.map fun opcode => (opcode, constants.length)).toList := by
  unfold openings
  rw [List.zipIdx_append, List.filterMap_append, List.zipIdx_singleton, Nat.zero_add]
  cases isOpener : constant.opener? <;> simp [isOpener]

namespace CodeUnit

variable {unit : CodeUnit}

/-- The code creates the blocks and classes of the pool in their order, each of them once. -/
def OpensInOrder (unit : CodeUnit) : Prop :=
  unit.code.toList.filterMap Instruction.opened? = openings unit.constants

/-- What an instruction creates is in the pool. -/
theorem OpensInOrder.exists_constant (inOrder : unit.OpensInOrder) {instruction : Instruction}
    {opcode : Opcode} {index : Nat} (member : instruction ∈ unit.code.toList)
    (opens : instruction.opened? = some (opcode, index)) :
    ∃ constant, unit.constants[index]? = some constant ∧ constant.opener? = some opcode := by
  refine mem_openings.mp ?_
  rw [← inOrder]
  exact List.mem_filterMap.mpr ⟨instruction, member, opens⟩

/-- Exactly one instruction creates a block or a class of the pool. -/
theorem OpensInOrder.existsUnique (inOrder : unit.OpensInOrder) {constant : Constant}
    {opcode : Opcode} {index : Nat} (isConstant : unit.constants[index]? = some constant)
    (isOpener : constant.opener? = some opcode) :
    ∃! ip : Nat, ∃ instruction : Instruction, unit.code[ip]? = some instruction ∧
      instruction.opened? = some (opcode, index) := by
  have opened : (opcode, index) ∈ unit.code.toList.filterMap Instruction.opened? := by
    rw [inOrder]
    exact mem_openings.mpr ⟨constant, isConstant, isOpener⟩
  obtain ⟨instruction, member, opens⟩ := List.mem_filterMap.mp opened
  obtain ⟨ip, isThere⟩ := List.mem_iff_getElem?.mp member
  have nodup : (unit.code.toList.filterMap Instruction.opened?).Nodup := by
    rw [inOrder]
    exact nodup_openings unit.constants
  refine ⟨ip, ⟨instruction, by rwa [Array.getElem?_toList] at isThere, opens⟩, ?_⟩
  rintro other ⟨another, isAnother, alsoOpens⟩
  rw [← Array.getElem?_toList] at isAnother
  exact place_eq_of_pairwise (List.pairwise_filterMap.mp nodup) isAnother isThere
    (fun apart => apart _ alsoOpens _ opens rfl) (fun apart => apart _ opens _ alsoOpens rfl)

/-- The turns to the constant that an instruction creates something from. -/
def turnsOf (unit : CodeUnit) (instruction : Instruction) : List Turn :=
  match instruction.opened? with
  | some (_, index) =>
    match unit.constants[index]? with
    | some constant => constant.turns index
    | none => []
  | none => []

theorem turns_of_opener?_eq_none {constant : Constant} (noOpener : constant.opener? = none)
    (index : Nat) : constant.turns index = [] := by
  cases constant with
  | block _ | classDescriptor _ =>
      cases noOpener
  | int _ | float _ | string _ | bool _ | nil =>
      rfl

/-- In code that creates in order, the instructions together lead to every unit once. -/
theorem OpensInOrder.flatMap_turnsOf (inOrder : unit.OpensInOrder) :
    unit.code.toList.flatMap unit.turnsOf = unit.turns := by
  let turnsAt : Opcode × Nat → List Turn := fun entry =>
    match unit.constants[entry.2]? with
    | some constant => constant.turns entry.2
    | none => []
  have ofCode : unit.code.toList.flatMap unit.turnsOf =
      (unit.code.toList.filterMap Instruction.opened?).flatMap turnsAt := by
    rw [List.filterMap_eq_flatMap_toList, List.flatMap_assoc]
    refine List.flatMap_congr fun instruction _ => ?_
    unfold turnsOf
    cases instruction.opened? with
    | none => rfl
    | some entry => exact (List.flatMap_singleton turnsAt entry).symm
  have ofPool : unit.turns = (openings unit.constants).flatMap turnsAt := by
    unfold turns openings
    rw [List.filterMap_eq_flatMap_toList, List.flatMap_assoc]
    refine List.flatMap_congr fun ⟨constant, index⟩ member => ?_
    have isConstant : unit.constants[index]? = some constant :=
      List.mem_zipIdx_iff_getElem?.mp member
    change constant.turns index =
      (constant.opener?.map fun opcode => (opcode, index)).toList.flatMap turnsAt
    cases isOpener : constant.opener? with
    | none =>
        exact turns_of_opener?_eq_none isOpener index
    | some opcode =>
        have atPlace : turnsAt (opcode, index) = constant.turns index := by
          simp only [turnsAt]
          rw [isConstant]
        rw [← atPlace]
        exact (List.flatMap_singleton turnsAt (opcode, index)).symm
  rw [ofCode, ofPool, inOrder]

end CodeUnit

/-! ## The instructions in a listing -/

namespace Listing

def Content.isInstruction : Content → Bool
  | .instruction .. => true
  | _ => false

/-- What the lines show of instructions, in their order. -/
def shown (lines : List Line) : List Content :=
  (lines.map Line.content).filter Content.isInstruction

theorem shown_append (lines more : List Line) :
    shown (lines ++ more) = shown lines ++ shown more := by
  simp [shown]

theorem shown_flatMap {α : Type} (items : List α) (lines : α → List Line) :
    shown (items.flatMap lines) = items.flatMap fun item => shown (lines item) := by
  simp [shown, List.map_flatMap, List.filter_flatMap]

theorem nestedLines_eq (constants : List Constant) :
    nestedLines constants = constants.map constantLines := by
  induction constants with
  | nil =>
      rw [nestedLines]
      rfl
  | cons constant rest inductionHypothesis =>
      rw [nestedLines, inductionHypothesis]
      rfl

theorem opener?_of_constantLines {constant : Constant} {opcode : Opcode}
    (isOpener : constant.opener? = some opcode) : (constantLines constant).1 = opcode := by
  cases constant with
  | block body =>
      rw [constantLines]
      exact Option.some.inj isOpener
  | classDescriptor descriptor =>
      obtain ⟨_, _, _, _, _, _⟩ := descriptor
      rw [constantLines]
      exact Option.some.inj isOpener
  | int _ | float _ | string _ | bool _ | nil =>
      cases isOpener

/-- An instruction that creates nothing lists nothing below itself. -/
theorem nestedEntry?_of_quiet {nested : List (Opcode × NestedLines)} {instruction : Instruction}
    (quiet : instruction.opened? = none) : nestedEntry? nested instruction = none := by
  unfold Instruction.opened? Exec.operandIndex? at quiet
  unfold nestedEntry?
  cases isOpcode : instruction.opcode <;> simp_all

/-- An instruction lists below itself what it creates. -/
theorem nestedEntry?_of_opens {constants : List Constant} {instruction : Instruction}
    {opcode : Opcode} {index : Nat} {constant : Constant}
    (opens : instruction.opened? = some (opcode, index))
    (isConstant : constants[index]? = some constant)
    (isOpener : constant.opener? = some opcode) :
    ∃ count, nestedEntry? (nestedLines constants) instruction =
      some (count, (constantLines constant).2) := by
  have isEntry : (nestedLines constants)[index]? = some (constantLines constant) := by
    rw [nestedLines_eq, List.getElem?_map, isConstant]
    rfl
  have sameOpcode := opener?_of_constantLines isOpener
  refine ⟨(Instruction.unpack instruction.operand).2, ?_⟩
  unfold Instruction.opened? at opens
  unfold nestedEntry?
  split at opens
  · rename_i isClosure
    obtain ⟨rfl, rfl⟩ := Prod.mk.inj (Option.some.inj opens)
    simp [isClosure, isEntry, sameOpcode]
  · rename_i isClass
    obtain ⟨place, isPlace, same⟩ := Option.map_eq_some_iff.mp opens
    obtain ⟨rfl, rfl⟩ := Prod.mk.inj same
    unfold Exec.operandIndex? at isPlace
    by_cases negative : instruction.operand < 0
    · rw [if_pos negative] at isPlace
      cases isPlace
    · rw [if_neg negative] at isPlace
      obtain rfl := Option.some.inj isPlace
      simp only [isClass, negative, if_false, isEntry, sameOpcode, if_true]
  · cases opens

/-- What a listing shows of an instruction that stands somewhere. -/
def contentOf (occurrence : Occurrence) : Content :=
  .instruction occurrence.ip (isJumpTarget occurrence.unit.code occurrence.ip)
    occurrence.instruction
    (comment occurrence.unit.constants occurrence.ip occurrence.instruction)

/-- What the lines below an instruction show. -/
def shownBelow (unit : CodeUnit) (indent : Nat) (instruction : Instruction) : List Content :=
  match nestedEntry? (nestedLines unit.constants) instruction with
  | some (count, lines) => shown (lines count (indent + 2))
  | none => []

theorem shown_instructionLines (unit : CodeUnit) (indent ip : Nat) (instruction : Instruction) :
    shown (instructionLines unit.code unit.constants (nestedLines unit.constants) indent ip
        instruction) =
      [contentOf ⟨[], unit, ip, instruction⟩] ++ shownBelow unit indent instruction := by
  unfold instructionLines shownBelow contentOf
  by_cases isTarget : isJumpTarget unit.code ip = true
  · cases nestedEntry? (nestedLines unit.constants) instruction <;>
      simp [shown, isTarget, Content.isInstruction, List.filter_cons]
  · cases nestedEntry? (nestedLines unit.constants) instruction <;>
      simp [shown, isTarget, Content.isInstruction, List.filter_cons]

theorem shown_unitLines (title : String) (indent : Nat) (unit : CodeUnit) :
    shown (unitLines title indent unit) = unit.code.toList.zipIdx.flatMap
      fun (instruction, ip) =>
        [contentOf ⟨[], unit, ip, instruction⟩] ++ shownBelow unit indent instruction := by
  obtain ⟨code, constants⟩ := unit
  rw [unitLines]
  simp only [shown_append, shown_flatMap]
  have heading : shown [⟨indent, .rule⟩, ⟨indent, .title title⟩,
      ⟨indent, .sizes code.size constants.length⟩, ⟨indent, .rule⟩] = [] := rfl
  have ending : shown [⟨indent, .blank⟩] = [] := rfl
  rw [heading, ending, List.nil_append, List.append_nil]
  exact List.flatMap_congr fun ⟨instruction, ip⟩ _ =>
    shown_instructionLines ⟨code, constants⟩ indent ip instruction

section Nested

variable {ofUnit : CodeUnit → List Content}

theorem shown_methodLines (owner : String) (indent : Nat) (methods : List MethodDescriptor)
    (shows : ∀ method ∈ methods, ∀ title indent,
      (shown (unitLines title indent method.body)).Perm (ofUnit method.body)) :
    (shown (methodLines owner indent methods)).Perm
      ((methods.map MethodDescriptor.body).flatMap ofUnit) := by
  induction methods with
  | nil =>
      rw [methodLines]
      exact .refl _
  | cons method rest inductionHypothesis =>
      obtain ⟨first, others⟩ := List.forall_mem_cons.mp shows
      obtain ⟨selector, parameters, body⟩ := method
      rw [methodLines, shown_append]
      exact (first _ _).append (inductionHypothesis others)

/-- The lines of a constant show what its units show. -/
theorem shown_constantLines {constant : Constant} (count indent : Nat)
    (shows : ∀ inner ∈ constant.units, ∀ title indent,
      (shown (unitLines title indent inner)).Perm (ofUnit inner)) :
    (shown ((constantLines constant).2 count indent)).Perm (constant.units.flatMap ofUnit) := by
  cases constant with
  | block body =>
      rw [constantLines, Constant.units, List.flatMap_singleton]
      exact shows body (List.mem_singleton_self body) _ _
  | classDescriptor descriptor =>
      obtain ⟨name, superclass, fields, classVars, methods, classMethods⟩ := descriptor
      rw [constantLines]
      simp only [shown_append, Constant.units, List.map_append, List.flatMap_append]
      have heading : shown [⟨indent, .classHeading name (superclass.getD "nil")⟩] = [] := rfl
      have ofFields : shown (if fields.isEmpty then [] else [⟨indent, .fields fields⟩]) = [] := by
        split <;> rfl
      have ofClassVars :
          shown (if classVars.isEmpty then [] else [⟨indent, .classVars classVars⟩]) = [] := by
        split <;> rfl
      rw [heading, ofFields, ofClassVars, List.nil_append, List.nil_append, List.nil_append]
      have inside : ∀ method, method ∈ methods ∨ method ∈ classMethods → ∀ title indent,
          (shown (unitLines title indent method.body)).Perm (ofUnit method.body) :=
        fun method member => shows method.body
          (List.mem_map_of_mem (List.mem_append.mpr member))
      exact List.Perm.append
        (shown_methodLines _ _ methods fun method member => inside method (Or.inl member))
        (shown_methodLines _ _ classMethods fun method member => inside method (Or.inr member))
  | int _ | float _ | string _ | bool _ | nil =>
      simp [constantLines, shown, Constant.units]

/-- Below an instruction stands what the turns lead to that it opens. -/
theorem shownBelow_perm {unit : CodeUnit} {instruction : Instruction}
    (inOrder : unit.OpensInOrder) (member : instruction ∈ unit.code.toList)
    {ofTurn : Turn → List Content} (indent : Nat)
    (same : ∀ turn inner, unit.inner? turn = some inner → ofTurn turn = ofUnit inner)
    (shows : ∀ turn inner, unit.inner? turn = some inner → ∀ title indent,
      (shown (unitLines title indent inner)).Perm (ofUnit inner)) :
    (shownBelow unit indent instruction).Perm ((unit.turnsOf instruction).flatMap ofTurn) := by
  unfold shownBelow CodeUnit.turnsOf
  cases opens : instruction.opened? with
  | none =>
      rw [nestedEntry?_of_quiet opens]
      exact .refl _
  | some entry =>
      obtain ⟨opcode, index⟩ := entry
      obtain ⟨constant, isConstant, isOpener⟩ := inOrder.exists_constant member opens
      obtain ⟨count, isEntry⟩ := nestedEntry?_of_opens opens isConstant isOpener
      rw [isEntry]
      dsimp only
      rw [isConstant]
      dsimp only
      rw [CodeUnit.flatMap_turns_constant isConstant same]
      refine shown_constantLines count (indent + 2) fun inner isUnit => ?_
      obtain ⟨place, isPlace⟩ := List.mem_iff_getElem?.mp isUnit
      exact shows ⟨index, place⟩ inner
        (CodeUnit.inner?_eq_some_iff.mpr ⟨constant, isConstant, isPlace⟩)

end Nested

/-- Where all units create in order, the listing shows every instruction once. -/
theorem shown_perm (unit : CodeUnit)
    (inOrder : ∀ path inner, unit.unitAt? path = some inner → inner.OpensInOrder) :
    ∀ title indent,
      (shown (unitLines title indent unit)).Perm (unit.occurrences.map contentOf) := by
  induction unit using CodeUnit.pool_induction with
  | step unit inductionHypothesis =>
      intro title indent
      have inOrderHere : unit.OpensInOrder := inOrder [] unit rfl
      have shows : ∀ turn inner, unit.inner? turn = some inner → ∀ title indent,
          (shown (unitLines title indent inner)).Perm (inner.occurrences.map contentOf) :=
        fun turn inner found => inductionHypothesis turn inner found fun path further isFurther =>
          inOrder (turn :: path) further
            (CodeUnit.unitAt?_cons_eq_some_iff.mpr ⟨inner, found, isFurther⟩)
      have same : ∀ turn inner, unit.inner? turn = some inner →
          (unit.occurrencesAt turn).map contentOf = inner.occurrences.map contentOf := by
        intro turn inner found
        rw [CodeUnit.occurrencesAt_of_inner? found, List.map_map]
        rfl
      have own : unit.ownOccurrences.map contentOf = unit.code.toList.zipIdx.flatMap
          fun entry => [contentOf ⟨[], unit, entry.2, entry.1⟩] := by
        unfold CodeUnit.ownOccurrences
        rw [List.map_map, ← List.map_eq_flatMap]
        rfl
      have below : (unit.turns.flatMap unit.occurrencesAt).map contentOf =
          unit.code.toList.zipIdx.flatMap fun entry => (unit.turnsOf entry.1).flatMap
            fun turn => (unit.occurrencesAt turn).map contentOf := by
        rw [List.map_flatMap, ← inOrderHere.flatMap_turnsOf, List.flatMap_assoc]
        conv_lhs => rw [← List.zipIdx_map_fst 0 unit.code.toList, List.flatMap_map]
      rw [shown_unitLines, CodeUnit.occurrences_eq, List.map_append, own, below]
      refine .trans (.flatMap_left _ fun ⟨instruction, ip⟩ member => ?_)
        (List.flatMap_append_perm _ _ _).symm
      refine .append_left _ (shownBelow_perm inOrderHere ?_ indent same shows)
      exact List.mem_of_getElem? (List.mem_zipIdx_iff_getElem?.mp member)

end Listing

end Missive
