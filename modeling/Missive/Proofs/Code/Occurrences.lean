import Mathlib.Data.List.Sigma
import Missive.Code.Statistics

/-!
# Where instructions stand

The bodies of blocks and methods are units in the pool of the unit around them.  A path tells how to
get to one of them: at each level, the place of a constant in the pool, and the place of a unit in
this constant.

All instructions of a unit are listed here with their paths, first those of the unit itself and then
those of the units in its pool.  The statistics count the same instructions in the same order.
-/

namespace Missive

/-! ## Places in a list -/

/-- Two things that may not stand apart in a list stand at the same place. -/
theorem place_eq_of_pairwise {α : Type} {apart : α → α → Prop} {items : List α} {a b : α}
    {i j : Nat} (pairwise : items.Pairwise apart) (first : items[i]? = some a)
    (second : items[j]? = some b)
    (notBefore : ¬ apart a b) (notAfter : ¬ apart b a) : i = j := by
  obtain ⟨inside, rfl⟩ := List.getElem?_eq_some_iff.mp first
  obtain ⟨alsoInside, rfl⟩ := List.getElem?_eq_some_iff.mp second
  have ofPlaces := List.pairwise_iff_getElem.mp pairwise
  rcases Nat.lt_trichotomy i j with before | equal | after
  · exact (notBefore (ofPlaces i j inside alsoInside before)).elim
  · exact equal
  · exact (notAfter (ofPlaces j i alsoInside inside after)).elim

/-! ## Units inside of a unit -/

/-- The units in a constant: the body of a block, or the bodies of the methods of a class. -/
def Constant.units : Constant → List CodeUnit
  | .block body => [body]
  | .classDescriptor descriptor =>
    (descriptor.methods ++ descriptor.classMethods).map MethodDescriptor.body
  | .int _ | .float _ | .string _ | .bool _ | .nil => []

/-- One level of a path. -/
structure Turn where
  /-- The place of a constant in the pool. -/
  constant : Nat
  /-- The place of a unit in the constant. -/
  unit : Nat
  deriving DecidableEq

/-- The turns that lead to the units of a constant with a place in the pool. -/
def Constant.turns (constant : Constant) (index : Nat) : List Turn :=
  constant.units.zipIdx.map fun entry => ⟨index, entry.2⟩

namespace CodeUnit

variable {unit inner : CodeUnit} {turn : Turn} {path : List Turn}

/-- The unit to which a turn leads. -/
def inner? (unit : CodeUnit) (turn : Turn) : Option CodeUnit :=
  (unit.constants[turn.constant]?).bind fun constant => constant.units[turn.unit]?

/-- The unit to which a path leads. -/
def unitAt? (unit : CodeUnit) : List Turn → Option CodeUnit
  | [] => some unit
  | turn :: path => (unit.inner? turn).bind fun inner => inner.unitAt? path

/-- All turns in a unit. -/
def turns (unit : CodeUnit) : List Turn :=
  unit.constants.zipIdx.flatMap fun (constant, index) => constant.turns index

theorem inner?_eq_some_iff : unit.inner? turn = some inner ↔
    ∃ constant, unit.constants[turn.constant]? = some constant ∧
      constant.units[turn.unit]? = some inner :=
  Option.bind_eq_some_iff

theorem mem_units_of_inner? (found : unit.inner? turn = some inner) :
    ∃ constant ∈ unit.constants, inner ∈ constant.units := by
  obtain ⟨constant, isConstant, isUnit⟩ := inner?_eq_some_iff.mp found
  exact ⟨constant, List.mem_of_getElem? isConstant, List.mem_of_getElem? isUnit⟩

theorem unitAt?_cons (unit : CodeUnit) (turn : Turn) (path : List Turn) :
    unit.unitAt? (turn :: path) = (unit.inner? turn).bind fun inner => inner.unitAt? path := rfl

theorem unitAt?_cons_eq_some_iff : unit.unitAt? (turn :: path) = some inner ↔
    ∃ between, unit.inner? turn = some between ∧ between.unitAt? path = some inner := by
  rw [unitAt?_cons]
  exact Option.bind_eq_some_iff

theorem mem_turns : turn ∈ unit.turns ↔ (unit.inner? turn).isSome = true := by
  obtain ⟨index, place⟩ := turn
  rw [Option.isSome_iff_exists]
  unfold turns Constant.turns
  simp only [List.mem_flatMap, List.mem_map, Prod.exists, List.mem_zipIdx_iff_getElem?,
    inner?_eq_some_iff, Turn.mk.injEq]
  constructor
  · rintro ⟨constant, _, isConstant, inner, _, isUnit, rfl, rfl⟩
    exact ⟨inner, constant, isConstant, isUnit⟩
  · rintro ⟨inner, constant, isConstant, isUnit⟩
    exact ⟨constant, index, isConstant, inner, place, isUnit, rfl, rfl⟩

theorem nodup_turns (unit : CodeUnit) : unit.turns.Nodup := by
  unfold turns
  rw [List.nodup_flatMap]
  constructor
  · rintro ⟨constant, index⟩ _
    refine List.pairwise_map.mpr ((List.pairwise_map.mp
      (List.nodup_zipIdx_map_snd constant.units)).imp fun different same => ?_)
    exact different (Turn.mk.inj same).2
  · refine (List.pairwise_map.mp (List.nodup_zipIdx_map_snd unit.constants)).imp ?_
    rintro ⟨one, index⟩ ⟨other, otherIndex⟩ different turn inOne inOther
    obtain ⟨_, _, rfl⟩ := List.mem_map.mp inOne
    obtain ⟨_, _, same⟩ := List.mem_map.mp inOther
    exact different (Turn.mk.inj same).1.symm

/-- What is told of each turn to a constant is what is told of each of its units. -/
theorem flatMap_turns_constant {α : Type} {constant : Constant} {index : Nat}
    {ofTurn : Turn → List α} {ofUnit : CodeUnit → List α}
    (isConstant : unit.constants[index]? = some constant)
    (same : ∀ turn inner, unit.inner? turn = some inner → ofTurn turn = ofUnit inner) :
    (constant.turns index).flatMap ofTurn = constant.units.flatMap ofUnit := by
  unfold Constant.turns
  conv_rhs => rw [← List.zipIdx_map_fst 0 constant.units]
  rw [List.flatMap_map, List.flatMap_map]
  refine List.flatMap_congr fun ⟨inner, place⟩ isUnit => ?_
  exact same _ _ (inner?_eq_some_iff.mpr
    ⟨constant, isConstant, List.mem_zipIdx_iff_getElem?.mp isUnit⟩)

theorem flatMap_turns {α : Type} {ofTurn : Turn → List α} {ofUnit : CodeUnit → List α}
    (same : ∀ turn inner, unit.inner? turn = some inner → ofTurn turn = ofUnit inner) :
    unit.turns.flatMap ofTurn =
      unit.constants.flatMap fun constant => constant.units.flatMap ofUnit := by
  unfold turns
  rw [List.flatMap_assoc]
  conv_rhs => rw [← List.zipIdx_map_fst 0 unit.constants, List.flatMap_map]
  refine List.flatMap_congr fun ⟨constant, index⟩ isConstant => ?_
  exact flatMap_turns_constant (List.mem_zipIdx_iff_getElem?.mp isConstant) same

theorem sizeOf_lt_of_mem_units {constant : Constant} (isUnit : inner ∈ constant.units) :
    sizeOf inner < sizeOf constant := by
  cases constant with
  | block body =>
      obtain rfl := List.mem_singleton.mp isUnit
      rw [Constant.block.sizeOf_spec]
      omega
  | classDescriptor descriptor =>
      obtain ⟨name, superclass, fields, classVars, methods, classMethods⟩ := descriptor
      obtain ⟨method, isMethod, rfl⟩ := List.mem_map.mp isUnit
      have smaller : sizeOf method.body < sizeOf method := by
        obtain ⟨selector, parameters, body⟩ := method
        rw [MethodDescriptor.mk.sizeOf_spec]
        dsimp only
        omega
      rw [Constant.classDescriptor.sizeOf_spec, ClassDescriptor.mk.sizeOf_spec]
      rcases List.mem_append.mp isMethod with member | member
      · have inTable : sizeOf method < sizeOf methods := List.sizeOf_lt_of_mem member
        omega
      · have inTable : sizeOf method < sizeOf classMethods := List.sizeOf_lt_of_mem member
        omega
  | int _ | float _ | string _ | bool _ | nil =>
      cases isUnit

theorem sizeOf_lt_of_inner? (found : unit.inner? turn = some inner) :
    sizeOf inner < sizeOf unit := by
  obtain ⟨constant, isConstant, isUnit⟩ := mem_units_of_inner? found
  have inConstant := sizeOf_lt_of_mem_units isUnit
  have inPool := List.sizeOf_lt_of_mem isConstant
  obtain ⟨code, constants⟩ := unit
  rw [CodeUnit.mk.sizeOf_spec]
  dsimp only at inPool
  omega

end CodeUnit

/-! ## Occurrences -/

/-- An instruction with the place where it stands. -/
structure Occurrence where
  path : List Turn
  unit : CodeUnit
  ip : Nat
  instruction : Instruction

namespace Occurrence

/-- The path leads to the unit, and the instruction stands there. -/
def IsIn (occurrence : Occurrence) (whole : CodeUnit) : Prop :=
  whole.unitAt? occurrence.path = some occurrence.unit ∧
    occurrence.unit.code[occurrence.ip]? = some occurrence.instruction

/-- The same instruction with its place in a unit further out. -/
def below (turn : Turn) (occurrence : Occurrence) : Occurrence :=
  { occurrence with path := turn :: occurrence.path }

theorem below_injective (turn : Turn) : Function.Injective (below turn) := by
  rintro ⟨path, unit, ip, instruction⟩ ⟨otherPath, _, _, _⟩ same
  obtain ⟨samePath, rfl, rfl, rfl⟩ := Occurrence.mk.inj same
  obtain rfl := (List.cons.inj samePath).2
  rfl

theorem isIn_below_iff {occurrence : Occurrence} {turn : Turn} {whole : CodeUnit} :
    (occurrence.below turn).IsIn whole ↔
      ∃ inner, whole.inner? turn = some inner ∧ occurrence.IsIn inner := by
  unfold IsIn below
  rw [CodeUnit.unitAt?_cons_eq_some_iff]
  constructor
  · rintro ⟨⟨inner, isInner, isUnit⟩, isThere⟩
    exact ⟨inner, isInner, isUnit, isThere⟩
  · rintro ⟨inner, isInner, isUnit, isThere⟩
    exact ⟨⟨inner, isInner, isUnit⟩, isThere⟩

end Occurrence

namespace CodeUnit

variable {unit inner : CodeUnit} {occurrence : Occurrence}

/-- The instructions of the unit itself. -/
def ownOccurrences (unit : CodeUnit) : List Occurrence :=
  unit.code.toList.zipIdx.map fun (instruction, ip) => ⟨[], unit, ip, instruction⟩

/-- The instructions of a unit and of all units in its pool, in the order of the pool. -/
def occurrences (unit : CodeUnit) : List Occurrence :=
  unit.ownOccurrences ++ unit.turns.flatMap fun turn =>
    match _found : unit.inner? turn with
    | some inner => inner.occurrences.map (.below turn)
    | none => []
termination_by sizeOf unit
decreasing_by exact sizeOf_lt_of_inner? _found

/-- The instructions to which a turn leads. -/
def occurrencesAt (unit : CodeUnit) (turn : Turn) : List Occurrence :=
  match unit.inner? turn with
  | some inner => inner.occurrences.map (.below turn)
  | none => []

theorem occurrences_eq (unit : CodeUnit) :
    unit.occurrences = unit.ownOccurrences ++ unit.turns.flatMap unit.occurrencesAt := by
  rw [occurrences]
  congr 1
  refine List.flatMap_congr fun turn _ => ?_
  unfold occurrencesAt
  split <;> rename_i found <;> rw [found]

theorem occurrencesAt_of_inner? {turn : Turn} (found : unit.inner? turn = some inner) :
    unit.occurrencesAt turn = inner.occurrences.map (.below turn) := by
  unfold occurrencesAt
  rw [found]

/-- What holds of a unit as soon as it holds of the units in its pool holds of every unit. -/
theorem pool_induction {holds : CodeUnit → Prop}
    (step : ∀ unit, (∀ turn inner, unit.inner? turn = some inner → holds inner) → holds unit)
    (unit : CodeUnit) : holds unit := by
  induction size : sizeOf unit using Nat.strongRecOn generalizing unit with
  | ind _ inductionHypothesis =>
      refine step unit fun turn inner found => ?_
      exact inductionHypothesis _ (size ▸ sizeOf_lt_of_inner? found) inner rfl

theorem mem_ownOccurrences : occurrence ∈ unit.ownOccurrences ↔
    occurrence.path = [] ∧ occurrence.IsIn unit := by
  obtain ⟨path, own, ip, instruction⟩ := occurrence
  unfold ownOccurrences Occurrence.IsIn
  simp only [List.mem_map, Prod.exists, List.mem_zipIdx_iff_getElem?, Occurrence.mk.injEq,
    Array.getElem?_toList]
  constructor
  · rintro ⟨_, _, isThere, rfl, rfl, rfl, rfl⟩
    exact ⟨rfl, rfl, isThere⟩
  · rintro ⟨rfl, isUnit, isThere⟩
    obtain rfl := Option.some.inj isUnit
    exact ⟨instruction, ip, isThere, rfl, rfl, rfl, rfl⟩

theorem nodup_ownOccurrences (unit : CodeUnit) : unit.ownOccurrences.Nodup := by
  refine List.pairwise_map.mpr ((List.pairwise_map.mp
    (List.nodup_zipIdx_map_snd unit.code.toList)).imp fun different same => ?_)
  exact different (Occurrence.mk.inj same).2.2.1

/-- The instructions in the list are those of the unit and of the units in it. -/
theorem mem_occurrences : occurrence ∈ unit.occurrences ↔ occurrence.IsIn unit := by
  induction unit using pool_induction generalizing occurrence with
  | step unit inductionHypothesis =>
      rw [occurrences_eq, List.mem_append, mem_ownOccurrences, List.mem_flatMap]
      constructor
      · rintro (⟨_, isIn⟩ | ⟨turn, isTurn, member⟩)
        · exact isIn
        · obtain ⟨inner, found⟩ := Option.isSome_iff_exists.mp (mem_turns.mp isTurn)
          rw [occurrencesAt_of_inner? found] at member
          obtain ⟨further, isFurther, rfl⟩ := List.mem_map.mp member
          exact Occurrence.isIn_below_iff.mpr
            ⟨inner, found, (inductionHypothesis turn inner found).mp isFurther⟩
      · intro isIn
        obtain ⟨path, own, ip, instruction⟩ := occurrence
        cases path with
        | nil =>
            exact Or.inl ⟨rfl, isIn⟩
        | cons turn path =>
            have isBelow : (Occurrence.below turn ⟨path, own, ip, instruction⟩).IsIn unit := isIn
            obtain ⟨inner, found, further⟩ := Occurrence.isIn_below_iff.mp isBelow
            refine Or.inr ⟨turn, mem_turns.mpr (Option.isSome_iff_exists.mpr ⟨inner, found⟩), ?_⟩
            rw [occurrencesAt_of_inner? found]
            exact List.mem_map.mpr
              ⟨_, (inductionHypothesis turn inner found).mpr further, rfl⟩

/-- Every occurrence below a turn has a path that begins with it. -/
theorem head_of_mem_occurrencesAt {turn : Turn} (member : occurrence ∈ unit.occurrencesAt turn) :
    occurrence.path.head? = some turn := by
  unfold occurrencesAt at member
  split at member
  · obtain ⟨further, _, rfl⟩ := List.mem_map.mp member
    rfl
  · cases member

/-- No instruction is listed twice. -/
theorem nodup_occurrences (unit : CodeUnit) : unit.occurrences.Nodup := by
  induction unit using pool_induction with
  | step unit inductionHypothesis =>
      rw [occurrences_eq, List.nodup_append']
      refine ⟨nodup_ownOccurrences unit, List.nodup_flatMap.mpr ⟨fun turn isTurn => ?_, ?_⟩, ?_⟩
      · obtain ⟨inner, found⟩ := Option.isSome_iff_exists.mp (mem_turns.mp isTurn)
        rw [occurrencesAt_of_inner? found]
        exact (inductionHypothesis turn inner found).map (Occurrence.below_injective turn)
      · refine (nodup_turns unit).imp fun different occurrence ofOne ofOther => different ?_
        exact Option.some.inj
          ((head_of_mem_occurrencesAt ofOne).symm.trans (head_of_mem_occurrencesAt ofOther))
      · intro occurrence isOwn further
        obtain ⟨turn, _, member⟩ := List.mem_flatMap.mp further
        have head := head_of_mem_occurrencesAt member
        rw [(mem_ownOccurrences.mp isOwn).1] at head
        cases head

end CodeUnit

/-! ## What the statistics count -/

theorem methodInstructions_eq (methods : List MethodDescriptor) :
    methodInstructions methods =
      (methods.map MethodDescriptor.body).flatMap CodeUnit.allInstructions := by
  induction methods with
  | nil =>
      rw [methodInstructions]
      rfl
  | cons method rest inductionHypothesis =>
      obtain ⟨selector, parameters, body⟩ := method
      rw [methodInstructions, inductionHypothesis]
      rfl

theorem Constant.allInstructions_eq (constant : Constant) :
    constant.allInstructions = constant.units.flatMap CodeUnit.allInstructions := by
  cases constant with
  | block body =>
      rw [Constant.allInstructions, Constant.units, List.flatMap_singleton]
  | classDescriptor descriptor =>
      obtain ⟨_, _, _, _, methods, classMethods⟩ := descriptor
      rw [Constant.allInstructions, methodInstructions_eq, methodInstructions_eq, Constant.units,
        List.map_append, List.flatMap_append]
  | int _ | float _ | string _ | bool _ | nil =>
      simp [Constant.allInstructions, Constant.units]

theorem constantInstructions_eq (constants : List Constant) :
    constantInstructions constants =
      constants.flatMap fun constant => constant.units.flatMap CodeUnit.allInstructions := by
  induction constants with
  | nil =>
      rw [constantInstructions]
      rfl
  | cons constant rest inductionHypothesis =>
      rw [constantInstructions, inductionHypothesis, constant.allInstructions_eq]
      rfl

/-- The statistics count every instruction once. -/
theorem CodeUnit.allInstructions_eq (unit : CodeUnit) :
    unit.allInstructions = unit.occurrences.map Occurrence.instruction := by
  induction unit using pool_induction with
  | step unit inductionHypothesis =>
      have own : unit.ownOccurrences.map Occurrence.instruction = unit.code.toList := by
        unfold ownOccurrences
        rw [List.map_map]
        exact List.zipIdx_map_fst 0 unit.code.toList
      have inner : (unit.turns.flatMap unit.occurrencesAt).map Occurrence.instruction =
          constantInstructions unit.constants := by
        rw [constantInstructions_eq, List.map_flatMap]
        refine flatMap_turns fun turn inner found => ?_
        rw [occurrencesAt_of_inner? found, List.map_map, inductionHypothesis turn inner found]
        rfl
      rw [occurrences_eq, List.map_append, own, inner]
      cases unit
      rw [allInstructions]

/-! ## The entries of the statistics -/

theorem Opcode.mem_all (opcode : Opcode) : opcode ∈ Opcode.all := by
  cases opcode <;> decide

/-- No two operations have the same word. -/
theorem Opcode.nodup_mnemonics : (Opcode.all.map Opcode.mnemonic).Nodup := by
  decide +kernel

theorem Opcode.mnemonic_injective : Function.Injective Opcode.mnemonic := fun one other same =>
  List.inj_on_of_nodup_map nodup_mnemonics (mem_all one) (mem_all other) same

/-- How often the statistics say that an operation with the word occurs. -/
def CodeUnit.entryOf (unit : CodeUnit) (word : String) : Nat :=
  ((unit.opcodeCounts.map fun entry => (entry.1.mnemonic, entry.2)).lookup word).getD 0

theorem lookup_counts {word : String} (opcodes : List Opcode) (count : Opcode → Nat)
    (distinct : (opcodes.map Opcode.mnemonic).Nodup) :
    (((((opcodes.map fun opcode => (opcode, count opcode)).filter (0 < ·.2)).map
        fun entry => (entry.1.mnemonic, entry.2)).lookup word).getD 0) =
      ((opcodes.find? fun opcode => opcode.mnemonic == word).map count).getD 0 := by
  induction opcodes with
  | nil =>
      rfl
  | cons opcode rest inductionHypothesis =>
      rw [List.map_cons, List.nodup_cons] at distinct
      have others := inductionHypothesis distinct.2
      by_cases isWord : opcode.mnemonic = word
      · have missing : rest.find? (fun opcode => opcode.mnemonic == word) = none := by
          rw [List.find?_eq_none]
          intro other member same
          refine distinct.1 (List.mem_map.mpr ⟨other, member, ?_⟩)
          rw [isWord]
          exact beq_iff_eq.mp same
        rw [missing] at others
        by_cases occurs : 0 < count opcode
        · simp [isWord, occurs]
        · have never : count opcode = 0 := by omega
          simpa [isWord, never] using others
      · have different : (word == opcode.mnemonic) = false := by simpa using Ne.symm isWord
        by_cases occurs : 0 < count opcode
        · simpa [List.lookup_cons, different, isWord, occurs] using others
        · simpa [isWord, occurs] using others

/-- The entry of a word counts the instructions whose operation has this word. -/
theorem CodeUnit.entryOf_eq (unit : CodeUnit) (word : String) :
    unit.entryOf word =
      unit.allInstructions.countP fun instruction => instruction.opcode.mnemonic == word := by
  unfold entryOf opcodeCounts
  rw [lookup_counts Opcode.all unit.opcodeCount Opcode.nodup_mnemonics]
  cases found : Opcode.all.find? fun opcode => opcode.mnemonic == word with
  | none =>
      have missing := List.find?_eq_none.mp found
      refine (List.countP_eq_zero.mpr fun instruction _ => ?_).symm
      exact missing instruction.opcode (Opcode.mem_all _)
  | some opcode =>
      have isWord : opcode.mnemonic = word := by simpa using List.find?_some found
      rw [Option.map_some, Option.getD_some, opcodeCount]
      congr 1
      funext instruction
      rw [← isWord, Bool.eq_iff_iff, beq_iff_eq, beq_iff_eq]
      exact Opcode.mnemonic_injective.eq_iff.symm

end Missive
