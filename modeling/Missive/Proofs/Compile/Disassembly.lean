import Missive.Proofs.Code.Openings
import Missive.Proofs.Compile.Constants

/-!
# Listings of compiled programs

The compiler puts a block or a class into the pool right before the instruction that creates it, and
never shares its place.  So the code of every unit creates the blocks and classes of its pool one
after the other, each of them once, and a listing, which follows the instructions, shows what the
statistics count, which follow the pools.

The text of a listing is made of its lines, and the line of an instruction contains the text of the
instruction.  `Text.Holds parts text` says that the parts are found in the text one after the other.
-/

namespace Missive

/-! ## Code that grows -/

theorem Instruction.opened?_eq_none {instruction : Instruction}
    (noBlock : instruction.opcode ≠ .makeClosure) (noClass : instruction.opcode ≠ .defineClass) :
    instruction.opened? = none := by
  unfold Instruction.opened?
  split
  · rename_i isBlock
    exact (noBlock isBlock).elim
  · rename_i isClass
    exact (noClass isClass).elim
  · rfl

theorem Instruction.opened?_packed {index count : Nat} (small : index ≤ maxPackedIndex)
    (few : count ≤ maxPackedCount) :
    (packed .makeClosure index count).opened? = some (.makeClosure, index) := by
  change some (Opcode.makeClosure, (unpack (packedOperand index count)).1) = _
  rw [unpack_packedOperand small few]

theorem Instruction.opened?_indexed {index : Nat} (small : index ≤ maxPackedIndex) :
    (indexed .defineClass index).opened? = some (.defineClass, index) := by
  have fits : index < 0x80000000 := Nat.lt_of_le_of_lt small (by decide)
  change (Exec.operandIndex? (Int32.ofNat index)).map (fun index => (Opcode.defineClass, index)) = _
  rw [Exec.operandIndex?_ofNat fits]
  rfl

namespace CodeUnit.OpensInOrder

variable {unit grown : CodeUnit} {instruction : Instruction} {constant : Constant} {index : Nat}

theorem empty : CodeUnit.empty.OpensInOrder := rfl

/-- An instruction and a constant with which nothing is created. -/
theorem quiet (inOrder : unit.OpensInOrder) (quiet : instruction.opened? = none)
    (sameCode : grown.code = unit.code) (noOpener : constant.opener? = none)
    (pools : grown.constants = unit.constants ∨ grown.constants = unit.constants ++ [constant]) :
    (grown.add instruction).OpensInOrder := by
  have samePools : openings grown.constants = openings unit.constants := by
    rcases pools with same | longer
    · rw [same]
    · rw [longer, openings_append_singleton, noOpener]
      simp
  unfold OpensInOrder CodeUnit.add
  dsimp only
  rw [samePools, sameCode, Array.toList_push, List.filterMap_append, ← inOrder]
  simp [quiet]

/-- An instruction that creates something from a constant that comes last in the pool. -/
theorem opening (inOrder : unit.OpensInOrder) {opcode : Opcode}
    (opens : instruction.opened? = some (opcode, unit.constants.length))
    (isOpener : constant.opener? = some opcode) :
    CodeUnit.OpensInOrder
      (CodeUnit.add { unit with constants := unit.constants ++ [constant] } instruction) := by
  unfold OpensInOrder CodeUnit.add
  dsimp only
  rw [openings_append_singleton, Array.toList_push, List.filterMap_append, inOrder, isOpener]
  simp [opens]

end CodeUnit.OpensInOrder

/-- A block or a class gets a place of its own at the end of the pool. -/
theorem addConstant_of_opener {constant : Constant} {opcode : Opcode} {unit grown : CodeUnit}
    {index : Nat} (isOpener : constant.opener? = some opcode)
    (added : addConstant constant unit = .ok (index, grown)) :
    index = unit.constants.length ∧ index ≤ Instruction.maxPackedIndex ∧
      grown = { unit with constants := unit.constants ++ [constant] } := by
  have isOwn : constant.demand = .own := by
    cases constant with
    | block _ | classDescriptor _ =>
        rfl
    | int _ | float _ | string _ | bool _ | nil =>
        cases isOpener
  rcases addConstant_eq_ok.mp added with ⟨found, _⟩ | ⟨_, enough, rfl, isGrown⟩
  · rw [findIdx?_sameLiteral_eq_none_iff.mpr (Or.inl isOwn)] at found
    cases found
  · exact ⟨rfl, enough, isGrown⟩

theorem Literal.opener?_of_constant? {value : Literal} {constant : Constant}
    (isConstant : value.constant? = some constant) : constant.opener? = none := by
  cases value <;> cases isConstant <;> rfl

/-- An operation with a literal, a selector or a name keeps the order, whether the constant is new
or shared. -/
theorem opensInOrder_of_quiet {unit grown : CodeUnit} {opcode : Opcode} {constant : Constant}
    {count : Option Nat} (fits : unit.PoolFits) (inOrder : unit.OpensInOrder)
    (added : (Op.pooled opcode constant count).add unit = .ok ((), grown))
    (noBlock : opcode ≠ .makeClosure) (noClass : opcode ≠ .defineClass)
    (noOpener : constant.opener? = none) : grown.OpensInOrder := by
  obtain ⟨_, index, between, constantAdded, rfl⟩ := (Op.add_pooled_eq_ok fits).mp added
  obtain ⟨_, _, _, sameCode, pools⟩ := addConstant_ok fits constantAdded
  refine inOrder.quiet ?_ sameCode noOpener pools
  cases count with
  | none | some _ =>
      exact Instruction.opened?_eq_none noBlock noClass

/-- An operation that carries a reference keeps the order. -/
theorem Reference.Stands.opensInOrder {reference : Reference} {op : Op} {unit grown : CodeUnit}
    (stands : reference.Stands op) (fits : unit.PoolFits) (inOrder : unit.OpensInOrder)
    (added : op.add unit = .ok ((), grown)) : grown.OpensInOrder := by
  cases stands with
  | literal isConstant =>
      exact opensInOrder_of_quiet fits inOrder added nofun nofun
        (Literal.opener?_of_constant? isConstant)
  | @message toSuper _ _ _ isOpcode _ =>
      subst isOpcode
      cases toSuper with
      | false | true =>
          exact opensInOrder_of_quiet fits inOrder added nofun nofun rfl
  | @use _ _ _ opcode _ isName =>
      have noBlock : opcode ≠ .makeClosure := by
        rintro rfl
        cases isName
      have noClass : opcode ≠ .defineClass := by
        rintro rfl
        cases isName
      exact opensInOrder_of_quiet fits inOrder added noBlock noClass rfl
  | block few _ =>
      obtain ⟨_, index, between, constantAdded, rfl⟩ := (Op.add_pooled_eq_ok fits).mp added
      obtain ⟨rfl, small, rfl⟩ := addConstant_of_opener rfl constantAdded
      exact inOrder.opening (Instruction.opened?_packed small few) rfl
  | definition _ =>
      obtain ⟨_, index, between, constantAdded, rfl⟩ := (Op.add_pooled_eq_ok fits).mp added
      obtain ⟨rfl, small, rfl⟩ := addConstant_of_opener rfl constantAdded
      exact inOrder.opening (Instruction.opened?_indexed small) rfl

theorem Instruction.opened?_of_isPlain {instruction : Instruction}
    (plain : instruction.opcode.operandKind.isPlain = true) : instruction.opened? = none := by
  apply Instruction.opened?_eq_none
  · intro isBlock
    rw [isBlock] at plain
    cases plain
  · intro isClass
    rw [isClass] at plain
    cases plain

theorem opensInOrder_of_assemble {ops : List Op} {unit grown : CodeUnit}
    (stand : ∀ op ∈ ops, op.isPooled = true → ∃ reference : Reference, reference.Stands op)
    (plain : ∀ instruction, .bare instruction ∈ ops →
      instruction.opcode.operandKind.isPlain = true)
    (fits : unit.PoolFits) (inOrder : unit.OpensInOrder)
    (assembled : assemble ops unit = .ok ((), grown)) : grown.OpensInOrder := by
  induction ops generalizing unit with
  | nil =>
      cases assembled
      exact inOrder
  | cons op rest inductionHypothesis =>
      obtain ⟨⟨⟩, between, opAdded, restAssembled⟩ := Lower.bind_eq_ok.mp assembled
      have betweenFits := (assembled_one fits opAdded).poolFits
      refine inductionHypothesis (fun other member => stand other (List.mem_cons_of_mem _ member))
        (fun other member => plain other (List.mem_cons_of_mem _ member)) betweenFits ?_
        restAssembled
      cases op with
      | bare instruction =>
          obtain rfl := Lower.emit_eq_ok.mp opAdded
          have quiet := Instruction.opened?_of_isPlain (plain instruction List.mem_cons_self)
          exact inOrder.quiet quiet rfl (rfl : Constant.nil.opener? = none) (Or.inl rfl)
      | pooled opcode constant count =>
          obtain ⟨reference, stands⟩ := stand _ List.mem_cons_self rfl
          exact stands.opensInOrder fits inOrder opAdded

theorem CodeUnit.ComesFrom.opensInOrder {unit : CodeUnit} {references : List Reference}
    (comesFrom : unit.ComesFrom references) : unit.OpensInOrder := by
  obtain ⟨ops, carry, assembled⟩ := comesFrom
  refine opensInOrder_of_assemble (fun op member isPooled => ?_) carry.plain
    CodeUnit.poolFits_empty .empty assembled
  obtain ⟨reference, _, stands⟩ := carry.exists_reference member isPooled
  exact ⟨reference, stands⟩

/-! ## The text of a listing -/

/-- The parts stand in the text in this order and do not overlap. -/
inductive Text.Holds : List String → String → Prop
  | nil (text : String) : Holds [] text
  | cons {parts : List String} {after : String} (before part : String) :
      Holds parts after → Holds (part :: parts) (before ++ part ++ after)

theorem Text.Holds.after {parts : List String} {text : String} (holds : Text.Holds parts text)
    (before : String) : Text.Holds parts (before ++ text) := by
  cases holds with
  | nil =>
      exact .nil _
  | cons between part later =>
      rw [← String.append_assoc, ← String.append_assoc]
      exact .cons (before ++ between) part later

/-- How the text tells of an instruction: its position, whether jumps lead there, and the
instruction itself. -/
def Listing.entryText (occurrence : Occurrence) : String :=
  fourDigits occurrence.ip ++ " " ++
    (if isJumpTarget occurrence.unit.code occurrence.ip then "► " else "  ") ++
    occurrence.instruction.text

/-- The text of an instruction is its word and what it is given. -/
theorem Instruction.exists_text_eq (instruction : Instruction) :
    ∃ operand, instruction.text = instruction.opcode.mnemonic ++ operand := by
  unfold Instruction.text
  dsimp only
  generalize unpack instruction.operand = unpacked
  have shared : ∃ operand, instruction.opcode.mnemonic ++ " " ++ toString unpacked.1 ++ "/" ++
      toString unpacked.2 = instruction.opcode.mnemonic ++ operand :=
    ⟨" " ++ toString unpacked.1 ++ "/" ++ toString unpacked.2, by simp only [String.append_assoc]⟩
  cases instruction.opcode.operandKind with
  | none => exact ⟨"", String.append_empty.symm⟩
  | send | closure | outer => exact shared
  | _ => exact ⟨" " ++ toString instruction.operand.toInt, String.append_assoc⟩

/-- The line of an instruction tells of it. -/
theorem Listing.exists_text_eq {line : Line} {occurrence : Occurrence}
    (isLine : line.content = contentOf occurrence) :
    ∃ before after, line.text = before ++ entryText occurrence ++ after := by
  unfold Line.text
  rw [isLine]
  unfold contentOf Content.text entryText
  cases comment occurrence.unit.constants occurrence.ip occurrence.instruction with
  | none =>
      exact ⟨String.ofList (List.replicate (2 * line.indent) ' '), "\n", rfl⟩
  | some comment =>
      let padding := List.replicate (22 - occurrence.instruction.text.length) ' '
      refine ⟨String.ofList (List.replicate (2 * line.indent) ' '),
        String.ofList padding ++ "; " ++ comment ++ "\n", ?_⟩
      dsimp only [padRight]
      simp only [String.append_assoc]
      rfl

/-- The text tells of what the lines show, by induction on the lines. -/
theorem Listing.holds_text {lines : List Line} {visits : List Occurrence}
    (areShown : shown lines = visits.map contentOf) :
    Text.Holds (visits.map entryText) (text lines) := by
  induction lines generalizing visits with
  | nil =>
      obtain rfl := List.map_eq_nil_iff.mp areShown.symm
      exact .nil _
  | cons line rest inductionHypothesis =>
      unfold text
      rw [List.map_cons, String.join_cons]
      cases isInstruction : line.content.isInstruction with
      | false =>
          have restShown : shown rest = visits.map contentOf := by
            rw [← areShown]
            simp [shown, isInstruction]
          exact (inductionHypothesis restShown).after _
      | true =>
          have firstShown : line.content :: shown rest = visits.map contentOf := by
            rw [← areShown]
            simp [shown, isInstruction]
          obtain ⟨occurrence, others, rfl, isFirst, areOthers⟩ :=
            List.map_eq_cons_iff.mp firstShown.symm
          obtain ⟨before, after, isText⟩ := exists_text_eq isFirst.symm
          rw [isText, List.map_cons, String.append_assoc]
          exact .cons before _ ((inductionHypothesis areOthers.symm).after after)

/-! ## Listings -/

/-- All units in the code of a program create in order. -/
theorem Session.opensInOrder_of_compile {session final : Session} {program : Program}
    {unit : CodeUnit} (compiled : session.compile program = (final, .ok unit))
    (path : List Turn) (inner : CodeUnit) (found : unit.unitAt? path = some inner) :
    inner.OpensInOrder := by
  cases path with
  | nil =>
      obtain rfl := Option.some.inj found
      exact (Session.comesFrom_of_compile compiled).opensInOrder
  | cons turn path =>
      obtain ⟨surroundings, statements, _, lowered⟩ := Program.exists_body compiled found
      exact (Surroundings.comesFrom_of_lower lowered).opensInOrder

/-- The word of the operation that a line shows. -/
def Listing.Content.word? : Listing.Content → Option String
  | .instruction _ _ shown _ => some shown.opcode.mnemonic
  | _ => none

/-- In the code of a program exactly one instruction of a unit creates each block and each class of
its pool.  The listing shows every instruction of the code, those of all blocks and methods
included, exactly once, and each word as often as the statistics say.  Its text is that of its
lines: it tells of the instructions in the same order, of each with its word first. -/
theorem Session.listing_complete {session final : Session} {program : Program} {unit : CodeUnit}
    (compiled : session.compile program = (final, .ok unit)) :
    (∀ path inner, unit.unitAt? path = some inner →
      ∀ (index : Nat) (constant : Constant) (opcode : Opcode),
        inner.constants[index]? = some constant → constant.opener? = some opcode →
        ∃! ip : Nat, ∃ instruction : Instruction, inner.code[ip]? = some instruction ∧
          instruction.opened? = some (opcode, index)) ∧
      (∃ visits : List Occurrence, visits.Nodup ∧
        (∀ occurrence, occurrence ∈ visits ↔ occurrence.IsIn unit) ∧
        Listing.shown unit.listing = visits.map Listing.contentOf ∧
        unit.listingText = String.join (unit.listing.map Listing.Line.text) ∧
        Text.Holds (visits.map Listing.entryText) unit.listingText ∧
        ∀ visit ∈ visits, ∃ operand,
          visit.instruction.text = visit.instruction.opcode.mnemonic ++ operand) ∧
      ∀ word, ((Listing.shown unit.listing).countP fun content => content.word? == some word) =
        unit.entryOf word := by
  have inOrder := Session.opensInOrder_of_compile compiled
  have perm : (Listing.shown unit.listing).Perm (unit.occurrences.map Listing.contentOf) :=
    Listing.shown_perm unit inOrder "main" 0
  refine ⟨fun path inner found index constant opcode => (inOrder path inner found).existsUnique,
    ?_, fun word => ?_⟩
  · have listed : (Relation.Comp (· = List.map Listing.contentOf ·) List.Perm)
        (Listing.shown unit.listing) unit.occurrences := by
      rw [List.eq_map_comp_perm]
      exact perm
    obtain ⟨visits, shown, visitsPerm⟩ := listed
    refine ⟨visits, visitsPerm.nodup_iff.mpr unit.nodup_occurrences, fun occurrence => ?_, shown,
      rfl, Listing.holds_text shown, fun visit _ => visit.instruction.exists_text_eq⟩
    rw [visitsPerm.mem_iff, CodeUnit.mem_occurrences]
  · rw [perm.countP_eq, CodeUnit.entryOf_eq, CodeUnit.allInstructions_eq, List.countP_map,
      List.countP_map]
    refine List.countP_congr fun occurrence _ => ?_
    simp [Listing.contentOf, Listing.Content.word?]

/-- A method with a block inside of a block, and two blocks that are the same. -/
def boxes : Program :=
  [.define ⟨"Box", some "Object", [], [],
      [⟨"open", [], [.return (.block [] [.expr (.block [] [.expr .self])])]⟩], []⟩,
    .expr (.array [.block [] [], .block [] []])]

/-- Both blocks of the program have a place and an instruction of their own, and the blocks of the
method are listed as well. -/
theorem listing_complete_boxes :
    ∃ (session : Session) (unit body : CodeUnit) (visits : List Occurrence),
      Session.initial.compile boxes = (session, .ok unit) ∧
      unit.constants[1]? = some (.block body) ∧ unit.constants[2]? = some (.block body) ∧
      (∃! ip : Nat, ∃ instruction : Instruction, unit.code[ip]? = some instruction ∧
        instruction.opened? = some (.makeClosure, 2)) ∧
      visits.Nodup ∧ (∀ occurrence, occurrence ∈ visits ↔ occurrence.IsIn unit) ∧
      Listing.shown unit.listing = visits.map Listing.contentOf ∧
      Text.Holds (visits.map Listing.entryText) unit.listingText ∧
      ((Listing.shown unit.listing).countP fun content =>
        content.word? == some "MAKE_CLOSURE") = 4 := by
  let unit := boxes.compile.toOption.getD .empty
  have compiled : Session.initial.compile boxes =
      ((Session.initial.compile boxes).1, .ok unit) := rfl
  obtain ⟨opened, ⟨visits, nodup, complete, shown, -, holds, -⟩, counted⟩ :=
    Session.listing_complete compiled
  have closures : unit.entryOf "MAKE_CLOSURE" = 4 := by decide +kernel
  exact ⟨_, unit, _, visits, compiled, rfl, rfl, opened [] unit rfl 2 _ .makeClosure rfl rfl, nodup,
    complete, shown, holds, (counted "MAKE_CLOSURE").trans closures⟩

end Missive
