import Missive.Proofs.Code.Reading

/-!
# Writing a unit and reading it back

Every unit that can be written is read back exactly, as long as it nests no deeper than a file
may and passes verification.  The depth is counted the way the reader counts it: a block and a
class descriptor are one level below the unit whose pool holds them, and the body of a method is
one level below its class descriptor.

Units, pools, constants and methods refer to each other, so the statements about them are proved
together, following the writer.  Each of them says for every number of levels that the reader may
still go down that it reads back what was written if the levels suffice, and that it refuses the
bytes if they do not.
-/

namespace Missive

/-! ## Depth of nesting -/

mutual

/-- How many levels of units and class descriptors lie below a unit. -/
def CodeUnit.nesting : CodeUnit → Nat
  | ⟨_, constants⟩ => poolNesting constants

/-- How many levels the constants of a pool need below the unit that holds them. -/
def poolNesting : List Constant → Nat
  | [] => 0
  | constant :: rest => max constant.nesting (poolNesting rest)

/-- How many levels a constant needs below the unit that holds it. -/
def Constant.nesting : Constant → Nat
  | .block body => body.nesting + 1
  | .classDescriptor ⟨_, _, _, _, methods, classMethods⟩ =>
    max (methodsNesting methods) (methodsNesting classMethods) + 1
  | _ => 0

/-- How many levels methods need below the class descriptor that holds them. -/
def methodsNesting : List MethodDescriptor → Nat
  | [] => 0
  | ⟨_, _, body⟩ :: rest => max (body.nesting + 1) (methodsNesting rest)

end

theorem poolNesting_le_iff {constants : List Constant} {levels : Nat} :
    poolNesting constants ≤ levels ↔ ∀ constant ∈ constants, constant.nesting ≤ levels := by
  induction constants with
  | nil =>
      simp [poolNesting]
  | cons head rest inductionHypothesis =>
      rw [poolNesting, Nat.max_le, inductionHypothesis, List.forall_mem_cons]

theorem methodsNesting_le_iff {methods : List MethodDescriptor} {levels : Nat} :
    methodsNesting methods ≤ levels ↔ ∀ method ∈ methods, method.body.nesting < levels := by
  induction methods with
  | nil =>
      simp [methodsNesting]
  | cons head rest inductionHypothesis =>
      obtain ⟨selector, parameters, body⟩ := head
      rw [methodsNesting, Nat.max_le, inductionHypothesis, List.forall_mem_cons, Nat.succ_le_iff]

namespace Decoding

/-! ## Instructions -/

/-- An operand is read back from the word that stands for it. -/
theorem operand_of_word (operand : Int32) :
    (UInt32.ofNat operand.toUInt32.toNat).toInt32 = operand := by
  rw [UInt32.ofNat_toNat, Int32.toInt32_toUInt32]

theorem reads_instruction (i : Instruction) : Reads instruction i (Encoding.instruction i) := by
  intro tail offset
  have opcodeRead := reads_byte i.opcode.byte "opcode"
    (LittleEndian.bytes 4 i.operand.toUInt32.toNat ++ tail) offset
  have operandRead := reads_word 4 i.operand.toUInt32.toNat "operand" i.operand.toUInt32.toNat_lt
    tail (offset + 1)
  rw [List.singleton_append] at opcodeRead
  have positionRead : position ⟨Encoding.instruction i ++ tail, offset⟩ = .ok (offset,
      ⟨i.opcode.byte :: (LittleEndian.bytes 4 i.operand.toUInt32.toNat ++ tail), offset⟩) := rfl
  unfold instruction
  dsimp only [bind, StateT.bind]
  rw [positionRead]
  dsimp only [Except.bind]
  rw [opcodeRead]
  dsimp only
  rw [Opcode.ofByte?_byte]
  change (word 4 "operand" ⟨LittleEndian.bytes 4 i.operand.toUInt32.toNat ++ tail, offset + 1⟩
    >>= fun reached => pure ((⟨i.opcode, (UInt32.ofNat reached.1).toInt32⟩ : Instruction),
      reached.2)) = _
  rw [operandRead]
  change Except.ok ((⟨i.opcode, (UInt32.ofNat i.operand.toUInt32.toNat).toInt32⟩ : Instruction),
    (⟨tail, _⟩ : Cursor)) = _
  rw [operand_of_word]
  simp only [Encoding.instruction, List.length_cons, LittleEndian.length_bytes]

/-- The instructions of a unit as a written sequence. -/
theorem sequence_instruction (code : List Instruction) :
    Encoding.sequence (fun i => pure (Encoding.instruction i)) code =
      .ok (code.flatMap Encoding.instruction) := by
  induction code with
  | nil =>
      rfl
  | cons head rest inductionHypothesis =>
      change (Encoding.sequence _ rest >>= fun others =>
        pure (Encoding.instruction head ++ others)) = _
      rw [inductionHypothesis]
      rfl

theorem reads_instructions (code : List Instruction) :
    Reads (many instruction code.length) code (code.flatMap Encoding.instruction) := by
  have each : ∀ i ∈ code, ∀ bytes, (pure (Encoding.instruction i) : Encoding.Encoded) = .ok bytes →
      Decides True instruction i bytes := by
    intro i _ bytes written
    cases written
    exact (reads_instruction i).decides
  exact (decides_many each (sequence_instruction code)).reads (fun _ _ => trivial)

theorem length_instructions (code : List Instruction) :
    code.length * 5 ≤ (code.flatMap Encoding.instruction).length := by
  refine length_sequence ?_ (sequence_instruction code)
  intro i _ bytes written
  cases written
  simp [Encoding.instruction]

/-! ## Constants -/

/-- What is read for a constant behind its tag. -/
def content (block : Reader CodeUnit) (descriptor : Reader ClassDescriptor) :
    Format.Tag → Reader Constant
  | .int => do return .int (UInt64.ofNat (← word 8 "integer constant")).toInt64
  | .float => do return .float ⟨UInt64.ofNat (← word 8 "float constant")⟩
  | .string => do return .string (← text "string constant")
  | .bool => do return .bool ((← byte "boolean constant") != 0)
  | .nil => return .nil
  | .block => do return .block (← block)
  | .classDescriptor => do return .classDescriptor (← descriptor)

theorem constant_of_tag (block : Reader CodeUnit) (descriptor : Reader ClassDescriptor)
    (tag : Format.Tag) (rest : List UInt8) (offset : Nat) :
    constant block descriptor ⟨tag.byte :: rest, offset⟩ =
      content block descriptor tag ⟨rest, offset + 1⟩ := by
  have tagRead := reads_byte tag.byte "constant tag" rest offset
  rw [List.singleton_append] at tagRead
  have unfolded : constant block descriptor ⟨tag.byte :: rest, offset⟩ =
      (byte "constant tag" ⟨tag.byte :: rest, offset⟩ >>= fun reached =>
        (match Format.Tag.ofByte? reached.1 with
        | some found => content block descriptor found
        | none => throw (FormatError.unknownConstantTag reached.1 offset)) reached.2) := by
    rw [tagRead]
    cases tag <;> rfl
  rw [unfolded, tagRead]
  change (match Format.Tag.ofByte? tag.byte with
    | some found => content block descriptor found
    | none => throw (FormatError.unknownConstantTag tag.byte offset))
      (⟨rest, offset + 1⟩ : Cursor) = _
  rw [Format.Tag.ofByte?_byte]

theorem decides_tagged {fits : Prop} {block : Reader CodeUnit}
    {descriptor : Reader ClassDescriptor} {tag : Format.Tag} {value : Constant}
    {bytes : List UInt8}
    (decides : Decides fits (content block descriptor tag) value bytes) :
    Decides fits (constant block descriptor) value (tag.byte :: bytes) := by
  constructor
  · intro holds tail offset
    rw [List.cons_append, constant_of_tag, decides.reads holds, List.length_cons]
    simp only [Nat.add_assoc, Nat.add_comm 1]
  · intro fails tail offset
    rw [List.cons_append, constant_of_tag]
    exact decides.refuses fails tail (offset + 1)

theorem reads_superclass {parent : Option String} {bytes : List UInt8}
    (written : Encoding.superclass parent = .ok bytes) : Reads superclass parent bytes := by
  cases parent with
  | none =>
      cases written
      exact (reads_byte 0 "superclass flag").bind (reads_pure none)
  | some name =>
      obtain ⟨nameBytes, nameWritten, written⟩ := Except.bind_eq_ok.mp written
      cases written
      have nameRead : Reads (do return some (← text "superclass name")) (some name) nameBytes :=
        ((reads_text nameWritten "superclass name").decides.map some).reads trivial
      exact (reads_byte 1 "superclass flag").bind nameRead

theorem refuses_tooDeep {α : Type} (bytes : List UInt8) : Refuses (tooDeep (α := α)) bytes :=
  fun _ offset => ⟨offset, rfl⟩

/-! ## Written parts -/

theorem codeUnit_written {code : Array Instruction} {constants : List Constant}
    {bytes : List UInt8} (written : Encoding.codeUnit ⟨code, constants⟩ = .ok bytes) :
    ∃ poolBytes, code.size < 0x100000000 ∧ constants.length < 0x100000000 ∧
      Encoding.pool constants = .ok poolBytes ∧
      bytes = LittleEndian.bytes 4 code.size ++ code.toList.flatMap Encoding.instruction ++
        LittleEndian.bytes 4 constants.length ++ poolBytes := by
  rw [Encoding.codeUnit] at written
  obtain ⟨codeSize, codeSizeWritten, written⟩ := Except.bind_eq_ok.mp written
  obtain ⟨poolSize, poolSizeWritten, written⟩ := Except.bind_eq_ok.mp written
  obtain ⟨poolBytes, poolWritten, written⟩ := Except.bind_eq_ok.mp written
  cases written
  obtain ⟨codeFits, rfl⟩ := count_written codeSizeWritten
  obtain ⟨poolFits, rfl⟩ := count_written poolSizeWritten
  exact ⟨poolBytes, codeFits, poolFits, poolWritten, rfl⟩

theorem pool_written {head : Constant} {rest : List Constant} {bytes : List UInt8}
    (written : Encoding.pool (head :: rest) = .ok bytes) :
    ∃ first others, Encoding.constant head = .ok first ∧ Encoding.pool rest = .ok others ∧
      bytes = first ++ others := by
  rw [Encoding.pool] at written
  obtain ⟨first, firstWritten, written⟩ := Except.bind_eq_ok.mp written
  obtain ⟨others, othersWritten, written⟩ := Except.bind_eq_ok.mp written
  cases written
  exact ⟨first, others, firstWritten, othersWritten, rfl⟩

theorem methodTable_written {selector : String} {parameters : List String} {body : CodeUnit}
    {rest : List MethodDescriptor} {bytes : List UInt8}
    (written : Encoding.methodTable (⟨selector, parameters, body⟩ :: rest) = .ok bytes) :
    ∃ selectorBytes parameterBytes bodyBytes others,
      Encoding.text selector = .ok selectorBytes ∧
      Encoding.texts "parameter list" parameters = .ok parameterBytes ∧
      Encoding.codeUnit body = .ok bodyBytes ∧ Encoding.methodTable rest = .ok others ∧
      bytes = selectorBytes ++ parameterBytes ++ bodyBytes ++ others := by
  rw [Encoding.methodTable] at written
  obtain ⟨selectorBytes, selectorWritten, written⟩ := Except.bind_eq_ok.mp written
  obtain ⟨parameterBytes, parametersWritten, written⟩ := Except.bind_eq_ok.mp written
  obtain ⟨bodyBytes, bodyWritten, written⟩ := Except.bind_eq_ok.mp written
  obtain ⟨others, othersWritten, written⟩ := Except.bind_eq_ok.mp written
  cases written
  exact ⟨selectorBytes, parameterBytes, bodyBytes, others, selectorWritten, parametersWritten,
    bodyWritten, othersWritten, rfl⟩

theorem classDescriptor_written {name : String} {parent : Option String}
    {fields classVars : List String} {methods classMethods : List MethodDescriptor}
    {bytes : List UInt8}
    (written : Encoding.constant
      (.classDescriptor ⟨name, parent, fields, classVars, methods, classMethods⟩) = .ok bytes) :
    ∃ nameBytes parentBytes fieldBytes classVarBytes methodBytes classMethodBytes,
      Encoding.text name = .ok nameBytes ∧ Encoding.superclass parent = .ok parentBytes ∧
      Encoding.texts "field list" fields = .ok fieldBytes ∧
      Encoding.texts "class variable list" classVars = .ok classVarBytes ∧
      (methods.length < 0x100000000 ∧ Encoding.methodTable methods = .ok methodBytes) ∧
      (classMethods.length < 0x100000000 ∧
        Encoding.methodTable classMethods = .ok classMethodBytes) ∧
      bytes = Format.Tag.classDescriptor.byte :: (nameBytes ++ parentBytes ++ fieldBytes ++
        classVarBytes ++ LittleEndian.bytes 4 methods.length ++ methodBytes ++
        LittleEndian.bytes 4 classMethods.length ++ classMethodBytes) := by
  rw [Encoding.constant] at written
  obtain ⟨nameBytes, nameWritten, written⟩ := Except.bind_eq_ok.mp written
  obtain ⟨parentBytes, parentWritten, written⟩ := Except.bind_eq_ok.mp written
  obtain ⟨fieldBytes, fieldsWritten, written⟩ := Except.bind_eq_ok.mp written
  obtain ⟨classVarBytes, classVarsWritten, written⟩ := Except.bind_eq_ok.mp written
  obtain ⟨methodCount, methodCountWritten, written⟩ := Except.bind_eq_ok.mp written
  obtain ⟨methodBytes, methodsWritten, written⟩ := Except.bind_eq_ok.mp written
  obtain ⟨classMethodCount, classMethodCountWritten, written⟩ := Except.bind_eq_ok.mp written
  obtain ⟨classMethodBytes, classMethodsWritten, written⟩ := Except.bind_eq_ok.mp written
  cases written
  obtain ⟨methodsFit, rfl⟩ := count_written methodCountWritten
  obtain ⟨classMethodsFit, rfl⟩ := count_written classMethodCountWritten
  exact ⟨nameBytes, parentBytes, fieldBytes, classVarBytes, methodBytes, classMethodBytes,
    nameWritten, parentWritten, fieldsWritten, classVarsWritten, ⟨methodsFit, methodsWritten⟩,
    ⟨classMethodsFit, classMethodsWritten⟩, rfl⟩

/-! ## Least sizes -/

theorem length_codeUnit {codeUnit : CodeUnit} {bytes : List UInt8}
    (written : Encoding.codeUnit codeUnit = .ok bytes) : 8 ≤ bytes.length := by
  obtain ⟨code, constants⟩ := codeUnit
  obtain ⟨poolBytes, _, _, _, rfl⟩ := codeUnit_written written
  simp only [List.length_append, LittleEndian.length_bytes]
  omega

theorem length_constant {value : Constant} {bytes : List UInt8}
    (written : Encoding.constant value = .ok bytes) : 1 ≤ bytes.length := by
  have tagged : ∃ tag rest, bytes = tag :: rest := by
    cases value with
    | int value | float value | bool value | nil =>
        rw [Encoding.constant] at written
        cases written
        exact ⟨_, _, rfl⟩
    | string value =>
        rw [Encoding.constant] at written
        obtain ⟨_, _, written⟩ := Except.bind_eq_ok.mp written
        cases written
        exact ⟨_, _, rfl⟩
    | block body =>
        rw [Encoding.constant] at written
        obtain ⟨_, _, written⟩ := Except.bind_eq_ok.mp written
        cases written
        exact ⟨_, _, rfl⟩
    | classDescriptor descriptor =>
        obtain ⟨name, parent, fields, classVars, methods, classMethods⟩ := descriptor
        obtain ⟨_, _, _, _, _, _, _, _, _, _, _, _, rfl⟩ := classDescriptor_written written
        exact ⟨_, _, rfl⟩
  obtain ⟨tag, rest, rfl⟩ := tagged
  exact Nat.le_add_left 1 rest.length

theorem length_pool {constants : List Constant} {bytes : List UInt8}
    (written : Encoding.pool constants = .ok bytes) : constants.length * 1 ≤ bytes.length := by
  induction constants generalizing bytes with
  | nil =>
      simp
  | cons head rest inductionHypothesis =>
      obtain ⟨first, others, firstWritten, othersWritten, rfl⟩ := pool_written written
      have headLength := length_constant firstWritten
      have restLength := inductionHypothesis othersWritten
      rw [List.length_cons, List.length_append]
      omega

/-- A method takes at least four counts. -/
theorem length_methodTable {methods : List MethodDescriptor} {bytes : List UInt8}
    (written : Encoding.methodTable methods = .ok bytes) :
    methods.length * 16 ≤ bytes.length := by
  induction methods generalizing bytes with
  | nil =>
      simp
  | cons head rest inductionHypothesis =>
      obtain ⟨selector, parameters, body⟩ := head
      obtain ⟨selectorBytes, parameterBytes, bodyBytes, others, selectorWritten, parametersWritten,
        bodyWritten, othersWritten, rfl⟩ := methodTable_written written
      have selectorLength := length_text selectorWritten
      have parametersLength := length_texts parametersWritten
      have bodyLength := length_codeUnit bodyWritten
      have restLength := inductionHypothesis othersWritten
      simp only [List.length_cons, List.length_append]
      omega

/-! ## Units -/

mutual

/-- A unit is read back exactly if its levels suffice. -/
theorem decides_codeUnit : (unit : CodeUnit) → (levels : Nat) → {bytes : List UInt8} →
    Encoding.codeUnit unit = .ok bytes →
      Decides (unit.nesting < levels) (codeUnit levels) unit bytes
  | unit, 0, bytes, _ => by
      refine ⟨fun impossible => (Nat.not_lt_zero _ impossible).elim, fun _ => ?_⟩
      rw [codeUnit]
      exact refuses_tooDeep bytes
  | ⟨code, constants⟩, levels + 1, bytes, written => by
      obtain ⟨poolBytes, codeFits, poolFits, poolWritten, rfl⟩ := codeUnit_written written
      rw [codeUnit, unitOf, CodeUnit.nesting, Nat.lt_succ_iff]
      simp only [List.append_assoc]
      refine Decides.counted ?_ codeFits ?_
      · refine Decides.after ?_ (reads_instructions code.toList)
        refine Decides.counted ?_ poolFits (length_pool poolWritten)
        exact (decides_pool constants levels poolWritten).map (CodeUnit.mk code)
      · have instructionsLength := length_instructions code.toList
        rw [Array.length_toList] at instructionsLength
        rw [List.length_append]
        omega

/-- The constants of a pool are read back exactly if the levels below their unit suffice. -/
theorem decides_pool : (constants : List Constant) → (levels : Nat) → {bytes : List UInt8} →
    Encoding.pool constants = .ok bytes →
      Decides (poolNesting constants ≤ levels)
        (many (constant (codeUnit levels) (classDescriptor levels)) constants.length)
        constants bytes
  | [], levels, bytes, written => by
      rw [Encoding.pool] at written
      cases written
      exact (reads_pure []).decides.congr (by simp [poolNesting])
  | head :: rest, levels, bytes, written => by
      obtain ⟨first, others, firstWritten, othersWritten, rfl⟩ := pool_written written
      rw [poolNesting, Nat.max_le]
      exact (decides_constant head levels firstWritten).bind
        ((decides_pool rest levels othersWritten).map (head :: ·))

/-- A constant is read back exactly if the levels below its unit suffice. -/
theorem decides_constant : (value : Constant) → (levels : Nat) → {bytes : List UInt8} →
    Encoding.constant value = .ok bytes →
      Decides (value.nesting ≤ levels) (constant (codeUnit levels) (classDescriptor levels))
        value bytes
  | .int value, levels, bytes, written => by
      rw [Encoding.constant] at written
      cases written
      have wordRead := reads_word 8 value.toUInt64.toNat "integer constant" value.toUInt64.toNat_lt
      have constantRead := wordRead.decides.map fun n => Constant.int (UInt64.ofNat n).toInt64
      rw [UInt64.ofNat_toNat, Int64.toInt64_toUInt64] at constantRead
      refine decides_tagged (constantRead.congr ?_)
      simp [Constant.nesting]
  | .float value, levels, bytes, written => by
      rw [Encoding.constant] at written
      cases written
      have wordRead := reads_word 8 value.bits.toNat "float constant" value.bits.toNat_lt
      have constantRead := wordRead.decides.map fun n => Constant.float ⟨UInt64.ofNat n⟩
      rw [UInt64.ofNat_toNat] at constantRead
      refine decides_tagged (constantRead.congr ?_)
      simp [Constant.nesting]
  | .string value, levels, bytes, written => by
      rw [Encoding.constant] at written
      obtain ⟨textBytes, textWritten, written⟩ := Except.bind_eq_ok.mp written
      cases written
      have constantRead := (reads_text textWritten "string constant").decides.map Constant.string
      refine decides_tagged (constantRead.congr ?_)
      simp [Constant.nesting]
  | .bool value, levels, bytes, written => by
      rw [Encoding.constant] at written
      cases written
      have constantRead :=
        (reads_byte (if value then 1 else 0) "boolean constant").decides.map
          fun flag => Constant.bool (flag != 0)
      have flagValue : ((if value then (1 : UInt8) else 0) != 0) = value := by
        cases value <;> rfl
      rw [flagValue] at constantRead
      refine decides_tagged (constantRead.congr ?_)
      simp [Constant.nesting]
  | .nil, levels, bytes, written => by
      rw [Encoding.constant] at written
      cases written
      refine decides_tagged ((reads_pure Constant.nil).decides.congr ?_)
      simp [Constant.nesting]
  | .block body, levels, bytes, written => by
      rw [Encoding.constant] at written
      obtain ⟨bodyBytes, bodyWritten, written⟩ := Except.bind_eq_ok.mp written
      cases written
      rw [Constant.nesting, Nat.succ_le_iff]
      exact decides_tagged ((decides_codeUnit body levels bodyWritten).map Constant.block)
  | .classDescriptor ⟨name, parent, fields, classVars, methods, classMethods⟩, levels, bytes,
      written => by
      obtain ⟨nameBytes, parentBytes, fieldBytes, classVarBytes, methodBytes, classMethodBytes,
        nameWritten, parentWritten, fieldsWritten, classVarsWritten, ⟨methodsFit, methodsWritten⟩,
        ⟨classMethodsFit, classMethodsWritten⟩, rfl⟩ := classDescriptor_written written
      refine decides_tagged (Decides.map ?_ Constant.classDescriptor)
      cases levels with
      | zero =>
          refine ⟨fun impossible => ?_, fun _ => ?_⟩
          · rw [Constant.nesting] at impossible
            omega
          · rw [classDescriptor]
            exact refuses_tooDeep _
      | succ fewer =>
          rw [classDescriptor, descriptorOf, Constant.nesting, Nat.succ_le_succ_iff, Nat.max_le]
          simp only [List.append_assoc]
          have methodsRead :
              Decides (methodsNesting methods ≤ fewer) (methodTable (codeUnit fewer)) methods
                (LittleEndian.bytes 4 methods.length ++ methodBytes) :=
            (decides_methodTable methods fewer methodsWritten).counted methodsFit
              (length_methodTable methodsWritten)
          have classMethodsRead :
              Decides (methodsNesting classMethods ≤ fewer) (methodTable (codeUnit fewer))
                classMethods (LittleEndian.bytes 4 classMethods.length ++ classMethodBytes) :=
            (decides_methodTable classMethods fewer classMethodsWritten).counted classMethodsFit
              (length_methodTable classMethodsWritten)
          refine Decides.after ?_ (reads_text nameWritten "class name")
          refine Decides.after ?_ (reads_superclass parentWritten)
          refine Decides.after ?_ (reads_texts fieldsWritten "field list")
          refine Decides.after ?_ (reads_texts classVarsWritten "class variable list")
          rw [← List.append_assoc]
          exact methodsRead.bind (classMethodsRead.map fun read =>
            ClassDescriptor.mk name parent fields classVars methods read)

/-- Methods are read back exactly if the levels below their class suffice. -/
theorem decides_methodTable : (methods : List MethodDescriptor) → (levels : Nat) →
    {bytes : List UInt8} → Encoding.methodTable methods = .ok bytes →
      Decides (methodsNesting methods ≤ levels) (many (method (codeUnit levels)) methods.length)
        methods bytes
  | [], levels, bytes, written => by
      rw [Encoding.methodTable] at written
      cases written
      exact (reads_pure []).decides.congr (by simp [methodsNesting])
  | ⟨selector, parameters, body⟩ :: rest, levels, bytes, written => by
      obtain ⟨selectorBytes, parameterBytes, bodyBytes, others, selectorWritten, parametersWritten,
        bodyWritten, othersWritten, rfl⟩ := methodTable_written written
      rw [methodsNesting, Nat.max_le, Nat.succ_le_iff]
      have headRead :
          Decides (body.nesting < levels) (method (codeUnit levels)) ⟨selector, parameters, body⟩
            (selectorBytes ++ (parameterBytes ++ bodyBytes)) := by
        refine Decides.after ?_ (reads_text selectorWritten "selector")
        refine Decides.after ?_ (reads_texts parametersWritten "parameter list")
        exact (decides_codeUnit body levels bodyWritten).map
          (MethodDescriptor.mk selector parameters)
      rw [← List.append_assoc] at headRead
      exact headRead.bind ((decides_methodTable rest levels othersWritten).map
        (MethodDescriptor.mk selector parameters body :: ·))

end

/-! ## Files -/

theorem reads_header : Reads header () Encoding.header := by
  intro tail offset
  rfl

/-- What is checked behind the unit of a file. -/
def ending (result : CodeUnit) : Reader CodeUnit := do
  let cursor ← get
  if cursor.rest.length ≠ 0 then throw (.trailingBytes cursor.offset cursor.rest.length)
  return result

theorem file_eq : file = (header >>= fun _ => codeUnit (Format.maxNesting + 1)) >>= ending := by
  rw [bind_assoc]
  rfl

theorem ending_of_empty (result : CodeUnit) (offset : Nat) :
    ending result ⟨[], offset⟩ = .ok (result, ⟨[], offset⟩) := rfl

/-- A whole file is read to its end, or refused for its depth. -/
theorem file_of_written {unit : CodeUnit} {bytes : List UInt8}
    (written : Encoding.codeUnit unit = .ok bytes) :
    (unit.nesting ≤ Format.maxNesting →
      ∃ cursor, file ⟨Encoding.header ++ bytes, 0⟩ = .ok (unit, cursor)) ∧
    (Format.maxNesting < unit.nesting →
      ∃ place, file ⟨Encoding.header ++ bytes, 0⟩ = .error (.nestingTooDeep place)) := by
  have decides : Decides (unit.nesting ≤ Format.maxNesting)
      (header >>= fun _ => codeUnit (Format.maxNesting + 1)) unit (Encoding.header ++ bytes) := by
    refine Decides.after ?_ reads_header
    exact (decides_codeUnit unit (Format.maxNesting + 1) written).congr Nat.lt_succ_iff
  rw [file_eq]
  constructor
  · intro fits
    have read := decides.reads fits [] 0
    rw [List.append_nil] at read
    refine ⟨⟨[], 0 + (Encoding.header ++ bytes).length⟩, ?_⟩
    change ((header >>= fun _ => codeUnit (Format.maxNesting + 1))
      ⟨Encoding.header ++ bytes, 0⟩ >>= fun reached => ending reached.1 reached.2) = _
    rw [read]
    exact ending_of_empty unit _
  · intro tooDeep
    have refused : Refuses ((header >>= fun _ => codeUnit (Format.maxNesting + 1)) >>= ending)
        (Encoding.header ++ bytes ++ []) :=
      (decides.refuses (Nat.not_le_of_lt tooDeep)).bind []
    rw [List.append_nil] at refused
    obtain ⟨place, reported⟩ := refused [] 0
    rw [List.append_nil] at reported
    exact ⟨place, reported⟩

end Decoding

/-- A file that was read to its end is accepted if its unit passes verification. -/
theorem CodeUnit.decode_of_file {input : List UInt8} {unit : CodeUnit} {cursor : Decoding.Cursor}
    (read : Decoding.file ⟨input, 0⟩ = .ok (unit, cursor)) (verified : unit.verify = .ok ()) :
    CodeUnit.decode input = .ok unit := by
  change (Decoding.file ⟨input, 0⟩ >>= fun reached =>
    reached.1.verify.mapError .invalid >>= fun _ => .ok reached.1) = _
  rw [read]
  change (unit.verify.mapError FormatError.invalid >>= fun _ => .ok unit) = _
  rw [verified]
  rfl

theorem CodeUnit.decode_of_refused {input : List UInt8} {fault : FormatError}
    (refused : Decoding.file ⟨input, 0⟩ = .error fault) : CodeUnit.decode input = .error fault := by
  change (Decoding.file ⟨input, 0⟩ >>= _) = _
  rw [refused]
  rfl

/-! ## The round trip -/

/-- A unit that can be written is read back, with every number the same bit for bit, exactly if
it nests no deeper than a file may and passes verification.  Otherwise the answer tells which of
the two it misses, the depth before the verification. -/
theorem CodeUnit.decode_encode_eq_ok_iff {unit : CodeUnit} {bytes : List UInt8}
    (accepted : unit.encode = .ok bytes) :
    (CodeUnit.decode bytes = .ok unit ↔
      unit.nesting ≤ Format.maxNesting ∧ unit.verify = .ok ()) ∧
    (Format.maxNesting < unit.nesting →
      ∃ offset, CodeUnit.decode bytes = .error (.nestingTooDeep offset)) ∧
    (unit.nesting ≤ Format.maxNesting → ∀ fault, unit.verify = .error fault →
      CodeUnit.decode bytes = .error (.invalid fault)) := by
  obtain ⟨content, written, same⟩ := Except.bind_eq_ok.mp accepted
  cases same
  obtain ⟨readToEnd, refused⟩ := Decoding.file_of_written written
  have decoded : unit.nesting ≤ Format.maxNesting →
      CodeUnit.decode (Encoding.header ++ content) =
        (unit.verify.mapError .invalid >>= fun _ => .ok unit) := by
    intro fits
    obtain ⟨cursor, read⟩ := readToEnd fits
    change (Decoding.file ⟨Encoding.header ++ content, 0⟩ >>= fun reached =>
      reached.1.verify.mapError .invalid >>= fun _ => .ok reached.1) = _
    rw [read]
    rfl
  have tooDeep : Format.maxNesting < unit.nesting →
      ∃ offset, CodeUnit.decode (Encoding.header ++ content) =
        .error (.nestingTooDeep offset) := by
    intro deep
    obtain ⟨place, read⟩ := refused deep
    refine ⟨place, ?_⟩
    change (Decoding.file ⟨Encoding.header ++ content, 0⟩ >>= _) = _
    rw [read]
    rfl
  refine ⟨⟨?_, ?_⟩, tooDeep, ?_⟩
  · intro answered
    by_cases fits : unit.nesting ≤ Format.maxNesting
    · refine ⟨fits, ?_⟩
      rw [decoded fits] at answered
      cases verified : unit.verify with
      | ok _ =>
          rfl
      | error fault =>
          rw [verified] at answered
          cases answered
    · obtain ⟨_, faulted⟩ := tooDeep (Nat.lt_of_not_le fits)
      rw [faulted] at answered
      cases answered
  · rintro ⟨fits, verified⟩
    rw [decoded fits, verified]
    rfl
  · intro fits fault verified
    rw [decoded fits, verified]
    rfl

/-- A block whose only constant is a number without a value, written and read back. -/
theorem CodeUnit.decode_encode_block_of_nan :
    ∃ bytes,
      (⟨#[.packed .makeClosure 0 0, .bare .return],
        [.block ⟨#[.indexed .pushConstant 0, .bare .return],
          [.float ⟨0x7FF8000000000001⟩]⟩]⟩ : CodeUnit).encode = .ok bytes ∧
      CodeUnit.decode bytes =
        .ok ⟨#[.packed .makeClosure 0 0, .bare .return],
          [.block ⟨#[.indexed .pushConstant 0, .bare .return],
            [.float ⟨0x7FF8000000000001⟩]⟩]⟩ :=
  ⟨_, rfl, (CodeUnit.decode_encode_eq_ok_iff rfl).1.mpr ⟨by decide, rfl⟩⟩

end Missive
