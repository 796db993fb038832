import Mathlib.Algebra.Group.Nat.Defs
import Missive.Proofs.Code.RoundTrip

/-!
# What an accepted file consists of

A file leaves one freedom only: a byte that tells yes or no counts as yes whatever it is, as long
as it is not zero.  The `layout` of a unit says which bytes of its file are such flags.  Reading a
file and writing what was read gives the same bytes back, except that every flag is settled to
zero or one.

`Took roles written before after` says of two places in the input that the bytes between them
are, once the flags among them are settled, the bytes written.  `Exact` says of a reader that this
holds whenever it answers.  There is one such lemma for each reader; the nested readers are taken
as parameters, so the recursion of the format is closed once, by induction on the levels.
-/

namespace Missive

/-! ## Flags -/

/-- What a byte of a file is for. -/
inductive Role where
  /-- Every value of the byte has a meaning of its own. -/
  | plain
  /-- The byte tells yes or no. -/
  | flag
  deriving DecidableEq, Repr

/-- The byte that is written in the place of a byte with the role. -/
def Role.settle : Role → UInt8 → UInt8
  | .plain, b => b
  | .flag, b => if b = 0 then 0 else 1

namespace Layout

/-- Bytes without a flag among them. -/
def plain (size : Nat) : List Role := List.replicate size .plain

/-- A text is its count and its bytes. -/
def text (value : String) : List Role := plain (4 + value.utf8ByteSize)

def texts (values : List String) : List Role := plain 4 ++ values.flatMap text

def superclass : Option String → List Role
  | none => [.flag]
  | some name => .flag :: text name

mutual

def codeUnit : CodeUnit → List Role
  | ⟨code, constants⟩ => plain 4 ++ plain (5 * code.size) ++ plain 4 ++ pool constants

def pool : List Constant → List Role
  | [] => []
  | c :: rest => constant c ++ pool rest

def constant : Constant → List Role
  | .int _ | .float _ => plain 9
  | .string value => .plain :: text value
  | .bool _ => [.plain, .flag]
  | .nil => [.plain]
  | .block body => .plain :: codeUnit body
  | .classDescriptor ⟨name, parent, fields, classVars, methods, classMethods⟩ =>
    .plain :: (text name ++ superclass parent ++ texts fields ++ texts classVars
      ++ plain 4 ++ methodTable methods ++ plain 4 ++ methodTable classMethods)

def methodTable : List MethodDescriptor → List Role
  | [] => []
  | ⟨selector, parameters, body⟩ :: rest =>
    text selector ++ texts parameters ++ codeUnit body ++ methodTable rest

end

end Layout

/-- The roles of the bytes in a file that holds the unit; the header has twelve bytes. -/
def CodeUnit.layout (unit : CodeUnit) : List Role := Layout.plain 12 ++ Layout.codeUnit unit

namespace Decoding

open Encoding (Encoded)

/-! ## Bytes taken for a value -/

/-- One part after the other. -/
def joined (first next : Encoded) : Encoded := do
  let firstBytes ← first
  let nextBytes ← next
  pure (firstBytes ++ nextBytes)

/-- The bytes between the two places are the bytes written, once their flags are settled. -/
def Took (roles : List Role) (written : Encoded) (before after : Cursor) : Prop :=
  ∃ taken, before.rest = taken ++ after.rest ∧ roles.length = taken.length ∧
    written = .ok (List.zipWith Role.settle roles taken)

/-- What the reader takes for a value is what is written for it, and the value fits. -/
def Exact {α : Type} (reader : Reader α) (fits : α → Prop) (roles : α → List Role)
    (write : α → Encoded) : Prop :=
  ∀ {before after : Cursor} {value : α}, reader before = .ok (value, after) →
    fits value ∧ Took (roles value) (write value) before after

theorem Took.nothing (place : Cursor) : Took [] (pure []) place place :=
  ⟨[], rfl, rfl, rfl⟩

theorem Took.append {firstRoles nextRoles : List Role} {first next : Encoded}
    {before middle after : Cursor} (firstTook : Took firstRoles first before middle)
    (nextTook : Took nextRoles next middle after) :
    Took (firstRoles ++ nextRoles) (joined first next) before after := by
  obtain ⟨firstTaken, firstRest, firstLength, firstWritten⟩ := firstTook
  obtain ⟨nextTaken, nextRest, nextLength, nextWritten⟩ := nextTook
  refine ⟨firstTaken ++ nextTaken, ?_, ?_, ?_⟩
  · rw [firstRest, nextRest, List.append_assoc]
  · simp [firstLength, nextLength]
  · rw [joined, firstWritten, nextWritten, List.zipWith_append firstLength]
    rfl

theorem zipWith_settle_plain (bytes : List UInt8) :
    List.zipWith Role.settle (Layout.plain bytes.length) bytes = bytes := by
  induction bytes with
  | nil =>
      rfl
  | cons head rest inductionHypothesis =>
      simpa [Layout.plain, Role.settle, List.replicate_succ] using inductionHypothesis

/-- Bytes without a flag are written as they were taken. -/
theorem Took.plain {before after : Cursor} {taken : List UInt8}
    (rest : before.rest = taken ++ after.rest) :
    Took (Layout.plain taken.length) (pure taken) before after := by
  refine ⟨taken, rest, by simp [Layout.plain], ?_⟩
  rw [zipWith_settle_plain]
  rfl

theorem bind_eq_ok {α β : Type} {first : Reader α} {next : α → Reader β} {result : β}
    {before after : Cursor} :
    (first >>= next) before = .ok (result, after) ↔
      ∃ value middle, first before = .ok (value, middle) ∧
        next value middle = .ok (result, after) := by
  change (first before >>= fun reached => next reached.1 reached.2) = .ok (result, after) ↔ _
  rw [Except.bind_eq_ok]
  exact Prod.exists

/-! ## Bytes and words -/

theorem require_eq_ok {size : Nat} {part : String} {before after : Cursor}
    (passed : require size part before = .ok ((), after)) :
    size ≤ before.rest.length ∧ after = before := by
  by_cases enough : size ≤ before.rest.length
  · rw [require_of_le enough] at passed
    cases passed
    exact ⟨enough, rfl⟩
  · have missing : (before.rest.take size).length < size := by
      rw [List.length_take]
      omega
    change (if (before.rest.take size).length < size then (throw _ : Reader PUnit) else pure _)
      before = _ at passed
    rw [if_pos missing] at passed
    cases passed

theorem take_eq_ok {size : Nat} {part : String} {before after : Cursor} {taken : List UInt8}
    (answered : take size part before = .ok (taken, after)) :
    taken.length = size ∧ before.rest = taken ++ after.rest := by
  obtain ⟨_, middle, required, moved⟩ := bind_eq_ok.mp answered
  obtain ⟨enough, rfl⟩ := require_eq_ok required
  cases moved
  refine ⟨?_, (List.take_append_drop size _).symm⟩
  rw [List.length_take]
  omega

theorem byte_eq_ok {part : String} {before after : Cursor} {value : UInt8}
    (answered : byte part before = .ok (value, after)) : before.rest = value :: after.rest := by
  obtain ⟨taken, middle, answered, wrapped⟩ := bind_eq_ok.mp answered
  cases wrapped
  obtain ⟨oneByte, rest⟩ := take_eq_ok answered
  obtain ⟨head, rfl⟩ := List.length_eq_one_iff.mp oneByte
  exact rest

theorem value_lt (bytes : List UInt8) : LittleEndian.value bytes < 256 ^ bytes.length := by
  induction bytes with
  | nil =>
      simp [LittleEndian.value]
  | cons head rest inductionHypothesis =>
      have small : head.toNat < 256 := head.toNat_lt
      rw [LittleEndian.value, List.length_cons, Nat.pow_succ]
      omega

/-- The bytes of a word are written again for the number they stand for. -/
theorem bytes_value (bytes : List UInt8) :
    LittleEndian.bytes bytes.length (LittleEndian.value bytes) = bytes := by
  induction bytes with
  | nil =>
      rfl
  | cons head rest inductionHypothesis =>
      have small : head.toNat < 256 := head.toNat_lt
      have lowest : (head.toNat + 256 * LittleEndian.value rest) % 256 = head.toNat := by omega
      have others : (head.toNat + 256 * LittleEndian.value rest) / 256 =
          LittleEndian.value rest := by omega
      rw [LittleEndian.value, List.length_cons, LittleEndian.bytes, lowest, others,
        inductionHypothesis, UInt8.ofNat_toNat]

theorem exact_word (width : Nat) (part : String) :
    Exact (word width part) (fun n => n < 256 ^ width) (fun _ => Layout.plain width)
      (fun n => pure (LittleEndian.bytes width n)) := by
  intro before after n answered
  obtain ⟨taken, middle, answered, wrapped⟩ := bind_eq_ok.mp answered
  cases wrapped
  obtain ⟨rfl, rest⟩ := take_eq_ok answered
  dsimp only
  rw [bytes_value]
  exact ⟨value_lt taken, Took.plain rest⟩

/-- A count that was read is small enough to be written, under whatever name. -/
theorem exact_count (itemSize : Nat) (part listName : String) :
    Exact (count itemSize part) (fun _ => True) (fun _ => Layout.plain 4)
      (Encoding.count listName) := by
  intro before after n answered
  obtain ⟨n, middle, wordRead, answered⟩ := bind_eq_ok.mp answered
  obtain ⟨_, last, required, wrapped⟩ := bind_eq_ok.mp answered
  cases wrapped
  obtain ⟨_, rfl⟩ := require_eq_ok required
  obtain ⟨fits, took⟩ := exact_word 4 part wordRead
  have writable : Encoding.count listName n = pure (LittleEndian.bytes 4 n) := if_pos fits
  rw [writable]
  exact ⟨trivial, took⟩

/-- A byte in which only zero or not counts. -/
theorem took_flag {part : String} {before after : Cursor} {value : UInt8}
    (answered : byte part before = .ok (value, after)) :
    Took [.flag] (pure [if value = 0 then 0 else 1]) before after :=
  ⟨[value], byte_eq_ok answered, rfl, rfl⟩

theorem took_byte {part : String} {before after : Cursor} {value : UInt8}
    (answered : byte part before = .ok (value, after)) :
    Took [.plain] (pure [value]) before after :=
  ⟨[value], byte_eq_ok answered, rfl, rfl⟩

/-! ## Sequences and texts -/

theorem exact_many {α : Type} {reader : Reader α} {fits : α → Prop} {roles : α → List Role}
    {write : α → Encoded} (exact : Exact reader fits roles write) (times : Nat) :
    Exact (many reader times) (fun items => items.length = times ∧ ∀ item ∈ items, fits item)
      (List.flatMap roles) (Encoding.sequence write) := by
  induction times with
  | zero =>
      intro before after items answered
      cases answered
      exact ⟨⟨rfl, by simp⟩, Took.nothing before⟩
  | succ times inductionHypothesis =>
      intro before after items answered
      obtain ⟨first, middle, firstRead, answered⟩ := bind_eq_ok.mp answered
      obtain ⟨others, last, othersRead, wrapped⟩ := bind_eq_ok.mp answered
      cases wrapped
      obtain ⟨firstFits, firstTook⟩ := exact firstRead
      obtain ⟨⟨othersLength, othersFit⟩, othersTook⟩ := inductionHypothesis othersRead
      refine ⟨⟨by simp [othersLength], ?_⟩, ?_⟩
      · intro item member
        rcases List.mem_cons.mp member with rfl | inOthers
        · exact firstFits
        · exact othersFit item inOthers
      · rw [List.flatMap_cons]
        exact firstTook.append othersTook

theorem toUTF8_of_fromUTF8? {taken : List UInt8} {value : String}
    (valid : String.fromUTF8? ⟨taken.toArray⟩ = some value) : value.toUTF8.toList = taken := by
  rw [toList_toUTF8]
  unfold String.fromUTF8? at valid
  split at valid
  · cases valid
    rfl
  · cases valid

theorem exact_text (part : String) :
    Exact (text part) (fun _ => True) Layout.text Encoding.text := by
  intro before after value answered
  obtain ⟨size, counted, countRead, answered⟩ := bind_eq_ok.mp answered
  obtain ⟨offset, placed, positioned, answered⟩ := bind_eq_ok.mp answered
  cases positioned
  obtain ⟨taken, middle, taking, checked⟩ := bind_eq_ok.mp answered
  obtain ⟨rfl, rest⟩ := take_eq_ok taking
  cases valid : String.fromUTF8? ⟨taken.toArray⟩ with
  | none =>
      rw [valid] at checked
      cases checked
  | some found =>
      rw [valid] at checked
      cases checked
      have bytes : value.toUTF8.toList = taken := toUTF8_of_fromUTF8? valid
      have size : value.utf8ByteSize = taken.length := by rw [← length_toUTF8, bytes]
      have countTook := (exact_count 1 part "string" countRead).2
      have textTook := countTook.append (Took.plain rest)
      have roles : Layout.text value = Layout.plain 4 ++ Layout.plain taken.length := by
        rw [Layout.text, size]
        exact List.replicate_append_replicate.symm
      have written : Encoding.text value =
          joined (Encoding.count "string" taken.length) (pure taken) := by
        rw [Encoding.text, bytes, size]
        rfl
      rw [roles, written]
      exact ⟨trivial, textTook⟩

theorem exact_texts (part listName : String) :
    Exact (texts part) (fun _ => True) Layout.texts (Encoding.texts listName) := by
  intro before after values answered
  obtain ⟨size, counted, countRead, answered⟩ := bind_eq_ok.mp answered
  have countTook := (exact_count 4 part listName countRead).2
  obtain ⟨⟨rfl, _⟩, valuesTook⟩ := exact_many (exact_text part) size answered
  exact ⟨trivial, countTook.append valuesTook⟩

/-! ## Instructions -/

theorem byte_of_opcode {code : UInt8} {opcode : Opcode}
    (found : Opcode.ofByte? code = some opcode) : opcode.byte = code := by
  have same := List.find?_some found
  simpa using same

theorem exact_instruction :
    Exact instruction (fun _ => True) (fun _ => Layout.plain 5)
      (fun i => pure (Encoding.instruction i)) := by
  intro before after i answered
  obtain ⟨offset, placed, positioned, answered⟩ := bind_eq_ok.mp answered
  cases positioned
  obtain ⟨code, middle, codeRead, answered⟩ := bind_eq_ok.mp answered
  cases found : Opcode.ofByte? code with
  | none =>
      rw [found] at answered
      cases answered
  | some opcode =>
      rw [found] at answered
      obtain ⟨operand, last, operandRead, wrapped⟩ := bind_eq_ok.mp answered
      cases wrapped
      obtain ⟨fits, operandTook⟩ := exact_word 4 "operand" operandRead
      have word : (UInt32.ofNat operand).toInt32.toUInt32.toNat = operand := by
        rw [UInt32.toUInt32_toInt32, UInt32.toNat_ofNat_of_lt' fits]
      have written : (pure (Encoding.instruction ⟨opcode, (UInt32.ofNat operand).toInt32⟩) :
          Encoded) = joined (pure [code]) (pure (LittleEndian.bytes 4 operand)) := by
        rw [Encoding.instruction, word, byte_of_opcode found]
        rfl
      dsimp only
      rw [written]
      exact ⟨trivial, (took_byte codeRead).append operandTook⟩

theorem flatMap_plain (code : List Instruction) :
    code.flatMap (fun _ => Layout.plain 5) = Layout.plain (5 * code.length) := by
  induction code with
  | nil =>
      rfl
  | cons head rest inductionHypothesis =>
      rw [List.flatMap_cons, inductionHypothesis, List.length_cons, Nat.mul_succ, Nat.add_comm]
      exact List.replicate_append_replicate

/-! ## Constants, units and classes -/

/-- Pools are written like every sequence. -/
theorem pool_eq_sequence (constants : List Constant) :
    Encoding.pool constants = Encoding.sequence Encoding.constant constants ∧
      Layout.pool constants = constants.flatMap Layout.constant := by
  induction constants with
  | nil =>
      rw [Encoding.pool, Layout.pool]
      exact ⟨rfl, rfl⟩
  | cons head rest inductionHypothesis =>
      rw [Encoding.pool, Layout.pool, inductionHypothesis.1, inductionHypothesis.2]
      exact ⟨rfl, rfl⟩

/-- What is written for one method. -/
def methodBytes : MethodDescriptor → Encoded
  | ⟨selector, parameters, body⟩ =>
    joined (Encoding.text selector)
      (joined (Encoding.texts "parameter list" parameters) (Encoding.codeUnit body))

def methodRoles : MethodDescriptor → List Role
  | ⟨selector, parameters, body⟩ =>
    Layout.text selector ++ (Layout.texts parameters ++ Layout.codeUnit body)

theorem methodTable_eq_sequence (methods : List MethodDescriptor) :
    Encoding.methodTable methods = Encoding.sequence methodBytes methods ∧
      Layout.methodTable methods = methods.flatMap methodRoles := by
  induction methods with
  | nil =>
      rw [Encoding.methodTable, Layout.methodTable]
      exact ⟨rfl, rfl⟩
  | cons head rest inductionHypothesis =>
      obtain ⟨selector, parameters, body⟩ := head
      rw [Encoding.methodTable, Layout.methodTable, inductionHypothesis.1, inductionHypothesis.2]
      simp only [Encoding.sequence, methodBytes, methodRoles, joined, bind_assoc, pure_bind,
        List.flatMap_cons, List.append_assoc, and_self]

theorem exact_unitOf {reader : Reader Constant} {levels : Nat}
    (exact : Exact reader (·.nesting ≤ levels) Layout.constant Encoding.constant) :
    Exact (unitOf reader) (·.nesting < levels + 1) Layout.codeUnit Encoding.codeUnit := by
  intro before after unit answered
  obtain ⟨codeSize, _, codeCountRead, answered⟩ := bind_eq_ok.mp answered
  obtain ⟨code, _, codeRead, answered⟩ := bind_eq_ok.mp answered
  obtain ⟨poolSize, _, poolCountRead, answered⟩ := bind_eq_ok.mp answered
  obtain ⟨constants, _, poolRead, wrapped⟩ := bind_eq_ok.mp answered
  cases wrapped
  have codeCountTook := (exact_count 5 _ "instruction list" codeCountRead).2
  have poolCountTook := (exact_count 1 _ "constant pool" poolCountRead).2
  obtain ⟨⟨rfl, _⟩, codeTook⟩ := exact_many exact_instruction codeSize codeRead
  obtain ⟨⟨rfl, constantsFit⟩, poolTook⟩ := exact_many exact poolSize poolRead
  rw [flatMap_plain, sequence_instruction] at codeTook
  rw [← (pool_eq_sequence constants).1, ← (pool_eq_sequence constants).2] at poolTook
  have written : Encoding.codeUnit ⟨code.toArray, constants⟩ =
      joined (joined (joined (Encoding.count "instruction list" code.length)
        (.ok (code.flatMap Encoding.instruction)))
        (Encoding.count "constant pool" constants.length)) (Encoding.pool constants) := by
    rw [Encoding.codeUnit]
    simp only [joined, bind_assoc, pure_bind, List.size_toArray]
    rfl
  dsimp only
  rw [CodeUnit.nesting, Layout.codeUnit, written, List.size_toArray]
  refine ⟨Nat.lt_succ_of_le (poolNesting_le_iff.mpr constantsFit), ?_⟩
  exact ((codeCountTook.append codeTook).append poolCountTook).append poolTook

theorem exact_method {reader : Reader CodeUnit} {levels : Nat}
    (exact : Exact reader (·.nesting < levels) Layout.codeUnit Encoding.codeUnit) :
    Exact (method reader) (·.body.nesting < levels) methodRoles methodBytes := by
  intro before after descriptor answered
  obtain ⟨selector, _, selectorRead, answered⟩ := bind_eq_ok.mp answered
  obtain ⟨parameters, _, parametersRead, answered⟩ := bind_eq_ok.mp answered
  obtain ⟨body, _, bodyRead, wrapped⟩ := bind_eq_ok.mp answered
  cases wrapped
  have selectorTook := (exact_text _ selectorRead).2
  have parametersTook := (exact_texts _ "parameter list" parametersRead).2
  obtain ⟨bodyFits, bodyTook⟩ := exact bodyRead
  exact ⟨bodyFits, selectorTook.append (parametersTook.append bodyTook)⟩

theorem exact_methodTable {reader : Reader CodeUnit} {levels : Nat}
    (exact : Exact reader (·.nesting < levels) Layout.codeUnit Encoding.codeUnit) :
    Exact (methodTable reader) (methodsNesting · ≤ levels)
      (fun methods => Layout.plain 4 ++ Layout.methodTable methods)
      (fun methods => joined (Encoding.count "method table" methods.length)
        (Encoding.methodTable methods)) := by
  intro before after methods answered
  obtain ⟨size, _, countRead, answered⟩ := bind_eq_ok.mp answered
  have countTook := (exact_count 16 _ "method table" countRead).2
  obtain ⟨⟨rfl, methodsFit⟩, methodsTook⟩ := exact_many (exact_method exact) size answered
  dsimp only
  rw [(methodTable_eq_sequence methods).1, (methodTable_eq_sequence methods).2]
  exact ⟨methodsNesting_le_iff.mpr methodsFit, countTook.append methodsTook⟩

theorem exact_superclass :
    Exact superclass (fun _ => True) Layout.superclass Encoding.superclass := by
  intro before after parent answered
  obtain ⟨flag, middle, flagRead, answered⟩ := bind_eq_ok.mp answered
  have flagTook := took_flag flagRead
  by_cases absent : flag = 0
  · rw [if_pos absent] at answered flagTook
    cases answered
    exact ⟨trivial, flagTook⟩
  · rw [if_neg absent] at answered flagTook
    obtain ⟨name, last, nameRead, wrapped⟩ := bind_eq_ok.mp answered
    cases wrapped
    exact ⟨trivial, flagTook.append (exact_text _ nameRead).2⟩

/-- What is written for a class behind its tag. -/
def descriptorBytes : ClassDescriptor → Encoded
  | ⟨name, parent, fields, classVars, methods, classMethods⟩ =>
    joined (Encoding.text name) <| joined (Encoding.superclass parent) <|
      joined (Encoding.texts "field list" fields) <|
        joined (Encoding.texts "class variable list" classVars) <|
          joined (joined (Encoding.count "method table" methods.length)
            (Encoding.methodTable methods))
            (joined (Encoding.count "method table" classMethods.length)
              (Encoding.methodTable classMethods))

def descriptorRoles : ClassDescriptor → List Role
  | ⟨name, parent, fields, classVars, methods, classMethods⟩ =>
    Layout.text name ++ (Layout.superclass parent ++ (Layout.texts fields ++
      (Layout.texts classVars ++ ((Layout.plain 4 ++ Layout.methodTable methods) ++
        (Layout.plain 4 ++ Layout.methodTable classMethods)))))

theorem constant_classDescriptor (descriptor : ClassDescriptor) :
    Encoding.constant (.classDescriptor descriptor) =
        joined (pure [Format.Tag.classDescriptor.byte]) (descriptorBytes descriptor) ∧
      Layout.constant (.classDescriptor descriptor) =
        [.plain] ++ descriptorRoles descriptor := by
  obtain ⟨name, parent, fields, classVars, methods, classMethods⟩ := descriptor
  rw [Encoding.constant, Layout.constant]
  simp only [descriptorBytes, descriptorRoles, joined, bind_assoc, pure_bind, List.append_assoc,
    List.singleton_append, and_self]

theorem exact_descriptorOf {reader : Reader CodeUnit} {levels : Nat}
    (exact : Exact reader (·.nesting < levels) Layout.codeUnit Encoding.codeUnit) :
    Exact (descriptorOf reader) (fun d => (Constant.classDescriptor d).nesting ≤ levels + 1)
      descriptorRoles descriptorBytes := by
  intro before after descriptor answered
  obtain ⟨name, _, nameRead, answered⟩ := bind_eq_ok.mp answered
  obtain ⟨parent, _, parentRead, answered⟩ := bind_eq_ok.mp answered
  obtain ⟨fields, _, fieldsRead, answered⟩ := bind_eq_ok.mp answered
  obtain ⟨classVars, _, classVarsRead, answered⟩ := bind_eq_ok.mp answered
  obtain ⟨methods, _, methodsRead, answered⟩ := bind_eq_ok.mp answered
  obtain ⟨classMethods, _, classMethodsRead, wrapped⟩ := bind_eq_ok.mp answered
  cases wrapped
  have nameTook := (exact_text _ nameRead).2
  have parentTook := (exact_superclass parentRead).2
  have fieldsTook := (exact_texts _ "field list" fieldsRead).2
  have classVarsTook := (exact_texts _ "class variable list" classVarsRead).2
  obtain ⟨methodsFit, methodsTook⟩ := exact_methodTable exact methodsRead
  obtain ⟨classMethodsFit, classMethodsTook⟩ := exact_methodTable exact classMethodsRead
  refine ⟨?_, ?_⟩
  · dsimp only
    rw [Constant.nesting, Nat.succ_le_succ_iff, Nat.max_le]
    exact ⟨methodsFit, classMethodsFit⟩
  · exact nameTook.append <| parentTook.append <| fieldsTook.append <|
      classVarsTook.append <| methodsTook.append classMethodsTook

theorem byte_of_tag {code : UInt8} {tag : Format.Tag} (found : Format.Tag.ofByte? code = some tag) :
    tag.byte = code := by
  have same := List.find?_some found
  simpa using same

/-- A constant is its tag and what is read behind the tag. -/
theorem constant_eq_ok {block : Reader CodeUnit} {descriptor : Reader ClassDescriptor}
    {before after : Cursor} {value : Constant}
    (answered : constant block descriptor before = .ok (value, after)) :
    ∃ (tag : Format.Tag) (middle : Cursor), Took [.plain] (pure [tag.byte]) before middle ∧
      content block descriptor tag middle = .ok (value, after) := by
  obtain ⟨offset, placed, positioned, answered⟩ := bind_eq_ok.mp answered
  cases positioned
  obtain ⟨code, middle, codeRead, answered⟩ := bind_eq_ok.mp answered
  have codeTook := took_byte codeRead
  cases found : Format.Tag.ofByte? code with
  | none =>
      rw [found] at answered
      cases answered
  | some tag =>
      rw [found] at answered
      rw [← byte_of_tag found] at codeTook
      refine ⟨tag, middle, codeTook, ?_⟩
      cases tag <;> exact answered

theorem exact_constant {block : Reader CodeUnit} {descriptor : Reader ClassDescriptor}
    {levels : Nat}
    (blockExact : Exact block (·.nesting < levels) Layout.codeUnit Encoding.codeUnit)
    (descriptorExact : Exact descriptor (fun d => (Constant.classDescriptor d).nesting ≤ levels)
      descriptorRoles descriptorBytes) :
    Exact (constant block descriptor) (·.nesting ≤ levels) Layout.constant Encoding.constant := by
  intro before after value answered
  obtain ⟨tag, middle, tagTook, answered⟩ := constant_eq_ok answered
  cases tag with
  | int =>
      obtain ⟨word, _, wordRead, wrapped⟩ := bind_eq_ok.mp answered
      cases wrapped
      obtain ⟨fits, wordTook⟩ := exact_word 8 _ wordRead
      have same : (UInt64.ofNat word).toInt64.toUInt64.toNat = word := by
        rw [UInt64.toUInt64_toInt64, UInt64.toNat_ofNat_of_lt' fits]
      rw [Encoding.constant, Layout.constant, same]
      exact ⟨Nat.zero_le levels, tagTook.append wordTook⟩
  | float =>
      obtain ⟨word, _, wordRead, wrapped⟩ := bind_eq_ok.mp answered
      cases wrapped
      obtain ⟨fits, wordTook⟩ := exact_word 8 _ wordRead
      have same : (UInt64.ofNat word).toNat = word := UInt64.toNat_ofNat_of_lt' fits
      rw [Encoding.constant, Layout.constant, same]
      exact ⟨Nat.zero_le levels, tagTook.append wordTook⟩
  | string =>
      obtain ⟨text, _, textRead, wrapped⟩ := bind_eq_ok.mp answered
      cases wrapped
      rw [Encoding.constant, Layout.constant]
      exact ⟨Nat.zero_le levels, tagTook.append (exact_text _ textRead).2⟩
  | bool =>
      obtain ⟨flag, _, flagRead, wrapped⟩ := bind_eq_ok.mp answered
      cases wrapped
      have flagTook := took_flag flagRead
      have settled : (if (flag != 0) = true then (1 : UInt8) else 0) =
          if flag = 0 then 0 else 1 := by
        by_cases no : flag = 0 <;> simp [no]
      rw [Encoding.constant, Layout.constant, settled]
      exact ⟨Nat.zero_le levels, tagTook.append flagTook⟩
  | nil =>
      cases answered
      rw [Encoding.constant, Layout.constant]
      exact ⟨Nat.zero_le levels, tagTook⟩
  | block =>
      obtain ⟨body, _, bodyRead, wrapped⟩ := bind_eq_ok.mp answered
      cases wrapped
      obtain ⟨fits, bodyTook⟩ := blockExact bodyRead
      rw [Encoding.constant, Layout.constant]
      dsimp only
      rw [Constant.nesting]
      exact ⟨fits, tagTook.append bodyTook⟩
  | classDescriptor =>
      obtain ⟨read, _, descriptorRead, wrapped⟩ := bind_eq_ok.mp answered
      cases wrapped
      obtain ⟨fits, descriptorTook⟩ := descriptorExact descriptorRead
      obtain ⟨written, roles⟩ := constant_classDescriptor read
      rw [written, roles]
      exact ⟨fits, tagTook.append descriptorTook⟩

/-- With any number of levels, what is read is what would be written, and it nests less deeply
than the levels allow. -/
theorem exact_codeUnit_and_classDescriptor (levels : Nat) :
    Exact (codeUnit levels) (·.nesting < levels) Layout.codeUnit Encoding.codeUnit ∧
      Exact (classDescriptor levels) (fun d => (Constant.classDescriptor d).nesting ≤ levels)
        descriptorRoles descriptorBytes := by
  induction levels with
  | zero =>
      constructor
      · intro before after unit answered
        rw [codeUnit] at answered
        cases answered
      · intro before after descriptor answered
        rw [classDescriptor] at answered
        cases answered
  | succ levels inductionHypothesis =>
      obtain ⟨unitExact, descriptorExact⟩ := inductionHypothesis
      rw [codeUnit, classDescriptor]
      exact ⟨exact_unitOf (exact_constant unitExact descriptorExact), exact_descriptorOf unitExact⟩

/-! ## Files -/

theorem took_header {before after : Cursor} (answered : header before = .ok ((), after)) :
    Took (Layout.plain 12) (pure Encoding.header) before after := by
  obtain ⟨magic, _, magicTaken, answered⟩ := bind_eq_ok.mp answered
  by_cases sameMagic : magic = Format.magic
  · subst sameMagic
    obtain ⟨version, _, versionRead, answered⟩ := bind_eq_ok.mp answered
    by_cases sameVersion : version = Format.version
    · subst sameVersion
      obtain ⟨flags, _, flagsRead, answered⟩ := bind_eq_ok.mp answered
      by_cases noFlags : flags = 0
      · subst noFlags
        cases answered
        have magicTook := Took.plain (take_eq_ok magicTaken).2
        have versionTook := (exact_word 4 _ versionRead).2
        have flagsTook := (exact_word 4 _ flagsRead).2
        exact (magicTook.append versionTook).append flagsTook
      · simp [noFlags] at answered
        cases answered
    · simp [sameVersion] at answered
      cases answered
  · simp [sameMagic] at answered
    cases answered

/-- A file that is read to its end is, up to its flags, the file of the unit in it. -/
theorem file_eq_ok {input : List UInt8} {unit : CodeUnit} {after : Cursor}
    (answered : file ⟨input, 0⟩ = .ok (unit, after)) :
    unit.nesting ≤ Format.maxNesting ∧ unit.layout.length = input.length ∧
      unit.encode = .ok (List.zipWith Role.settle unit.layout input) := by
  obtain ⟨_, _, headerRead, answered⟩ := bind_eq_ok.mp answered
  obtain ⟨unit, last, unitRead, answered⟩ := bind_eq_ok.mp answered
  obtain ⟨fits, unitTook⟩ := (exact_codeUnit_and_classDescriptor _).1 unitRead
  obtain ⟨taken, rest, length, written⟩ := (took_header headerRead).append unitTook
  obtain ⟨_, _, gotten, answered⟩ := bind_eq_ok.mp answered
  cases gotten
  by_cases ended : last.rest.length = 0
  · have nothingLeft : last.rest = [] := List.eq_nil_of_length_eq_zero ended
    have readToEnd : input = taken := by simpa [nothingLeft] using rest
    simp only [ended, ne_eq, not_true_eq_false, if_false] at answered
    cases answered
    subst readToEnd
    exact ⟨Nat.le_of_lt_succ fits, length, written⟩
  · simp [ended] at answered
    cases answered

end Decoding

/-- Every file that is accepted can be written again from the unit in it.  The new file has the
same length and holds the same unit; byte by byte it is the old one, with every flag settled. -/
theorem CodeUnit.encode_of_decode_eq_ok {input : List UInt8} {unit : CodeUnit}
    (accepted : CodeUnit.decode input = .ok unit) :
    ∃ bytes, unit.encode = .ok bytes ∧ bytes.length = input.length ∧
      CodeUnit.decode bytes = .ok unit ∧ unit.layout.length = input.length ∧
      bytes = List.zipWith Role.settle unit.layout input := by
  obtain ⟨⟨read, after⟩, fileRead, verified⟩ := Except.bind_eq_ok.mp accepted
  obtain ⟨_, passed, wrapped⟩ := Except.bind_eq_ok.mp verified
  cases wrapped
  obtain ⟨fits, length, written⟩ := Decoding.file_eq_ok fileRead
  refine ⟨_, written, ?_, ?_, length, rfl⟩
  · simp [length]
  · obtain ⟨content, contentWritten, same⟩ := Except.bind_eq_ok.mp written
    have whole : Encoding.header ++ content = List.zipWith Role.settle unit.layout input :=
      Except.ok.inj same
    obtain ⟨cursor, readAgain⟩ := (Decoding.file_of_written contentWritten).1 fits
    rw [← whole]
    refine CodeUnit.decode_of_file readAgain ?_
    cases verified : unit.verify with
    | ok done =>
        rfl
    | error fault =>
        rw [verified] at passed
        cases passed

/-- A file in which the byte of a truth value is nine and the byte that announces a superclass is
two hundred. -/
def Layout.unsettled : List UInt8 :=
  Encoding.header ++ [1, 0, 0, 0, 0x60, 0, 0, 0, 0, 2, 0, 0, 0, 4, 9, 7, 1, 0, 0, 0, 65,
    200, 1, 0, 0, 0, 66, 0, 0, 0, 0, 0, 0, 0, 0, 0, 0, 0, 0, 0, 0, 0, 0]

/-- The unit in that file. -/
def Layout.unsettledUnit : CodeUnit :=
  ⟨#[.bare .return], [.bool true, .classDescriptor ⟨"A", some "B", [], [], [], []⟩]⟩

theorem CodeUnit.encode_of_decode_unsettled :
    CodeUnit.decode Layout.unsettled = .ok Layout.unsettledUnit ∧
      ∃ bytes, Layout.unsettledUnit.encode = .ok bytes ∧
        bytes.length = Layout.unsettled.length ∧
        CodeUnit.decode bytes = .ok Layout.unsettledUnit ∧
        bytes = List.zipWith Role.settle Layout.unsettledUnit.layout Layout.unsettled := by
  have headerRead : Decoding.header ⟨Layout.unsettled, 0⟩ =
      .ok ((), ⟨Layout.unsettled.drop 12, 12⟩) := by rfl
  have unitRead : Decoding.codeUnit (Format.maxNesting + 1) ⟨Layout.unsettled.drop 12, 12⟩ =
      .ok (Layout.unsettledUnit, ⟨[], 55⟩) := by rfl
  have fileRead : Decoding.file ⟨Layout.unsettled, 0⟩ =
      .ok (Layout.unsettledUnit, ⟨[], 55⟩) := by
    rw [Decoding.file_eq, Decoding.bind_eq_ok]
    exact ⟨_, _, Decoding.bind_eq_ok.mpr ⟨_, _, headerRead, unitRead⟩, rfl⟩
  have accepted := CodeUnit.decode_of_file fileRead rfl
  obtain ⟨bytes, written, sameLength, readAgain, _, settled⟩ :=
    CodeUnit.encode_of_decode_eq_ok accepted
  exact ⟨accepted, bytes, written, sameLength, readAgain, settled⟩

end Missive
