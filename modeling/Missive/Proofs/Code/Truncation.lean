import Missive.Proofs.Code.Acceptance

/-!
# Files that end too early

A reader answers the same on a longer input and on a shorter one, as long as the shorter one holds
everything that it takes or asks for.  Otherwise it reports that the input ends too early, and it
does so before it can find anything else to complain about.  `Shortens` says this of a reader.  It
is kept when readers follow each other, so it holds of every reader of the format, whatever the
bytes are.

A file that was written is read to its end.  A part of it is therefore never read at all, and it is
not the file of another unit.
-/

namespace Missive

namespace Decoding

/-! ## Cutting off the end of the input -/

/-- What a reader does without the bytes that are missing, where with them it answered the value
and stopped after. -/
inductive Shortened {α : Type} (reader : Reader α) (kept missing : List UInt8) (offset : Nat)
    (value : α) (after : Cursor) : Prop
  /-- It has not come to the missing bytes. -/
  | same (left : List UInt8) : after.rest = left ++ missing →
      after.offset + left.length = offset + kept.length →
      reader ⟨kept, offset⟩ = .ok (value, ⟨left, after.offset⟩) →
      Shortened reader kept missing offset value after
  /-- It reports that bytes are missing, at a place inside the others or right after them. -/
  | truncated (place needed : Nat) (part : String) : place ≤ offset + kept.length → 0 < needed →
      reader ⟨kept, offset⟩ = .error (.truncated place needed part) →
      Shortened reader kept missing offset value after

/-- On a shorter input the reader answers the same, or reports that the input ends too early. -/
structure Shortens {α : Type} (reader : Reader α) : Prop where
  shortened : ∀ {kept missing : List UInt8} {offset : Nat} {value : α} {after : Cursor},
    reader ⟨kept ++ missing, offset⟩ = .ok (value, after) →
      Shortened reader kept missing offset value after

section Combinators

variable {α β : Type}

theorem shortens_pure (value : α) : Shortens (pure value : Reader α) := by
  refine ⟨fun {kept missing offset result after} answered => ?_⟩
  cases answered
  exact .same kept rfl rfl rfl

theorem shortens_throw (fault : FormatError) : Shortens (throw fault : Reader α) := by
  refine ⟨fun {kept missing offset result after} answered => ?_⟩
  cases answered

theorem Shortens.bind {first : Reader α} {next : α → Reader β} (firstShortens : Shortens first)
    (nextShortens : ∀ value, Shortens (next value)) : Shortens (first >>= next) := by
  refine ⟨fun {kept missing offset result after} answered => ?_⟩
  obtain ⟨value, ⟨rest, reached⟩, firstAnswered, answered⟩ := bind_eq_ok.mp answered
  have unfolds : (first >>= next) ⟨kept, offset⟩ =
      (first ⟨kept, offset⟩ >>= fun step => next step.1 step.2) := rfl
  cases firstShortens.shortened firstAnswered with
  | truncated place needed part inside positive reported =>
      refine .truncated place needed part inside positive ?_
      rw [unfolds, reported]
      rfl
  | same left isRest sameEnd firstSame =>
      dsimp only at isRest sameEnd
      subst isRest
      cases (nextShortens value).shortened answered with
      | truncated place needed part inside positive reported =>
          refine .truncated place needed part (by omega) positive ?_
          rw [unfolds, firstSame]
          exact reported
      | same further isRest nextEnd nextSame =>
          refine .same further isRest (by omega) ?_
          rw [unfolds, firstSame]
          exact nextSame

theorem shortens_position : Shortens position := by
  refine ⟨fun {kept missing offset result after} answered => ?_⟩
  cases answered
  exact .same kept rfl rfl rfl

theorem require_of_lt {size : Nat} {part : String} {rest : List UInt8} {offset : Nat}
    (short : rest.length < size) :
    require size part ⟨rest, offset⟩ =
      .error (.truncated offset (size - rest.length) part) := by
  have all : rest.take size = rest := List.take_of_length_le (Nat.le_of_lt short)
  change (if (rest.take size).length < size then
    (throw (.truncated offset (size - (rest.take size).length) part) : Reader PUnit) else pure _)
      (⟨rest, offset⟩ : Cursor) = _
  rw [all, if_pos short]
  rfl

theorem shortens_require (size : Nat) (part : String) : Shortens (require size part) := by
  refine ⟨fun {kept missing offset result after} answered => ?_⟩
  obtain ⟨_, rfl⟩ := require_eq_ok answered
  by_cases enough : size ≤ kept.length
  · exact .same kept rfl rfl (require_of_le enough)
  · exact .truncated offset (size - kept.length) part (by omega) (by omega)
      (require_of_lt (by omega))

theorem shortens_take (size : Nat) (part : String) : Shortens (take size part) := by
  refine ⟨fun {kept missing offset result after} answered => ?_⟩
  have unfolds : take size part ⟨kept, offset⟩ =
      (require size part ⟨kept, offset⟩ >>= fun step =>
        .ok (step.2.rest.take size, ⟨step.2.rest.drop size, step.2.offset + size⟩)) := rfl
  by_cases enough : size ≤ kept.length
  · have longEnough : size ≤ (kept ++ missing).length := by
      rw [List.length_append]
      omega
    obtain ⟨_, middle, required, moved⟩ := bind_eq_ok.mp answered
    obtain ⟨_, rfl⟩ := require_eq_ok required
    cases moved
    refine .same (kept.drop size) (List.drop_append_of_le_length enough) ?_ ?_
    · simp
      omega
    · rw [unfolds, require_of_le enough]
      change _ = Except.ok ((kept ++ missing).take size, _)
      rw [List.take_append_of_le_length enough]
      rfl
  · refine .truncated offset (size - kept.length) part (by omega) (by omega) ?_
    rw [unfolds, require_of_lt (by omega)]
    rfl

end Combinators

/-! ## The readers of the format -/

theorem shortens_byte (part : String) : Shortens (byte part) :=
  (shortens_take 1 part).bind fun _ => shortens_pure _

theorem shortens_word (width : Nat) (part : String) : Shortens (word width part) :=
  (shortens_take width part).bind fun _ => shortens_pure _

theorem shortens_count (itemSize : Nat) (part : String) : Shortens (count itemSize part) := by
  refine (shortens_word 4 part).bind fun size => ?_
  exact (shortens_require (size * itemSize) part).bind fun _ => shortens_pure _

theorem shortens_many {α : Type} {reader : Reader α} (shortens : Shortens reader) (times : Nat) :
    Shortens (many reader times) := by
  induction times with
  | zero =>
      exact shortens_pure []
  | succ times inductionHypothesis =>
      exact shortens.bind fun first => inductionHypothesis.bind fun others => shortens_pure _

theorem shortens_text (part : String) : Shortens (text part) := by
  refine (shortens_count 1 part).bind fun size => ?_
  refine shortens_position.bind fun offset => ?_
  refine (shortens_take size part).bind fun taken => ?_
  split
  · exact shortens_pure _
  · exact shortens_throw _

theorem shortens_texts (part : String) : Shortens (texts part) :=
  (shortens_count 4 part).bind fun size => shortens_many (shortens_text part) size

theorem shortens_instruction : Shortens instruction := by
  refine shortens_position.bind fun offset => ?_
  refine (shortens_byte "opcode").bind fun code => ?_
  split
  · exact shortens_throw _
  · exact (shortens_word 4 "operand").bind fun operand => shortens_pure _

theorem shortens_constant {block : Reader CodeUnit} {descriptor : Reader ClassDescriptor}
    (blockShortens : Shortens block) (descriptorShortens : Shortens descriptor) :
    Shortens (constant block descriptor) := by
  refine shortens_position.bind fun offset => ?_
  refine (shortens_byte "constant tag").bind fun tag => ?_
  split
  · exact (shortens_word 8 "integer constant").bind fun _ => shortens_pure _
  · exact (shortens_word 8 "float constant").bind fun _ => shortens_pure _
  · exact (shortens_text "string constant").bind fun _ => shortens_pure _
  · exact (shortens_byte "boolean constant").bind fun _ => shortens_pure _
  · exact shortens_pure _
  · exact blockShortens.bind fun _ => shortens_pure _
  · exact descriptorShortens.bind fun _ => shortens_pure _
  · exact shortens_throw _

theorem shortens_unitOf {constant : Reader Constant} (constantShortens : Shortens constant) :
    Shortens (unitOf constant) := by
  refine (shortens_count 5 "instruction count").bind fun codeSize => ?_
  refine (shortens_many shortens_instruction codeSize).bind fun code => ?_
  refine (shortens_count 1 "constant count").bind fun poolSize => ?_
  exact (shortens_many constantShortens poolSize).bind fun constants => shortens_pure _

theorem shortens_methodTable {body : Reader CodeUnit} (bodyShortens : Shortens body) :
    Shortens (methodTable body) := by
  refine (shortens_count 16 "method table").bind fun size => shortens_many ?_ size
  refine (shortens_text "selector").bind fun selector => ?_
  refine (shortens_texts "parameter list").bind fun parameters => ?_
  exact bodyShortens.bind fun _ => shortens_pure _

theorem shortens_superclass : Shortens superclass := by
  refine (shortens_byte "superclass flag").bind fun flag => ?_
  split
  · exact shortens_pure _
  · exact (shortens_text "superclass name").bind fun _ => shortens_pure _

theorem shortens_descriptorOf {body : Reader CodeUnit} (bodyShortens : Shortens body) :
    Shortens (descriptorOf body) := by
  refine (shortens_text "class name").bind fun name => ?_
  refine shortens_superclass.bind fun parent => ?_
  refine (shortens_texts "field list").bind fun fields => ?_
  refine (shortens_texts "class variable list").bind fun classVars => ?_
  refine (shortens_methodTable bodyShortens).bind fun methods => ?_
  exact (shortens_methodTable bodyShortens).bind fun _ => shortens_pure _

theorem shortens_tooDeep {α : Type} : Shortens (tooDeep : Reader α) :=
  shortens_position.bind fun _ => shortens_throw _

-- The readers of units and of class descriptors call each other one level down.
theorem shortens_codeUnit_and_classDescriptor (levels : Nat) :
    Shortens (codeUnit levels) ∧ Shortens (classDescriptor levels) := by
  induction levels with
  | zero =>
      rw [codeUnit, classDescriptor]
      exact ⟨shortens_tooDeep, shortens_tooDeep⟩
  | succ levels inductionHypothesis =>
      obtain ⟨unitShortens, descriptorShortens⟩ := inductionHypothesis
      rw [codeUnit, classDescriptor]
      exact ⟨shortens_unitOf (shortens_constant unitShortens descriptorShortens),
        shortens_descriptorOf unitShortens⟩

/-- A check that is passed, with the rest of the reader behind it. -/
theorem Shortens.checked {α : Type} {condition : Prop} [Decidable condition] {fault : FormatError}
    {next : Unit → Reader α} (nextShortens : Shortens (next ())) :
    Shortens (if condition then throw fault >>= next else next ()) := by
  split
  · refine ⟨fun answered => ?_⟩
    cases answered
  · exact nextShortens

theorem shortens_header : Shortens header := by
  refine (shortens_take 4 "magic").bind fun magic => Shortens.checked ?_
  refine (shortens_word 4 "version").bind fun version => Shortens.checked ?_
  refine (shortens_word 4 "flags").bind fun flags => ?_
  split
  · exact shortens_throw _
  · exact shortens_pure _

/-! ## Written files -/

/-- The header and the unit of a file are read back, whatever follows. -/
theorem reads_written {unit : CodeUnit} {content : List UInt8}
    (written : Encoding.codeUnit unit = .ok content) {levels : Nat}
    (enough : unit.nesting < levels) :
    Reads (header >>= fun _ => codeUnit levels) unit (Encoding.header ++ content) :=
  reads_header.bind ((decides_codeUnit unit levels written).reads enough)

/-- A part of a written file ends too early. -/
theorem file_truncated {unit : CodeUnit} {content : List UInt8}
    (written : Encoding.codeUnit unit = .ok content) (shallow : unit.nesting ≤ Format.maxNesting)
    {kept missing : List UInt8} (cut : kept ++ missing = Encoding.header ++ content)
    (isCut : missing ≠ []) :
    ∃ place needed part, file ⟨kept, 0⟩ = .error (.truncated place needed part) ∧
      place ≤ kept.length ∧ 0 < needed := by
  have shortens : Shortens (header >>= fun _ => codeUnit (Format.maxNesting + 1)) :=
    shortens_header.bind fun _ => (shortens_codeUnit_and_classDescriptor _).1
  have read := reads_written written (Nat.lt_succ_of_le shallow) [] 0
  rw [List.append_nil, ← cut] at read
  rw [file_eq]
  cases shortens.shortened read with
  | same left isRest _ _ =>
      exact (isCut (List.append_eq_nil_iff.mp isRest.symm).2).elim
  | truncated place needed part inside positive reported =>
      refine ⟨place, needed, part, ?_, by omega, positive⟩
      change ((header >>= fun _ => codeUnit (Format.maxNesting + 1)) ⟨kept, 0⟩ >>= fun step =>
        ending step.1 step.2) = _
      rw [reported]
      rfl

/-- A unit is read with as many levels as it needs, and then nothing of the file is left. -/
theorem eq_of_written {unit other : CodeUnit} {content otherContent : List UInt8}
    (written : Encoding.codeUnit unit = .ok content)
    (otherWritten : Encoding.codeUnit other = .ok otherContent) {missing : List UInt8}
    (cut : otherContent ++ missing = content) : missing = [] := by
  have levels := Nat.lt_succ_of_le (Nat.le_max_left unit.nesting other.nesting)
  have otherLevels := Nat.lt_succ_of_le (Nat.le_max_right unit.nesting other.nesting)
  have read := (decides_codeUnit unit _ written).reads levels [] 0
  have otherRead := (decides_codeUnit other _ otherWritten).reads otherLevels missing 0
  rw [List.append_nil, ← cut, otherRead] at read
  exact congrArg Cursor.rest (Prod.mk.inj (Except.ok.inj read)).2

end Decoding

/-- A file that was written for a unit and that lost bytes at its end is refused because it ends too
early, whether or not the unit passes verification.  The report names a place that is not past the
end, and how many bytes are missing there.  So no file is the beginning of another one. -/
theorem CodeUnit.decode_of_cut {unit : CodeUnit} {bytes : List UInt8}
    (accepted : unit.encode = .ok bytes) :
    (unit.nesting ≤ Format.maxNesting → ∀ kept, kept <+: bytes → kept ≠ bytes →
      ∃ offset needed part, CodeUnit.decode kept = .error (.truncated offset needed part) ∧
        offset ≤ kept.length ∧ 0 < needed) ∧
    ∀ (other : CodeUnit) (otherBytes : List UInt8), other.encode = .ok otherBytes →
      otherBytes <+: bytes → otherBytes = bytes := by
  obtain ⟨content, written, same⟩ := Except.bind_eq_ok.mp accepted
  cases same
  refine ⟨?_, ?_⟩
  · rintro shallow kept ⟨missing, cut⟩ isCut
    have isMissing : missing ≠ [] := by
      rintro rfl
      rw [List.append_nil] at cut
      exact isCut cut
    obtain ⟨place, needed, part, reported, inside, positive⟩ :=
      Decoding.file_truncated written shallow cut isMissing
    exact ⟨place, needed, part, CodeUnit.decode_of_refused reported, inside, positive⟩
  · rintro other _ otherAccepted ⟨missing, cut⟩
    obtain ⟨otherContent, otherWritten, same⟩ := Except.bind_eq_ok.mp otherAccepted
    cases same
    rw [List.append_assoc] at cut
    have sameContent := List.append_cancel_left cut
    have nothing := Decoding.eq_of_written written otherWritten sameContent
    rw [nothing, List.append_nil] at sameContent
    rw [sameContent]

/-- A unit that does not pass verification, in whose file the end of an integer in a block is
missing. -/
theorem CodeUnit.decode_of_cut_integer :
    let unit : CodeUnit :=
      ⟨#[.indexed .pushConstant 7], [.block ⟨#[.bare .return], [.int 5]⟩, .bool true]⟩
    ∃ bytes, unit.encode = .ok bytes ∧ unit.nesting = 1 ∧ unit.verify ≠ .ok () ∧
      bytes.length = 50 ∧ ∃ offset needed part,
        CodeUnit.decode (bytes.take 45) = .error (.truncated offset needed part) ∧
          offset ≤ 45 ∧ 0 < needed := by
  intro unit
  have accepted : ∃ bytes, unit.encode = .ok bytes ∧ bytes.length = 50 := ⟨_, rfl, rfl⟩
  obtain ⟨bytes, accepted, size⟩ := accepted
  have invalid : unit.verify ≠ .ok () := nofun
  refine ⟨bytes, accepted, rfl, invalid, size, ?_⟩
  have shorter : bytes.take 45 ≠ bytes := fun same => by
    have sameLength := congrArg List.length same
    rw [List.length_take, size] at sameLength
    cases sameLength
  obtain ⟨offset, needed, part, refused, inside, positive⟩ :=
    (CodeUnit.decode_of_cut accepted).1 (by decide) _ (List.take_prefix _ _) shorter
  rw [List.length_take, size] at inside
  exact ⟨offset, needed, part, refused, inside, positive⟩

end Missive
