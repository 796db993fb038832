import Missive.Code.Decoding
import Missive.Code.Encoding
import Missive.Proofs.Answers

/-!
# Readers and the bytes they accept

A reader is judged by what it does on the bytes that were written for one value, with any bytes
after them and at any offset:

* `Reads reader value bytes`: it answers the value and stops behind the bytes;
* `Refuses reader bytes`: it reports that the input nests too deeply.

`Decides fits reader value bytes` joins the two: the reader reads the value where `fits` holds and
refuses the bytes where it does not.  Readers that follow each other are joined by one lemma, so
the bytes of a part are always taken together with the bytes of the parts behind it.  A count
looks ahead at the bytes that are left; what it asks for must be covered by the bytes that were
written for its items.
-/

namespace Missive

namespace Decoding

/-! ## What a reader does on written bytes -/

/-- The reader answers the value and stops behind the bytes. -/
def Reads {α : Type} (reader : Reader α) (value : α) (bytes : List UInt8) : Prop :=
  ∀ (tail : List UInt8) (offset : Nat),
    reader ⟨bytes ++ tail, offset⟩ = .ok (value, ⟨tail, offset + bytes.length⟩)

/-- The reader reports that the input nests too deeply. -/
def Refuses {α : Type} (reader : Reader α) (bytes : List UInt8) : Prop :=
  ∀ (tail : List UInt8) (offset : Nat),
    ∃ place, reader ⟨bytes ++ tail, offset⟩ = .error (.nestingTooDeep place)

/-- The reader reads the value where it fits and refuses the bytes where it does not. -/
structure Decides {α : Type} (fits : Prop) (reader : Reader α) (value : α)
    (bytes : List UInt8) : Prop where
  reads : fits → Reads reader value bytes
  refuses : ¬ fits → Refuses reader bytes

section Combinators

variable {α β : Type}

theorem reads_pure (value : α) : Reads (pure value) value [] := by
  intro tail offset
  rfl

theorem Reads.bind {first : Reader α} {next : α → Reader β} {value : α} {result : β}
    {firstBytes nextBytes : List UInt8}
    (firstReads : Reads first value firstBytes) (nextReads : Reads (next value) result nextBytes) :
    Reads (first >>= next) result (firstBytes ++ nextBytes) := by
  intro tail offset
  change (first ⟨firstBytes ++ nextBytes ++ tail, offset⟩ >>= fun reached =>
    next reached.1 reached.2) = _
  rw [List.append_assoc, firstReads (nextBytes ++ tail) offset, List.length_append,
    ← Nat.add_assoc]
  exact nextReads tail (offset + firstBytes.length)

theorem Reads.bind_refuses {first : Reader α} {next : α → Reader β} {value : α}
    {firstBytes nextBytes : List UInt8}
    (firstReads : Reads first value firstBytes) (nextRefuses : Refuses (next value) nextBytes) :
    Refuses (first >>= next) (firstBytes ++ nextBytes) := by
  intro tail offset
  obtain ⟨place, refused⟩ := nextRefuses tail (offset + firstBytes.length)
  refine ⟨place, ?_⟩
  change (first ⟨firstBytes ++ nextBytes ++ tail, offset⟩ >>= fun reached =>
    next reached.1 reached.2) = _
  rw [List.append_assoc, firstReads (nextBytes ++ tail) offset]
  exact refused

theorem Refuses.bind {first : Reader α} {next : α → Reader β} {firstBytes : List UInt8}
    (firstRefuses : Refuses first firstBytes) (nextBytes : List UInt8) :
    Refuses (first >>= next) (firstBytes ++ nextBytes) := by
  intro tail offset
  obtain ⟨place, refused⟩ := firstRefuses (nextBytes ++ tail) offset
  refine ⟨place, ?_⟩
  change (first ⟨firstBytes ++ nextBytes ++ tail, offset⟩ >>= fun reached =>
    next reached.1 reached.2) = _
  rw [List.append_assoc, refused]
  rfl

/-- A reader that always reads decides whatever holds. -/
theorem Reads.decides {reader : Reader α} {value : α} {bytes : List UInt8}
    (reads : Reads reader value bytes) : Decides True reader value bytes :=
  ⟨fun _ => reads, fun impossible => (impossible trivial).elim⟩

theorem Decides.congr {fits wider : Prop} {reader : Reader α} {value : α} {bytes : List UInt8}
    (decides : Decides fits reader value bytes) (same : fits ↔ wider) :
    Decides wider reader value bytes := by
  rw [← same]
  exact decides

/-- Two readers one after the other: both parts have to fit. -/
theorem Decides.bind {fits nextFits : Prop} {first : Reader α} {next : α → Reader β}
    {value : α} {result : β} {firstBytes nextBytes : List UInt8}
    (firstDecides : Decides fits first value firstBytes)
    (nextDecides : Decides nextFits (next value) result nextBytes) :
    Decides (fits ∧ nextFits) (first >>= next) result (firstBytes ++ nextBytes) := by
  constructor
  · rintro ⟨firstFits, restFits⟩
    exact (firstDecides.reads firstFits).bind (nextDecides.reads restFits)
  · intro tooDeep
    by_cases firstFits : fits
    · have restTooDeep : ¬ nextFits := fun restFits => tooDeep ⟨firstFits, restFits⟩
      exact (firstDecides.reads firstFits).bind_refuses (nextDecides.refuses restTooDeep)
    · exact (firstDecides.refuses firstFits).bind nextBytes

/-- The common case of a first part without anything nested in it. -/
theorem Decides.after {fits : Prop} {first : Reader α} {next : α → Reader β}
    {value : α} {result : β} {firstBytes nextBytes : List UInt8}
    (nextDecides : Decides fits (next value) result nextBytes)
    (firstReads : Reads first value firstBytes) :
    Decides fits (first >>= next) result (firstBytes ++ nextBytes) :=
  (firstReads.decides.bind nextDecides).congr (Iff.of_eq (true_and fits))

/-- The last part may still be wrapped up. -/
theorem Decides.map {fits : Prop} {reader : Reader α} {value : α} {bytes : List UInt8}
    (decides : Decides fits reader value bytes) (wrap : α → β) :
    Decides fits (reader >>= fun read => pure (wrap read)) (wrap value) bytes := by
  have joined : Decides (fits ∧ True) (reader >>= fun read => pure (wrap read)) (wrap value)
      (bytes ++ []) :=
    decides.bind (reads_pure (wrap value)).decides
  rw [List.append_nil] at joined
  exact joined.congr (Iff.of_eq (and_true fits))

end Combinators

/-! ## Bytes, words and counts -/

theorem require_of_le {size : Nat} {part : String} {rest : List UInt8} {offset : Nat}
    (enough : size ≤ rest.length) :
    require size part ⟨rest, offset⟩ = .ok ((), ⟨rest, offset⟩) := by
  have available : ¬ (rest.take size).length < size := by
    rw [List.length_take]
    omega
  change (if (rest.take size).length < size then (throw _ : Reader PUnit) else pure _)
    (⟨rest, offset⟩ : Cursor) = _
  rw [if_neg available]
  rfl

theorem reads_take (bytes : List UInt8) (part : String) :
    Reads (take bytes.length part) bytes bytes := by
  intro tail offset
  have enough : bytes.length ≤ (bytes ++ tail).length := by
    rw [List.length_append]
    omega
  change (require bytes.length part ⟨bytes ++ tail, offset⟩ >>= _) = _
  rw [require_of_le enough]
  change Except.ok ((bytes ++ tail).take bytes.length,
    (⟨(bytes ++ tail).drop bytes.length, offset + bytes.length⟩ : Cursor)) = _
  rw [List.take_left, List.drop_left]

theorem reads_byte (value : UInt8) (part : String) : Reads (byte part) value [value] :=
  (reads_take [value] part).bind (reads_pure value)

/-- A number that fits in its width is read back. -/
theorem reads_word (width n : Nat) (part : String) (fits : n < Nat.pow 256 width) :
    Reads (word width part) n (LittleEndian.bytes width n) := by
  have taken := reads_take (LittleEndian.bytes width n) part
  rw [LittleEndian.length_bytes] at taken
  have joined : Reads (word width part) (LittleEndian.value (LittleEndian.bytes width n))
      (LittleEndian.bytes width n ++ []) :=
    taken.bind (reads_pure _)
  rw [LittleEndian.value_bytes width n fits, List.append_nil] at joined
  exact joined

/-- The count in front of its items is accepted when the bytes behind it are at least as many as
it asks for. -/
theorem Decides.counted {β : Type} {fits : Prop} {itemSize size : Nat} {part : String}
    {next : Nat → Reader β} {result : β} {bytes : List UInt8}
    (nextDecides : Decides fits (next size) result bytes)
    (writable : size < 0x100000000) (enough : size * itemSize ≤ bytes.length) :
    Decides fits (count itemSize part >>= next) result (LittleEndian.bytes 4 size ++ bytes) := by
  have counts : ∀ (tail : List UInt8) (offset : Nat),
      count itemSize part ⟨LittleEndian.bytes 4 size ++ (bytes ++ tail), offset⟩ =
        .ok (size, ⟨bytes ++ tail, offset + (LittleEndian.bytes 4 size).length⟩) := by
    intro tail offset
    have ahead : size * itemSize ≤ (bytes ++ tail).length := by
      rw [List.length_append]
      omega
    change (word 4 part ⟨LittleEndian.bytes 4 size ++ (bytes ++ tail), offset⟩ >>= fun reached =>
      require (reached.1 * itemSize) part reached.2 >>= fun checked =>
        pure (reached.1, checked.2)) = _
    rw [reads_word 4 size part writable (bytes ++ tail) offset]
    change (require (size * itemSize) part ⟨bytes ++ tail, _⟩ >>= fun checked =>
      pure (size, checked.2)) = _
    rw [require_of_le ahead]
    rfl
  have unfolds : ∀ (tail : List UInt8) (offset : Nat),
      (count itemSize part >>= next) ⟨LittleEndian.bytes 4 size ++ bytes ++ tail, offset⟩ =
        next size ⟨bytes ++ tail, offset + (LittleEndian.bytes 4 size).length⟩ := by
    intro tail offset
    change (count itemSize part ⟨LittleEndian.bytes 4 size ++ bytes ++ tail, offset⟩ >>= _) = _
    rw [List.append_assoc, counts tail offset]
    rfl
  constructor
  · intro holds tail offset
    rw [unfolds, nextDecides.reads holds, List.length_append, Nat.add_assoc]
  · intro fails tail offset
    rw [unfolds]
    exact nextDecides.refuses fails tail _

/-! ## Sequences -/

/-- Items written one after the other are read one after the other, and all of them have to
fit. -/
theorem decides_many {α : Type} {reader : Reader α} {item : α → Encoding.Encoded}
    {fits : α → Prop} {items : List α}
    (each : ∀ a ∈ items, ∀ bytes, item a = .ok bytes → Decides (fits a) reader a bytes)
    {bytes : List UInt8} (written : Encoding.sequence item items = .ok bytes) :
    Decides (∀ a ∈ items, fits a) (many reader items.length) items bytes := by
  induction items generalizing bytes with
  | nil =>
      cases written
      exact (reads_pure []).decides.congr (by simp)
  | cons head rest inductionHypothesis =>
      obtain ⟨first, firstWritten, written⟩ := Except.bind_eq_ok.mp written
      obtain ⟨others, othersWritten, written⟩ := Except.bind_eq_ok.mp written
      cases written
      have headDecides := each head List.mem_cons_self first firstWritten
      have restDecides :=
        inductionHypothesis
          (fun a member => each a (List.mem_cons_of_mem head member)) othersWritten
      have joined : Decides _ (many reader (rest.length + 1)) (head :: rest) (first ++ others) :=
        headDecides.bind (restDecides.map (head :: ·))
      exact joined.congr (by simp)

/-- Items of a least size take as many bytes together. -/
theorem length_sequence {α : Type} {item : α → Encoding.Encoded} {itemSize : Nat}
    {items : List α}
    (each : ∀ a ∈ items, ∀ bytes, item a = .ok bytes → itemSize ≤ bytes.length)
    {bytes : List UInt8} (written : Encoding.sequence item items = .ok bytes) :
    items.length * itemSize ≤ bytes.length := by
  induction items generalizing bytes with
  | nil =>
      simp
  | cons head rest inductionHypothesis =>
      obtain ⟨first, firstWritten, written⟩ := Except.bind_eq_ok.mp written
      obtain ⟨others, othersWritten, written⟩ := Except.bind_eq_ok.mp written
      cases written
      have headLength := each head List.mem_cons_self first firstWritten
      have restLength :=
        inductionHypothesis
          (fun a member => each a (List.mem_cons_of_mem head member)) othersWritten
      rw [List.length_cons, Nat.succ_mul, List.length_append]
      omega

/-! ## Texts -/

private theorem toList_loop (bytes : ByteArray) (position : Nat) (passed : List UInt8) :
    ByteArray.toList.loop bytes position passed =
      passed.reverse ++ bytes.data.toList.drop position := by
  induction remaining : bytes.size - position generalizing position passed with
  | zero =>
      have done : ¬ position < bytes.size := by omega
      have passedAll : bytes.data.toList.length ≤ position := by
        rw [Array.length_toList]
        exact Nat.le_of_not_lt done
      rw [ByteArray.toList.loop, if_neg done, List.drop_of_length_le passedAll, List.append_nil]
  | succ fewer inductionHypothesis =>
      have inside : position < bytes.size := by omega
      have insideList : position < bytes.data.toList.length := by
        rw [Array.length_toList]
        exact inside
      have here : bytes.get! position = bytes.data.toList[position] := by
        change bytes.data[position]! = _
        rw [getElem!_pos bytes.data position inside, Array.getElem_toList]
      rw [ByteArray.toList.loop, if_pos inside,
        inductionHypothesis (position + 1) _ (by omega), List.drop_eq_getElem_cons insideList, here,
        List.reverse_cons, List.append_assoc, List.singleton_append]

/-- The bytes of a text as an array and as a list are the same. -/
theorem toList_toUTF8 (value : String) : value.toUTF8.toList = value.toByteArray.data.toList := by
  rw [String.toUTF8_eq_toByteArray, ByteArray.toList, toList_loop]
  rfl

theorem fromUTF8?_toUTF8 (value : String) :
    String.fromUTF8? ⟨value.toUTF8.toList.toArray⟩ = some value := by
  rw [toList_toUTF8, Array.toArray_toList]
  change (if valid : value.toByteArray.IsValidUTF8 then
    some (String.fromUTF8 value.toByteArray valid) else none) = some value
  rw [dif_pos value.isValidUTF8]
  rfl

theorem length_toUTF8 (value : String) : value.toUTF8.toList.length = value.utf8ByteSize := by
  rw [toList_toUTF8, Array.length_toList]
  rfl

/-- The count in front of a list was written because it fits in four bytes. -/
theorem count_written {part : String} {size : Nat} {bytes : List UInt8}
    (written : Encoding.count part size = .ok bytes) :
    size < 0x100000000 ∧ bytes = LittleEndian.bytes 4 size := by
  unfold Encoding.count at written
  split at written
  · rename_i fits
    cases written
    exact ⟨fits, rfl⟩
  · cases written

theorem reads_text {value : String} {bytes : List UInt8}
    (written : Encoding.text value = .ok bytes) (part : String) :
    Reads (text part) value bytes := by
  obtain ⟨size, sizeWritten, written⟩ := Except.bind_eq_ok.mp written
  cases written
  obtain ⟨fits, rfl⟩ := count_written sizeWritten
  have enough : value.utf8ByteSize * 1 ≤ value.toUTF8.toList.length := by
    rw [length_toUTF8]
    omega
  refine (Decides.counted (Reads.decides ?_) fits enough).reads trivial
  intro tail offset
  have taken := reads_take value.toUTF8.toList part tail offset
  rw [length_toUTF8] at taken
  change (take value.utf8ByteSize part ⟨value.toUTF8.toList ++ tail, offset⟩ >>= _) = _
  rw [taken, length_toUTF8]
  dsimp only [bind, Except.bind]
  rw [fromUTF8?_toUTF8]
  rfl

theorem length_text {value : String} {bytes : List UInt8}
    (written : Encoding.text value = .ok bytes) : 4 ≤ bytes.length := by
  obtain ⟨size, sizeWritten, written⟩ := Except.bind_eq_ok.mp written
  cases written
  obtain ⟨_, rfl⟩ := count_written sizeWritten
  rw [List.length_append, LittleEndian.length_bytes]
  omega

theorem reads_texts {values : List String} {bytes : List UInt8} {listName : String}
    (written : Encoding.texts listName values = .ok bytes) (part : String) :
    Reads (texts part) values bytes := by
  obtain ⟨size, sizeWritten, written⟩ := Except.bind_eq_ok.mp written
  obtain ⟨content, contentWritten, written⟩ := Except.bind_eq_ok.mp written
  cases written
  obtain ⟨fits, rfl⟩ := count_written sizeWritten
  have items :
      Decides (∀ value ∈ values, True) (many (text part) values.length) values content :=
    decides_many (fun value _ _ valueWritten => (reads_text valueWritten part).decides)
      contentWritten
  have enough : values.length * 4 ≤ content.length :=
    length_sequence (fun _ _ _ valueWritten => length_text valueWritten) contentWritten
  exact (items.counted fits enough).reads (fun _ _ => trivial)

theorem length_texts {values : List String} {bytes : List UInt8} {listName : String}
    (written : Encoding.texts listName values = .ok bytes) : 4 ≤ bytes.length := by
  obtain ⟨size, sizeWritten, written⟩ := Except.bind_eq_ok.mp written
  obtain ⟨content, _, written⟩ := Except.bind_eq_ok.mp written
  cases written
  obtain ⟨_, rfl⟩ := count_written sizeWritten
  rw [List.length_append, LittleEndian.length_bytes]
  omega

end Decoding

end Missive
