import Missive.Proofs.Alike.Link
import Missive.Proofs.Object.Comparison

/-!
# Stores that correspond

What a program reads from two corresponding stores is the same: the kinds and the contents of
objects, equality, texts and classes.  What it writes to both keeps them in correspondence.
-/

namespace Missive

namespace Link

variable {link : Link} {left right : Store}

/-! ## Values -/

theorem knows_of_references_nil {value : Value} (none : value.references = []) :
    link.Knows value := by
  intro id member
  rw [none] at member
  exact (List.not_mem_nil member).elim

@[simp]
theorem knows_nil : link.Knows .nil := knows_of_references_nil rfl

@[simp]
theorem knows_bool (value : Bool) : link.Knows (.bool value) := knows_of_references_nil rfl

@[simp]
theorem knows_int (value : Int64) : link.Knows (.int value) := knows_of_references_nil rfl

@[simp]
theorem knows_float (value : Binary64) : link.Knows (.float value) := knows_of_references_nil rfl

@[simp]
theorem knows_string (text : String) : link.Knows (.string text) := knows_of_references_nil rfl

@[simp]
theorem knows_ref {id : ObjectId} : link.Knows (.ref id) ↔ link.Has id := by
  simp [Knows, Value.references]

theorem knows_getD {values : List Value} (known : ∀ value ∈ values, link.Knows value)
    (position : Nat) : link.Knows (values.getD position .nil) := by
  rw [List.getD_eq_getElem?_getD]
  cases atPosition : values[position]? with
  | none =>
      exact knows_nil
  | some value =>
      exact known value (List.mem_of_getElem? atPosition)

theorem has_of_mem_flatMap {values : List Value} (known : ∀ value ∈ values, link.Knows value) :
    ∀ id ∈ values.flatMap Value.references, link.Has id := by
  intro id member
  obtain ⟨value, valueMember, reference⟩ := List.mem_flatMap.mp member
  exact known value valueMember id reference

theorem knows_of_flatMap {values : List Value}
    (has : ∀ id ∈ values.flatMap Value.references, link.Has id) :
    ∀ value ∈ values, link.Knows value :=
  fun value member id reference => has id (List.mem_flatMap.mpr ⟨value, member, reference⟩)

/-! ## Looking at values -/

/-- Two values with the objects to which they refer, looked at in either store. -/
inductive Sights (link : Link) : Seen → Seen → Prop
  | nil : Sights link .nil .nil
  | bool (value : Bool) : Sights link (.bool value) (.bool value)
  | int (value : Int64) : Sights link (.int value) (.int value)
  | float (value : Binary64) : Sights link (.float value) (.float value)
  | string (text : String) : Sights link (.string text) (.string text)
  | array {id : ObjectId} {items : List Value} : link.objects id (.array []) (.array []) →
      (∀ value ∈ items, link.Knows value) → Sights link (.array id items) (.array id items)
  | dictionary {id : ObjectId} {entries : List (Value × Value)} :
      link.objects id (.dictionary []) (.dictionary []) →
      (∀ entry ∈ entries, link.Knows entry.1 ∧ link.Knows entry.2) →
      Sights link (.dictionary id entries) (.dictionary id entries)
  | block {id : ObjectId} {leftClosure rightClosure : Closure} :
      link.Blocks ⟨id, leftClosure⟩ ⟨id, rightClosure⟩ →
      leftClosure.parameterCount = rightClosure.parameterCount →
      Sights link (.block id leftClosure) (.block id rightClosure)
  | record {id classId : ObjectId} {fields : List Value} :
      link.objects id (Object.record classId fields).cleared
        (Object.record classId fields).cleared →
      link.Has classId → (∀ value ∈ fields, link.Knows value) →
      Sights link (.record id classId fields) (.record id classId fields)
  | classObject {id : ObjectId} {definition : ClassObject} :
      link.objects id (Object.classObject definition).cleared
        (Object.classObject definition).cleared →
      (∀ parent ∈ definition.superclass, link.Has parent) →
      (∀ entry ∈ definition.classVars, link.Knows entry.2) →
      Sights link (.classObject id definition) (.classObject id definition)

theorem knows_entries {entries : List (Value × Value)}
    (has : ∀ id ∈ (Object.dictionary entries).references, link.Has id) :
    ∀ entry ∈ entries, link.Knows entry.1 ∧ link.Knows entry.2 := by
  intro entry member
  refine ⟨fun id reference => has id ?_, fun id reference => has id ?_⟩
  · exact List.mem_flatMap.mpr ⟨entry, member, List.mem_append_left _ reference⟩
  · exact List.mem_flatMap.mpr ⟨entry, member, List.mem_append_right _ reference⟩

/-- The object of a linked identity on either side. -/
theorem Stores.get (stores : link.Stores left right) {id : ObjectId} (has : link.Has id) :
    ∃ leftObject rightObject, left.get? id = some leftObject ∧ right.get? id = some rightObject ∧
      link.objects id leftObject.cleared rightObject.cleared ∧
      link.Objects leftObject rightObject := by
  obtain ⟨fixedLeft, fixedRight, linked⟩ := has
  obtain ⟨leftObject, rightObject, leftFound, rightFound, rfl, rfl, objects⟩ := stores.linked linked
  exact ⟨leftObject, rightObject, leftFound, rightFound, linked, objects⟩

/-- A known value looks the same in both stores, and its object has not gone away. -/
theorem Stores.see (stores : link.Stores left right) {value : Value} (known : link.Knows value) :
    link.Sights (left.see value) (right.see value) := by
  cases value with
  | nil => exact .nil
  | bool value => exact .bool value
  | int value => exact .int value
  | float value => exact .float value
  | string text => exact .string text
  | ref id =>
      have has := knows_ref.mp known
      obtain ⟨leftObject, rightObject, leftFound, rightFound, linked, objects⟩ := stores.get has
      dsimp only [Store.see]
      rw [leftFound, rightFound]
      cases objects with
      | block closures =>
          refine .block ⟨rfl, linked⟩ ?_
          rw [closures.same]
      | other contextFree references =>
          cases leftObject with
          | array items =>
              exact .array linked (knows_of_flatMap references)
          | dictionary entries =>
              exact .dictionary linked (knows_entries references)
          | block closure =>
              cases contextFree
          | record classId fields =>
              refine .record linked
                (references classId (List.mem_append_right _ List.mem_cons_self))
                (knows_of_flatMap fun other member => references other ?_)
              exact List.mem_append_left _ member
          | classObject definition =>
              refine .classObject linked (fun parent member => references parent ?_)
                fun entry member other reference => references other ?_
              · exact List.mem_append_right _ (Option.mem_toList.mpr member)
              · exact List.mem_append_left _
                  (List.mem_flatMap.mpr ⟨entry, member, reference⟩)

theorem Objects.closures {leftClosure rightClosure : Closure}
    (objects : link.Objects (.block leftClosure) (.block rightClosure)) :
    link.Closures leftClosure rightClosure := by
  cases objects with
  | block closures =>
      exact closures
  | other contextFree _ =>
      cases contextFree

theorem Objects.has_of_reference {leftObject rightObject : Object} {id : ObjectId}
    (objects : link.Objects leftObject rightObject) (member : id ∈ leftObject.references) :
    link.Has id := by
  cases objects with
  | block closures =>
      rcases List.mem_append.mp member with inReceiver | isOwner
      · exact closures.receiver id inReceiver
      · exact closures.owner id (Option.mem_toList.mp isOwner)
  | other _ references =>
      exact references id member

theorem Objects.linked_context {leftObject rightObject : Object} {context : ContextId}
    (objects : link.Objects leftObject rightObject) (member : context ∈ leftObject.contexts) :
    ∃ partner, link.contexts context partner := by
  cases objects with
  | block closures =>
      rw [List.mem_singleton.mp member]
      exact ⟨_, closures.outer⟩
  | other contextFree _ =>
      rw [contextFree] at member
      exact (List.not_mem_nil member).elim

/-- The two blocks of a linked identity. -/
theorem Stores.closures (stores : link.Stores left right) {leftBlock rightBlock : BlockRef}
    (blocks : link.Blocks leftBlock rightBlock) :
    left.get? leftBlock.id = some (.block leftBlock.closure) ∧
      right.get? rightBlock.id = some (.block rightBlock.closure) ∧
      link.Closures leftBlock.closure rightBlock.closure := by
  obtain ⟨leftObject, rightObject, leftFound, rightFound, leftFixed, rightFixed, objects⟩ :=
    stores.linked blocks.fixed
  have leftSame := Object.eq_block_of_cleared leftFixed
  have rightSame := Object.eq_block_of_cleared rightFixed
  subst leftSame
  subst rightSame
  exact ⟨leftFound, blocks.id ▸ rightFound, objects.closures⟩

/-! ## Equality -/

section Tests

variable {α : Type} {p q : α → Except Crash Bool} {items : List α}

theorem allM_eq_of_mem (same : ∀ item ∈ items, p item = q item) : items.allM p = items.allM q := by
  induction items with
  | nil =>
      rfl
  | cons head rest inductionHypothesis =>
      obtain ⟨first, others⟩ := List.forall_mem_cons.mp same
      simp only [List.allM, first, inductionHypothesis others]

theorem findM?_eq_of_mem (same : ∀ item ∈ items, p item = q item) :
    items.findM? p = items.findM? q := by
  induction items with
  | nil =>
      rfl
  | cons head rest inductionHypothesis =>
      obtain ⟨first, others⟩ := List.forall_mem_cons.mp same
      simp only [List.findM?, first, inductionHypothesis others]

theorem anyM_eq_of_mem (same : ∀ item ∈ items, p item = q item) : items.anyM p = items.anyM q := by
  induction items with
  | nil =>
      rfl
  | cons head rest inductionHypothesis =>
      obtain ⟨first, others⟩ := List.forall_mem_cons.mp same
      simp only [List.anyM, first, inductionHypothesis others]

theorem findPosition_eq_of_mem (same : ∀ item ∈ items, p item = q item) :
    findPosition p items = findPosition q items := by
  induction items with
  | nil =>
      rfl
  | cons head rest inductionHypothesis =>
      obtain ⟨first, others⟩ := List.forall_mem_cons.mp same
      rw [findPosition, findPosition, first, inductionHypothesis others]

end Tests

variable {held : Option ObjectId}

theorem Stores.equalsAt (stores : link.Stores left right) (fuel depth : Nat) {a b : Value}
    (knownA : link.Knows a) (knownB : link.Knows b) :
    left.equalsAt held fuel depth a b = right.equalsAt held fuel depth a b := by
  induction fuel generalizing depth a b with
  | zero =>
      rfl
  | succ fuel inductionHypothesis =>
      rw [Store.equalsAt, Store.equalsAt]
      have seenA := stores.see knownA
      have seenB := stores.see knownB
      generalize left.see a = leftA, right.see a = rightA at seenA ⊢
      generalize left.see b = leftB, right.see b = rightB at seenB ⊢
      -- Only two arrays or two dictionaries are compared by their contents.
      cases seenA with
      | array _ items =>
          cases seenB with
          | array _ others =>
              dsimp only
              rw [allM_eq_of_mem fun pair member => inductionHypothesis (depth + 1)
                (items pair.1 (List.of_mem_zip member).1)
                (others pair.2 (List.of_mem_zip member).2)]
          | _ => rfl
      | dictionary _ entries =>
          cases seenB with
          | @dictionary _ ys _ others =>
              dsimp only
              rw [allM_eq_of_mem fun entry member => ?_]
              have sameKey : ∀ other ∈ ys, left.equalsAt held fuel 0 other.1 entry.1 =
                  right.equalsAt held fuel 0 other.1 entry.1 := fun other otherMember =>
                inductionHypothesis 0 (others other otherMember).1 (entries entry member).1
              rw [findM?_eq_of_mem sameKey]
              cases found : ys.findM? fun other => right.equalsAt held fuel 0 other.1 entry.1 with
              | error _ =>
                  rfl
              | ok found? =>
                  cases found? with
                  | none =>
                      rfl
                  | some other =>
                      exact inductionHypothesis (depth + 1) (entries entry member).2
                        (others other (mem_of_findM? found)).2
          | _ => rfl
      | _ =>
          cases seenB <;> rfl

theorem Stores.equals (stores : link.Stores left right) {a b : Value} (knownA : link.Knows a)
    (knownB : link.Knows b) : left.equals held a b = right.equals held a b := by
  have sameFuel : left.equalityFuel = right.equalityFuel := by
    unfold Store.equalityFuel
    rw [stores.size]
  unfold Store.equals
  rw [sameFuel]
  exact stores.equalsAt _ 0 knownA knownB

section Entries

variable {entries changed : List (Value × Value)}
  (known : ∀ entry ∈ entries, link.Knows entry.1 ∧ link.Knows entry.2)
include known

theorem Stores.position? (stores : link.Stores left right) {key : Value}
    (knownKey : link.Knows key) :
    Entries.position? left held entries key = Entries.position? right held entries key :=
  findPosition_eq_of_mem fun entry member => stores.equals (known entry member).1 knownKey

theorem Stores.entriesGet? (stores : link.Stores left right) {key : Value}
    (knownKey : link.Knows key) :
    Entries.get? left held entries key = Entries.get? right held entries key := by
  unfold Entries.get?
  rw [stores.position? known knownKey]

theorem knows_of_entriesGet? {key value : Value}
    (found : Entries.get? left held entries key = .ok (some value)) :
    link.Knows value := by
  unfold Entries.get? at found
  obtain ⟨place, _, answered⟩ := Except.bind_eq_ok.mp found
  obtain ⟨index, _, atIndex⟩ := Option.bind_eq_some_iff.mp (Except.ok.inj answered)
  obtain ⟨entry, present, same⟩ := Option.map_eq_some_iff.mp atIndex
  cases same
  exact (known entry (List.mem_of_getElem? present)).2

theorem Stores.entriesInsert (stores : link.Stores left right) {key : Value}
    (knownKey : link.Knows key) (value : Value) :
    Entries.insert left held entries key value = Entries.insert right held entries key value := by
  unfold Entries.insert
  rw [stores.position? known knownKey]

theorem knows_entriesInsert {key value : Value} (knownKey : link.Knows key)
    (knownValue : link.Knows value)
    (inserted : Entries.insert left held entries key value = .ok changed) :
    ∀ entry ∈ changed, link.Knows entry.1 ∧ link.Knows entry.2 := by
  unfold Entries.insert at inserted
  obtain ⟨place, _, inserted⟩ := Except.bind_eq_ok.mp inserted
  cases place with
  | some index =>
      cases inserted
      intro entry member
      obtain ⟨place, atPlace⟩ := List.mem_iff_getElem?.mp member
      rw [List.getElem?_modify] at atPlace
      obtain ⟨before, present, same⟩ := Option.map_eq_some_iff.mp atPlace
      have knownBefore := known before (List.mem_of_getElem? present)
      split at same
      · subst same
        exact ⟨knownBefore.1, knownValue⟩
      · subst same
        exact knownBefore
  | none =>
      cases inserted
      intro entry member
      rcases List.mem_append.mp member with old | new
      · exact known entry old
      · rw [List.mem_singleton.mp new]
        exact ⟨knownKey, knownValue⟩

theorem Stores.entriesRemove (stores : link.Stores left right) {key : Value}
    (knownKey : link.Knows key) :
    Entries.remove left held entries key = Entries.remove right held entries key := by
  unfold Entries.remove
  rw [stores.position? known knownKey]

theorem knows_entriesRemove {key : Value}
    (removed : Entries.remove left held entries key = .ok changed) :
    ∀ entry ∈ changed, link.Knows entry.1 ∧ link.Knows entry.2 := by
  unfold Entries.remove at removed
  obtain ⟨place, _, removed⟩ := Except.bind_eq_ok.mp removed
  cases place with
  | some index =>
      cases removed
      exact fun entry member => known entry (List.mem_of_mem_eraseIdx member)
  | none =>
      cases removed
      exact known

end Entries

theorem Stores.entriesOfPairs (stores : link.Stores left right) {pairs : List (Value × Value)}
    (known : ∀ pair ∈ pairs, link.Knows pair.1 ∧ link.Knows pair.2) :
    Entries.ofPairs left pairs = Entries.ofPairs right pairs ∧
      ∀ made, Entries.ofPairs left pairs = .ok made →
        ∀ entry ∈ made, link.Knows entry.1 ∧ link.Knows entry.2 := by
  have folded : ∀ (entries : List (Value × Value)),
      (∀ entry ∈ entries, link.Knows entry.1 ∧ link.Knows entry.2) →
      pairs.foldlM (fun entries pair => Entries.insert left none entries pair.1 pair.2) entries =
          pairs.foldlM (fun entries pair => Entries.insert right none entries pair.1 pair.2)
            entries ∧
        ∀ made, pairs.foldlM (fun entries pair => Entries.insert left none entries pair.1 pair.2)
            entries = .ok made →
          ∀ entry ∈ made, link.Knows entry.1 ∧ link.Knows entry.2 := by
    induction pairs with
    | nil =>
        intro entries knownEntries
        refine ⟨rfl, fun made isMade => ?_⟩
        cases isMade
        exact knownEntries
    | cons pair rest inductionHypothesis =>
        intro entries knownEntries
        obtain ⟨knownPair, knownRest⟩ := List.forall_mem_cons.mp known
        rw [List.foldlM_cons, List.foldlM_cons,
          ← stores.entriesInsert knownEntries knownPair.1 pair.2]
        cases inserted : Entries.insert left none entries pair.1 pair.2 with
        | error _ =>
            exact ⟨rfl, fun made impossible => by cases impossible⟩
        | ok changed =>
            exact inductionHypothesis knownRest changed
              (knows_entriesInsert knownEntries knownPair.1 knownPair.2 inserted)
  exact folded [] fun entry impossible => (List.not_mem_nil impossible).elim

/-! ## Classes -/

theorem Stores.class? (stores : link.Stores left right) {id : ObjectId} (has : link.Has id) :
    left.class? id = right.class? id := by
  obtain ⟨leftObject, rightObject, leftFound, rightFound, _, objects⟩ := stores.get has
  unfold Store.class?
  rw [leftFound, rightFound]
  cases objects with
  | block _ =>
      rfl
  | other _ _ =>
      rfl

/-- What a linked class refers to is linked. -/
theorem Stores.has_of_class? (stores : link.Stores left right) {id : ObjectId}
    {definition : ClassObject} (has : link.Has id) (found : left.class? id = some definition) :
    link.objects id (Object.classObject definition).cleared
        (Object.classObject definition).cleared ∧
      (∀ parent ∈ definition.superclass, link.Has parent) ∧
      ∀ entry ∈ definition.classVars, link.Knows entry.2 := by
  have sights := stores.see (knows_ref.mpr has)
  have seen : left.see (.ref id) = .classObject id definition := by
    unfold Store.class? at found
    dsimp only [Store.see]
    split at found
    · rename_i atId
      cases found
      rw [atId]
    · cases found
  rw [seen] at sights
  generalize right.see (.ref id) = rightSeen at sights
  cases sights with
  | classObject linked parent classVars =>
      exact ⟨linked, parent, classVars⟩

/-- The way up from a linked class is the same in both stores and passes linked classes only. -/
theorem Stores.lineage (stores : link.Stores left right) {id : ObjectId} (has : link.Has id) :
    left.lineage id = right.lineage id ∧
      ∀ entry ∈ left.lineage id, link.Has entry.1 := by
  induction place : id.index using Nat.strongRecOn generalizing id with
  | ind index inductionHypothesis =>
      have sameClass := stores.class? has
      rw [Store.lineage, Store.lineage, ← sameClass]
      cases found : left.class? id with
      | none =>
          exact ⟨rfl, fun entry impossible => (List.not_mem_nil impossible).elim⟩
      | some definition =>
          dsimp only
          cases parent : definition.superclass with
          | none =>
              refine ⟨rfl, fun entry member => ?_⟩
              rw [List.mem_singleton.mp member]
              exact has
          | some above =>
              dsimp only
              split
              · rename_i lower
                obtain ⟨same, known⟩ := inductionHypothesis above.index (place ▸ lower)
                  ((stores.has_of_class? has found).2.1 above parent) rfl
                rw [same]
                refine ⟨rfl, fun entry member => ?_⟩
                rcases List.mem_cons.mp member with rfl | higher
                · exact has
                · exact known entry (same ▸ higher)
              · refine ⟨rfl, fun entry member => ?_⟩
                rw [List.mem_singleton.mp member]
                exact has

theorem Stores.lookup (stores : link.Stores left right) (classSide : Bool) (selector : Selector)
    {id : ObjectId} (has : link.Has id) :
    left.lookup classSide selector id = right.lookup classSide selector id := by
  unfold Store.lookup
  rw [(stores.lineage has).1]

/-- A method that is found is one of a linked class. -/
theorem Stores.has_of_lookup (stores : link.Stores left right) {classSide : Bool}
    {selector : Selector} {id owner : ObjectId} {definition : ClassObject}
    {method : MethodDescriptor} (has : link.Has id)
    (found : left.lookup classSide selector id = some (owner, definition, method)) :
    link.Has owner := by
  obtain ⟨entry, member, answered⟩ := List.exists_of_findSome?_eq_some found
  obtain ⟨foundMethod, isMethod, same⟩ := Option.map_eq_some_iff.mp answered
  cases same
  exact (stores.lineage has).2 entry member

theorem Stores.inheritsFrom (stores : link.Stores left right) {id : ObjectId} (has : link.Has id)
    (ancestor : ObjectId) : left.inheritsFrom id ancestor = right.inheritsFrom id ancestor := by
  unfold Store.inheritsFrom
  rw [(stores.lineage has).1]

theorem Stores.classVarOwner? (stores : link.Stores left right) {id : ObjectId}
    (has : link.Has id) (name : String) :
    left.classVarOwner? id name = right.classVarOwner? id name := by
  unfold Store.classVarOwner?
  rw [(stores.lineage has).1]

theorem Stores.has_of_classVarOwner? (stores : link.Stores left right) {id holder : ObjectId}
    {definition : ClassObject} {name : String} (has : link.Has id)
    (found : left.classVarOwner? id name = some (holder, definition)) :
    link.Has holder :=
  (stores.lineage has).2 (holder, definition) (List.mem_of_find?_eq_some found)

theorem Stores.classVar? (stores : link.Stores left right) {id : ObjectId} (has : link.Has id)
    (name : String) : left.classVar? id name = right.classVar? id name := by
  unfold Store.classVar?
  rw [stores.classVarOwner? has]

theorem mem_of_lookup {entries : List (String × Value)} {name : String} {value : Value}
    (found : entries.lookup name = some value) : (name, value) ∈ entries := by
  obtain ⟨before, after, rfl, _⟩ := List.lookup_eq_some_iff.mp found
  exact List.mem_append_right before List.mem_cons_self

theorem Stores.knows_of_classVar? (stores : link.Stores left right) {id : ObjectId}
    {name : String} {value : Value} (has : link.Has id)
    (found : left.classVar? id name = some value) : link.Knows value := by
  unfold Store.classVar? at found
  obtain ⟨⟨holder, definition⟩, isOwner, stored⟩ := Option.bind_eq_some_iff.mp found
  exact (stores.has_of_class? (stores.has_of_classVarOwner? has isOwner)
    (Store.class?_of_classVarOwner? isOwner)).2.2 (name, value) (mem_of_lookup stored)

theorem Stores.nameOf (stores : link.Stores left right) {id : ObjectId} (has : link.Has id) :
    left.nameOf id = right.nameOf id := by
  unfold Store.nameOf
  rw [stores.class? has]

theorem Stores.fieldCount (stores : link.Stores left right) {id : ObjectId} (has : link.Has id) :
    left.fieldCount id = right.fieldCount id := by
  unfold Store.fieldCount
  rw [stores.class? has]

/-! ## Texts -/

theorem Stores.className (stores : link.Stores left right) {value : Value}
    (known : link.Knows value) : left.className value = right.className value := by
  unfold Store.className
  have sights := stores.see known
  generalize left.see value = leftSeen, right.see value = rightSeen at sights ⊢
  cases sights with
  | record _ hasClass _ =>
      exact stores.nameOf hasClass
  | bool value =>
      cases value <;> rfl
  | _ => rfl

theorem Stores.printAt (stores : link.Stores left right) (levels : Nat) {value : Value}
    (known : link.Knows value) : left.printAt levels value = right.printAt levels value := by
  induction levels generalizing value with
  | zero =>
      rfl
  | succ levels inductionHypothesis =>
      rw [Store.printAt, Store.printAt]
      have sights := stores.see known
      generalize left.see value = leftSeen, right.see value = rightSeen at sights ⊢
      cases sights with
      | array _ items =>
          dsimp only
          rw [List.map_congr_left fun item member => inductionHypothesis (items item member)]
      | dictionary _ entries =>
          dsimp only
          rw [List.map_congr_left fun entry member => ?_]
          rw [inductionHypothesis (entries entry member).1,
            inductionHypothesis (entries entry member).2]
      | block _ parameters =>
          dsimp only
          rw [parameters]
      | record _ hasClass _ =>
          dsimp only
          rw [stores.nameOf hasClass]
      | _ => rfl

theorem Stores.print (stores : link.Stores left right) {value : Value}
    (known : link.Knows value) : left.print value = right.print value :=
  stores.printAt (maxDepth + 1) known

theorem Stores.display (stores : link.Stores left right) {value : Value}
    (known : link.Knows value) : left.display value = right.display value := by
  unfold Store.display
  split
  · rfl
  · exact stores.print known

/-! ## Changes -/

/-- The second link has everything of the first and the same contexts. -/
structure Grows (earlier later : Link) : Prop where
  within : Within earlier later
  contexts : later.contexts = earlier.contexts

theorem Grows.refl (link : Link) : Grows link link := ⟨Within.refl link, rfl⟩

theorem Grows.trans {first second third : Link} (earlier : Grows first second)
    (later : Grows second third) : Grows first third :=
  ⟨earlier.within.trans later.within, later.contexts.trans earlier.contexts⟩

/-- The link with one more object. -/
def add (link : Link) (id : ObjectId) (fixedLeft fixedRight : Object) : Link where
  objects other first second :=
    link.objects other first second ∨ (other = id ∧ first = fixedLeft ∧ second = fixedRight)
  contexts := link.contexts
  pairing := link.pairing

theorem grows_add (link : Link) (id : ObjectId) (fixedLeft fixedRight : Object) :
    Grows link (link.add id fixedLeft fixedRight) :=
  ⟨⟨Or.inl, fun linked => linked, rfl⟩, rfl⟩

theorem has_add (link : Link) (id : ObjectId) (fixedLeft fixedRight : Object) :
    (link.add id fixedLeft fixedRight).Has id :=
  ⟨fixedLeft, fixedRight, Or.inr ⟨rfl, rfl, rfl⟩⟩

/-- New objects get the same identity on both sides. -/
theorem Stores.alloc (stores : link.Stores left right) {leftObject rightObject : Object}
    (objects : link.Objects leftObject rightObject) :
    (left.alloc leftObject).1 = (right.alloc rightObject).1 ∧
      ∃ later, Grows link later ∧ later.Has (left.alloc leftObject).1 ∧
        later.Stores (left.alloc leftObject).2 (right.alloc rightObject).2 := by
  have sameId : (left.alloc leftObject).1 = (right.alloc rightObject).1 :=
    ObjectId.ext_index stores.size
  have grown := grows_add link (left.alloc leftObject).1 leftObject.cleared rightObject.cleared
  refine ⟨sameId, _, grown, has_add _ _ _ _, ?_, ?_⟩
  · rw [Store.size_alloc, Store.size_alloc, stores.size]
  · intro id fixedLeft fixedRight linked
    rcases linked with old | ⟨rfl, rfl, rfl⟩
    · obtain ⟨first, second, firstFound, secondFound, firstFixed, secondFixed, related⟩ :=
        stores.linked old
      exact ⟨first, second, Store.get?_alloc_of_some _ firstFound,
        Store.get?_alloc_of_some _ secondFound, firstFixed, secondFixed,
        grown.within.linkedObjects related⟩
    · refine ⟨leftObject, rightObject, Store.get?_alloc_new left leftObject, ?_, rfl, rfl,
        grown.within.linkedObjects objects⟩
      rw [sameId]
      exact Store.get?_alloc_new right rightObject

/-- An object may be replaced by one with the same fixed part. -/
theorem Stores.set (stores : link.Stores left right) {id : ObjectId}
    {leftObject rightObject : Object}
    (linked : link.objects id leftObject.cleared rightObject.cleared)
    (objects : link.Objects leftObject rightObject) :
    link.Stores (left.set id leftObject) (right.set id rightObject) := by
  obtain ⟨leftOld, rightOld, leftFound, rightFound, leftFixed, rightFixed, _⟩ :=
    stores.linked linked
  refine ⟨?_, ?_⟩
  · rw [Store.size_set, Store.size_set, stores.size]
  · intro other fixedLeft fixedRight otherLinked
    obtain ⟨first, second, firstFound, secondFound, firstFixed, secondFixed, related⟩ :=
      stores.linked otherLinked
    by_cases here : other = id
    · subst here
      rw [leftFound] at firstFound
      rw [rightFound] at secondFound
      cases firstFound
      cases secondFound
      exact ⟨leftObject, rightObject, Store.get?_set_self _ leftFound,
        Store.get?_set_self _ rightFound, leftFixed.symm.trans firstFixed,
        rightFixed.symm.trans secondFixed, objects⟩
    · refine ⟨first, second, ?_, ?_, firstFixed, secondFixed, related⟩
      · rw [Store.get?_set_of_ne _ here]
        exact firstFound
      · rw [Store.get?_set_of_ne _ here]
        exact secondFound

theorem Stores.inherits_set (stores : link.Stores left right) {id : ObjectId}
    {object fixedRight : Object} (linked : link.objects id object.cleared fixedRight) :
    left.Inherits (left.set id object) := by
  obtain ⟨old, _, found, _, fixed, _⟩ := stores.linked linked
  exact Store.inherits_set found fixed.symm

theorem Stores.track (stores : link.Stores left right) (value : Value) :
    link.Stores (left.track value) (right.track value) := by
  refine ⟨?_, ?_⟩
  · rw [Store.size_track, Store.size_track, stores.size]
  · intro id fixedLeft fixedRight linked
    rw [Store.get?_track, Store.get?_track]
    exact stores.linked linked

theorem linkedArray {items : List Value} (known : ∀ value ∈ items, link.Knows value) :
    link.Objects (.array items) (.array items) :=
  .other rfl (has_of_mem_flatMap known)

theorem linkedDictionary {entries : List (Value × Value)}
    (known : ∀ entry ∈ entries, link.Knows entry.1 ∧ link.Knows entry.2) :
    link.Objects (.dictionary entries) (.dictionary entries) := by
  refine .other rfl fun id member => ?_
  obtain ⟨entry, entryMember, reference⟩ := List.mem_flatMap.mp member
  rcases List.mem_append.mp reference with inKey | inValue
  · exact (known entry entryMember).1 id inKey
  · exact (known entry entryMember).2 id inValue

theorem linkedRecord {classId : ObjectId} {fields : List Value} (hasClass : link.Has classId)
    (known : ∀ value ∈ fields, link.Knows value) :
    link.Objects (.record classId fields) (.record classId fields) := by
  refine .other rfl fun id member => ?_
  rcases List.mem_append.mp member with inFields | inClass
  · exact has_of_mem_flatMap known id inFields
  · rw [List.mem_singleton.mp inClass]
    exact hasClass

theorem linkedClass {definition : ClassObject}
    (parent : ∀ id ∈ definition.superclass, link.Has id)
    (known : ∀ entry ∈ definition.classVars, link.Knows entry.2) :
    link.Objects (.classObject definition) (.classObject definition) := by
  refine .other rfl fun id member => ?_
  rcases List.mem_append.mp member with inClassVars | inParent
  · obtain ⟨entry, entryMember, reference⟩ := List.mem_flatMap.mp inClassVars
    exact known entry entryMember id reference
  · exact parent id (Option.mem_toList.mp inParent)

theorem Stores.newRecord (stores : link.Stores left right) {classId : ObjectId}
    (hasClass : link.Has classId) :
    (left.newRecord classId).1 = (right.newRecord classId).1 ∧
      ∃ later, Grows link later ∧ later.Has (left.newRecord classId).1 ∧
        later.Stores (left.newRecord classId).2 (right.newRecord classId).2 := by
  unfold Store.newRecord
  rw [stores.fieldCount hasClass]
  refine stores.alloc (linkedRecord hasClass fun value member => ?_)
  exact List.eq_of_mem_replicate member ▸ knows_nil

theorem Stores.newClass (stores : link.Stores left right) (descriptor : ClassDescriptor)
    {superclass : Option ObjectId} (parent : ∀ id ∈ superclass, link.Has id) :
    (left.newClass descriptor superclass).1 = (right.newClass descriptor superclass).1 ∧
      ∃ later, Grows link later ∧ later.Has (left.newClass descriptor superclass).1 ∧
        later.Stores (left.newClass descriptor superclass).2
          (right.newClass descriptor superclass).2 := by
  have sameParent : superclass.bind left.class? = superclass.bind right.class? := by
    cases superclass with
    | none =>
        rfl
    | some id =>
        exact stores.class? (parent id rfl)
  unfold Store.newClass
  rw [sameParent]
  refine stores.alloc (linkedClass parent fun entry member => ?_)
  obtain ⟨name, _, rfl⟩ := List.mem_map.mp member
  exact knows_nil

/-- A field of an instance gets a new value. -/
theorem Stores.setField (stores : link.Stores left right) {id : ObjectId} {value : Value}
    (has : link.Has id) (index : Nat) (known : link.Knows value) :
    link.Stores (left.setField id index value) (right.setField id index value) := by
  obtain ⟨leftObject, rightObject, leftFound, rightFound, linked, objects⟩ := stores.get has
  unfold Store.setField
  rw [leftFound, rightFound]
  cases objects with
  | block _ =>
      exact stores
  | other contextFree references =>
      cases leftObject with
      | record classId fields =>
          have sameFixed := Object.cleared_set_field classId fields index value
          refine stores.set (sameFixed ▸ linked) (linkedRecord ?_ fun other member => ?_)
          · exact references classId (List.mem_append_right _ List.mem_cons_self)
          · rcases List.mem_or_eq_of_mem_set member with old | rfl
            · exact fun reference inOther => references reference
                (List.mem_append_left _ (List.mem_flatMap.mpr ⟨other, old, inOther⟩))
            · exact known
      | array _ | dictionary _ | block _ | classObject _ =>
          exact stores

/-- A class variable gets a new value where it is declared. -/
theorem Stores.setOwnClassVar (stores : link.Stores left right) {id : ObjectId}
    {definition : ClassObject} {value : Value} (has : link.Has id)
    (found : left.class? id = some definition) (name : String) (known : link.Knows value) :
    link.Stores (left.setOwnClassVar id definition name value)
      (right.setOwnClassVar id definition name value) := by
  obtain ⟨linked, parent, classVars⟩ := stores.has_of_class? has found
  have sameFixed := Object.cleared_setClassVar definition name value
  refine stores.set (sameFixed ▸ linked) (linkedClass parent fun entry member => ?_)
  obtain ⟨before, beforeMember, rfl⟩ := List.mem_map.mp member
  split
  · exact known
  · exact classVars before beforeMember

end Link

end Missive
