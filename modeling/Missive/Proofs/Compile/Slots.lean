import Missive.Proofs.Scopes.Passages

/-!
# The slots of a session

The variables of the top level are numbered in the order in which they were declared, and a session
only ever adds names behind those that it has.  A fragment that is refused may have declared names
and recorded classes before it is refused, and none of that stays.

So a variable keeps its slot for as long as the session lasts, and blocks that were compiled long
ago still find it there.
-/

namespace Missive

/-! ## New names -/

/-- The names that are not known yet, in the order in which they are given first. -/
def newNames (known names : List String) : List String :=
  (names.filter fun name => !known.contains name).eraseDups

theorem newNames_cons_of_mem {known : List String} {name : String} (isKnown : name ∈ known)
    (rest : List String) : newNames known (name :: rest) = newNames known rest := by
  unfold newNames
  rw [List.filter_cons_of_neg (by simpa using isKnown)]

theorem newNames_cons_of_not_mem {known : List String} {name : String} (isNew : name ∉ known)
    (rest : List String) :
    newNames known (name :: rest) = name :: newNames (known ++ [name]) rest := by
  unfold newNames
  rw [List.filter_cons_of_pos (by simpa using isNew), List.eraseDups_cons, List.filter_filter]
  have sameTest : (fun other => !(other == name) && !known.contains other) =
      fun other => !(known ++ [name]).contains other := by
    funext other
    rw [List.contains_append, Bool.not_or, Bool.and_comm, List.contains_cons, List.contains_nil,
      Bool.or_false]
  rw [sameTest]

/-- Declarations add the new names in their order. -/
theorem Scope.names_declareAll (scope : Scope) (names : List String) :
    (scope.declareAll names).names = scope.names ++ newNames scope.names names := by
  induction names generalizing scope with
  | nil =>
      exact (List.append_nil _).symm
  | cons name rest inductionHypothesis =>
      have declared : (scope.declareAll (name :: rest)).names =
          (scope.declare name).names ++ newNames (scope.declare name).names rest :=
        inductionHypothesis (scope.declare name)
      by_cases isKnown : name ∈ scope.names
      · have unchanged : scope.declare name = scope := if_pos (by simpa using isKnown)
        rw [declared, unchanged, newNames_cons_of_mem isKnown]
      · have added : (scope.declare name).names = scope.names ++ [name] := by
          rw [Scope.declare, if_neg (by simpa using isKnown)]
        rw [declared, added, newNames_cons_of_not_mem isKnown, List.append_assoc]
        rfl

/-- Where no name is repeated, each has its position. -/
theorem idxOf?_of_nodup {names : List String} (nodup : names.Nodup) {name : String} {slot : Nat}
    (isName : names[slot]? = some name) : names.idxOf? name = some slot := by
  obtain ⟨inside, isName⟩ := List.getElem?_eq_some_iff.mp isName
  refine List.idxOf?_eq_some_iff.mpr ⟨inside, isName, fun earlier before sameName => ?_⟩
  exact List.pairwise_iff_getElem.mp nodup earlier slot (Nat.lt_trans before inside) inside before
    (sameName.trans isName.symm)

namespace Session

/-! ## Sessions that grow -/

/-- Names have only been added at the end, and no name was added twice. -/
structure Extends (earlier later : Session) : Prop where
  keeps : earlier.locals <+: later.locals
  nodup : earlier.locals.Nodup → later.locals.Nodup

variable {session earlier middle later final : Session}

theorem Extends.refl (session : Session) : Extends session session := ⟨List.prefix_refl _, id⟩

theorem Extends.trans (first : Extends earlier middle) (second : Extends middle later) :
    Extends earlier later :=
  ⟨first.keeps.trans second.keeps, fun nodup => second.nodup (first.nodup nodup)⟩

theorem Extends.of_eq (same : later.locals = earlier.locals) : Extends earlier later :=
  ⟨same ▸ List.prefix_refl _, fun nodup => same ▸ nodup⟩

theorem extends_declare (session : Session) (name : String) :
    Extends session (session.declare name) := by
  unfold declare
  split
  · exact .refl session
  · rename_i isNew
    refine ⟨List.prefix_append _ _, fun nodup => ?_⟩
    refine List.nodup_append.mpr ⟨nodup, by simp, ?_⟩
    rintro known isKnown _ added rfl
    rw [List.mem_singleton.mp added] at isKnown
    exact isNew (by simpa using isKnown)

theorem extends_declareAll (session : Session) (names : List String) :
    Extends session (session.declareAll names).1 := by
  induction names generalizing session with
  | nil =>
      exact .refl session
  | cons name rest inductionHypothesis =>
      unfold declareAll
      split
      · exact .refl session
      · exact (session.extends_declare name).trans (inductionHypothesis _)

/-- Also where a program is refused, the session reached so far has only been added to. -/
theorem extends_lowerProgramFrom (leading : Bool) (session : Session) (unit : CodeUnit)
    (program : Program) : Extends session (lowerProgramFrom leading session unit program).1 := by
  induction program generalizing leading session unit with
  | nil =>
      exact .refl session
  | cons statement rest inductionHypothesis =>
      cases statement with
      | declare names =>
          have declared := session.extends_declareAll names
          unfold lowerProgramFrom
          split
          · split
            · rename_i isDeclared
              rw [isDeclared] at declared
              exact declared.trans (inductionHypothesis _ _ _)
            · rename_i isDeclared
              rw [isDeclared] at declared
              exact declared
          · exact .refl session
      | define definition =>
          have recorded := Extends.of_eq (lowerClass_locals session definition)
          unfold lowerProgramFrom
          split
          · rename_i isRecorded
            rw [isRecorded] at recorded
            exact recorded
          · rename_i isRecorded
            rw [isRecorded] at recorded
            split
            · exact recorded.trans (inductionHypothesis _ _ _)
            · exact recorded
      | expr value | «return» value =>
          unfold lowerProgramFrom
          split
          · exact inductionHypothesis _ _ _
          · exact .refl session

theorem extends_compile (session : Session) (fragment : Program) :
    Extends session (session.compile fragment).1 := by
  have reached := extends_lowerProgramFrom true session .empty fragment
  unfold compile lower
  split
  · rename_i isReached
    rw [isReached] at reached
    exact reached
  · exact .refl session

/-! ## Where new names go -/

/-- After the first statement that is no declaration, no name comes. -/
theorem locals_of_following {unit grown : CodeUnit} {program : Program}
    (lowered : lowerProgramFrom false session unit program = (final, .ok grown)) :
    final.locals = session.locals := by
  induction program generalizing session unit with
  | nil =>
      cases lowered
      rfl
  | cons statement rest inductionHypothesis =>
      cases statement with
      | declare names =>
          obtain ⟨impossible, _⟩ := lowerProgramFrom_declare_ok lowered
          cases impossible
      | define definition =>
          obtain ⟨extended, _, _, _, classLowered, _, restLowered⟩ :=
            lowerProgramFrom_define_ok lowered
          have sameLocals := lowerClass_locals session definition
          rw [classLowered] at sameLocals
          exact (inductionHypothesis restLowered).trans sameLocals
      | expr value =>
          obtain ⟨_, _, restLowered⟩ := lowerProgramFrom_expr_ok lowered
          exact inductionHypothesis restLowered
      | «return» value =>
          obtain ⟨_, _, restLowered⟩ := lowerProgramFrom_return_ok lowered
          exact inductionHypothesis restLowered

theorem declareAll_of_lowered {unit grown : CodeUnit} {program : Program}
    (lowered : lowerProgramFrom true session unit program = (final, .ok grown)) :
    Scope.declareAll ⟨.topLevel, session.locals⟩ (declaredFirst program) =
      ⟨.topLevel, final.locals⟩ := by
  induction program generalizing session unit with
  | nil =>
      cases lowered
      rfl
  | cons statement rest inductionHypothesis =>
      have unchanged : session.locals = final.locals → Scope.declareAll ⟨.topLevel, session.locals⟩
          [] = ⟨.topLevel, final.locals⟩ := fun same => congrArg (Scope.mk .topLevel) same
      cases statement with
      | declare names =>
          obtain ⟨_, extended, declared, restLowered⟩ := lowerProgramFrom_declare_ok lowered
          rw [declaredFirst, Scope.declareAll_append, Session.declareAll_ok declared]
          exact inductionHypothesis restLowered
      | define definition =>
          obtain ⟨extended, _, _, _, classLowered, _, restLowered⟩ :=
            lowerProgramFrom_define_ok lowered
          have sameLocals := lowerClass_locals session definition
          rw [classLowered] at sameLocals
          exact unchanged ((locals_of_following restLowered).trans sameLocals).symm
      | expr value =>
          obtain ⟨_, _, restLowered⟩ := lowerProgramFrom_expr_ok lowered
          exact unchanged (locals_of_following restLowered).symm
      | «return» value =>
          obtain ⟨_, _, restLowered⟩ := lowerProgramFrom_return_ok lowered
          exact unchanged (locals_of_following restLowered).symm

/-- A fragment that is accepted adds the names that it declares and that were not known. -/
theorem locals_of_compiled {fragment : Program} {unit : CodeUnit}
    (compiled : session.compile fragment = (final, .ok unit)) :
    final.locals = session.locals ++ newNames session.locals (declaredFirst fragment) := by
  have declared := congrArg Scope.names (declareAll_of_lowered (compile_eq_ok.mp compiled))
  rw [Scope.names_declareAll] at declared
  exact declared.symm

/-! ## Names and slots -/

/-- The names and the slots below their number stand for each other, one for one. -/
structure Numbered (session : Session) : Prop where
  onto : ∀ slot, slot < session.locals.length ↔ ∃ name, session.slot? name = some slot
  injective : ∀ {name other slot}, session.slot? name = some slot →
    session.slot? other = some slot → name = other

/-- A name at its first position. -/
theorem getElem?_of_slot? {name : String} {slot : Nat} (given : session.slot? name = some slot) :
    session.locals[slot]? = some name := by
  obtain ⟨inside, isName, _⟩ := List.findIdx?_eq_some_iff_getElem.mp given
  rw [List.getElem?_eq_getElem inside, eq_of_beq isName]

theorem slot?_of_getElem? (nodup : session.locals.Nodup) {name : String} {slot : Nat}
    (isName : session.locals[slot]? = some name) : session.slot? name = some slot :=
  idxOf?_of_nodup nodup isName

theorem numbered_of_nodup (nodup : session.locals.Nodup) : session.Numbered := by
  refine ⟨fun slot => ⟨fun inside => ?_, ?_⟩, fun given otherGiven => ?_⟩
  · exact ⟨_, slot?_of_getElem? nodup (List.getElem?_eq_getElem inside)⟩
  · rintro ⟨name, given⟩
    exact (List.getElem?_eq_some_iff.mp (getElem?_of_slot? given)).1
  · exact Option.some.inj ((getElem?_of_slot? given).symm.trans (getElem?_of_slot? otherGiven))

/-- A name keeps its slot when others are added. -/
theorem Extends.slot? (extended : Extends earlier later) {name : String} {slot : Nat}
    (given : earlier.slot? name = some slot) : later.slot? name = some slot := by
  obtain ⟨more, whole⟩ := extended.keeps
  unfold Session.slot? at given ⊢
  rw [← whole]
  rw [List.idxOf?, List.findIdx?_append]
  rw [List.idxOf?] at given
  rw [given]
  rfl

/-- The session after fragments were compiled in it one after the other, accepted or not. -/
def compileAll (session : Session) (fragments : List Program) : Session :=
  fragments.foldl (fun session fragment => (session.compile fragment).1) session

theorem extends_compileAll (session : Session) (fragments : List Program) :
    Extends session (session.compileAll fragments) := by
  induction fragments generalizing session with
  | nil =>
      exact .refl session
  | cons fragment rest inductionHypothesis =>
      exact (session.extends_compile fragment).trans (inductionHypothesis _)

/-- Whatever fragments were compiled in a session, accepted or not, the names and the slots below
their number stand for each other, also in the middle of a further fragment that will be refused.
If it is accepted, its new names get the next slots in the order of their declaration; if it is
refused, the session is as before, with all its names and classes.  And a name keeps its slot. -/
theorem slots_stable (fragments : List Program) :
    let session := initial.compileAll fragments
    session.Numbered ∧
      (∀ fragment, (session.lower fragment).1.Numbered ∧
        match session.compile fragment with
        | (next, .ok _) =>
          next.Numbered ∧ ∃ added, added = newNames session.locals (declaredFirst fragment) ∧
            next.locals.length = session.locals.length + added.length ∧
            ∀ index name, added[index]? = some name →
              next.slot? name = some (session.locals.length + index)
        | (next, .error _) => next = session) ∧
      ∀ more name slot, session.slot? name = some slot →
        (session.compileAll more).slot? name = some slot := by
  intro session
  have nodup : session.locals.Nodup := (initial.extends_compileAll fragments).nodup List.nodup_nil
  refine ⟨numbered_of_nodup nodup, fun fragment => ⟨?_, ?_⟩, fun more name slot given => ?_⟩
  · exact numbered_of_nodup ((extends_lowerProgramFrom true session .empty fragment).nodup nodup)
  · have extended := session.extends_compile fragment
    cases compiled : session.compile fragment with
    | mk next outcome =>
        rw [compiled] at extended
        cases outcome with
        | error error =>
            exact eq_of_compile_error compiled
        | ok unit =>
            have added := locals_of_compiled compiled
            have nextNodup := extended.nodup nodup
            refine ⟨numbered_of_nodup nextNodup, _, rfl, ?_, fun index name isAdded => ?_⟩
            · rw [added, List.length_append]
            · apply slot?_of_getElem? nextNodup
              rw [added, List.getElem?_append_right (Nat.le_add_right _ _), Nat.add_sub_cancel_left]
              exact isAdded
  · exact (session.extends_compileAll more).slot? given

-- A fragment that is refused after it has declared a name and recorded a class.
example :
    let session := initial.compileAll [[.declare ["x", "y", "x"]]]
    let fragment : Program :=
      [.declare ["y", "z"], .define ⟨"A", none, ["f"], [], [], []⟩, .expr .super]
    session.locals = ["x", "y"] ∧ (session.lower fragment).1.locals = ["x", "y", "z"] ∧
      ((session.lower fragment).1.shape? "A").isSome ∧ (session.compile fragment).1 = session := by
  decide

end Session

end Missive
