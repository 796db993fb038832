import Mathlib.Data.List.Perm.Subperm
import Mathlib.Logic.Relation
import Missive.Proofs.Classes.Library

/-!
# Class variables that a session sees

A session looks for a class variable in a class, in the class that it has recorded under the name of
the superclass, and so on.  The recorded names can go round in a circle, so the search takes only as
many steps as there are recorded classes.

The first declarer on the way lies a fixed number of steps above the class where the search starts.
Each class that is passed lies one step nearer to it, so no class is passed twice, and there cannot
be more steps than recorded classes.  This holds on circles, too, and on ways that end at an unknown
name.
-/

namespace Missive

namespace Session

variable {session : Session} {variableName className : String}

/-! ## The recorded classes -/

/-- The names of the recorded classes, each of them once. -/
def recorded (session : Session) : List String := (session.classes.map Prod.fst).dedup

theorem mem_classes {shape : Shape} (known : session.shape? className = some shape) :
    (className, shape) ∈ session.classes := by
  obtain ⟨first, second, classes, _⟩ := List.lookup_eq_some_iff.mp known
  rw [classes]
  exact List.mem_append_right _ List.mem_cons_self

theorem mem_recorded {shape : Shape} (known : session.shape? className = some shape) :
    className ∈ session.recorded :=
  List.mem_dedup.mpr (List.mem_map.mpr ⟨_, mem_classes known, rfl⟩)

theorem length_recorded_le (session : Session) :
    session.recorded.length ≤ session.classes.length := by
  have shorter := (List.dedup_sublist (session.classes.map Prod.fst)).length_le
  rwa [List.length_map] at shorter

theorem map_fst_replaceShape (shape : Shape) (classes : List (String × Shape)) :
    (replaceShape className shape classes).map Prod.fst =
      if className ∈ classes.map Prod.fst then classes.map Prod.fst
      else classes.map Prod.fst ++ [className] := by
  induction classes with
  | nil =>
      rfl
  | cons entry rest inductionHypothesis =>
      unfold replaceShape
      by_cases same : entry.1 = className
      · simp [same]
      · have other : className ≠ entry.1 := Ne.symm same
        rw [if_neg same, List.map_cons, inductionHypothesis]
        by_cases member : className ∈ rest.map Prod.fst
        · rw [if_pos member, List.map_cons, if_pos (List.mem_cons_of_mem _ member)]
        · rw [if_neg member, List.map_cons,
            if_neg (List.not_mem_cons_of_ne_of_not_mem other member), List.cons_append]

/-- The session after the definitions of classes. -/
def defineAll (session : Session) (definitions : List (String × Shape)) : Session :=
  definitions.foldl (fun reached entry => reached.defineClass entry.1 entry.2) session

/-- A class that is defined again takes the place of the one before. -/
theorem nodup_defineAll (definitions : List (String × Shape)) :
    (session.classes.map Prod.fst).Nodup →
      ((session.defineAll definitions).classes.map Prod.fst).Nodup := by
  induction definitions generalizing session with
  | nil =>
      exact id
  | cons entry rest inductionHypothesis =>
      intro distinct
      refine @inductionHypothesis (session.defineClass entry.1 entry.2) ?_
      rw [defineClass, map_fst_replaceShape]
      split
      · exact distinct
      · rename_i isNew
        exact List.nodup_append.mpr ⟨distinct, List.nodup_singleton _, by
          rintro name member _ (_ | ⟨_, ⟨⟩⟩) rfl
          exact isNew member⟩

/-! ## The first declarer -/

/-- The search meets the first declarer of the variable after so many steps. -/
inductive SeesAfter (session : Session) (variableName : String) : Nat → String → Prop
  | own {className : String} {shape : Shape} : session.shape? className = some shape →
      variableName ∈ shape.classVars → SeesAfter session variableName 0 className
  | above {className superclass : String} {shape : Shape} {steps : Nat} :
      session.shape? className = some shape → variableName ∉ shape.classVars →
      shape.superclass = some superclass → SeesAfter session variableName steps superclass →
      SeesAfter session variableName (steps + 1) className

namespace SeesAfter

variable {steps others : Nat}

/-- The first declarer is the class itself, or else that of its superclass. -/
theorem of_known {shape : Shape} (known : session.shape? className = some shape) :
    session.SeesAfter variableName steps className ↔
      steps = 0 ∧ variableName ∈ shape.classVars ∨
        ∃ fewer superclass, steps = fewer + 1 ∧ variableName ∉ shape.classVars ∧
          shape.superclass = some superclass ∧
          session.SeesAfter variableName fewer superclass := by
  constructor
  · intro seesAfter
    cases seesAfter with
    | own again declared =>
        cases known.symm.trans again
        exact Or.inl ⟨rfl, declared⟩
    | above again notDeclared isSuperclass further =>
        cases known.symm.trans again
        exact Or.inr ⟨_, _, rfl, notDeclared, isSuperclass, further⟩
  · rintro (⟨rfl, declared⟩ | ⟨fewer, superclass, rfl, notDeclared, isSuperclass, further⟩)
    · exact .own known declared
    · exact .above known notDeclared isSuperclass further

theorem unique (first : session.SeesAfter variableName steps className)
    (second : session.SeesAfter variableName others className) : steps = others := by
  induction first generalizing others with
  | own known declared =>
      rcases (of_known known).mp second with ⟨rfl, _⟩ | ⟨_, _, _, notDeclared, _⟩
      · rfl
      · exact (notDeclared declared).elim
  | above known notDeclared isSuperclass _ inductionHypothesis =>
      rcases (of_known known).mp second with ⟨_, declared⟩ | ⟨_, _, rfl, _, isSame, further⟩
      · exact (notDeclared declared).elim
      · cases isSuperclass.symm.trans isSame
        exact congrArg _ (inductionHypothesis further)

/-- The classes that are passed are recorded, and all of them lie at different distances from the
declarer. -/
theorem exists_passed (seesAfter : session.SeesAfter variableName steps className) :
    ∃ passed : List String, passed.length = steps + 1 ∧ passed.Nodup ∧
      ∀ name ∈ passed, name ∈ session.recorded ∧
        ∃ fewer, fewer ≤ steps ∧ session.SeesAfter variableName fewer name := by
  induction seesAfter with
  | @own className shape known declared =>
      refine ⟨[className], rfl, List.nodup_singleton _, List.forall_mem_singleton.mpr ?_⟩
      exact ⟨mem_recorded known, 0, Nat.le_refl _, .own known declared⟩
  | @above className superclass shape steps known notDeclared isSuperclass further
      inductionHypothesis =>
      obtain ⟨passed, isLength, distinct, ofPassed⟩ := inductionHypothesis
      have here : session.SeesAfter variableName (steps + 1) className :=
        .above known notDeclared isSuperclass further
      have isNew : className ∉ passed := by
        intro member
        obtain ⟨_, fewer, isFewer, nearer⟩ := ofPassed className member
        have sameDistance := here.unique nearer
        omega
      refine ⟨className :: passed, by rw [List.length_cons, isLength],
        List.nodup_cons.mpr ⟨isNew, distinct⟩, List.forall_mem_cons.mpr ⟨?_, ?_⟩⟩
      · exact ⟨mem_recorded known, steps + 1, Nat.le_refl _, here⟩
      · intro name member
        obtain ⟨isRecorded, fewer, isFewer, nearer⟩ := ofPassed name member
        exact ⟨isRecorded, fewer, Nat.le_succ_of_le isFewer, nearer⟩

theorem lt_length_recorded (seesAfter : session.SeesAfter variableName steps className) :
    steps < session.recorded.length := by
  obtain ⟨passed, isLength, distinct, ofPassed⟩ := seesAfter.exists_passed
  have isPart : passed ⊆ session.recorded := fun name member => (ofPassed name member).1
  have fewer := (List.subperm_of_subset distinct isPart).length_le
  omega

theorem sees (seesAfter : session.SeesAfter variableName steps className) :
    session.Sees variableName className := by
  induction seesAfter with
  | own known declared =>
      exact .own known declared
  | above known _ isSuperclass _ inductionHypothesis =>
      exact .above known isSuperclass inductionHypothesis

end SeesAfter

/-- Where some class on the way declares the variable, there is a first one. -/
theorem Sees.exists_steps (sees : session.Sees variableName className) :
    ∃ steps, session.SeesAfter variableName steps className := by
  induction sees with
  | own known declared =>
      exact ⟨0, .own known declared⟩
  | @above _ _ shape known isSuperclass _ inductionHypothesis =>
      by_cases declared : variableName ∈ shape.classVars
      · exact ⟨0, .own known declared⟩
      · obtain ⟨steps, further⟩ := inductionHypothesis
        exact ⟨steps + 1, .above known declared isSuperclass further⟩

/-! ## The budget -/

/-- The budget has to pay for every step up to the declarer, and for the declarer itself. -/
theorem classVarVisibleFrom_iff {budget : Nat} :
    session.classVarVisibleFrom variableName budget className = true ↔
      ∃ steps, steps < budget ∧ session.SeesAfter variableName steps className := by
  induction budget generalizing className with
  | zero =>
      exact iff_of_false nofun fun ⟨_, impossible, _⟩ => Nat.not_lt_zero _ impossible
  | succ budget inductionHypothesis =>
      unfold classVarVisibleFrom
      cases known : session.shape? className with
      | none =>
          refine iff_of_false nofun ?_
          rintro ⟨_, _, seesAfter⟩
          cases seesAfter with
          | own again _ | above again _ _ _ =>
              cases known.symm.trans again
      | some shape =>
          simp only [SeesAfter.of_known known]
          rw [Bool.or_eq_true_iff, List.contains_iff_mem]
          by_cases declared : variableName ∈ shape.classVars
          · exact iff_of_true (Or.inl declared) ⟨0, Nat.succ_pos _, Or.inl ⟨rfl, declared⟩⟩
          · simp only [declared, false_or, and_false]
            cases isSuperclass : shape.superclass with
            | none =>
                refine iff_of_false nofun ?_
                rintro ⟨_, _, _, _, _, _, isAbove, _⟩
                cases isAbove
            | some superclass =>
                rw [inductionHypothesis]
                constructor
                · rintro ⟨steps, isFewer, further⟩
                  exact ⟨steps + 1, Nat.succ_lt_succ isFewer, steps, superclass, rfl, not_false,
                    rfl, further⟩
                · rintro ⟨_, isFewer, steps, _, rfl, _, ⟨⟩, further⟩
                  exact ⟨steps, Nat.lt_of_succ_lt_succ isFewer, further⟩

/-- One step for each recorded class is enough. -/
theorem classVarVisibleFrom_iff_sees {budget : Nat} (enough : session.recorded.length ≤ budget) :
    session.classVarVisibleFrom variableName budget className = true ↔
      session.Sees variableName className := by
  rw [classVarVisibleFrom_iff]
  constructor
  · rintro ⟨_, _, seesAfter⟩
    exact seesAfter.sees
  · intro sees
    obtain ⟨steps, seesAfter⟩ := sees.exists_steps
    exact ⟨steps, Nat.lt_of_lt_of_le seesAfter.lt_length_recorded enough, seesAfter⟩

theorem classVarVisible_iff_sees :
    session.classVarVisible className variableName = true ↔
      session.Sees variableName className :=
  classVarVisibleFrom_iff_sees session.length_recorded_le

/-! ## The walk of superclass names -/

/-- The class is recorded with the name of its superclass. -/
def NamesSuperclass (session : Session) (lower upper : String) : Prop :=
  ∃ shape, session.shape? lower = some shape ∧ shape.superclass = some upper

/-- The second name is on the walk of superclass names that starts with the first.  The walk goes on
only from recorded classes. -/
abbrev Walks (session : Session) : String → String → Prop :=
  Relation.ReflTransGen session.NamesSuperclass

theorem sees_iff_exists_walks :
    session.Sees variableName className ↔ ∃ declarer shape, session.Walks className declarer ∧
      session.shape? declarer = some shape ∧ variableName ∈ shape.classVars := by
  constructor
  · intro sees
    induction sees with
    | own known declared =>
        exact ⟨_, _, .refl, known, declared⟩
    | above known isSuperclass _ inductionHypothesis =>
        obtain ⟨declarer, shape, walks, ofDeclarer⟩ := inductionHypothesis
        exact ⟨declarer, shape, .head ⟨_, known, isSuperclass⟩ walks, ofDeclarer⟩
  · rintro ⟨declarer, shape, walks, known, declared⟩
    induction walks using Relation.ReflTransGen.head_induction_on with
    | refl =>
        exact .own known declared
    | head named _ inductionHypothesis =>
        obtain ⟨_, knownLower, isSuperclass⟩ := named
        exact .above knownLower isSuperclass inductionHypothesis

/-- A class variable is visible from a class exactly if some class on the walk of superclass names
declares it, whatever circles and unknown names the session has recorded.  A budget of one step for
each recorded class is enough, and a greater one changes nothing.  Where the classes were recorded
by definitions one after the other, the search has just this budget. -/
theorem classVarVisible_iff_walks (session : Session) (className variableName : String) :
    (session.classVarVisible className variableName = true ↔
      ∃ declarer shape, session.Walks className declarer ∧
        session.shape? declarer = some shape ∧ variableName ∈ shape.classVars) ∧
    (∀ more, session.classVarVisibleFrom variableName (session.recorded.length + more) className =
      session.classVarVisible className variableName) ∧
    ∀ definitions, session.classes = (initial.defineAll definitions).classes →
      session.classes.length = session.recorded.length := by
  refine ⟨classVarVisible_iff_sees.trans sees_iff_exists_walks, fun more => ?_, ?_⟩
  · rw [Bool.eq_iff_iff, classVarVisibleFrom_iff_sees (Nat.le_add_right _ _),
      classVarVisible_iff_sees]
  · intro definitions reached
    have distinct : (session.classes.map Prod.fst).Nodup := by
      rw [reached]
      exact nodup_defineAll definitions (List.nodup_singleton _)
    rw [recorded, distinct.dedup, List.length_map]

-- Two classes that are each the superclass of the other: the search from `A` finds the variable of
-- `B` with its last step but one, and one step fewer than the classes on the way hides it.
example :
    let session := initial.defineAll
      [("A", ⟨some "B", [], []⟩), ("B", ⟨some "A", [], ["v"]⟩)]
    session.classVarVisible "A" "v" = true ∧ session.classVarVisible "A" "w" = false ∧
      session.classVarVisibleFrom "v" 2 "A" = true ∧
      session.classVarVisibleFrom "v" 1 "A" = false := by
  decide

end Session

end Missive
