import Missive.Proofs.Classes.Definitions
import Missive.Proofs.Compile.Verification

/-!
# The bodies of a program and their names

A program, its methods and its blocks are bodies that stand inside each other.  A *passage* is such
a body together with the names that it starts with: its parameters, or for the program itself the
variables that the session has already.  The declarations at the beginning of the body add names,
and the slot of a name is its position.

Where the compiler finds a name, it is declared by the innermost of the enclosing passages that
declares it at all.
-/

namespace Missive

/-- A body of a program with the names that are there before its statements. -/
structure Passage where
  kind : BodyKind
  given : List String
  statements : List Stmt

/-- The names that are declared before anything else is stated. -/
def declaredFirst : List Stmt → List String
  | .declare names :: rest => names ++ declaredFirst rest
  | _ => []

namespace Passage

def scope (passage : Passage) : Scope :=
  Scope.declareAll ⟨passage.kind, passage.given⟩ (declaredFirst passage.statements)

/-- All names that the passage declares, by their slots. -/
def names (passage : Passage) : List String := passage.scope.names

def slot? (passage : Passage) (name : String) : Option Nat := passage.names.idxOf? name

/-- No parameter is repeated, and an operand can hold the slot of each name beside a depth. -/
def WellNamed (passage : Passage) : Prop :=
  (passage.kind ≠ .topLevel → passage.given.Nodup) ∧
    passage.names.length ≤ Instruction.maxPackedIndex + 1

instance (passage : Passage) : Decidable passage.WellNamed := inferInstanceAs (Decidable (_ ∧ _))

end Passage

/-- Each passage is a block in the next one, and the last one is a method or a program. -/
inductive Enclosed : List Passage → Prop
  | outermost {passage : Passage} : passage.kind ≠ .block → Enclosed [passage]
  | inside {inner outer : Passage} {rest : List Passage} : inner.kind = .block →
      .block inner.given inner.statements ∈ mentionsInBody outer.statements →
      Enclosed (outer :: rest) → Enclosed (inner :: outer :: rest)

/-! ## All passages of a program -/

mutual

/-- The blocks of the expression, those inside of others included. -/
def Expr.passages : Expr → List Passage
  | .literal _ | .var _ | .self | .super => []
  | .assign _ value => value.passages
  | .send receiver _ arguments => receiver.passages ++ passagesInAll arguments
  | .cascade receiver messages => receiver.passages ++ passagesInMessages messages
  | .block parameters body => ⟨.block, parameters, body⟩ :: passagesInBody body
  | .array elements => passagesInAll elements
  | .dictionary entries => passagesInEntries entries

/-- The same for expressions in a row. -/
def passagesInAll : List Expr → List Passage
  | [] => []
  | expr :: rest => expr.passages ++ passagesInAll rest

/-- The same for the messages of a cascade. -/
def passagesInMessages : List Message → List Passage
  | [] => []
  | ⟨_, arguments⟩ :: rest => passagesInAll arguments ++ passagesInMessages rest

/-- The same for the entries of a dictionary. -/
def passagesInEntries : List Entry → List Passage
  | [] => []
  | ⟨key, value⟩ :: rest => key.passages ++ value.passages ++ passagesInEntries rest

/-- The same for the statements of a body or of a program, with the methods of its classes. -/
def passagesInBody : List Stmt → List Passage
  | [] => []
  | .expr value :: rest | .return value :: rest => value.passages ++ passagesInBody rest
  | .declare _ :: rest => passagesInBody rest
  | .define ⟨_, _, _, _, methods, classMethods⟩ :: rest =>
    passagesInMethods methods ++ passagesInMethods classMethods ++ passagesInBody rest

/-- The methods on one side of a class and their blocks. -/
def passagesInMethods : List MethodDef → List Passage
  | [] => []
  | ⟨_, parameters, body⟩ :: rest =>
    ⟨.method, parameters, body⟩ :: passagesInBody body ++ passagesInMethods rest

end

/-- The program itself, compiled in a session, and all bodies in it. -/
def Program.passages (session : Session) (program : Program) : List Passage :=
  ⟨.topLevel, session.locals, program⟩ :: passagesInBody program

/-- The passages of the programs that are compiled. -/
structure Corpus where
  contains : Passage → Prop
  wellNamed : ∀ passage, contains passage → passage.WellNamed

/-! ## Blocks that are mentioned -/

/-- The blocks that are mentioned are among the passages, and so are the blocks in them. -/
def Listed (mentions : List Mention) (passages : List Passage) : Prop :=
  ∀ parameters body, .block parameters body ∈ mentions →
    (⟨.block, parameters, body⟩ : Passage) :: passagesInBody body ⊆ passages

theorem listed_nil (passages : List Passage) : Listed [] passages := by
  intro parameters body impossible
  cases impossible

theorem Listed.append {mentions more : List Mention} {passages further : List Passage}
    (listed : Listed mentions passages) (alsoListed : Listed more further) :
    Listed (mentions ++ more) (passages ++ further) := by
  intro parameters body member
  rcases List.mem_append.mp member with inFirst | inSecond
  · exact List.subset_append_of_subset_left _ (listed parameters body inFirst)
  · exact List.subset_append_of_subset_right _ (alsoListed parameters body inSecond)

theorem Listed.mono {mentions : List Mention} {passages further : List Passage}
    (listed : Listed mentions passages) (subset : passages ⊆ further) : Listed mentions further :=
  fun parameters body member => List.Subset.trans (listed parameters body member) subset

mutual

theorem listed_expr : (expr : Expr) → Listed expr.mentions expr.passages
  | .literal _ | .self | .super => by
      rw [Expr.mentions]
      exact listed_nil _
  | .var name => by
      rw [Expr.mentions]
      split
      · exact listed_nil _
      · intro parameters body impossible
        simp at impossible
  | .assign target value => by
      rw [Expr.mentions, Expr.passages]
      intro parameters body member
      have inValue : .block parameters body ∈ value.mentions := by simpa using member
      exact listed_expr value parameters body inValue
  | .send receiver selector arguments => by
      rw [Expr.mentions, Expr.passages]
      exact (listed_expr receiver).append (listed_all arguments)
  | .cascade receiver messages => by
      rw [Expr.mentions, Expr.passages]
      exact (listed_expr receiver).append (listed_messages messages)
  | .block parameters body => by
      rw [Expr.mentions, Expr.passages]
      intro others inner member
      cases List.mem_singleton.mp member
      exact List.Subset.refl _
  | .array elements => by
      rw [Expr.mentions, Expr.passages]
      exact listed_all elements
  | .dictionary entries => by
      rw [Expr.mentions, Expr.passages]
      exact listed_entries entries

theorem listed_all : (exprs : List Expr) → Listed (mentionsInAll exprs) (passagesInAll exprs)
  | [] => by
      rw [mentionsInAll]
      exact listed_nil _
  | expr :: rest => by
      rw [mentionsInAll, passagesInAll]
      exact (listed_expr expr).append (listed_all rest)

theorem listed_messages : (messages : List Message) →
    Listed (mentionsInMessages messages) (passagesInMessages messages)
  | [] => by
      rw [mentionsInMessages]
      exact listed_nil _
  | ⟨selector, arguments⟩ :: rest => by
      rw [mentionsInMessages, passagesInMessages]
      exact (listed_all arguments).append (listed_messages rest)

theorem listed_entries : (entries : List Entry) →
    Listed (mentionsInEntries entries) (passagesInEntries entries)
  | [] => by
      rw [mentionsInEntries]
      exact listed_nil _
  | ⟨key, value⟩ :: rest => by
      rw [mentionsInEntries, passagesInEntries]
      exact ((listed_expr key).append (listed_expr value)).append (listed_entries rest)

end

theorem listed_body (statements : List Stmt) :
    Listed (mentionsInBody statements) (passagesInBody statements) := by
  induction statements with
  | nil =>
      rw [mentionsInBody]
      exact listed_nil _
  | cons statement rest inductionHypothesis =>
      cases statement with
      | expr value | «return» value =>
          rw [mentionsInBody, passagesInBody]
          exact (listed_expr value).append inductionHypothesis
      | declare names =>
          rw [mentionsInBody, passagesInBody]
          exact inductionHypothesis
      | define definition =>
          obtain ⟨name, superclass, fields, classVars, methods, classMethods⟩ := definition
          rw [mentionsInBody, passagesInBody]
          exact inductionHypothesis.mono (List.subset_append_right _ _)

theorem mem_passagesInMethods {methods : List MethodDef} {method : MethodDef}
    (member : method ∈ methods) :
    (⟨.method, method.parameters, method.body⟩ : Passage) :: passagesInBody method.body ⊆
      passagesInMethods methods := by
  induction methods with
  | nil =>
      cases member
  | cons first rest inductionHypothesis =>
      obtain ⟨selector, parameters, body⟩ := first
      rw [passagesInMethods]
      rcases List.mem_cons.mp member with rfl | inRest
      · exact List.subset_append_left _ _
      · exact List.subset_append_of_subset_right _ (inductionHypothesis inRest)

/-- The methods that a program defines are among its passages, with the blocks in them. -/
theorem mem_passages_of_method {program : Program} {definition : ClassDef} {classSide : Bool}
    {method : MethodDef} (member : definition ∈ program.definitions)
    (isMethod : method ∈ definition.methodsOn classSide) :
    (⟨.method, method.parameters, method.body⟩ : Passage) :: passagesInBody method.body ⊆
      passagesInBody program := by
  induction program with
  | nil =>
      cases member
  | cons statement rest inductionHypothesis =>
      cases statement with
      | expr value | «return» value =>
          rw [passagesInBody]
          exact List.subset_append_of_subset_right _ (inductionHypothesis member)
      | declare names =>
          rw [passagesInBody]
          exact inductionHypothesis member
      | define first =>
          obtain ⟨name, superclass, fields, classVars, methods, classMethods⟩ := first
          rw [passagesInBody]
          rcases List.mem_cons.mp member with rfl | inRest
          · refine List.subset_append_of_subset_left _ ?_
            cases classSide with
            | false =>
                exact List.subset_append_of_subset_left _ (mem_passagesInMethods isMethod)
            | true =>
                exact List.subset_append_of_subset_right _ (mem_passagesInMethods isMethod)
          · exact List.subset_append_of_subset_right _ (inductionHypothesis inRest)

/-! ## Names and slots -/

theorem Scope.declareAll_append (scope : Scope) (names more : List String) :
    scope.declareAll (names ++ more) = (scope.declareAll names).declareAll more :=
  List.foldl_append

/-- Parameters that are not repeated are the first names, in their order. -/
theorem Scope.ofParameters_eq {kind : BodyKind} {parameters : List String}
    (nodup : parameters.Nodup) : Scope.ofParameters kind parameters = ⟨kind, parameters⟩ := by
  have added : ∀ (names more : List String), (names ++ more).Nodup →
      more.foldl Scope.declare ⟨kind, names⟩ = ⟨kind, names ++ more⟩ := by
    intro names more
    induction more generalizing names with
    | nil =>
        intro _
        rw [List.append_nil]
        rfl
    | cons name rest inductionHypothesis =>
        intro nodup
        have isNew : ¬ names.contains name := by
          have apart := (List.nodup_append.mp nodup).2.2
          simpa using fun member => apart name member name List.mem_cons_self rfl
        have extended : Scope.declare ⟨kind, names⟩ name = ⟨kind, names ++ [name]⟩ := if_neg isNew
        rw [List.append_cons] at nodup ⊢
        rw [List.foldl_cons, extended]
        exact inductionHypothesis (names ++ [name]) nodup
  exact added [] parameters nodup

/-- So many passages further out is the innermost one that declares the name, and there the name
has the slot. -/
structure DeclaredAt (passages : List Passage) (name : String) (depth slot : Nat) : Prop where
  declared : ∃ declaring, passages[depth]? = some declaring ∧ declaring.slot? name = some slot
  innermost : ∀ inside ∈ passages.take depth, name ∉ inside.names

theorem findLocal_passages {name : String} {start slot depth : Nat} {passages : List Passage}
    (found : findLocal name start (passages.map Passage.scope) = some (slot, depth)) :
    ∃ steps, depth = start + steps ∧ DeclaredAt passages name steps slot := by
  induction passages generalizing start with
  | nil =>
      cases found
  | cons passage outer inductionHypothesis =>
      rw [List.map_cons, findLocal] at found
      cases here : passage.scope.slot? name with
      | some place =>
          rw [here] at found
          cases found
          exact ⟨0, rfl, ⟨passage, rfl, here⟩, fun _ impossible => (by cases impossible)⟩
      | none =>
          rw [here] at found
          dsimp only at found
          split at found
          · obtain ⟨steps, isDepth, declared, innermost⟩ := inductionHypothesis found
            refine ⟨steps + 1, by omega, declared, ?_⟩
            rw [List.take_succ_cons]
            exact List.forall_mem_cons.mpr ⟨List.idxOf?_eq_none_iff.mp here, innermost⟩
          · cases found

end Missive
