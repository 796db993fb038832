import Missive.Proofs.Classes.Programs
import Missive.Proofs.Scopes.Lineage

/-!
# Variables are found where they are declared

The code for a local variable holds a slot and how many contexts further out it lies.  This was
computed from the text of the program, before any context existed.  When the code runs, the context
there is that of the right activation: the one in the lineage that runs the innermost passage that
declares the name.
-/

namespace Missive

/-! ## The way outward -/

/-- In a machine that holds on to the first context, the way outward follows the contexts. -/
theorem Link.Arenas.resolve?_of_threads {link : Link} {arena other : Arena}
    (arenas : link.Arenas arena other) {depth : Nat} {id partner target : ContextId}
    {around : List ContextId} (linked : link.contexts id partner)
    (threads : arena.Threads (id :: around)) (atDepth : (id :: around)[depth]? = some target) :
    arena.resolve? id depth = some (some target) ∧ arena.isLive target = true := by
  induction depth generalizing id partner around with
  | zero =>
      cases atDepth
      exact ⟨rfl, (arenas.isLive linked).1⟩
  | succ depth inductionHypothesis =>
      obtain ⟨_, isOuter, further⟩ := threads
      obtain ⟨context, _, found, _, contexts⟩ := arenas.linked linked
      have outer := isOuter context found
      rw [List.getElem?_cons_succ] at atDepth
      cases around with
      | nil =>
          cases atDepth
      | cons next around =>
          obtain ⟨_, nextLinked⟩ : ∃ nextPartner, link.contexts next nextPartner := by
            have outers := contexts.outers
            rw [outer] at outers
            exact outers.partner
          rw [Arena.resolve?, found]
          simpa [outer] using inductionHypothesis nextLinked further atDepth

namespace Exec

/-- Uses a variable of a context. -/
def useSlot (access : Access) (context : ContextId) (slot : Nat) : Exec Unit :=
  match access with
  | .load => loadSlot context slot
  | .store => do
    let value ← peek
    storeSlot context slot value

variable {machine : Machine} {current : Frame} {rest : List Frame}

theorem execute_slot {access : Access} {slot : Nat} (frames : machine.frames = current :: rest)
    (small : slot ≤ Instruction.maxPackedIndex) :
    execute (.indexed (access.opcode (.slot slot)) slot) machine =
      andGoOn (useSlot access current.context slot) machine := by
  have fits : slot < 0x80000000 := Nat.lt_of_le_of_lt small (by decide)
  have isSlot : elementCount (Int32.ofNat slot) = slot := elementCount_ofNat fits
  cases access with
  | load =>
      refine andGoOn_congr ?_
      change (frame >>= fun found => loadSlot found.context (elementCount (Int32.ofNat slot)))
        machine = loadSlot current.context slot machine
      rw [bind_of_ok (frame_of_cons frames), isSlot]
  | store =>
      refine andGoOn_congr (peek_bind_congr fun value => ?_)
      change (frame >>= fun found =>
          storeSlot found.context (elementCount (Int32.ofNat slot)) value) machine =
        storeSlot current.context slot value machine
      rw [bind_of_ok (frame_of_cons frames), isSlot]

theorem outerSlot_of_resolve {opcode : Opcode} {slot depth : Nat} {target : ContextId}
    (frames : machine.frames = current :: rest) (small : slot ≤ Instruction.maxPackedIndex)
    (near : depth ≤ Instruction.maxPackedCount)
    (resolved : machine.contexts.resolve? current.context depth = some (some target)) :
    outerSlot (.packed opcode slot depth) machine = .ok (target, slot) machine := by
  unfold outerSlot Instruction.packed
  dsimp only
  rw [Instruction.unpack_packedOperand small near]
  dsimp only
  rw [get_bind, bind_of_ok (frame_of_cons frames)]
  rw [resolved]
  rfl

theorem execute_outer {access : Access} {slot depth : Nat} {target : ContextId}
    (frames : machine.frames = current :: rest) (small : slot ≤ Instruction.maxPackedIndex)
    (near : depth ≤ Instruction.maxPackedCount)
    (resolved : machine.contexts.resolve? current.context depth = some (some target)) :
    execute (.packed (access.opcode (.outer slot depth)) slot depth) machine =
      andGoOn (useSlot access target slot) machine := by
  cases access with
  | load | store =>
      exact andGoOn_congr (bind_of_ok (outerSlot_of_resolve frames small near resolved))

/-- An instruction for a local variable uses the slot in the context at the depth that it holds. -/
theorem execute_useSlot {access : Access} {slot depth : Nat} {target : ContextId}
    (frames : machine.frames = current :: rest) (small : slot ≤ Instruction.maxPackedIndex)
    (near : depth ≤ Instruction.maxPackedCount)
    (resolved : machine.contexts.resolve? current.context depth = some (some target)) :
    execute (if depth = 0 then .indexed (access.opcode (.slot slot)) slot
        else .packed (access.opcode (.outer slot depth)) slot depth) machine =
      andGoOn (useSlot access target slot) machine := by
  by_cases here : depth = 0
  · rw [here] at resolved
    cases resolved
    rw [if_pos here]
    exact execute_slot frames small
  · rw [if_neg here]
    exact execute_outer frames small near resolved

end Exec

namespace Machine

variable {reading : Reading} {corpus : Corpus} {config : Config} {refusal : Option String}
  {start machine : Machine} {commands : List Command}

/-- The activation is under way at some time while the commands are carried out. -/
def UnderWay (start : Machine) (commands : List Command) (activation : Frame) : Prop :=
  ∃ earlier, earlier <+: commands ∧ activation ∈ (start.after earlier).activations

theorem Lineage.underWay {activation : Frame} {others : List Frame}
    (lineage : Lineage start commands (activation :: others)) :
    ∀ other ∈ others, start.UnderWay commands other := by
  generalize isWhole : activation :: others = whole at lineage
  induction lineage generalizing activation others with
  | outermost _ =>
      cases isWhole
      exact fun _ impossible => (List.not_mem_nil impossible).elim
  | @inside _ maker _ creating _ _ _ steps creates _ _ _ inductionHypothesis =>
      cases isWhole
      refine List.forall_mem_cons.mpr ⟨?_, inductionHypothesis rfl⟩
      obtain ⟨earlier, later, isCommands, isMachine⟩ := steps
      obtain ⟨current, rest, _, frames, isMaker, _⟩ := creates.executes
      refine ⟨earlier, isCommands ▸ List.prefix_append _ _, ?_⟩
      rw [← isMachine, ← isMaker]
      exact fixed_mem_activations frames

/-- When the next instruction is executed, the contexts of the whole lineage are there, each inside
the next one. -/
theorem Descends.resolve? {current : Frame} {rest others : List Frame} {passages : List Passage}
    {activation : Frame} {depth : Nat}
    (descends : Descends reading start commands machine.contexts (current.fixed :: others) passages)
    (alike : machine.Alike machine) (frames : machine.frames = current :: rest)
    (atDepth : (current.fixed :: others)[depth]? = some activation) :
    let contexts := (Exec.prepared machine current rest).contexts
    contexts.resolve? current.context depth = some (some activation.context) ∧
      contexts.isLive activation.context = true := by
  have quiet := machine.quiet_counted_tidied
  obtain ⟨link, _, machines⟩ := alike.counted_tidied
  have linkedFrames := machines.frames
  rw [quiet.frames, frames] at linkedFrames
  cases linkedFrames with
  | cons linked _ =>
      refine machines.arenas.resolve?_of_threads linked.context
        (descends.threads.keeps quiet.contexts.keeps) ?_
      have mapped := congrArg (Option.map Frame.context) atDepth
      rwa [← List.getElem?_map] at mapped

/-- Activations of a run with one context are the same, unless both are programs. -/
theorem UnderWay.eq_of_context {activation other : Frame}
    (underWay : (new config refusal).UnderWay commands activation)
    (otherUnderWay : (new config refusal).UnderWay commands other)
    (same : activation.context = other.context) :
    activation = other ∨ activation.kind = .topLevel ∧ other.kind = .topLevel := by
  obtain ⟨first, isFirst, member⟩ := underWay
  obtain ⟨second, isSecond, otherMember⟩ := otherUnderWay
  rcases List.prefix_or_prefix_of_prefix isFirst isSecond with ⟨more, rfl⟩ | ⟨more, rfl⟩
  · rcases eq_of_context_after member otherMember same with equal | ⟨_, isTopLevel, alsoTopLevel, _⟩
    · exact Or.inl equal
    · exact Or.inr ⟨isTopLevel, alsoTopLevel⟩
  · rcases eq_of_context_after otherMember member same.symm with
      equal | ⟨_, isTopLevel, alsoTopLevel, _⟩
    · exact Or.inl equal.symm
    · exact Or.inr ⟨alsoTopLevel, isTopLevel⟩

end Machine

/-- Around a method there is no program, and around nothing else a method but its own blocks. -/
theorem Enclosed.kind_ne_topLevel {passages : List Passage} (enclosed : Enclosed passages)
    (inMethod : ∃ around ∈ passages, around.kind = .method) :
    ∀ passage ∈ passages, passage.kind ≠ .topLevel := by
  induction enclosed with
  | outermost _ =>
      obtain ⟨around, member, isMethod⟩ := inMethod
      cases List.mem_singleton.mp member
      rw [List.forall_mem_singleton, isMethod]
      decide
  | inside isBlock _ _ inductionHypothesis =>
      obtain ⟨around, member, isMethod⟩ := inMethod
      refine List.forall_mem_cons.mpr ⟨by rw [isBlock]; decide, inductionHypothesis ?_⟩
      rcases List.mem_cons.mp member with rfl | further
      · rw [isBlock] at isMethod
        cases isMethod
      · exact ⟨around, further, isMethod⟩

theorem Enacts.getElem? {corpus : Corpus} {activations : List Frame} {passages : List Passage}
    (enacts : Enacts corpus activations passages) {depth : Nat} {passage : Passage}
    (atDepth : passages[depth]? = some passage) :
    ∃ activation, activations[depth]? = some activation ∧ activation.kind = passage.kind := by
  induction enacts generalizing depth with
  | nil =>
      cases atDepth
  | @cons activation _ _ _ sameKind _ _ inductionHypothesis =>
      cases depth with
      | zero =>
          cases atDepth
          exact ⟨activation, rfl, sameKind⟩
      | succ depth =>
          exact inductionHypothesis atDepth

namespace Machine

variable {config : Config} {refusal : Option String} {corpus : Corpus} {commands : List Command}
  {current : Frame} {rest : List Frame} {instruction : Instruction}

/-- An instruction for a local variable uses the variable of the activation in the lineage that runs
the innermost passage that declares the name. -/
theorem exists_access (compiles : corpus.Compiles commands)
    (frames : ((new config refusal).after commands).frames = current :: rest)
    (next : current.code.code[current.ip]? = some instruction)
    (isLocal : instruction.opcode ∈ [.loadLocal, .storeLocal, .loadOuter, .storeOuter])
    (within : ∀ limit, ((new config refusal).after commands).config.maxSteps = some limit →
      ((new config refusal).after commands).steps < limit) :
    let start := new config refusal
    let machine := start.after commands
    ∃ others passage outer access name depth slot activation,
      Descends (.ofCorpus corpus) start commands machine.contexts (current.fixed :: others)
        (passage :: outer) ∧
      Enclosed (passage :: outer) ∧
      (mentionsInBody passage.statements)[current.code.mentionsBefore current.ip]? =
        some (.use access name) ∧
      DeclaredAt (passage :: outer) name depth slot ∧
      (current.fixed :: others)[depth]? = some activation ∧
      Exec.step machine = Exec.andGoOn (Exec.useSlot access activation.context slot)
        (Exec.prepared machine current rest) ∧
      (Exec.prepared machine current rest).contexts.isLive activation.context = true := by
  intro start machine
  have kind : instruction.opcode.operandKind = .slot ∨ instruction.opcode.operandKind = .outer := by
    simp only [List.mem_cons, List.not_mem_nil, or_false] at isLocal
    rcases isLocal with isLoad | isStore | isLoad | isStore
    · exact Or.inl (by rw [isLoad]; rfl)
    · exact Or.inl (by rw [isStore]; rfl)
    · exact Or.inr (by rw [isLoad]; rfl)
    · exact Or.inr (by rw [isStore]; rfl)
  have innermost := fixed_mem_activations frames
  obtain ⟨others, _, descends⟩ :=
    (traceable_after config refusal (Reading.loads_ofCorpus compiles)).activations _ innermost
  obtain ⟨passage, outer, rfl, reads⟩ := descends.covers.head
  have rendition : Rendition corpus passage outer current.code := reads
  obtain ⟨access, name, depth, slot, isMention, declaredAt, small, near, isInstruction⟩ :=
    rendition.localVariable next kind
  obtain ⟨declaring, isDeclaring, _⟩ := declaredAt.declared
  obtain ⟨activation, atDepth, _⟩ := descends.covers.enacts.getElem? isDeclaring
  obtain ⟨resolved, isLive⟩ :=
    descends.resolve? (alike_after config refusal commands) frames atDepth
  refine ⟨others, passage, outer, access, name, depth, slot, activation, descends,
    rendition.enclosed, isMention, declaredAt, atDepth, ?_, isLive⟩
  rw [Exec.step_of_within frames next within, isInstruction]
  exact Exec.execute_useSlot rfl small near resolved

/-- Programs are compiled, with no parameter repeated and not too many names in a body, and loaded
and run in any order.  However far they have run, an instruction for a local variable was made for a
name, and it uses the slot that the name has in the innermost passage that declares it, in the
context of the activation of that passage from which the running block comes.  From a method it
never gets to the variables of a program.

Two activations never share a context, except for programs in a session, and these are loaded one
after the other. -/
theorem lexical_addressing (config : Config) (refusal : Option String) (corpus : Corpus)
    (commands : List Command) (compiles : corpus.Compiles commands) :
    let start := new config refusal
    let machine := start.after commands
    (∀ current rest instruction, machine.frames = current :: rest →
        current.code.code[current.ip]? = some instruction →
        instruction.opcode ∈ [.loadLocal, .storeLocal, .loadOuter, .storeOuter] →
        (∀ limit, machine.config.maxSteps = some limit → machine.steps < limit) →
        ∃ others passage outer access name depth slot activation,
          start.Lineage commands (current.fixed :: others) ∧
          Enacts corpus (current.fixed :: others) (passage :: outer) ∧ Enclosed (passage :: outer) ∧
          (mentionsInBody passage.statements)[current.code.mentionsBefore current.ip]? =
            some (.use access name) ∧
          DeclaredAt (passage :: outer) name depth slot ∧
          (current.fixed :: others)[depth]? = some activation ∧
          Exec.step machine = Exec.andGoOn (Exec.useSlot access activation.context slot)
            (Exec.prepared machine current rest) ∧
          (Exec.prepared machine current rest).contexts.isLive activation.context = true ∧
          ((∃ around ∈ passage :: outer, around.kind = .method) →
            ∀ program, start.UnderWay commands program → program.kind = .topLevel →
              activation.context ≠ program.context)) ∧
      ∀ more, ∀ frame ∈ machine.frames, ∀ other ∈ (machine.after more).frames,
        frame.id ≠ other.id → frame.context = other.context →
        frame.kind = .topLevel ∧ other.kind = .topLevel ∧
          frame.context = machine.sessionContext ∧ ∃ unit, .loadInSession unit ∈ more := by
  intro start machine
  refine ⟨fun current rest instruction frames next isLocal within => ?_,
    fun more frame member other otherMember different same => ?_⟩
  · obtain ⟨others, passage, outer, access, name, depth, slot, activation, descends, enclosed,
      isMention, declaredAt, atDepth, step, isLive⟩ :=
      exists_access compiles frames next isLocal within
    refine ⟨others, passage, outer, access, name, depth, slot, activation, descends.lineage,
      descends.covers.enacts, enclosed, isMention, declaredAt, atDepth, step, isLive,
      fun inMethod program isUnderWay isTopLevel sameContext => ?_⟩
    have notTopLevel : activation.kind ≠ .topLevel := by
      obtain ⟨declaring, isDeclaring, _⟩ := declaredAt.declared
      obtain ⟨enacting, isEnacting, sameKind⟩ := descends.covers.enacts.getElem? isDeclaring
      cases isEnacting.symm.trans atDepth
      rw [sameKind]
      exact enclosed.kind_ne_topLevel inMethod _ (List.mem_of_getElem? isDeclaring)
    have underWay : start.UnderWay commands activation := by
      rcases List.mem_cons.mp (List.mem_of_getElem? atDepth) with rfl | further
      · exact ⟨commands, List.prefix_refl _, List.mem_map_of_mem (frames ▸ List.mem_cons_self)⟩
      · exact descends.lineage.underWay _ further
    rcases underWay.eq_of_context isUnderWay sameContext with rfl | ⟨alsoTopLevel, _⟩
    · exact notTopLevel isTopLevel
    · exact notTopLevel alsoTopLevel
  · have isActivation : frame.fixed ∈ machine.activations := List.mem_map_of_mem member
    have isOther : other.fixed ∈ (start.after (commands ++ more)).activations := by
      rw [after_append]
      exact List.mem_map_of_mem otherMember
    rcases eq_of_context_after isActivation isOther same with
      equal | ⟨loaded, isTopLevel, alsoTopLevel, isSession⟩
    · have sameId : frame.fixed.id = other.fixed.id := congrArg Frame.id equal
      exact (different sameId).elim
    · exact ⟨isTopLevel, alsoTopLevel, isSession, loaded⟩

/-- A block that gets the name of a variable of the program as its parameter, and answers a block
that uses the name. -/
def shadowing : Program :=
  [.declare ["x"], .expr (.assign "x" (.literal (.int 1))),
    .expr (.send (.send (.block ["x"] [.expr (.block [] [.expr (.var "x")])]) "value:"
      [.literal (.int 2)]) "value" [])]

/-- The passages of the program by itself. -/
def shadowingCorpus : Corpus := ⟨(· ∈ shadowing.passages .initial), by decide⟩

/-- The only use of a variable at the beginning of a block. -/
theorem enclosed_of_use {passage : Passage} {outer : List Passage} {access : Access} {name : String}
    (enclosed : Enclosed (passage :: outer))
    (contained : ∀ around ∈ passage :: outer, shadowingCorpus.contains around)
    (isBlock : passage.kind = .block)
    (isMention : (mentionsInBody passage.statements)[0]? = some (.use access name)) :
    access = .load ∧ name = "x" ∧ passage = ⟨.block, [], [.expr (.var "x")]⟩ ∧
      ∃ rest, outer = ⟨.block, ["x"], [.expr (.block [] [.expr (.var "x")])]⟩ :: rest := by
  have listed : ∀ {around : Passage}, shadowingCorpus.contains around →
      around = ⟨.topLevel, [], shadowing⟩ ∨
        around = ⟨.block, ["x"], [.expr (.block [] [.expr (.var "x")])]⟩ ∨
        around = ⟨.block, [], [.expr (.var "x")]⟩ := by
    intro around member
    have isPassage : around ∈ [⟨.topLevel, [], shadowing⟩,
      ⟨.block, ["x"], [.expr (.block [] [.expr (.var "x")])]⟩,
      ⟨.block, [], [.expr (.var "x")]⟩] := member
    simpa using isPassage
  obtain ⟨isPassage, around⟩ := List.forall_mem_cons.mp contained
  rcases listed isPassage with rfl | rfl | rfl
  · cases isBlock
  · cases isMention
  · cases isMention
    cases enclosed with
    | outermost notBlock =>
        exact (notBlock rfl).elim
    | inside _ mentioned _ =>
        refine ⟨rfl, rfl, rfl, _, congrArg (List.cons · _) ?_⟩
        rcases listed (around _ List.mem_cons_self) with rfl | rfl | rfl
        · have inProgram : (Mention.block [] [.expr (.var "x")]) ∈
              [.use .store "x", .block ["x"] [.expr (.block [] [.expr (.var "x")])]] := mentioned
          simp at inProgram
        · rfl
        · have inItself : (Mention.block [] [.expr (.var "x")]) ∈ [.use .load "x"] := mentioned
          simp at inItself

/-- After 9 steps the inner block runs, and of the others only the program.  The variable is that of
the block that has ended. -/
theorem lexical_addressing_shadowing :
    let commands := .load shadowing.code :: List.replicate 9 .step
    let machine := (new {} none).after commands
    shadowing.compile = .ok shadowing.code ∧ shadowingCorpus.Compiles commands ∧
      machine.currentInstruction? = some (0, .packed .loadOuter 0 1) ∧
      machine.frames.map Frame.kind = [.block, .topLevel] ∧ machine.step.1.operands = [.int 2] ∧
      ∃ current rest maker others, machine.frames = current :: rest ∧
        (new {} none).Lineage commands (current.fixed :: maker :: others) ∧ maker.kind = .block ∧
        Exec.step machine =
          Exec.andGoOn (Exec.loadSlot maker.context 0) (Exec.prepared machine current rest) := by
  intro commands machine
  have compiled : shadowing.compile = .ok shadowing.code := rfl
  have compiles : shadowingCorpus.Compiles commands := by
    intro unit loaded
    have isUnit : unit = shadowing.code := by
      simpa [commands] using loaded
    exact ⟨.initial, (Session.initial.compile shadowing).1, shadowing,
      isUnit ▸ Prod.ext rfl compiled, fun _ member => member⟩
  have next : machine.currentInstruction? = some (0, .packed .loadOuter 0 1) := by decide +kernel
  have kinds : machine.frames.map Frame.kind = [.block, .topLevel] := by decide +kernel
  refine ⟨compiled, compiles, next, kinds, by decide +kernel, ?_⟩
  unfold currentInstruction? at next
  split at next
  · rename_i current rest frames
    obtain ⟨_, isNext, same⟩ := Option.map_eq_some_iff.mp next
    obtain ⟨isFirst, rfl⟩ := Prod.mk.inj same
    obtain ⟨others, passage, outer, access, name, depth, slot, activation, lineage, enacts,
      enclosed, isMention, declaredAt, atDepth, step, _⟩ :=
      (lexical_addressing {} none shadowingCorpus commands compiles).1 current rest _ frames
        isNext (by decide) nofun
    have isBlock : current.kind = .block := by
      rw [frames] at kinds
      exact (List.cons.inj kinds).1
    obtain ⟨_, _, same, rendition⟩ := enacts.rendition
    cases same
    rw [isFirst] at isMention
    cases enacts with
    | cons sameKind _ further =>
        obtain ⟨rfl, rfl, rfl, _, rfl⟩ :=
          enclosed_of_use enclosed rendition.around (sameKind.symm.trans isBlock) isMention
        obtain ⟨isSlot, isDepth⟩ : slot = 0 ∧ depth = 1 := by
          obtain ⟨declaring, isDeclaring, found⟩ := declaredAt.declared
          match depth with
          | 0 =>
              cases isDeclaring
              cases found
          | 1 =>
              cases isDeclaring
              cases found
              exact ⟨rfl, rfl⟩
          | further + 2 =>
              exact (declaredAt.innermost _ (List.mem_cons_of_mem _ List.mem_cons_self)
                List.mem_cons_self).elim
        cases further with
        | cons isKind _ _ =>
            subst isSlot isDepth
            cases atDepth
            exact ⟨current, rest, _, _, frames, lineage, isKind, step⟩
  · cases next

end Machine

end Missive
