import Missive.Proofs.Steps.Returns

/-!
# Whose context it is

An activation gets a context that did not exist before, and keeps it.  Handles are not given twice,
so no later activation gets the same context, not even when it has been freed long ago.  Only
programs that are loaded into a session, one after the other, share the context of the session.
-/

namespace Missive

namespace Machine

variable {licence : Licence} {machine before after earlier later : Machine}

/-- Every activation has a context of its own, and only a program has that of the session. -/
structure Apart (machine : Machine) : Prop where
  wellFormed : machine.contexts.WellFormed
  session : machine.contexts.Issued machine.sessionContext
  issued : ∀ activation ∈ machine.activations, machine.contexts.Issued activation.context
  distinct : (machine.activations.map Frame.context).Nodup
  topLevel : ∀ activation ∈ machine.activations,
    activation.context = machine.sessionContext → activation.kind = .topLevel

theorem Ground.issued {context : ContextId} {contexts : Arena}
    (ground : machine.Ground licence context contexts) (apart : machine.Apart) :
    contexts.Issued context := by
  cases ground with
  | session _ =>
      exact apart.session
  | own _ =>
      exact Arena.issued_alloc apart.wellFormed _

theorem Move.apart (move : Move licence before after) (apart : before.Apart) : after.Apart := by
  obtain ⟨keeps, wellFormed⟩ := move.contexts apart.wellFormed
  have sameSession := move.sessionContext
  have session : after.contexts.Issued after.sessionContext := by
    rw [sameSession]
    exact keeps.issued apart.session
  cases move.turn with
  | keep _ suffix =>
      refine ⟨wellFormed, session, fun activation member => ?_, ?_, fun activation member => ?_⟩
      · exact keeps.issued (apart.issued activation (suffix.mem member))
      · exact apart.distinct.sublist (suffix.sublist.map Frame.context)
      · rw [sameSession]
        exact apart.topLevel activation (suffix.mem member)
  | @enter frame outer locals _ _ _ isContext contexts _ entered =>
      have isNew : ¬ before.contexts.Issued frame.context := by
        rw [isContext]
        exact Arena.not_issued_alloc apart.wellFormed _
      refine ⟨wellFormed, session, ?_, ?_, ?_⟩
      · rw [entered, List.forall_mem_cons]
        refine ⟨?_, fun activation member => keeps.issued (apart.issued activation member)⟩
        change after.contexts.Issued frame.context
        rw [isContext, contexts]
        exact Arena.issued_alloc apart.wellFormed _
      · rw [entered, List.map_cons, List.nodup_cons]
        refine ⟨fun member => ?_, apart.distinct⟩
        obtain ⟨other, isOther, same⟩ := List.mem_map.mp member
        have issued := apart.issued other isOther
        rw [same] at issued
        exact isNew issued
      · rw [entered, sameSession, List.forall_mem_cons]
        refine ⟨fun same => ?_, apart.topLevel⟩
        change frame.context = before.sessionContext at same
        rw [same] at isNew
        exact (isNew apart.session).elim
  | @begin frame ground _ _ isTopLevel _ _ _ begun =>
      refine ⟨wellFormed, session, ?_, ?_, ?_⟩
      · rw [begun, List.forall_mem_singleton]
        exact ground.issued apart
      · rw [begun]
        exact List.nodup_singleton _
      · rw [begun, List.forall_mem_singleton]
        exact fun _ => isTopLevel

theorem apart_new (config : Config) (refusal : Option String) : (new config refusal).Apart := by
  have session : (new config refusal).contexts.Issued (new config refusal).sessionContext :=
    Arena.issued_alloc Arena.wellFormed_empty ⟨#[], none⟩
  have nothing : (new config refusal).activations = [] := rfl
  refine ⟨Arena.wellFormed_empty.alloc _, session, ?_, ?_, ?_⟩
  · simp [nothing]
  · simp [nothing]
  · simp [nothing]

theorem Apart.eq_of_context {activation other : Frame} (apart : machine.Apart)
    (member : activation ∈ machine.activations) (otherMember : other ∈ machine.activations)
    (same : activation.context = other.context) : activation = other :=
  List.inj_on_of_nodup_map apart.distinct member otherMember same

/-! ## Contexts of later activations -/

/-- An activation of the later machine was under way already, or its context did not exist then, or
it is a program in the context of the session. -/
structure Outlasts (licence : Licence) (earlier later : Machine) : Prop where
  wellFormed : later.contexts.WellFormed
  keeps : ∀ id, earlier.contexts.Issued id → later.contexts.Issued id
  sessionContext : later.sessionContext = earlier.sessionContext
  activations : ∀ activation ∈ later.activations,
    activation ∈ earlier.activations ∨ ¬ earlier.contexts.Issued activation.context ∨
      licence.session ∧ activation.kind = .topLevel ∧
        activation.context = earlier.sessionContext

theorem Outlasts.move (outlasts : Outlasts licence earlier before)
    (move : Move licence before after) : Outlasts licence earlier after := by
  obtain ⟨keeps, wellFormed⟩ := move.contexts outlasts.wellFormed
  refine ⟨wellFormed, fun id issued => keeps.issued (outlasts.keeps id issued),
    move.sessionContext.trans outlasts.sessionContext, ?_⟩
  have isNew : ∀ context : Context, ¬ earlier.contexts.Issued (before.contexts.alloc context).1 :=
    fun context issued =>
      Arena.not_issued_alloc outlasts.wellFormed context (outlasts.keeps _ issued)
  cases move.turn with
  | keep _ suffix =>
      exact fun activation member => outlasts.activations activation (suffix.mem member)
  | @enter frame outer locals _ _ _ isContext _ _ entered =>
      rw [entered, List.forall_mem_cons]
      refine ⟨Or.inr (Or.inl ?_), outlasts.activations⟩
      change ¬ earlier.contexts.Issued frame.context
      rw [isContext]
      exact isNew _
  | @begin frame ground _ _ isTopLevel _ _ _ begun =>
      rw [begun, List.forall_mem_singleton]
      change frame.fixed ∈ _ ∨ ¬ earlier.contexts.Issued frame.context ∨
        _ ∧ _ ∧ frame.context = earlier.sessionContext
      generalize frame.context = context, after.contexts = contexts at ground ⊢
      cases ground with
      | session allowed =>
          exact Or.inr (Or.inr ⟨allowed, isTopLevel, outlasts.sessionContext⟩)
      | own _ =>
          exact Or.inr (Or.inl (isNew _))

theorem Moves.outlasts (moves : Moves licence earlier later) (apart : earlier.Apart) :
    Outlasts licence earlier later :=
  moves.keep (fun move outlasts => outlasts.move move)
    ⟨apart.wellFormed, fun _ issued => issued, rfl, fun _ member => Or.inl member⟩

/-- Two activations, now and later, with one context are the same, or both are programs that were
loaded into the session. -/
theorem Outlasts.eq_of_context {activation other : Frame}
    (outlasts : Outlasts licence earlier later) (apart : earlier.Apart)
    (member : activation ∈ earlier.activations) (otherMember : other ∈ later.activations)
    (same : activation.context = other.context) :
    activation = other ∨ licence.session ∧ activation.kind = .topLevel ∧
      other.kind = .topLevel ∧ activation.context = earlier.sessionContext := by
  rcases outlasts.activations other otherMember with was | isNew | ⟨allowed, isTopLevel, isSession⟩
  · exact Or.inl (apart.eq_of_context member was same)
  · exact (isNew (same ▸ apart.issued activation member)).elim
  · have alsoSession := same.trans isSession
    exact Or.inr ⟨allowed, apart.topLevel activation member alsoSession, isTopLevel, alsoSession⟩

/-! ## Runs -/

/-- Two activations of a run that have one context are the same, or both are programs and the later
one was loaded into the session in between. -/
theorem eq_of_context_after {config : Config} {refusal : Option String}
    {commands more : List Command} {activation other : Frame}
    (member : activation ∈ ((new config refusal).after commands).activations)
    (otherMember : other ∈ ((new config refusal).after (commands ++ more)).activations)
    (same : activation.context = other.context) :
    activation = other ∨ (∃ unit, .loadInSession unit ∈ more) ∧ activation.kind = .topLevel ∧
      other.kind = .topLevel ∧
        activation.context = ((new config refusal).after commands).sessionContext := by
  let licence : Licence := ⟨True, True, True, ∃ unit, .loadInSession unit ∈ more, True⟩
  have apart : ((new config refusal).after commands).Apart :=
    holds_after config refusal (apart_new config refusal) (fun move => move.apart) commands
  have allows : ∀ command ∈ more, licence.Allows command := by
    intro command isCommand
    cases command with
    | load _ | collect =>
        trivial
    | loadInSession unit =>
        exact ⟨unit, isCommand⟩
    | step =>
        exact ⟨trivial, trivial, trivial⟩
  have moves := moves_after_of (alike_after config refusal commands)
    (bounded_after config refusal commands) allows
  rw [after_append] at otherMember
  exact (moves.outlasts apart).eq_of_context apart member otherMember same

end Machine

end Missive
