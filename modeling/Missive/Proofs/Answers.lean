/-!
# Computations that answer

What follows about the parts of a computation when the whole of it has not failed.
-/

namespace Missive

/-- A computation that answers has answered in its first part. -/
theorem Except.bind_eq_ok {ε α β : Type} {first : Except ε α} {next : α → Except ε β}
    {result : β} :
    first >>= next = .ok result ↔ ∃ value, first = .ok value ∧ next value = .ok result := by
  cases first with
  | error fault =>
      constructor
      · intro impossible
        cases impossible
      · rintro ⟨_, impossible, _⟩
        cases impossible
  | ok value =>
      constructor
      · intro answered
        exact ⟨value, rfl, answered⟩
      · rintro ⟨_, same, answered⟩
        cases same
        exact answered

/-- A computation fails in its first part, or in what follows. -/
theorem Except.bind_eq_error {ε α β : Type} {first : Except ε α} {next : α → Except ε β}
    {fault : ε} :
    first >>= next = .error fault ↔
      first = .error fault ∨ ∃ value, first = .ok value ∧ next value = .error fault := by
  cases first with
  | error other =>
      constructor
      · rintro ⟨⟩
        exact Or.inl rfl
      · rintro (same | ⟨_, impossible, _⟩)
        · cases same
          rfl
        · cases impossible
  | ok value =>
      constructor
      · intro failed
        exact Or.inr ⟨value, rfl, failed⟩
      · rintro (impossible | ⟨_, same, failed⟩)
        · cases impossible
        · cases same
          exact failed

/-- Two checks in a row are passed when both are. -/
theorem Except.check_bind_eq_ok {ε : Type} {first next : Except ε Unit} :
    (do first; next) = .ok () ↔ first = .ok () ∧ next = .ok () := by
  rw [Except.bind_eq_ok]
  constructor
  · rintro ⟨⟨⟩, passed, nextPassed⟩
    exact ⟨passed, nextPassed⟩
  · rintro ⟨passed, nextPassed⟩
    exact ⟨(), passed, nextPassed⟩

/-- Every answer of a computation over a list comes from one element. -/
theorem Except.exists_of_mem_mapM {ε α β : Type} {f : α → Except ε β} {items : List α}
    {results : List β} (answered : items.mapM f = .ok results) {result : β}
    (member : result ∈ results) : ∃ item ∈ items, f item = .ok result := by
  induction items generalizing results with
  | nil =>
      cases answered
      exact (List.not_mem_nil member).elim
  | cons item rest inductionHypothesis =>
      rw [List.mapM_cons] at answered
      obtain ⟨first, firstAnswered, answered⟩ := Except.bind_eq_ok.mp answered
      obtain ⟨others, othersAnswered, answered⟩ := Except.bind_eq_ok.mp answered
      cases answered
      rcases List.mem_cons.mp member with rfl | inOthers
      · exact ⟨item, List.mem_cons_self, firstAnswered⟩
      · obtain ⟨other, isItem, isAnswer⟩ := inductionHypothesis othersAnswered inOthers
        exact ⟨other, List.mem_cons_of_mem _ isItem, isAnswer⟩

end Missive
