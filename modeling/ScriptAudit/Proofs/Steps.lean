/-!
Runs taken apart. A sequence of steps comes to its end exactly where each of its steps does,
the later ones from what the earlier ones leave.
-/
namespace ScriptAudit.Steps

variable {ε σ α β : Type}

theorem except_ok_iff {first : Except ε α} {next : α → Except ε β} {result : β} :
    first >>= next = .ok result ↔ ∃ value, first = .ok value ∧ next value = .ok result := by
  cases first <;> simp [bind, Except.bind]

theorem except_error_iff {first : Except ε α} {next : α → Except ε β} {error : ε} :
    first >>= next = .error error ↔
      first = .error error ∨ ∃ value, first = .ok value ∧ next value = .error error := by
  cases first <;> simp [bind, Except.bind]

theorem except_return_error_iff {first : Except ε α} {f : α → β} {error : ε} :
    (do return f (← first)) = .error error ↔ first = .error error := by
  cases first <;> simp [bind, Except.bind, pure, Except.pure]

/-- Steps along a list stop at the first entry that one of them refuses. -/
theorem foldlM_error_iff {step : σ → α → Except ε σ} {start : σ} {items : List α} {error : ε} :
    items.foldlM step start = .error error ↔
      ∃ front item back middle, items = front ++ item :: back ∧
        front.foldlM step start = .ok middle ∧ step middle item = .error error := by
  induction items generalizing start with
  | nil =>
      constructor
      · intro never
        cases never
      · rintro ⟨front, item, back, middle, split, _⟩
        exact absurd split.symm (by simp)
  | cons first rest ih =>
      rw [List.foldlM_cons, except_error_iff]
      constructor
      · rintro (refused | ⟨next, taken, later⟩)
        · exact ⟨[], first, rest, start, rfl, rfl, refused⟩
        · obtain ⟨front, item, back, middle, split, reached, refused⟩ := ih.mp later
          refine ⟨first :: front, item, back, middle, by rw [split]; rfl, ?_, refused⟩
          rw [List.foldlM_cons, except_ok_iff]
          exact ⟨next, taken, reached⟩
      · rintro ⟨front, item, back, middle, split, reached, refused⟩
        cases front with
        | nil =>
            cases split
            cases reached
            exact Or.inl refused
        | cons other front =>
            cases split
            rw [List.foldlM_cons, except_ok_iff] at reached
            obtain ⟨next, taken, rest⟩ := reached
            exact Or.inr ⟨next, taken, ih.mpr ⟨front, item, back, middle, rfl, rest, refused⟩⟩

theorem mapM_error_iff {f : α → Except ε β} {items : List α} {error : ε} :
    items.mapM f = .error error ↔
      ∃ front item back, items = front ++ item :: back ∧
        (∀ other ∈ front, ∃ value, f other = .ok value) ∧ f item = .error error := by
  induction items with
  | nil =>
      constructor
      · intro never
        cases never
      · rintro ⟨front, item, back, split, _⟩
        exact absurd split.symm (by simp)
  | cons first rest ih =>
      rw [List.mapM_cons, except_error_iff]
      constructor
      · rintro (refused | ⟨value, taken, later⟩)
        · exact ⟨[], first, rest, rfl, List.forall_mem_nil _, refused⟩
        · obtain ⟨front, item, back, split, fine, refused⟩ :=
            ih.mp (except_return_error_iff.mp later)
          refine ⟨first :: front, item, back, by rw [split]; rfl, ?_, refused⟩
          exact List.forall_mem_cons.mpr ⟨⟨value, taken⟩, fine⟩
      · rintro ⟨front, item, back, split, fine, refused⟩
        cases front with
        | nil =>
            cases split
            exact Or.inl refused
        | cons other front =>
            cases split
            obtain ⟨⟨value, taken⟩, others⟩ := List.forall_mem_cons.mp fine
            have failed := ih.mpr ⟨front, item, back, rfl, others, refused⟩
            exact Or.inr ⟨value, taken, except_return_error_iff.mpr failed⟩

/-- Steps that keep their state also where they fail. -/
theorem bind_ok_iff {first : EStateM ε σ α} {next : α → EStateM ε σ β} {before after : σ}
    {result : β} :
    (first >>= next) before = .ok result after ↔
      ∃ value middle, first before = .ok value middle ∧
        next value middle = .ok result after := by
  change EStateM.bind first next before = .ok result after ↔ _
  unfold EStateM.bind
  cases ran : first before with
  | ok value middle =>
      constructor
      · intro follows
        exact ⟨value, middle, rfl, follows⟩
      · rintro ⟨_, _, same, follows⟩
        cases same
        exact follows
  | error error middle => simp

end ScriptAudit.Steps
