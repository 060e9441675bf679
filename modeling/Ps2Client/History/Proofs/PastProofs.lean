import Ps2Client.History.Past

/-!
# Proofs: past-time properties of histories

Each property of a history that is longer by one event is a property of that event and of the history
before it.
-/

namespace History

variable {α : Type}

/-- An event of a longer history is the new one, or one of the old ones. -/
theorem snoc_eq_append_cons {history before after : List α} {x y : α} :
    history ++ [y] = before ++ x :: after ↔
      (before = history ∧ x = y ∧ after = []) ∨
        ∃ after', after = after' ++ [y] ∧ history = before ++ x :: after' := by
  constructor
  · intro heq
    rcases List.eq_nil_or_concat after with rfl | ⟨after', last, rfl⟩
    · obtain ⟨hbefore, hx⟩ := List.append_inj' heq rfl
      exact Or.inl ⟨hbefore.symm, (List.cons.inj hx).1.symm, rfl⟩
    · right
      rw [List.concat_eq_append] at heq ⊢
      have hsplit : history ++ [y] = (before ++ x :: after') ++ [last] := by
        rw [heq, List.append_assoc, List.cons_append]
      obtain ⟨hhistory, hlast⟩ := List.append_inj' hsplit rfl
      exact ⟨after', by rw [hlast], hhistory⟩
  · rintro (⟨rfl, rfl, rfl⟩ | ⟨after', rfl, rfl⟩)
    · rfl
    · rw [List.append_assoc, List.cons_append]

theorem since_nil (P Q : α → Prop) : ¬ Since P Q [] := by
  rintro ⟨before, x, after, heq, -⟩
  exact List.append_ne_nil_of_right_ne_nil before (List.cons_ne_nil x after) heq.symm

theorem since_snoc (P Q : α → Prop) (history : List α) (y : α) :
    Since P Q (history ++ [y]) ↔ P y ∨ Since P Q history ∧ Q y := by
  constructor
  · rintro ⟨before, x, after, heq, hx, hafter⟩
    rcases snoc_eq_append_cons.mp heq with ⟨-, rfl, -⟩ | ⟨after', rfl, hhistory⟩
    · exact Or.inl hx
    · right
      refine ⟨⟨before, x, after', hhistory, hx, ?_⟩, ?_⟩
      · intro z hz
        exact hafter z (List.mem_append_left _ hz)
      · exact hafter y (List.mem_append_right _ (List.mem_singleton_self y))
  · rintro (hy | ⟨⟨before, x, after, rfl, hx, hafter⟩, hy⟩)
    · exact ⟨history, y, [], rfl, hy, by simp⟩
    · refine ⟨before, x, after ++ [y], by simp, hx, ?_⟩
      intro z hz
      rcases List.mem_append.mp hz with hz | hz
      · exact hafter z hz
      · rw [List.mem_singleton.mp hz]
        exact hy

theorem once_nil (P : List α → α → Prop) : ¬ Once P [] := by
  rintro ⟨before, x, after, heq, -⟩
  exact List.append_ne_nil_of_right_ne_nil before (List.cons_ne_nil x after) heq.symm

theorem once_snoc (P : List α → α → Prop) (history : List α) (y : α) :
    Once P (history ++ [y]) ↔ Once P history ∨ P history y := by
  constructor
  · rintro ⟨before, x, after, heq, hx⟩
    rcases snoc_eq_append_cons.mp heq with ⟨rfl, rfl, -⟩ | ⟨after', -, hhistory⟩
    · exact Or.inr hx
    · exact Or.inl ⟨before, x, after', hhistory, hx⟩
  · rintro (⟨before, x, after, rfl, hx⟩ | hy)
    · exact ⟨before, x, after ++ [y], by simp, hx⟩
    · exact ⟨history, y, [], rfl, hy⟩

theorem always_nil (P : List α → α → Prop) : Always P [] := by
  intro before x after heq
  exact absurd heq.symm (List.append_ne_nil_of_right_ne_nil before (List.cons_ne_nil x after))

theorem always_snoc (P : List α → α → Prop) (history : List α) (y : α) :
    Always P (history ++ [y]) ↔ Always P history ∧ P history y := by
  constructor
  · intro hall
    constructor
    · rintro before x after rfl
      exact hall before x (after ++ [y]) (by simp)
    · exact hall history y [] rfl
  · rintro ⟨hall, hy⟩ before x after heq
    rcases snoc_eq_append_cons.mp heq with ⟨rfl, rfl, -⟩ | ⟨after', -, hhistory⟩
    · exact hy
    · exact hall before x after' hhistory

/-! ## Runs that stop at a failure -/

variable {Failed : α → Prop}

theorem straight_nil : Straight Failed true [] := by simp [Straight]

theorem straight_good {x : α} (hx : ¬ Failed x) : Straight Failed true [x] := by
  simpa [Straight] using hx

theorem straight_bad {x : α} (hx : Failed x) : Straight Failed false [x] :=
  ⟨[], x, rfl, hx, by simp⟩

theorem Straight.append {ok : Bool} {xs ys : List α} (hxs : Straight Failed true xs)
    (hys : Straight Failed ok ys) : Straight Failed ok (xs ++ ys) := by
  simp only [Straight, if_true] at hxs
  cases ok with
  | true =>
    intro x hx
    rcases List.mem_append.mp hx with hx | hx
    · exact hxs x hx
    · exact hys x hx
  | false =>
    obtain ⟨before, x, rfl, hx, hbefore⟩ := hys
    refine ⟨xs ++ before, x, by simp, hx, ?_⟩
    intro y hy
    rcases List.mem_append.mp hy with hy | hy
    · exact hxs y hy
    · exact hbefore y hy

/-- Nothing comes after a failure. -/
theorem Straight.last {ok : Bool} {before after : List α} {x : α}
    (h : Straight Failed ok (before ++ x :: after)) (hx : Failed x) : after = [] := by
  cases ok with
  | true => exact absurd hx (h x (by simp))
  | false =>
    obtain ⟨before', y, heq, -, hgood⟩ := h
    rcases snoc_eq_append_cons.mp heq.symm with ⟨-, -, rfl⟩ | ⟨after', -, rfl⟩
    · rfl
    · exact absurd hx (hgood x (by simp))

theorem Straight.failed {history : List α} (h : Straight Failed false history) :
    ∃ x ∈ history, Failed x := by
  obtain ⟨before, x, rfl, hx, -⟩ := h
  exact ⟨x, by simp, hx⟩

end History
