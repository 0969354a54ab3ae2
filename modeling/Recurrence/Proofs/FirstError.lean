import Mathlib.Data.List.Forall2

/-!
# The first error

Expressions are read value by value, and rules are compiled binding by binding.  What is done for a list
in turn **fails with the error of the first member that fails**, and what comes after that member does
not count.

## Main Definitions

* `FirstError`: the error of the first member of a list that fails

## Main Statements

* `bind_eq_ok`, `bind_eq_error`: two computations in turn
* `mapM_eq_ok`, `mapM_eq_error`: one computation for each member of a list
* `firstError_flatMap`: members that are lists themselves
-/

namespace Recurrence

variable {α β γ δ ε : Type} {f : α → Except ε β} {l l' : List α} {a : α} {err : ε}

/-! ## One computation after another -/

theorem bind_eq_ok {x : Except ε α} {g : α → Except ε β} {b : β} :
    (x >>= g) = .ok b ↔ ∃ a, x = .ok a ∧ g a = .ok b := by
  cases x with
  | error err => exact ⟨nofun, fun ⟨_, h, _⟩ => nomatch h⟩
  | ok a =>
      constructor
      · intro h
        exact ⟨a, rfl, h⟩
      · rintro ⟨_, ⟨⟩, h⟩
        exact h

theorem bind_eq_error {x : Except ε α} {g : α → Except ε β} :
    (x >>= g) = .error err ↔ x = .error err ∨ ∃ a, x = .ok a ∧ g a = .error err := by
  cases x with
  | error err' =>
      constructor
      · rintro ⟨⟩
        exact .inl rfl
      · rintro (⟨⟨⟩⟩ | ⟨_, ⟨⟩, _⟩)
        rfl
  | ok a =>
      constructor
      · intro h
        exact .inr ⟨a, rfl, h⟩
      · rintro (⟨⟨⟩⟩ | ⟨_, ⟨⟩, h⟩)
        exact h

/-- What is done with a result without a failure has no error of its own. -/
theorem bind_pure_eq_error {x : Except ε α} {g : α → β} :
    (x >>= fun a => pure (g a)) = .error err ↔ x = .error err := by
  rw [bind_eq_error]
  exact or_iff_left fun ⟨_, _, h⟩ => nomatch h

theorem exists_bind_pure_eq_ok {x : Except ε α} {g : α → β} :
    (∃ b, (x >>= fun a => pure (g a)) = .ok b) ↔ ∃ a, x = .ok a := by
  simp only [bind_eq_ok]
  constructor
  · rintro ⟨_, a, ha, -⟩
    exact ⟨a, ha⟩
  · rintro ⟨a, ha⟩
    exact ⟨g a, a, ha, rfl⟩

theorem mapError_eq_ok {x : Except ε α} {g : ε → δ} {a : α} :
    x.mapError g = .ok a ↔ x = .ok a := by
  cases x with
  | error err => exact ⟨nofun, nofun⟩
  | ok b => exact ⟨fun h => by cases h; rfl, fun h => by cases h; rfl⟩

theorem mapError_eq_error {x : Except ε α} {g : ε → δ} {err : δ} :
    x.mapError g = .error err ↔ ∃ cause, x = .error cause ∧ g cause = err := by
  cases x with
  | error cause =>
      constructor
      · rintro ⟨⟩
        exact ⟨cause, rfl, rfl⟩
      · rintro ⟨_, ⟨⟩, rfl⟩
        rfl
  | ok b => exact ⟨nofun, fun ⟨_, h, _⟩ => nomatch h⟩

/-! ## A list of computations -/

/-- A member of the list fails with the error, and every member before it has a result. -/
def FirstError (f : α → Except ε β) (l : List α) (err : ε) : Prop :=
  ∃ before a after, l = before ++ a :: after ∧ (∀ x ∈ before, ∃ b, f x = .ok b) ∧ f a = .error err

theorem not_firstError_nil : ¬ FirstError f [] err := by
  rintro ⟨before, a, after, h, -⟩
  exact absurd h.symm (List.append_ne_nil_of_right_ne_nil before (List.cons_ne_nil a after))

theorem firstError_cons :
    FirstError f (a :: l) err ↔ f a = .error err ∨ (∃ b, f a = .ok b) ∧ FirstError f l err := by
  constructor
  · rintro ⟨before, x, after, hsplit, hbefore, hx⟩
    cases before with
    | nil =>
        obtain ⟨rfl, -⟩ := List.cons.inj hsplit
        exact .inl hx
    | cons first before =>
        obtain ⟨rfl, hrest⟩ := List.cons.inj hsplit
        exact .inr ⟨hbefore a List.mem_cons_self, before, x, after, hrest,
          fun y hy => hbefore y (List.mem_cons_of_mem _ hy), hx⟩
  · rintro (ha | ⟨ha, before, x, after, rfl, hbefore, hx⟩)
    · exact ⟨[], a, l, rfl, nofun, ha⟩
    · exact ⟨a :: before, x, after, rfl, List.forall_mem_cons.2 ⟨ha, hbefore⟩, hx⟩

theorem firstError_singleton : FirstError f [a] err ↔ f a = .error err := by
  rw [firstError_cons]
  exact or_iff_left fun h => not_firstError_nil h.2

theorem firstError_append :
    FirstError f (l ++ l') err ↔
      FirstError f l err ∨ (∀ x ∈ l, ∃ b, f x = .ok b) ∧ FirstError f l' err := by
  induction l with
  | nil => simp [not_firstError_nil]
  | cons a l ih =>
      rw [List.cons_append, firstError_cons, firstError_cons, ih, List.forall_mem_cons]
      tauto

theorem mapM_eq_ok {results : List β} :
    l.mapM f = .ok results ↔ List.Forall₂ (fun a b => f a = .ok b) l results := by
  induction l generalizing results with
  | nil =>
      rw [List.mapM_nil, List.forall₂_nil_left_iff]
      constructor
      · rintro ⟨⟩
        rfl
      · rintro rfl
        rfl
  | cons a l ih =>
      rw [List.mapM_cons, bind_eq_ok, List.forall₂_cons_left_iff]
      constructor
      · rintro ⟨b, ha, h⟩
        obtain ⟨rest, hrest, ⟨⟩⟩ := bind_eq_ok.1 h
        exact ⟨b, rest, ha, ih.1 hrest, rfl⟩
      · rintro ⟨b, rest, ha, hrest, rfl⟩
        exact ⟨b, ha, bind_eq_ok.2 ⟨rest, ih.2 hrest, rfl⟩⟩

/-- **A list fails with its first error.** -/
theorem mapM_eq_error : l.mapM f = .error err ↔ FirstError f l err := by
  induction l with
  | nil => exact ⟨nofun, fun h => absurd h not_firstError_nil⟩
  | cons a l ih =>
      rw [List.mapM_cons, bind_eq_error, firstError_cons, ← ih]
      refine or_congr_right ⟨?_, ?_⟩
      · rintro ⟨b, ha, h⟩
        rcases bind_eq_error.1 h with hrest | ⟨rest, -, ⟨⟩⟩
        exact ⟨⟨b, ha⟩, hrest⟩
      · rintro ⟨⟨b, ha⟩, hrest⟩
        exact ⟨b, ha, bind_eq_error.2 (.inl hrest)⟩

theorem exists_mapM_eq_ok : (∃ results, l.mapM f = .ok results) ↔ ∀ a ∈ l, ∃ b, f a = .ok b := by
  induction l with
  | nil => exact ⟨nofun, fun _ => ⟨[], rfl⟩⟩
  | cons a l ih =>
      rw [List.forall_mem_cons, ← ih, List.mapM_cons]
      simp only [bind_eq_ok]
      constructor
      · rintro ⟨_, b, hb, rest, hrest, -⟩
        exact ⟨⟨b, hb⟩, rest, hrest⟩
      · rintro ⟨⟨b, hb⟩, rest, hrest⟩
        exact ⟨b :: rest, b, hb, rest, hrest, rfl⟩

/-- A computation on lists of members, each of which fails with its own first error, fails with the first
error of all of them. -/
theorem firstError_flatMap {g : γ → Except ε β} {parts : α → List γ} {f : α → Except ε δ}
    (hok : ∀ a, (∃ b, f a = .ok b) ↔ ∀ x ∈ parts a, ∃ b, g x = .ok b)
    (herror : ∀ a, f a = .error err ↔ FirstError g (parts a) err) :
    FirstError f l err ↔ FirstError g (l.flatMap parts) err := by
  induction l with
  | nil => simp [not_firstError_nil]
  | cons a l ih => rw [List.flatMap_cons, firstError_cons, firstError_append, ih, hok, herror]

end Recurrence
