import Mathlib.Data.List.Forall2

/-! # Outcomes

    What is known of a computation in `Except` that has succeeded: each of its
    steps has succeeded, with values from which the result follows. If it has
    failed, one step has, after those before it have succeeded.
-/

namespace EntitySql.Outcome

variable {ε α β γ : Type}

/-- Two steps succeed if both do. -/
theorem bind_eq_ok_iff {x : Except ε α} {f : α → Except ε β} {b : β} :
    x >>= f = .ok b ↔ ∃ a, x = .ok a ∧ f a = .ok b := by
  cases x with
  | error e =>
    constructor
    · intro h
      exact absurd h (by simp [bind, Except.bind])
    · rintro ⟨a, ha, -⟩
      exact absurd ha (by simp)
  | ok a =>
    constructor
    · exact fun h => ⟨a, rfl, h⟩
    · rintro ⟨a', ha, h⟩
      obtain rfl := Except.ok.inj ha
      exact h

/-- Two steps fail if the first one does, or the second one after the first. -/
theorem bind_eq_error_iff {x : Except ε α} {f : α → Except ε β} {e : ε} :
    x >>= f = .error e ↔ x = .error e ∨ ∃ a, x = .ok a ∧ f a = .error e := by
  cases x <;> simp [bind, Except.bind]

theorem map_eq_ok_iff {x : Except ε α} {f : α → β} {b : β} :
    x.map f = .ok b ↔ ∃ a, x = .ok a ∧ f a = b := by
  cases x <;> simp [Except.map]

theorem map_eq_error_iff {x : Except ε α} {f : α → β} {e : ε} :
    x.map f = .error e ↔ x = .error e := by
  cases x <;> simp [Except.map]

theorem pure_eq_ok_iff {a b : α} : (pure a : Except ε α) = .ok b ↔ a = b := by
  simp [pure, Except.pure]

/-- A traversal succeeds if it does on each element, with the results in order. -/
theorem mapM_eq_ok_iff {f : α → Except ε β} {as : List α} {bs : List β} :
    as.mapM f = .ok bs ↔ List.Forall₂ (fun a b => f a = .ok b) as bs := by
  -- the traversal makes one element and then the rest, and so does the relation
  induction as generalizing bs with
  | nil =>
    rw [List.mapM_nil, pure_eq_ok_iff, List.forall₂_nil_left_iff]
    exact eq_comm
  | cons a as ih =>
    rw [List.mapM_cons, bind_eq_ok_iff, List.forall₂_cons_left_iff]
    constructor
    · rintro ⟨b, hb, h⟩
      obtain ⟨bs', hbs, h⟩ := bind_eq_ok_iff.1 h
      exact ⟨b, bs', hb, ih.1 hbs, (pure_eq_ok_iff.1 h).symm⟩
    · rintro ⟨b, bs', hb, hbs, rfl⟩
      exact ⟨b, hb, bind_eq_ok_iff.2 ⟨bs', ih.2 hbs, rfl⟩⟩

/-- A traversal has results if each element has one. -/
theorem exists_mapM_eq_ok_iff {f : α → Except ε β} {as : List α} :
    (∃ bs, as.mapM f = .ok bs) ↔ ∀ a ∈ as, ∃ b, f a = .ok b := by
  induction as with
  | nil =>
    refine iff_of_true ⟨[], rfl⟩ ?_
    intro a ha
    exact absurd ha List.not_mem_nil
  | cons a as ih =>
    rw [List.forall_mem_cons, ← ih]
    constructor
    · rintro ⟨bs, h⟩
      rw [List.mapM_cons] at h
      obtain ⟨b, hb, h⟩ := bind_eq_ok_iff.1 h
      obtain ⟨bs', hbs, -⟩ := bind_eq_ok_iff.1 h
      exact ⟨⟨b, hb⟩, bs', hbs⟩
    · rintro ⟨⟨b, hb⟩, bs, hbs⟩
      refine ⟨b :: bs, ?_⟩
      rw [List.mapM_cons]
      exact bind_eq_ok_iff.2 ⟨b, hb, bind_eq_ok_iff.2 ⟨bs, hbs, rfl⟩⟩

/-- The error is that of the first element that has one. -/
def FirstError (f : α → Except ε β) (as : List α) (e : ε) : Prop :=
  ∃ done a rest, as = done ++ a :: rest ∧ (∀ b ∈ done, ∃ c, f b = .ok c) ∧ f a = .error e

theorem not_firstError_nil {f : α → Except ε β} {e : ε} : ¬ FirstError f [] e := by
  rintro ⟨done, a, rest, has, -⟩
  exact absurd has (by simp)

theorem firstError_cons_iff {f : α → Except ε β} {a : α} {as : List α} {e : ε} :
    FirstError f (a :: as) e ↔ f a = .error e ∨ (∃ b, f a = .ok b) ∧ FirstError f as e := by
  constructor
  · rintro ⟨done, x, rest, has, hdone, hx⟩
    -- nothing has been done before the error, or the first element is among what has been done
    cases done with
    | nil =>
      obtain ⟨rfl, rfl⟩ := List.cons.inj has
      exact Or.inl hx
    | cons d done =>
      obtain ⟨rfl, rfl⟩ := List.cons.inj has
      obtain ⟨hd, hdone⟩ := List.forall_mem_cons.1 hdone
      exact Or.inr ⟨hd, done, x, rest, rfl, hdone, hx⟩
  · rintro (ha | ⟨ha, done, x, rest, rfl, hdone, hx⟩)
    · refine ⟨[], a, as, rfl, ?_, ha⟩
      intro b hb
      exact absurd hb List.not_mem_nil
    · exact ⟨a :: done, x, rest, rfl, List.forall_mem_cons.2 ⟨ha, hdone⟩, hx⟩

/-- A traversal fails on the first error. -/
theorem mapM_eq_error_iff {f : α → Except ε β} {as : List α} {e : ε} :
    as.mapM f = .error e ↔ FirstError f as e := by
  induction as with
  | nil => exact iff_of_false nofun not_firstError_nil
  | cons a as ih =>
    rw [List.mapM_cons, bind_eq_error_iff, firstError_cons_iff, ← ih]
    refine or_congr Iff.rfl ?_
    constructor
    · rintro ⟨b, hb, h⟩
      -- putting the results together cannot fail
      rcases bind_eq_error_iff.1 h with h | ⟨bs, -, h⟩
      · exact ⟨⟨b, hb⟩, h⟩
      · exact absurd h nofun
    · rintro ⟨⟨b, hb⟩, h⟩
      exact ⟨b, hb, bind_eq_error_iff.2 (Or.inl h)⟩

/-- There is a first error if some element has one. -/
theorem exists_firstError_iff {f : α → Except ε β} {as : List α} :
    (∃ e, FirstError f as e) ↔ ∃ a ∈ as, ∃ e, f a = .error e := by
  induction as with
  | nil =>
    refine iff_of_false ?_ ?_
    · rintro ⟨e, he⟩
      exact not_firstError_nil he
    · rintro ⟨a, ha, -⟩
      exact absurd ha List.not_mem_nil
  | cons a as ih =>
    simp only [firstError_cons_iff, List.exists_mem_cons_iff, exists_or, exists_and_left, ih]
    -- if the first element has an error it is the first one, and else that of the rest
    cases f a with
    | error e => exact iff_of_true (Or.inl ⟨e, rfl⟩) (Or.inl ⟨e, rfl⟩)
    | ok b => exact or_congr Iff.rfl (and_iff_right ⟨b, rfl⟩)

/-- Each result of a traversal comes from an element. -/
theorem exists_of_mem_mapM {f : α → Except ε β} {as : List α} {bs : List β}
    (h : as.mapM f = .ok bs) {b : β} (hb : b ∈ bs) : ∃ a ∈ as, f a = .ok b := by
  have hall := mapM_eq_ok_iff.1 h
  clear h
  induction hall with
  | nil => exact absurd hb List.not_mem_nil
  | cons ha _ ih =>
    rcases List.mem_cons.1 hb with rfl | hb
    · exact ⟨_, List.mem_cons_self, ha⟩
    · obtain ⟨a, hmem, hfa⟩ := ih hb
      exact ⟨a, List.mem_cons_of_mem _ hmem, hfa⟩

theorem map_mapM (f : α → Except ε β) (g : β → γ) (as : List α) :
    (as.mapM f).map (List.map g) = as.mapM fun a => (f a).map g := by
  induction as with
  | nil => rfl
  | cons a as ih =>
    rw [List.mapM_cons, List.mapM_cons, ← ih]
    cases f a with
    | error e => rfl
    | ok b => cases as.mapM f <;> rfl

/-- Where results do not depend on what is computed, only the errors of a traversal count. -/
theorem mapM_map_const (f : α → Except ε β) (g : α → γ) (as : List α) :
    (as.mapM fun a => (f a).map fun _ => g a) = (as.mapM f).map fun _ => as.map g := by
  induction as with
  | nil => rfl
  | cons a as ih =>
    rw [List.mapM_cons, List.mapM_cons, ih]
    cases f a with
    | error e => rfl
    | ok b => cases as.mapM f <;> rfl

/-- Two traversals look the same under a view of their results if the results of each pair of
    elements do. -/
theorem map_mapM_congr {α' β' : Type} {f : α → Except ε β} {f' : α' → Except ε β'} {g : β → γ}
    {g' : β' → γ} {as : List α} {bs : List α'}
    (h : List.Forall₂ (fun a b => (f a).map g = (f' b).map g') as bs) :
    (as.mapM f).map (List.map g) = (bs.mapM f').map (List.map g') := by
  rw [map_mapM, map_mapM]
  induction h with
  | nil => rfl
  | cons hab _ ih => rw [List.mapM_cons, List.mapM_cons, hab, ih]

/-- A fold has a result if each of its steps has one from wherever it starts. -/
theorem exists_foldlM_eq_ok {f : β → α → Except ε β} {as : List α}
    (step : ∀ a ∈ as, ∀ b, ∃ c, f b a = .ok c) (b : β) : ∃ c, as.foldlM f b = .ok c := by
  induction as generalizing b with
  | nil => exact ⟨b, rfl⟩
  | cons a as ih =>
    obtain ⟨hfirst, hrest⟩ := List.forall_mem_cons.1 step
    obtain ⟨next, hnext⟩ := hfirst b
    obtain ⟨c, hc⟩ := ih hrest next
    exact ⟨c, bind_eq_ok_iff.2 ⟨next, hnext, hc⟩⟩

/-- A fold that fails does so in one step, after those before it have succeeded. -/
theorem exists_of_foldlM_eq_error {f : β → α → Except ε β} {as : List α} {b : β} {e : ε}
    (h : as.foldlM f b = .error e) :
    ∃ done a rest c, as = done ++ a :: rest ∧ done.foldlM f b = .ok c ∧ f c a = .error e := by
  induction as generalizing b with
  | nil => exact absurd h nofun
  | cons a as ih =>
    rw [List.foldlM_cons] at h
    rcases bind_eq_error_iff.1 h with ha | ⟨b', ha, h⟩
    · exact ⟨[], a, as, b, rfl, rfl, ha⟩
    · obtain ⟨done, x, rest, c, rfl, hdone, hx⟩ := ih h
      exact ⟨a :: done, x, rest, c, rfl, bind_eq_ok_iff.2 ⟨b', ha, hdone⟩, hx⟩

/-- What a fold's steps preserve holds of its result, if it held at the start. -/
theorem foldlM_induct {f : β → α → Except ε β} {P : β → Prop}
    (step : ∀ b a b', P b → f b a = .ok b' → P b') {as : List α} {b b' : β}
    (start : P b) (h : as.foldlM f b = .ok b') : P b' := by
  induction as generalizing b with
  | nil =>
    obtain rfl := pure_eq_ok_iff.1 h
    exact start
  | cons a as ih =>
    obtain ⟨c, hc, h⟩ := bind_eq_ok_iff.1 h
    exact ih (step b a c start hc) h

end EntitySql.Outcome
