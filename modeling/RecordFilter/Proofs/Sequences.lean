import Mathlib.Data.List.Forall2

/-!
# Steps over lists

Where a step is taken for each member of a list, the whole succeeds exactly if each step does, and
its result has the results of the steps in their order (`mapM_eq_pure_iff`). Filters, catalogs and
lists of values are read and bound member by member in this way.
-/
namespace RecordFilter

section Related

variable {α β : Type} {R : α → β → Prop} {xs : List α} {ys : List β}

theorem exists_getElem?_of_forall₂ (h : List.Forall₂ R xs ys) {x : α} {i : Nat}
    (stands : xs[i]? = some x) : ∃ y, ys[i]? = some y ∧ R x y := by
  obtain ⟨inXs, rfl⟩ := List.getElem?_eq_some_iff.mp stands
  have inYs : i < ys.length := h.length_eq ▸ inXs
  exact ⟨ys[i], List.getElem?_eq_getElem inYs, h.get inXs inYs⟩

theorem exists_mem_of_forall₂ (h : List.Forall₂ R xs ys) {y : β} (mem : y ∈ ys) :
    ∃ x ∈ xs, R x y := by
  obtain ⟨i, inYs, rfl⟩ := List.getElem_of_mem mem
  have inXs : i < xs.length := h.length_eq ▸ inYs
  exact ⟨xs[i], List.getElem_mem inXs, h.get inXs inYs⟩

theorem exists_forall₂_iff : (∃ ys, List.Forall₂ R xs ys) ↔ ∀ x ∈ xs, ∃ y, R x y := by
  induction xs with
  | nil => simp
  | cons x xs ih =>
    rw [List.forall_mem_cons, ← ih]
    simp only [List.forall₂_cons_left_iff]
    constructor
    · rintro ⟨_, y, ys, hy, hys, rfl⟩
      exact ⟨⟨y, hy⟩, ys, hys⟩
    · rintro ⟨⟨y, hy⟩, ys, hys⟩
      exact ⟨y :: ys, y, ys, hy, hys, rfl⟩

end Related

section Steps

variable {m : Type → Type} [Monad m] [LawfulMonad m] {α β : Type} {l : List α}

/-- Steps that are the same for each member of a list are the same in sequence. -/
theorem mapM_congr {step step' : α → m β} (h : ∀ x ∈ l, step' x = step x) :
    l.mapM step' = l.mapM step := by
  induction l with
  | nil => rfl
  | cons x l ih =>
    rw [List.forall_mem_cons] at h
    rw [List.mapM_cons, List.mapM_cons, h.1, ih h.2]

/-- The results of a sequence are those of its steps, where a computation gives a result only if all
of its parts do. -/
theorem mapM_eq_pure_iff {step : α → m β} {ys : List β}
    (pure_inj : ∀ {γ : Type} {a b : γ}, (pure a : m γ) = pure b → a = b)
    (bind_inv : ∀ {γ δ : Type} {c : m γ} {k : γ → m δ} {b : δ},
      c >>= k = pure b → ∃ a, c = pure a ∧ k a = pure b) :
    l.mapM step = pure ys ↔ List.Forall₂ (fun x y => step x = pure y) l ys := by
  constructor
  · intro h
    induction l generalizing ys with
    | nil =>
      obtain rfl := pure_inj h
      exact .nil
    | cons x l ih =>
      rw [List.mapM_cons] at h
      obtain ⟨y, hy, h⟩ := bind_inv h
      obtain ⟨rest, hrest, h⟩ := bind_inv h
      obtain rfl := pure_inj h
      exact .cons hy (ih hrest)
  · intro h
    induction h with
    | nil => rfl
    | cons hy _ ih => rw [List.mapM_cons, hy, ih, pure_bind, pure_bind]

end Steps

section Reading

variable {α β γ : Type} {xs : List α}

theorem mapM_eq_some_iff {read : α → Option β} {ys : List β} :
    xs.mapM read = some ys ↔ List.Forall₂ (fun x y => read x = some y) xs ys :=
  mapM_eq_pure_iff Option.some.inj Option.bind_eq_some_iff.mp

theorem isSome_mapM_iff {read : α → Option β} :
    (xs.mapM read).isSome = true ↔ ∀ x ∈ xs, (read x).isSome = true := by
  simp only [Option.isSome_iff_exists, mapM_eq_some_iff, exists_forall₂_iff]

theorem mapM_eq_ok_iff {ε : Type} {f : α → Except ε β} {ys : List β} :
    xs.mapM f = .ok ys ↔ List.Forall₂ (fun x y => f x = .ok y) xs ys := by
  refine mapM_eq_pure_iff Except.ok.inj fun {_ _ c _ _} h => ?_
  cases c with
  | error e => cases h
  | ok a => exact ⟨a, rfl, h⟩

/-- What is written part by part is read part by part. -/
theorem mapM_map_eq_some {read : β → Option γ} {write : α → β} {result : α → γ}
    (h : ∀ x ∈ xs, read (write x) = some (result x)) :
    (xs.map write).mapM read = some (xs.map result) := by
  rw [mapM_eq_some_iff, List.forall₂_map_left_iff, List.forall₂_map_right_iff, List.forall₂_same]
  exact h

end Reading

end RecordFilter
