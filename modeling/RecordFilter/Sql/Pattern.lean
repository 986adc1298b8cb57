/-!
# Patterns

In a pattern `%` stands for any run of characters, `_` for any one character, and a backslash makes
the next character literal. `escapePattern` makes a text stand for itself: `matches_escapeChars`
says that the escaped text matches that text and no other.
-/
namespace RecordFilter.Sql

/-- The characters with a backslash before each that means something in a pattern. -/
def escapeChars (cs : List Char) : List Char :=
  cs.flatMap fun c => if c = '\\' ∨ c = '%' ∨ c = '_' then ['\\', c] else [c]

/-- The text as a pattern that only the text itself matches. -/
def escapePattern (s : String) : String :=
  String.ofList (escapeChars s.toList)

/-- A pattern matches a text. A backslash at the end of a pattern matches nothing. -/
inductive Matches : List Char → List Char → Prop where
  | nil : Matches [] []
  | run (u : List Char) {p s : List Char} (tail : Matches p s) : Matches ('%' :: p) (u ++ s)
  | one (c : Char) {p s : List Char} (tail : Matches p s) : Matches ('_' :: p) (c :: s)
  | escaped (c : Char) {p s : List Char} (tail : Matches p s) : Matches ('\\' :: c :: p) (c :: s)
  | plain (c : Char) {p s : List Char} (literal : ¬(c = '\\' ∨ c = '%' ∨ c = '_'))
      (tail : Matches p s) : Matches (c :: p) (c :: s)

@[simp] theorem escapeChars_nil : escapeChars [] = [] := rfl

theorem escapeChars_cons (c : Char) (cs : List Char) :
    escapeChars (c :: cs) =
      (if c = '\\' ∨ c = '%' ∨ c = '_' then ['\\', c] else [c]) ++ escapeChars cs :=
  List.flatMap_cons

/-- In front of a pattern an escaped text matches itself. -/
theorem matches_escapeChars_append {u p s : List Char} :
    Matches (escapeChars u ++ p) s ↔ ∃ t, s = u ++ t ∧ Matches p t := by
  induction u generalizing s with
  | nil => simp
  | cons c u ih =>
      rw [escapeChars_cons]
      constructor
      · intro h
        split at h
        · next hc =>
          cases h with
          | escaped _ tail =>
              obtain ⟨t, rfl, ht⟩ := ih.mp tail
              exact ⟨t, rfl, ht⟩
          | plain _ literal _ => exact absurd (Or.inl rfl) literal
        · next hc =>
          have tail : ∃ s', s = c :: s' ∧ Matches (escapeChars u ++ p) s' := by
            generalize hq : [c] ++ escapeChars u ++ p = q at h
            cases h with
            | plain d _ tail =>
                obtain ⟨rfl, rfl⟩ := List.cons.inj hq
                exact ⟨_, rfl, tail⟩
            | nil => simp at hq
            | run => simp_all
            | one => simp_all
            | escaped => simp_all
          obtain ⟨s', rfl, tail⟩ := tail
          obtain ⟨t, rfl, ht⟩ := ih.mp tail
          exact ⟨t, rfl, ht⟩
      · rintro ⟨t, rfl, ht⟩
        have tail := ih.mpr ⟨t, rfl, ht⟩
        split
        · exact .escaped c tail
        · next hc => exact .plain c hc tail

/-- The escaped text matches exactly the text. -/
theorem matches_escapeChars {u s : List Char} : Matches (escapeChars u) s ↔ s = u := by
  have h := matches_escapeChars_append (u := u) (p := []) (s := s)
  rw [List.append_nil] at h
  rw [h]
  constructor
  · rintro ⟨t, rfl, ht⟩
    cases ht
    simp
  · rintro rfl
    exact ⟨[], by simp, .nil⟩

end RecordFilter.Sql
