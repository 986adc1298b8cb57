import RecordFilter.Proofs.Correspondence
import RecordFilter.Proofs.Typing

/-!
# What patterns match

A pattern is well formed if no backslash stands alone at its end; these are the patterns that match
some text. An operator with wildcards puts them around the escaped text of a value, and the pattern
then matches the texts that contain that text, begin with it or end with it. So it does not matter
which characters the text has.
-/
namespace RecordFilter

namespace Sql

variable {p s u : List Char}

/-- Every backslash of the pattern has a character after it that it makes literal. -/
inductive WellFormed : List Char → Prop where
  | nil : WellFormed []
  | escaped (c : Char) {p : List Char} (tail : WellFormed p) : WellFormed ('\\' :: c :: p)
  | other {c : Char} {p : List Char} (h : c ≠ '\\') (tail : WellFormed p) : WellFormed (c :: p)

theorem Matches.wellFormed (h : Matches p s) : WellFormed p := by
  induction h with
  | nil => exact .nil
  | run u tail ih => exact .other (by decide) ih
  | one c tail ih => exact .other (by decide) ih
  | escaped c tail ih => exact .escaped c ih
  | plain c literal tail ih => exact .other (fun backslash => literal (.inl backslash)) ih

theorem WellFormed.exists_matches (h : WellFormed p) : ∃ s, Matches p s := by
  induction h with
  | nil => exact ⟨[], .nil⟩
  | escaped c tail ih =>
    obtain ⟨s, hs⟩ := ih
    exact ⟨c :: s, .escaped c hs⟩
  | @other c p h tail ih =>
    obtain ⟨s, hs⟩ := ih
    by_cases run : c = '%'
    · subst run
      exact ⟨s, .run [] hs⟩
    · by_cases one : c = '_'
      · subst one
        exact ⟨' ' :: s, .one ' ' hs⟩
      · exact ⟨c :: s, .plain c (by simp [h, run, one]) hs⟩

/-- The well-formed patterns are those that match some text. -/
theorem wellFormed_iff : WellFormed p ↔ ∃ s, Matches p s :=
  ⟨WellFormed.exists_matches, fun ⟨_, h⟩ => h.wellFormed⟩

/-- A wildcard in front of a pattern passes over any run of characters. -/
theorem matches_run : Matches ('%' :: p) s ↔ ∃ a t, s = a ++ t ∧ Matches p t := by
  constructor
  · intro h
    cases h with
    | run a tail => exact ⟨a, _, rfl, tail⟩
    | plain _ literal _ => exact absurd (.inr (.inl rfl)) literal
  · rintro ⟨a, t, rfl, tail⟩
    exact .run a tail

theorem matches_lone_run (s : List Char) : Matches ['%'] s :=
  matches_run.mpr ⟨s, [], (List.append_nil s).symm, .nil⟩

end Sql

/-- Where a wildcard asks for a text to stand. -/
def Wildcard.Finds : Wildcard → List Char → List Char → Prop
  | contains, u, s => u <:+: s
  | startsWith, u, s => u <+: s
  | endsWith, u, s => u <:+ s

namespace Wildcard

variable (w : Wildcard) (u s : String)

/-- With the wildcards around it, an escaped text matches the texts that have it in that place. -/
theorem matches_apply : Sql.Matches (w.apply (Sql.escapePattern u)).toList s.toList ↔
    w.Finds u.toList s.toList := by
  have escaped : (Sql.escapePattern u).toList = Sql.escapeChars u.toList := String.toList_ofList
  cases w with
  | contains =>
    simp only [apply, Finds, String.toList_append, escaped]
    change Sql.Matches ('%' :: (Sql.escapeChars u.toList ++ ['%'])) s.toList ↔ _
    rw [Sql.matches_run]
    constructor
    · rintro ⟨a, t, hs, tail⟩
      obtain ⟨b, rfl, -⟩ := Sql.matches_escapeChars_append.mp tail
      exact ⟨a, b, by rw [hs, List.append_assoc]⟩
    · rintro ⟨a, b, hs⟩
      refine ⟨a, u.toList ++ b, by rw [← hs, List.append_assoc], ?_⟩
      exact Sql.matches_escapeChars_append.mpr ⟨b, rfl, Sql.matches_lone_run b⟩
  | startsWith =>
    simp only [apply, Finds, String.toList_append, escaped]
    change Sql.Matches (Sql.escapeChars u.toList ++ ['%']) s.toList ↔ _
    simp only [Sql.matches_escapeChars_append, Sql.matches_lone_run, and_true]
    exact exists_congr fun b => eq_comm
  | endsWith =>
    simp only [apply, Finds, String.toList_append, escaped]
    change Sql.Matches ('%' :: Sql.escapeChars u.toList) s.toList ↔ _
    simp only [Sql.matches_run, Sql.matches_escapeChars]
    constructor
    · rintro ⟨a, t, hs, rfl⟩
      exact ⟨a, hs.symm⟩
    · rintro ⟨a, hs⟩
      exact ⟨a, u.toList, hs.symm, rfl⟩

/-- The text itself has the text in every place. -/
theorem finds_self (cs : List Char) : w.Finds cs cs := by
  cases w with
  | contains => exact List.infix_refl cs
  | startsWith => exact List.prefix_refl cs
  | endsWith => exact List.suffix_refl cs

theorem wellFormed_apply : Sql.WellFormed (w.apply (Sql.escapePattern u)).toList :=
  Sql.wellFormed_iff.mpr ⟨u.toList, (matches_apply w u u).mpr (w.finds_self u.toList)⟩

end Wildcard

/-- Whether `LIKE` or `NOT LIKE` with a pattern holds of a text. -/
def SqlOp.HoldsOf (op : SqlOp) (pattern s : String) : Prop :=
  match op with
  | like => Sql.Matches pattern.toList s.toList
  | notLike => ¬Sql.Matches pattern.toList s.toList
  | _ => False

/-- The pattern operators: their keys, the comparison in SQL, and what a text is searched for. -/
inductive PatternKey : String → SqlOp → (List Char → List Char → Prop) → Prop where
  | contains : PatternKey "contains" .like fun u s => u <:+: s
  | startsWith : PatternKey "startsWith" .like fun u s => u <+: s
  | endsWith : PatternKey "endsWith" .like fun u s => u <:+ s
  | notContains : PatternKey "notContains" .notLike fun u s => u <:+: s
  | notStartsWith : PatternKey "notStartsWith" .notLike fun u s => u <+: s
  | notEndsWith : PatternKey "notEndsWith" .notLike fun u s => u <:+ s

/-- The operator of texts that a pattern key names. -/
theorem PatternKey.exists_operator {key : String} {sql : SqlOp}
    {finds : List Char → List Char → Prop} (h : PatternKey key sql finds) :
    ∃ op w, Operator.find? .text key = some op ∧ op.arity = .scalar ∧ op.sql = sql ∧
      op.wildcard = some w ∧ w.Finds = finds := by
  cases h <;> exact ⟨_, _, rfl, rfl, rfl, rfl, rfl⟩

/-- As a text, a single value is what is shown of it. -/
theorem PropertyType.coerce_text {v : Value} (scalar : v.isScalar = true) :
    text.coerce v = .ok (.text v.display) := by
  cases v with
  | text s => simp [coerce, ofText?, Value.display, Value.displayTo]
  | bool b | int i | float x => rfl
  | null | list items | json j => cases scalar

namespace Condition

variable {rt : RecordType} {r : Resolver} {path : Path} {c : Condition}

/-- A condition of a text property with a pattern operator and a single value binds one pattern. The
pattern is well formed, and it matches exactly the texts that contain, begin with or end with the
text of the value, whatever characters this has. -/
theorem compile_pattern {p : ResolvedProperty} {sql : SqlOp}
    {finds : List Char → List Char → Prop} (complete : c.isComplete = true)
    (known : c.Resolves rt r p) (text : p.type = .text)
    (named : PatternKey (Text.trim c.operator) sql finds) (scalar : c.value.isScalar = true) :
    ∃ pattern : String,
      (∀ path, c.compile rt r path = .ok (some ⟨rt, p.column, sql, [.text pattern], path⟩)) ∧
      (∀ (f : Filter) path q, f.recordType = some rt → f.condition? path = some c →
        f.compile r = .ok q → ⟨rt, p.column, sql, [.text pattern], path⟩ ∈ q.comparisons) ∧
      Sql.WellFormed pattern.toList ∧
      ∀ s : String,
        (SqlOp.like.HoldsOf pattern s ↔ finds c.value.display.toList s.toList) ∧
        (SqlOp.notLike.HoldsOf pattern s ↔ ¬finds c.value.display.toList s.toList) := by
  obtain ⟨op, w, hop, arity, rfl, wildcard, rfl⟩ := named.exists_operator
  have bound : op.bind .text c.value =
      .ok [.text (w.apply (Sql.escapePattern c.value.display))] := by
    refine Operator.bind_eq_ok_iff.mpr
      (.inl ⟨arity, .text c.value.display, PropertyType.coerce_text scalar, ?_⟩)
    simp only [Operator.patterned, wildcard]
  have compared (path : Path) : c.comparison? rt r path = some ⟨rt, p.column, op.sql,
      [.text (w.apply (Sql.escapePattern c.value.display))], path⟩ := by
    rw [← text] at hop bound
    exact comparison?_eq_some_iff.mpr
      ⟨complete, p, op, _, safe?_eq_some_iff.mpr known, hop, bound, rfl⟩
  refine ⟨_, fun path => compile_eq_ok_some_iff.mpr (compared path), ?_,
    w.wellFormed_apply _, fun s => ?_⟩
  · intro f path q hrt hc h
    obtain ⟨rt', hrt', -, rfl⟩ := Filter.compile_eq_ok_iff.mp h
    obtain rfl : rt = rt' := Option.some.inj (hrt.symm.trans hrt')
    rw [Filter.comparisons_query, comparisonsOf, List.mem_filterMap]
    exact ⟨(path, c), Filter.mem_conditions.mpr hc, compared path⟩
  · exact ⟨w.matches_apply _ s, not_congr (w.matches_apply _ s)⟩

/-- A text with all the characters that mean something in a pattern, a backslash at its end. -/
theorem compile_pattern_patchy : ∃ pattern : String,
    Condition.compile .contact .ageAndName ⟨0, 2, 0⟩ ⟨"name", "contains", .text "50%_\\"⟩ =
      .ok (some ⟨.contact, "name", .like, [.text pattern], ⟨0, 2, 0⟩⟩) ∧
    (∃ q, (Filter.patchy 18 65 "50%_\\").compile .ageAndName = .ok q ∧
      ⟨.contact, "name", .like, [.text pattern], ⟨0, 2, 0⟩⟩ ∈ q.comparisons) ∧
    Sql.WellFormed pattern.toList ∧
    SqlOp.like.HoldsOf pattern "at 50%_\\ off" ∧ SqlOp.notLike.HoldsOf pattern "50x\\" := by
  have known : Condition.Resolves .contact .ageAndName ⟨"name", "contains", .text "50%_\\"⟩
      ⟨"name", .text⟩ :=
    safe?_eq_some_iff.mp rfl
  obtain ⟨pattern, compiled, member, wellFormed, holds⟩ :=
    compile_pattern (by decide) known rfl .contains rfl
  have query : (Filter.patchy 18 65 "50%_\\").compile .ageAndName =
    .ok ⟨.contact, some (.patchy 18 65 "%50\\%\\_\\\\%")⟩ := rfl
  have found : (Filter.patchy 18 65 "50%_\\").condition? ⟨0, 2, 0⟩ =
    some ⟨"name", "contains", .text "50%_\\"⟩ := rfl
  have within : "50%_\\".toList <:+: "at 50%_\\ off".toList :=
    ⟨"at ".toList, " off".toList, by decide⟩
  have apart : ¬"50%_\\".toList <:+: "50x\\".toList := fun h => absurd h.length_le (by decide)
  exact ⟨pattern, compiled _, ⟨_, query, member _ _ _ rfl found query⟩, wellFormed,
    (holds _).1.mpr within, (holds _).2.mpr apart⟩

end Condition
end RecordFilter
