import Mathlib.Algebra.GroupWithZero.Nat
import Mathlib.Data.List.Basic
import Mathlib.Data.List.Induction
import RecordFilter.OrderedMap

/-!
# Maps made by writing entries

Of a map that results from writing entries from left to right: each key stands once, in the order of
first writes, and has the value of its last write. Writing the entries of a map gives that map.
-/
namespace RecordFilter.OrderedMap

variable {κ α : Type} [DecidableEq κ]

theorem ofList_append_singleton (es : List (κ × α)) (e : κ × α) :
    ofList (es ++ [e]) = (ofList es).insert e.1 e.2 := by
  simp only [ofList, insertAll, List.foldl_append, List.foldl_cons, List.foldl_nil]

/-- The keys are those written, in the order of their first writes. -/
theorem keys_ofList (es : List (κ × α)) : (ofList es).keys = (es.map Prod.fst).eraseDups := by
  induction es using List.reverseRecOn with
  | nil => rfl
  | append_singleton es e ih =>
    rw [ofList_append_singleton, keys_insert, ih, List.map_append, List.eraseDups_append]
    by_cases known : e.1 ∈ es.map Prod.fst
    · rw [if_pos (List.mem_eraseDups.mpr known)]
      simp [List.cons_removeAll, known]
    · rw [if_neg (fun h => known (List.mem_eraseDups.mp h))]
      simp [List.cons_removeAll, known, List.eraseDups_cons]

/-- A key has the value of its last write. -/
theorem get?_ofList (es : List (κ × α)) (k : κ) :
    (ofList es).get? k = (es.findRev? fun e => e.1 = k).map Prod.snd := by
  rw [List.findRev?_eq_find?_reverse]
  induction es using List.reverseRecOn with
  | nil => rfl
  | append_singleton es e ih =>
    rw [ofList_append_singleton, get?_insert, ih, List.reverse_append, List.reverse_singleton,
      List.singleton_append, List.find?_cons]
    by_cases here : e.1 = k <;> simp [here]

/-- A write to a key that is not there goes to the end. -/
theorem put_of_not_mem {k : κ} {a : α} {es : List (κ × α)} (h : k ∉ es.map Prod.fst) :
    put k a es = es ++ [(k, a)] := by
  induction es with
  | nil => rfl
  | cons e es ih =>
    rw [List.map_cons, List.mem_cons, not_or] at h
    rw [put, if_neg (Ne.symm h.1), ih h.2, List.cons_append]

theorem entries_ofList {es : List (κ × α)} (nodup : (es.map Prod.fst).Nodup) :
    (ofList es).entries = es := by
  induction es using List.reverseRecOn with
  | nil => rfl
  | append_singleton es e ih =>
    rw [List.map_append, List.map_singleton, List.nodup_append] at nodup
    obtain ⟨nodup, -, apart⟩ := nodup
    have fresh : e.1 ∉ es.map Prod.fst := fun h => apart _ h _ (List.mem_singleton_self _) rfl
    rw [ofList_append_singleton, entries_insert, ih nodup, put_of_not_mem fresh]

omit [DecidableEq κ] in
theorem eq_of_entries_eq {m m' : OrderedMap κ α} (h : m.entries = m'.entries) : m = m' := by
  cases m
  cases m'
  cases h
  rfl

/-- Writing the entries of a map gives the map again. -/
theorem ofList_entries (m : OrderedMap κ α) : ofList m.entries = m :=
  eq_of_entries_eq (entries_ofList m.nodup)

/-- A sum over the entries of a map is one over any keys that include those of the map. -/
theorem sum_entries (m : OrderedMap κ α) (f : α → Nat) {ks : List κ} (once : ks.Nodup)
    (all : ∀ k ∈ m.keys, k ∈ ks) :
    (m.entries.map fun e => f e.2).sum = (ks.map fun k => ((m.get? k).map f).getD 0).sum := by
  obtain ⟨es, nodup⟩ := m
  simp only [keys, get?] at *
  induction es generalizing ks with
  | nil => simp
  | cons e es ih =>
    obtain ⟨fresh, nodup⟩ := List.nodup_cons.mp nodup
    have here : e.1 ∈ ks := all e.1 (by simp)
    have apart : ∀ k ∈ ks.erase e.1, e.1 ≠ k := fun k hk same =>
      once.not_mem_erase (same ▸ hk)
    have rest : ∀ k ∈ es.map Prod.fst, k ∈ ks.erase e.1 := by
      intro k hk
      have other : k ≠ e.1 := by
        rintro rfl
        exact fresh hk
      exact (List.mem_erase_of_ne other).mpr (all k (List.mem_cons_of_mem _ hk))
    rw [((List.perm_cons_erase here).map _).sum_nat, List.map_cons, List.sum_cons, List.map_cons,
      List.sum_cons, ih (once.erase e.1) nodup rest, List.find?_cons_of_pos (by simp)]
    congr 2
    refine List.map_congr_left fun k hk => ?_
    rw [List.find?_cons_of_neg (by simpa using apart k hk)]

theorem get?_eq_some_iff {m : OrderedMap κ α} {k : κ} {a : α} :
    m.get? k = some a ↔ (k, a) ∈ m.entries := by
  obtain ⟨es, nodup⟩ := m
  simp only [get?]
  induction es with
  | nil => simp
  | cons e es ih =>
    obtain ⟨fresh, nodup⟩ := List.nodup_cons.mp nodup
    by_cases here : e.1 = k
    · subst here
      have absent : (e.1, a) ∉ es := fun member => fresh (List.mem_map.mpr ⟨_, member, rfl⟩)
      rw [List.find?_cons_of_pos (by simp), List.mem_cons, or_iff_left absent, Option.map_some,
        Option.some_inj, Prod.ext_iff]
      simp [eq_comm]
    · rw [List.find?_cons_of_neg (by simpa using here), ih nodup, List.mem_cons, or_iff_right]
      rintro rfl
      exact here rfl

theorem insertAll_append (m : OrderedMap κ α) (es es' : List (κ × α)) :
    m.insertAll (es ++ es') = (m.insertAll es).insertAll es' :=
  List.foldl_append

/-- The keys of a map that was written to further are in the order of their first writes. -/
theorem keys_insertAll (m : OrderedMap κ α) (es : List (κ × α)) :
    (m.insertAll es).keys = (m.keys ++ es.map Prod.fst).eraseDups := by
  have whole : m.insertAll es = ofList (m.entries ++ es) := by
    rw [ofList, insertAll_append, ← ofList, ofList_entries]
  rw [whole, keys_ofList, List.map_append]
  rfl

end RecordFilter.OrderedMap
