import RecordFilter.Proofs.Paging
import RecordFilter.Proofs.Writes

/-!
# Fetching page by page

A fetch goes on turn by turn: it asks for page after page, takes batches that advance, and ends with
the first turn that takes none. `exists_run` says this of every fetch, and `run_of_ends` finds the
end of a fetch from the answers of the provider.
-/
namespace RecordFilter

open MetadataCache (maxPages)

/-- The pages that a fetch may ask for have a number, and so has the page after them. -/
theorem Page.fits_of_lt_maxPages {n : Nat} (h : n < maxPages) : n + 2 < UInt32.size := by
  simp only [maxPages, UInt32.size] at *
  omega

theorem eachAfter_nil {α : Type} (r : List α → α → Prop) : EachAfter r [] := by
  intro before item after h
  cases before <;> cases h

theorem EachAfter.imp {α : Type} {r s : List α → α → Prop} {items : List α} (h : EachAfter r items)
    (imp : ∀ before item, before.length < items.length → r before item → s before item) :
    EachAfter s items := by
  intro before item after split
  refine imp before item ?_ (h before item after split)
  rw [split, List.length_append, List.length_cons]
  omega

theorem EachAfter.of_append {α : Type} {r : List α → α → Prop} {items more : List α}
    (h : EachAfter r (items ++ more)) : EachAfter r items := by
  intro before item after split
  exact h before item (after ++ more) (by rw [split, List.append_assoc, List.cons_append])

theorem eachAfter_append_singleton {α : Type} {r : List α → α → Prop} {items : List α} {item : α} :
    EachAfter r (items ++ [item]) ↔ EachAfter r items ∧ r items item := by
  constructor
  · intro h
    exact ⟨h.of_append, h items item [] rfl⟩
  · rintro ⟨earlier, latest⟩ before x after split
    cases after using List.reverseRecOn with
    | nil =>
      obtain ⟨rfl, last⟩ := List.append_inj' split rfl
      cases last
      exact latest
    | append_singleton after a =>
      rw [← List.cons_append, ← List.append_assoc] at split
      obtain ⟨rest, -⟩ := List.append_inj' split rfl
      exact earlier before x after rest

namespace Fetch

variable {size : UInt32} {batches : List Properties} {batch : Properties}

variable {answer : Except ProviderError Properties}

theorem no_news_iff : (batch.keys.all fun key => batches.any fun b => key ∈ b.keys) = true ↔
    ¬∃ key ∈ batch.keys, ∀ b ∈ batches, key ∉ b.keys := by
  simp

theorem isLast_nth {n : Nat} : (Page.nth size n).isLast batch.size = true ↔
    batch.size < size.toNat := by
  rw [Page.isLast, decide_eq_true_eq, Page.nth]

/-- A fetch ends with properties exactly after a batch that is not full. -/
theorem turn_eq_ends_ok_iff {ps : Properties} :
    turn size batches answer = .ends (.ok ps) ↔
      ∃ last, answer = .ok last ∧ last.size < size.toNat ∧ ps = union (batches ++ [last]) := by
  cases answer with
  | error e => simp [turn]
  | ok b =>
    simp only [turn, isLast_nth, no_news_iff, stalled, Except.ok.injEq, exists_eq_left']
    split_ifs with short stale left
    · simp [short, eq_comm]
    · simp [short]
    · simp [short]
    · simp [short]

/-- A fetch takes exactly the batches that advance it while pages are left. -/
theorem turn_eq_takes_iff (h : batches.length < maxPages) :
    turn size batches answer = .takes batch ↔
      answer = .ok batch ∧ Advances size batches batch ∧ batches.length + 1 < maxPages := by
  cases answer with
  | error e => simp [turn]
  | ok b =>
    have number := Page.toNat_number_nth size (Nat.lt_of_succ_lt (Page.fits_of_lt_maxPages h))
    simp only [turn, isLast_nth, no_news_iff, number, Except.ok.injEq]
    constructor
    · intro takes
      split_ifs at takes with short stale left
      cases takes
      exact ⟨rfl, ⟨Nat.not_lt.mp short, stale⟩, left⟩
    · rintro ⟨rfl, ⟨full, news⟩, left⟩
      rw [if_neg (Nat.not_lt.mpr full), if_neg (not_not.mpr news), if_pos left]

/-- A batch that advances a fetch without being taken ends it at the limit of pages. -/
theorem turn_eq_of_limit (advances : Advances size batches batch)
    (limit : batches.length + 1 = maxPages) :
    turn size batches (.ok batch) = .ends (.error (.stalled MetadataCache.providerName maxPages
      ("reached the " ++ maxPages.repr ++ " page limit"))) := by
  have fits := Page.fits_of_lt_maxPages (Nat.lt_of_lt_of_eq (Nat.lt_succ_self _) limit)
  have number := Page.toNat_number_nth size (Nat.lt_of_succ_lt fits)
  simp only [turn, isLast_nth, no_news_iff, stalled]
  rw [if_neg (Nat.not_lt.mpr advances.full), if_neg (not_not.mpr advances.news), number, limit,
    if_neg (Nat.lt_irrefl _)]

variable {provider : PropertyProvider} {rt : RecordType} {earlier : Nat} {events : List Event}

/-- The rest of a fetch that has taken the batches. -/
def resume (provider : PropertyProvider) (rt : RecordType) (size : UInt32) (earlier : Nat)
    (batches : List Properties) (events : List Event) : Fetch :=
  pagesFrom provider rt (maxPages - 1 - batches.length) (earlier + batches.length)
    (Page.nth size batches.length) (batches.foldl see ∅) batches.reverse events

theorem all_eq_resume (provider : PropertyProvider) (rt : RecordType) (size : UInt32)
    (earlier : Nat) : all provider rt size earlier = resume provider rt size earlier [] [] := rfl

theorem contains_see {seen : Std.HashSet String} {key : String} :
    (see seen batch).contains key = true ↔ seen.contains key = true ∨ key ∈ batch.keys := by
  rw [see, OrderedMap.keys]
  induction batch.entries generalizing seen with
  | nil => simp
  | cons e es ih =>
    rw [List.foldl_cons, ih, Std.HashSet.contains_insert, List.map_cons, List.mem_cons,
      Bool.or_eq_true, beq_iff_eq, eq_comm, or_assoc, or_left_comm]

/-- The keys seen are those of the batches taken. -/
theorem contains_foldl_see {key : String} :
    (batches.foldl see ∅).contains key = true ↔ ∃ b ∈ batches, key ∈ b.keys := by
  induction batches using List.reverseRecOn with
  | nil => simp
  | append_singleton batches b ih =>
    rw [List.foldl_append, List.foldl_cons, List.foldl_nil, contains_see, ih]
    simp [or_and_right, exists_or]

/-- A batch is news to a fetch that has taken the batches if it has a key that these lack. -/
theorem isNews_iff : isNews (batches.foldl see ∅) batch = true ↔
    ∃ key ∈ batch.keys, ∀ b ∈ batches, key ∉ b.keys := by
  simp only [isNews, List.any_eq_true, Bool.not_eq_true', ← Bool.not_eq_true, contains_foldl_see,
    OrderedMap.keys, List.mem_map, exists_exists_and_eq_and, not_exists, not_and]

/-- The events of a fetch with the event of an answer to the request for page `page`. -/
def report (rt : RecordType) (page : Page) (events : List Event) :
    Except ProviderError Properties → List Event
  | .error _ => events
  | .ok batch => .fetchedPage rt page.number.toNat batch.size :: events

/-- What is left of a fetch is one turn and what is left after it. -/
theorem resume_eq (provider : PropertyProvider) (rt : RecordType) (size : UInt32) (earlier : Nat)
    (events : List Event) (h : batches.length < maxPages) :
    resume provider rt size earlier batches events =
      let answer := provider.nth rt size earlier batches.length
      let events := report rt (Page.nth size batches.length) events answer
      match turn size batches answer with
      | .takes batch => resume provider rt size earlier (batches ++ [batch]) events
      | .ends result => ⟨result, earlier + batches.length + 1, events.reverse⟩ := by
  rw [resume, pagesFrom, PropertyProvider.nth]
  cases provider.answer (earlier + batches.length) rt (Page.nth size batches.length) none with
  | error e => rfl
  | ok batch =>
    have stale : (batch.keys.all fun key => batches.any fun b => key ∈ b.keys) =
        !isNews (batches.foldl see ∅) batch := by
      rw [Bool.eq_iff_iff, no_news_iff, Bool.not_eq_true', ← Bool.not_eq_true, isNews_iff]
    have fits := Page.fits_of_lt_maxPages h
    have number := Page.toNat_number_nth size (Nat.lt_of_succ_lt fits)
    simp only [turn, report, stale, number]
    split_ifs with short old left
    · simp only [merge, union, List.reverse_cons, List.reverse_reverse]
    · rfl
    · have more : maxPages - 1 - batches.length = maxPages - 1 - (batches.length + 1) + 1 := by
        omega
      simp only [more, resume, Page.next_nth size fits, List.length_append, List.length_singleton,
        List.foldl_append, List.foldl_cons, List.foldl_nil, List.reverse_append,
        List.reverse_singleton, List.singleton_append, Nat.add_assoc]
    · have last : maxPages - 1 - batches.length = 0 := by omega
      simp only [last]

/-- Whether a provider gives the batches, in order, to the first requests of a fetch. -/
def Answered (provider : PropertyProvider) (rt : RecordType) (size : UInt32) (earlier : Nat)
    (batches : List Properties) : Prop :=
  EachAfter (fun before batch => provider.nth rt size earlier before.length = .ok batch) batches

/-- What a fetch takes from a provider, and how it ends: it takes batches that advance, and with the
answer to its last request it ends. -/
structure Run (provider : PropertyProvider) (rt : RecordType) (size : UInt32) (earlier : Nat)
    (batches : List Properties) (fetch : Fetch) : Prop where
  answered : Answered provider rt size earlier batches
  advance : EachAfter (Advances size) batches
  withinLimit : batches.length < maxPages
  ends : turn size batches (provider.nth rt size earlier batches.length) = .ends fetch.result
  requests : fetch.requests = earlier + batches.length + 1

theorem exists_run_resume (h : batches.length < maxPages)
    (advance : EachAfter (Advances size) batches)
    (answered : Answered provider rt size earlier batches) :
    ∃ taken, Run provider rt size earlier taken
      (resume provider rt size earlier batches events) := by
  -- The induction is on the number of pages left.
  induction left : maxPages - batches.length generalizing batches events with
  | zero => omega
  | succ left ih =>
    rw [resume_eq provider rt size earlier events h]
    cases next : turn size batches (provider.nth rt size earlier batches.length) with
    | takes batch =>
      obtain ⟨answer, advances, more⟩ := (turn_eq_takes_iff h).mp next
      simp only [next]
      refine ih ?_ (eachAfter_append_singleton.mpr ⟨advance, advances⟩)
        (eachAfter_append_singleton.mpr ⟨answered, answer⟩) ?_
      · rw [List.length_append, List.length_singleton]
        exact more
      · rw [List.length_append, List.length_singleton]
        omega
    | ends result =>
      simp only [next]
      exact ⟨batches, answered, advance, h, next, rfl⟩

/-- A fetch takes batches that advance until a turn ends it. -/
theorem exists_run (provider : PropertyProvider) (rt : RecordType) (size : UInt32) (earlier : Nat) :
    ∃ batches, Run provider rt size earlier batches (all provider rt size earlier) := by
  rw [all_eq_resume]
  exact exists_run_resume (by decide) (eachAfter_nil _) (eachAfter_nil _)

theorem exists_all_eq_resume (answered : Answered provider rt size earlier batches)
    (advance : EachAfter (Advances size) batches) (h : batches.length < maxPages) :
    ∃ events, all provider rt size earlier = resume provider rt size earlier batches events := by
  induction batches using List.reverseRecOn with
  | nil => exact ⟨[], rfl⟩
  | append_singleton batches batch ih =>
    rw [List.length_append, List.length_singleton] at h
    obtain ⟨answered, answer⟩ := eachAfter_append_singleton.mp answered
    obtain ⟨advance, advances⟩ := eachAfter_append_singleton.mp advance
    have within : batches.length < maxPages := Nat.lt_of_succ_lt h
    obtain ⟨events, same⟩ := ih answered advance within
    have takes := (turn_eq_takes_iff within).mpr ⟨answer, advances, h⟩
    rw [same, resume_eq provider rt size earlier events within]
    simp only [takes]
    exact ⟨_, rfl⟩

/-- Batches that a provider gives, that advance, and after which a turn ends are those of the
fetch. -/
theorem run_of_ends {result : Except ProviderError Properties}
    (answered : Answered provider rt size earlier batches)
    (advance : EachAfter (Advances size) batches) (h : batches.length < maxPages)
    (ends : turn size batches (provider.nth rt size earlier batches.length) = .ends result) :
    (all provider rt size earlier).result = result ∧
      (all provider rt size earlier).requests = earlier + batches.length + 1 := by
  obtain ⟨events, same⟩ := exists_all_eq_resume answered advance h
  rw [same, resume_eq provider rt size earlier events h]
  simp only [ends, and_self]

end Fetch
end RecordFilter
