import RecordFilter.Metadata.Interleaving
import RecordFilter.Proofs.Refreshing

/-!
# Refreshes side by side lose nothing

Whatever refreshes go on over a cache and however their actions interleave, the properties of each
record type are those that the latest refresh to publish has fetched, all of them, or the initial
ones. A refresh that goes on alone does what `MetadataCache.refresh` does.
-/
namespace RecordFilter

open MetadataCache (maxPages)
open Fetch (Advances Complete union turn_eq_takes_iff turn_eq_ends_ok_iff)

variable {size : UInt32} {given : List (Except ProviderError Properties)}

/-- What the stage of a refresh says of the answers that it was given. -/
def Stage.Reflects (size : UInt32) (given : List (Except ProviderError Properties)) : Stage → Prop
  | fetching batches => given = batches.map .ok ∧ EachAfter (Advances size) batches ∧
      batches.length < maxPages
  | fetched properties => ∃ batches last, given = (batches ++ [last]).map .ok ∧
      Complete size batches last ∧ properties = union (batches ++ [last])
  | failed _ | published _ => True

theorem Stage.reflects_fetching_nil : (fetching []).Reflects size [] :=
  ⟨rfl, eachAfter_nil _, by decide⟩

/-- An answer moves a refresh to the stage that reflects the answers with this one. -/
theorem Stage.reflects_next {batches : List Properties} (h : (fetching batches).Reflects size given)
    (answer : Except ProviderError Properties) :
    (next size batches answer).Reflects size (given ++ [answer]) := by
  obtain ⟨rfl, advance, within⟩ := h
  rw [next]
  cases turn : Fetch.turn size batches answer with
  | takes batch =>
    obtain ⟨rfl, advances, more⟩ := (turn_eq_takes_iff within).mp turn
    refine ⟨?_, eachAfter_append_singleton.mpr ⟨advance, advances⟩, ?_⟩
    · rw [List.map_append, List.map_singleton]
    · rwa [List.length_append, List.length_singleton]
  | ends result =>
    cases result with
    | error e => trivial
    | ok properties =>
      obtain ⟨last, rfl, short, rfl⟩ := turn_eq_ends_ok_iff.mp turn
      exact ⟨batches, last, by rw [List.map_append, List.map_singleton],
        ⟨advance, within, short⟩, rfl⟩

theorem answersTo_start (task : Nat) (actions : List Action) (rt : RecordType) :
    answersTo task (actions ++ [.start rt]) = answersTo task actions :=
  List.filterMap_append.trans (List.append_nil _)

theorem answersTo_publish (task other : Nat) (actions : List Action) (rt : RecordType) :
    answersTo task (actions ++ [.publish other rt]) = answersTo task actions :=
  List.filterMap_append.trans (List.append_nil _)

theorem answersTo_answer (task other : Nat) (actions : List Action)
    (given : Except ProviderError Properties) :
    answersTo task (actions ++ [.answer other given]) =
      if other = task then answersTo task actions ++ [given] else answersTo task actions := by
  rw [answersTo, List.filterMap_append]
  split
  · next same => simp [answersTo, same]
  · next other => simp [answersTo, other]

theorem PublishedLast.append {rt : RecordType} {task : Nat} {before actions : List Action}
    {action : Action} (h : PublishedLast rt task before actions)
    (other : ∀ task, action ≠ .publish task rt) :
    PublishedLast rt task before (actions ++ [action]) := by
  obtain ⟨after, rfl, last⟩ := h
  refine ⟨after ++ [action], by rw [List.append_assoc, List.cons_append], fun task published => ?_⟩
  obtain there | here := List.mem_append.mp published
  · exact last task there
  · exact other task (List.mem_singleton.mp here).symm

namespace Interleaving

variable {c : MetadataCache} {actions : List Action} {s s' : Interleaving} {action : Action}

/-- What holds after every sequence of actions: the stages of the refreshes reflect the answers that
they were given, and no answer was given to a refresh that has not started. -/
structure Consistent (c : MetadataCache) (actions : List Action) (s : Interleaving) : Prop where
  pageSize : s.cache.pageSize = c.pageSize
  reflects : ∀ (task : Nat) (t : Task), s.tasks[task]? = some t →
    t.stage.Reflects c.pageSize (answersTo task actions)
  fresh : ∀ task : Nat, s.tasks[task]? = none → answersTo task actions = []

/-- An action of one refresh keeps consistent what it does not concern. -/
theorem Consistent.set {more : List Action} {task : Nat} {t t' : Task} {cache : MetadataCache}
    (h : Consistent c actions s) (there : s.tasks[task]? = some t)
    (pageSize : cache.pageSize = s.cache.pageSize)
    (reflects : t'.stage.Reflects c.pageSize (answersTo task more))
    (others : ∀ other, other ≠ task → answersTo other more = answersTo other actions) :
    Consistent c more ⟨cache, s.tasks.set task t'⟩ where
  pageSize := pageSize.trans h.pageSize
  reflects other u at_other := by
    rw [List.getElem?_set] at at_other
    split_ifs at at_other with same inside
    · cases at_other
      exact same ▸ reflects
    · rw [others other (Ne.symm same)]
      exact h.reflects other u at_other
  fresh other absent := by
    rw [List.getElem?_eq_none_iff, List.length_set, ← List.getElem?_eq_none_iff] at absent
    have differ : other ≠ task := fun same => by
      rw [same, there] at absent
      cases absent
    rw [others other differ]
    exact h.fresh other absent

theorem Step.consistent (step : Step s action s') (h : Consistent c actions s) :
    Consistent c (actions ++ [action]) s' := by
  cases step with
  | start rt =>
    refine ⟨h.pageSize, fun task t there => ?_, fun task absent => ?_⟩
    · rw [answersTo_start]
      rw [List.getElem?_append] at there
      split_ifs at there with old
      · exact h.reflects task t there
      · rw [h.fresh task (List.getElem?_eq_none (Nat.not_lt.mp old))]
        obtain rfl := List.mem_singleton.mp (List.mem_of_getElem? there)
        exact Stage.reflects_fetching_nil
    · rw [answersTo_start]
      rw [List.getElem?_eq_none_iff, List.length_append] at absent
      exact h.fresh task (List.getElem?_eq_none (Nat.le_of_add_right_le absent))
  | @answer given task rt batches under_way =>
    refine h.set under_way rfl ?_ fun other differ => ?_
    · rw [answersTo_answer, if_pos rfl, h.pageSize]
      exact Stage.reflects_next (h.reflects task _ under_way) given
    · rw [answersTo_answer, if_neg differ.symm]
  | publish ready =>
    exact h.set ready rfl trivial fun other _ => answersTo_publish other _ actions _

theorem Run.consistent (run : Run c actions s) : Consistent c actions s := by
  induction run with
  | nil => exact ⟨rfl, fun _ _ h => (nomatch h), fun _ _ => rfl⟩
  | step _ step ih => exact step.consistent ih

/-- Only a refresh that publishes changes the properties of its record type. -/
theorem Step.propertyMap_eq {rt : RecordType} (step : Step s action s')
    (other : ∀ task, action ≠ .publish task rt) :
    s'.cache.catalog.propertyMap rt = s.cache.catalog.propertyMap rt := by
  cases step with
  | start | answer => rfl
  | @publish task rt' properties ready =>
    have differ : rt' ≠ rt := fun same => other task (same ▸ rfl)
    exact (Catalog.propertyMap_setProperties _ _ _ _).trans (if_neg differ)

/-- After whatever actions, a record type has the properties that the last refresh of it to publish
has fetched, all its batches together, or the initial properties if none has published. -/
theorem propertyMap_of_run (run : Run c actions s) (rt : RecordType) :
    ((∀ task, .publish task rt ∉ actions) ∧
      s.cache.catalog.propertyMap rt = c.catalog.propertyMap rt) ∨
    ∃ task before batches last, PublishedLast rt task before actions ∧
      answersTo task before = (batches ++ [last]).map .ok ∧
      Complete c.pageSize batches last ∧
      s.cache.catalog.propertyMap rt = union (batches ++ [last]) := by
  induction run with
  | nil => exact .inl ⟨fun _ => List.not_mem_nil, rfl⟩
  | @step actions s s' action run step ih =>
    by_cases published : ∃ task, action = .publish task rt
    · obtain ⟨task, rfl⟩ := published
      refine .inr ?_
      cases step with
      | @publish _ _ properties ready =>
        obtain ⟨batches, last, given, complete, rfl⟩ := run.consistent.reflects task _ ready
        refine ⟨task, actions, batches, last, ⟨[], rfl, fun _ => List.not_mem_nil⟩, given, complete,
          ?_⟩
        exact (Catalog.propertyMap_setProperties _ _ _ _).trans (if_pos rfl)
    · have other : ∀ task, action ≠ .publish task rt := fun task same => published ⟨task, same⟩
      rw [step.propertyMap_eq other]
      obtain ⟨none, initial⟩ | ⟨task, before, batches, last, latest, rest⟩ := ih
      · refine .inl ⟨fun task there => ?_, initial⟩
        obtain there | here := List.mem_append.mp there
        · exact none task there
        · exact other task (List.mem_singleton.mp here).symm
      · exact .inr ⟨task, before, batches, last, latest.append other, rest⟩

open MetadataCache (twoPages firstBatch lastBatch)

/-- Two refreshes: the one that started later publishes between the answers to the other. -/
def sideBySide : List Action :=
  [.start .task, .start .user, .answer 0 (.ok firstBatch), .answer 1 (.ok lastBatch),
    .publish 1 .user, .answer 0 (.ok lastBatch), .publish 0 .task]

/-- The state after these. -/
def bothPublished : Interleaving where
  cache := ((twoPages.withPageSize 2).publish .user (union [lastBatch])).publish .task
    (union [firstBatch, lastBatch])
  tasks := [⟨.task, .published 2⟩, ⟨.user, .published 1⟩]

theorem run_sideBySide : Run (twoPages.withPageSize 2) sideBySide bothPublished := by
  have started : Run (twoPages.withPageSize 2) [.start .task, .start .user]
      ⟨twoPages.withPageSize 2, [⟨.task, .fetching []⟩, ⟨.user, .fetching []⟩]⟩ :=
    .step (.step .nil (.start _ .task)) (.start _ .user)
  have task := Run.step started (@Step.answer _ (.ok firstBatch) 0 _ _ rfl)
  have user := Run.step task (@Step.answer _ (.ok lastBatch) 1 .user [] rfl)
  have published := Run.step user (@Step.publish _ 1 .user (union [lastBatch]) rfl)
  have again := Run.step published (@Step.answer _ (.ok lastBatch) 0 .task [firstBatch] rfl)
  exact Run.step again (@Step.publish _ 0 .task (union [firstBatch, lastBatch]) rfl)

theorem propertyMap_of_run_sideBySide :
    Run (twoPages.withPageSize 2) sideBySide bothPublished ∧
    (∃ task before batches last, PublishedLast .task task before sideBySide ∧
      answersTo task before = (batches ++ [last]).map .ok ∧ Complete 2 batches last ∧
      bothPublished.cache.catalog.propertyMap .task = union (batches ++ [last])) ∧
    bothPublished.cache.catalog.propertyMap .ticket = .empty := by
  have task := propertyMap_of_run run_sideBySide .task
  have ticket := propertyMap_of_run run_sideBySide .ticket
  refine ⟨run_sideBySide, task.resolve_left fun none => none.1 0 (by simp [sideBySide]), ?_⟩
  obtain ⟨-, initial⟩ | ⟨task, before, _, _, ⟨after, split, -⟩, -⟩ := ticket
  · exact initial
  · have published := split ▸ List.mem_append_right before (List.mem_cons_self ..)
    simp [sideBySide] at published

variable {rt : RecordType}

theorem answers_succ (k : Nat) : c.answers rt (k + 1) =
    c.answers rt k ++ [.answer 0 (c.provider.nth rt c.pageSize c.requests k)] := by
  simp only [MetadataCache.answers, List.range_succ, List.map_append, List.map_singleton]

theorem step_answer_alone (c : MetadataCache) (rt : RecordType) (batches : List Properties)
    (given : Except ProviderError Properties) :
    Step ⟨c, [⟨rt, .fetching batches⟩]⟩ (.answer 0 given)
      ⟨c, [⟨rt, .next c.pageSize batches given⟩]⟩ :=
  @Step.answer ⟨c, [⟨rt, .fetching batches⟩]⟩ given 0 rt batches rfl

/-- A refresh that is answered with batches that advance takes them. -/
theorem run_answers {batches : List Properties} (h : batches.length < maxPages)
    (advance : EachAfter (Advances c.pageSize) batches)
    (answered : Fetch.Answered c.provider rt c.pageSize c.requests batches) :
    Run c (.start rt :: c.answers rt batches.length) ⟨c, [⟨rt, .fetching batches⟩]⟩ := by
  induction batches using List.reverseRecOn with
  | nil => exact .step .nil (.start _ rt)
  | append_singleton batches batch ih =>
    rw [List.length_append, List.length_singleton] at h ⊢
    obtain ⟨answered, answer⟩ := eachAfter_append_singleton.mp answered
    obtain ⟨advance, advances⟩ := eachAfter_append_singleton.mp advance
    have within : batches.length < maxPages := Nat.lt_of_succ_lt h
    have takes := (turn_eq_takes_iff within).mpr ⟨answer, advances, h⟩
    have step := step_answer_alone c rt batches
      (c.provider.nth rt c.pageSize c.requests batches.length)
    rw [Stage.next, takes] at step
    rw [answers_succ]
    exact .step (ih within advance answered) step

/-- A refresh that goes on alone does what `MetadataCache.refresh` does: it makes as many requests,
it ends with the same result, and it leaves the same catalog. -/
theorem run_actionsOf (c : MetadataCache) (rt : RecordType) :
    let r := c.refresh rt
    Run c (c.actionsOf rt (r.cache.requests - c.requests))
      ⟨{ r.cache with requests := c.requests }, [⟨rt, .ofResult r.result⟩]⟩ := by
  intro r
  obtain ⟨batches, run⟩ := Fetch.exists_run c.provider rt c.pageSize c.requests
  have requests : r.cache.requests - c.requests = batches.length + 1 := by
    rw [MetadataCache.requests_refresh, run.requests]
    omega
  have step := step_answer_alone c rt batches
    (c.provider.nth rt c.pageSize c.requests batches.length)
  have answered := Run.step (run_answers run.withinLimit run.advance run.answered) step
  rw [List.cons_append, ← answers_succ, Stage.next, run.ends] at answered
  rw [requests]
  simp only [MetadataCache.actionsOf, r, MetadataCache.refresh]
  cases result : (Fetch.all c.provider rt c.pageSize c.requests).result with
  | error e =>
    simp only [result] at answered
    rw [List.append_nil]
    exact answered
  | ok properties =>
    simp only [result] at answered
    exact .step answered (@Step.publish ⟨c, [⟨rt, .fetched properties⟩]⟩ 0 rt properties rfl)

end Interleaving
end RecordFilter
