import Mathlib.Data.List.Forall2
import RecordFilter.Proofs.Condition

/-!
# The walk over the conditions

`Walk.Visits` says at once what a walk does in both of its modes: the conditions that it looks at in
order, and the result that it has when no error stops it. Visits compose, so one induction over the
members of a list serves every level of a filter and gives `Filter.walk_visits`. What is said of
`compile` and `diagnose` after that speaks of the list of conditions alone.
-/
namespace RecordFilter

section Visited

variable (rt : RecordType) (r : Resolver)

def errorsOf (visited : List (Path × Condition)) : List CompileError :=
  visited.filterMap fun (path, c) => c.error? rt r path

/-- The comparisons of the visited conditions in order, wrong conditions left out. -/
def comparisonsOf (visited : List (Path × Condition)) : List Comparison :=
  visited.filterMap fun (path, c) => c.comparison? rt r path

def eventsOf (visited : List (Path × Condition)) : List Event :=
  visited.flatMap fun (path, c) => c.events rt r path

/-- The conditions up to and including the first that is wrong. -/
def untilError : List (Path × Condition) → List (Path × Condition)
  | [] => []
  | v :: rest => v :: if (v.2.error? rt r v.1).isSome then [] else untilError rest

variable {rt r}

@[simp] theorem errorsOf_append (vs ws : List (Path × Condition)) :
    errorsOf rt r (vs ++ ws) = errorsOf rt r vs ++ errorsOf rt r ws :=
  List.filterMap_append

theorem errorsOf_singleton {path : Path} {c : Condition} :
    errorsOf rt r [(path, c)] = [] ↔ c.error? rt r path = none := by
  cases h : c.error? rt r path <;> simp [errorsOf, h]

theorem errorsOf_flatMap_eq_nil {α : Type} {located : α → List (Path × Condition)} {l : List α} :
    errorsOf rt r (l.flatMap located) = [] ↔ ∀ x ∈ l, errorsOf rt r (located x) = [] := by
  induction l with
  | nil => simp [errorsOf]
  | cons x l ih => simp [ih]

theorem comparisonsOf_append (vs ws : List (Path × Condition)) :
    comparisonsOf rt r (vs ++ ws) = comparisonsOf rt r vs ++ comparisonsOf rt r ws :=
  List.filterMap_append

/-- Where no condition is wrong, there is a comparison for each complete condition in order. -/
theorem forall₂_comparisonsOf {visited : List (Path × Condition)}
    (h : errorsOf rt r visited = []) :
    List.Forall₂ (fun v m => v.2.comparison? rt r v.1 = some m)
      (visited.filter fun v => v.2.isComplete) (comparisonsOf rt r visited) := by
  induction visited with
  | nil => exact .nil
  | cons v visited ih =>
    obtain ⟨head, tail⟩ : v.2.error? rt r v.1 = none ∧ errorsOf rt r visited = [] := by
      cases he : v.2.error? rt r v.1 <;> simp_all [errorsOf]
    have complete := Condition.isSome_comparison? head
    cases hv : v.2.comparison? rt r v.1 with
    | none =>
      rw [hv] at complete
      simpa [comparisonsOf, hv, ← complete] using ih tail
    | some m =>
      rw [hv] at complete
      simpa [comparisonsOf, hv, ← complete] using ih tail

@[simp] theorem eventsOf_append (vs ws : List (Path × Condition)) :
    eventsOf rt r (vs ++ ws) = eventsOf rt r vs ++ eventsOf rt r ws :=
  List.flatMap_append

variable (rt r) in
theorem untilError_append (vs ws : List (Path × Condition)) :
    untilError rt r (vs ++ ws) = if errorsOf rt r vs = [] then vs ++ untilError rt r ws
      else untilError rt r vs := by
  induction vs with
  | nil => rfl
  | cons v vs ih =>
    rw [List.cons_append, untilError, untilError, ih]
    cases h : v.2.error? rt r v.1 with
    | none =>
      have hv : errorsOf rt r (v :: vs) = errorsOf rt r vs := List.filterMap_cons_none h
      by_cases hs : errorsOf rt r vs = [] <;> simp [hv, hs]
    | some e =>
      have hv : errorsOf rt r (v :: vs) = e :: errorsOf rt r vs := List.filterMap_cons_some h
      simp [hv]

end Visited

namespace Walk

variable {rt : RecordType} {r : Resolver} {α β γ : Type}

theorem append_append {xs : Array γ} {ys zs : List γ} : xs ++ ys ++ zs = xs ++ (ys ++ zs) :=
  Array.ext' (by simp)

@[simp] theorem outcome_pure (a : α) (t : Trail) : (pure a : Walk α).outcome t = (.ok a, t) := rfl

theorem outcome_bind (w : Walk α) (k : α → Walk β) (t : Trail) :
    (w >>= k).outcome t = match w.outcome t with
      | (.ok a, t') => (k a).outcome t'
      | (.error e, t') => (.error e, t') := by
  change (match w.outcome t with | (result, t') => ExceptT.bindCont k result t') = _
  obtain ⟨result, t'⟩ := w.outcome t
  cases result <;> rfl

theorem outcome_bind_ok {w : Walk α} {t t' : Trail} {a : α} (h : w.outcome t = (.ok a, t'))
    (k : α → Walk β) : (w >>= k).outcome t = (k a).outcome t' := by
  rw [outcome_bind, h]

theorem outcome_bind_error {w : Walk α} {t t' : Trail} {e : CompileError}
    (h : w.outcome t = (.error e, t')) (k : α → Walk β) :
    (w >>= k).outcome t = (.error e, t') := by
  rw [outcome_bind, h]

theorem outcome_report (events : List Event) (t : Trail) :
    (report events).outcome t = (.ok (), { t with events := t.events ++ events }) := rfl

theorem outcome_fault_noting (e : CompileError) (events : Array Event)
    (errors : Array CompileError) :
    (fault e : Walk (Option α)).outcome ⟨events, some errors⟩ =
      (.ok none, ⟨events, some (errors.push e)⟩) := rfl

theorem outcome_fault_stopping (e : CompileError) (events : Array Event) :
    (fault e : Walk (Option α)).outcome ⟨events, none⟩ = (.error e, ⟨events, none⟩) := rfl

/-- The walk looks at the conditions in order and gives `a` if it gets past all of them. Noting
errors it always does; otherwise it stops at the first wrong condition. -/
structure Visits (rt : RecordType) (r : Resolver) (w : Walk α) (visited : List (Path × Condition))
    (a : α) : Prop where
  noting : ∀ events errors, w.outcome ⟨events, some errors⟩ =
    (.ok a, ⟨events ++ eventsOf rt r visited, some (errors ++ errorsOf rt r visited)⟩)
  passing : errorsOf rt r visited = [] → ∀ events, w.outcome ⟨events, none⟩ =
    (.ok a, ⟨events ++ eventsOf rt r visited, none⟩)
  stopping : ∀ e, (errorsOf rt r visited).head? = some e → ∀ events, w.outcome ⟨events, none⟩ =
    (.error e, ⟨events ++ eventsOf rt r (untilError rt r visited), none⟩)

theorem visits_pure (a : α) : Visits rt r (pure a) [] a where
  noting := by simp [errorsOf, eventsOf]
  passing := by simp [eventsOf]
  stopping := by simp [errorsOf]

/-- One walk after another visits what both visit. -/
theorem Visits.bind {w : Walk α} {vs : List (Path × Condition)} {a : α} (hw : Visits rt r w vs a)
    {k : α → Walk β} {ws : List (Path × Condition)} {b : β} (hk : Visits rt r (k a) ws b) :
    Visits rt r (w >>= k) (vs ++ ws) b where
  noting events errors := by
    rw [outcome_bind_ok (hw.noting events errors) k, hk.noting, eventsOf_append, errorsOf_append,
      append_append, append_append]
  passing none events := by
    rw [errorsOf_append, List.append_eq_nil_iff] at none
    rw [outcome_bind_ok (hw.passing none.1 events) k, hk.passing none.2, eventsOf_append,
      append_append]
  stopping e first events := by
    rw [errorsOf_append] at first
    rw [untilError_append rt r]
    cases h : errorsOf rt r vs with
    | nil =>
      rw [h, List.nil_append] at first
      rw [outcome_bind_ok (hw.passing h events) k, hk.stopping e first, if_pos rfl,
        eventsOf_append, append_append]
    | cons e' es =>
      have first' : (errorsOf rt r vs).head? = some e := by simpa [h] using first
      rw [outcome_bind_error (hw.stopping e first' events) k, if_neg (List.cons_ne_nil e' es)]

variable (rt r) in
/-- A walk over a list visits what the walks over its members visit. -/
theorem visits_mapM {f : γ → Walk α} {v : γ → List (Path × Condition)} {a : γ → α} {l : List γ}
    (h : ∀ x ∈ l, Visits rt r (f x) (v x) (a x)) :
    Visits rt r (l.mapM f) (l.flatMap v) (l.map a) := by
  induction l with
  | nil => exact visits_pure []
  | cons x l ih =>
    have head := h x List.mem_cons_self
    have tail := ih fun y hy => h y (List.mem_cons_of_mem x hy)
    have both := head.bind (k := fun a => do let as ← l.mapM f; return a :: as)
      (tail.bind (visits_pure _))
    simpa using both

end Walk

section Tree

variable (rt : RecordType) (r : Resolver)

theorem Condition.visit_visits (path : Path) (c : Condition) :
    Walk.Visits rt r (c.visit rt r path) [(path, c)] (c.comparison? rt r path) where
  noting events errors := by
    rw [visit, Walk.outcome_bind_ok (Walk.outcome_report _ _)]
    cases h : c.compile rt r path with
    | ok comparison => simp [comparison?, errorsOf, eventsOf, error?, h]
    | error e => simp [Walk.outcome_fault_noting, comparison?, errorsOf, eventsOf, error?, h]
  passing none events := by
    rw [visit, Walk.outcome_bind_ok (Walk.outcome_report _ _)]
    cases h : c.compile rt r path with
    | ok comparison => simp [comparison?, eventsOf, h]
    | error e => simp [errorsOf, error?, h] at none
  stopping e first events := by
    rw [visit, Walk.outcome_bind_ok (Walk.outcome_report _ _)]
    cases h : c.compile rt r path with
    | ok comparison => simp [errorsOf, error?, h] at first
    | error e' =>
      obtain rfl : e' = e := by simpa [errorsOf, error?, h] using first
      simp [Walk.outcome_fault_stopping, eventsOf, untilError]

def SubGroup.predicate (g s : Nat) (sub : SubGroup) : Option Predicate :=
  Predicate.conj (((sub.located g s).filterMap fun (path, c) =>
    c.comparison? rt r path).map .compare)

def Group.predicate (g : Nat) (group : Group) : Option Predicate :=
  Predicate.disj (group.subGroups.zipIdx.filterMap fun (sub, s) => sub.predicate rt r g s)

/-- The predicate of a filter, wrong conditions left out. -/
def Filter.predicate (f : Filter) : Option Predicate :=
  Predicate.conj (f.groups.zipIdx.filterMap fun (group, g) => group.predicate rt r g)

theorem SubGroup.walk_visits (g s : Nat) (sub : SubGroup) :
    Walk.Visits rt r (sub.walk rt r g s) (sub.located g s) (sub.predicate rt r g s) := by
  have conditions := Walk.visits_mapM rt r (l := sub.conditions.zipIdx)
    (f := fun x => x.1.visit rt r ⟨g, s, x.2⟩) fun x _ => Condition.visit_visits rt r _ _
  rw [← List.map_eq_flatMap] at conditions
  have whole := conditions.bind (k := fun comparisons =>
    return Predicate.conj ((comparisons.filterMap id).map .compare)) (Walk.visits_pure _)
  simpa [walk, predicate, located, List.filterMap_map, Function.comp_def] using whole

theorem Group.walk_visits (g : Nat) (group : Group) :
    Walk.Visits rt r (group.walk rt r g) (group.located g) (group.predicate rt r g) := by
  have subGroups := Walk.visits_mapM rt r (l := group.subGroups.zipIdx)
    (f := fun x => x.1.walk rt r g x.2) fun x _ => SubGroup.walk_visits rt r g x.2 x.1
  have whole := subGroups.bind (k := fun parts => return Predicate.disj (parts.filterMap id))
    (Walk.visits_pure _)
  simpa [walk, predicate, located, List.filterMap_map, Function.comp_def] using whole

/-- The walk over a filter visits its conditions in order. -/
theorem Filter.walk_visits (f : Filter) :
    Walk.Visits rt r (f.walk rt r) f.conditions (f.predicate rt r) := by
  have groups := Walk.visits_mapM rt r (l := f.groups.zipIdx)
    (f := fun x => x.1.walk rt r x.2) fun x _ => Group.walk_visits rt r x.2 x.1
  have whole := groups.bind (k := fun parts => return Predicate.conj (parts.filterMap id))
    (Walk.visits_pure _)
  simpa [walk, predicate, conditions, List.filterMap_map, Function.comp_def] using whole

end Tree

namespace Filter

variable {f : Filter} {rt : RecordType} {r : Resolver}

theorem diagnose_of_none (h : f.recordType = none) : f.diagnose r = [.emptyRecordType] := by
  simp [diagnose, diagnoseRun, h]

/-- `diagnose` lists the errors of the conditions in order. -/
theorem diagnose_eq (h : f.recordType = some rt) :
    f.diagnose r = errorsOf rt r f.conditions := by
  simp [diagnose, diagnoseRun, h, (walk_visits rt r f).noting]

theorem compile_of_none (h : f.recordType = none) : f.compile r = .error .emptyRecordType := by
  simp [compile, compileRun, h]

theorem compile_of_errorsOf_eq_nil (h : f.recordType = some rt)
    (none : errorsOf rt r f.conditions = []) : f.compile r = .ok ⟨rt, f.predicate rt r⟩ := by
  simp [compile, compileRun, h, (walk_visits rt r f).passing none]

theorem compile_of_head?_errorsOf (h : f.recordType = some rt) {e : CompileError}
    (first : (errorsOf rt r f.conditions).head? = some e) : f.compile r = .error e := by
  simp [compile, compileRun, h, (walk_visits rt r f).stopping e first]

/-- A filter compiles exactly if it has a record type and no wrong condition. -/
theorem compile_eq_ok_iff {q : Query} : f.compile r = .ok q ↔
    ∃ rt, f.recordType = some rt ∧ errorsOf rt r f.conditions = [] ∧
      q = ⟨rt, f.predicate rt r⟩ := by
  cases h : f.recordType with
  | none => simp [compile_of_none h]
  | some rt =>
    cases first : (errorsOf rt r f.conditions).head? with
    | none =>
      have none : errorsOf rt r f.conditions = [] := List.head?_eq_none_iff.mp first
      rw [compile_of_errorsOf_eq_nil h none]
      constructor
      · intro hq
        exact ⟨rt, rfl, none, (Except.ok.inj hq).symm⟩
      · rintro ⟨rt', hrt, -, rfl⟩
        cases hrt
        rfl
    | some e =>
      have some : errorsOf rt r f.conditions ≠ [] := by
        intro none
        simp [none] at first
      simp [compile_of_head?_errorsOf h first, some]

/-- The error of a filter with a record type is that of its first wrong condition. -/
theorem compile_eq_error_iff (h : f.recordType = some rt) {e : CompileError} :
    f.compile r = .error e ↔ (errorsOf rt r f.conditions).head? = some e := by
  cases first : (errorsOf rt r f.conditions).head? with
  | none => simp [compile_of_errorsOf_eq_nil h (List.head?_eq_none_iff.mp first)]
  | some e' => simp [compile_of_head?_errorsOf h first]

end Filter

section Example

/-- Contacts of an age in a range or with a text in their name, and blank conditions in between. -/
def Filter.patchy (low high : Int64) (name : String) : Filter where
  recordType := some .contact
  groups := [⟨[⟨[⟨"age", "between", .list [.int low, .int high]⟩, .blank]⟩, .initial,
    ⟨[⟨"name", "contains", .text name⟩]⟩]⟩, .initial]

/-- Ages are numbers and names are texts. -/
def Resolver.ageAndName : Resolver := .ofTypes fun _ key =>
  if key = "age" then some .number else if key = "name" then some .text else none

def Predicate.patchy (low high : Int64) (pattern : String) : Predicate :=
  .any [.compare ⟨.contact, "age", .between, [.int low, .int high], ⟨0, 0, 0⟩⟩,
    .compare ⟨.contact, "name", .like, [.text pattern], ⟨0, 2, 0⟩⟩]

end Example

end RecordFilter
