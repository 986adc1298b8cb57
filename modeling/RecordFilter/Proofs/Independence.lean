import RecordFilter.Proofs.Binding
import RecordFilter.Proofs.Rendering
import RecordFilter.Proofs.Walk

/-!
# The text does not depend on the values

Two filters have the same texts if they differ in the values of conditions alone, and lists stand
against lists of the same length. `Filter.sql_eq_of_sameTexts` says that their queries then have the
same text in every dialect: values are bound and never written.
-/
namespace RecordFilter

/-- The conditions name the same property and operator; their values are lists of one length, or
neither is a list. -/
structure Condition.SameTexts (c c' : Condition) : Prop where
  property : c.property = c'.property
  operator : c.operator = c'.operator
  size : c.value.size? = c'.value.size?

def SubGroup.SameTexts (sub sub' : SubGroup) : Prop :=
  List.Forall₂ Condition.SameTexts sub.conditions sub'.conditions

def Group.SameTexts (group group' : Group) : Prop :=
  List.Forall₂ SubGroup.SameTexts group.subGroups group'.subGroups

/-- The filters are about one record type and have the same texts group by group. -/
structure Filter.SameTexts (f f' : Filter) : Prop where
  recordType : f.recordType = f'.recordType
  groups : List.Forall₂ Group.SameTexts f.groups f'.groups

theorem forall₂_zipIdx {α : Type} {R : α → α → Prop} {l l' : List α} (h : List.Forall₂ R l l')
    (k : Nat) :
    List.Forall₂ (fun x y => R x.1 y.1 ∧ x.2 = y.2) (l.zipIdx k) (l'.zipIdx k) := by
  induction h generalizing k with
  | nil => exact .nil
  | cons head _ ih => exact .cons ⟨head, rfl⟩ (ih (k + 1))

namespace Predicate

variable {β : Type} {view : List Value → β}

theorem clause_all (ps : List Predicate) : (all ps).clause view = .all (ps.map (clause view)) := by
  rw [clause, clauses_eq_map]

theorem clause_any (ps : List Predicate) : (any ps).clause view = .any (ps.map (clause view)) := by
  rw [clause, clauses_eq_map]

/-- Folding keeps clauses, if combining does. -/
theorem clause_fold_congr {combine : List Predicate → Predicate}
    (combine_congr : ∀ ps qs : List Predicate, ps.map (clause view) = qs.map (clause view) →
      (combine ps).clause view = (combine qs).clause view)
    {ps qs : List Predicate} (h : ps.map (clause view) = qs.map (clause view)) :
    (fold combine ps).map (clause view) = (fold combine qs).map (clause view) := by
  match ps, qs with
  | [], [] => rfl
  | [p], [q] => simpa [fold] using h
  | p :: p' :: ps, q :: q' :: qs => exact congrArg some (combine_congr _ _ h)
  | [], _ :: _ | _ :: _, [] => simp at h
  | [_], _ :: _ :: _ | _ :: _ :: _, [_] => simp at h

theorem clause_conj_congr {ps qs : List Predicate}
    (h : ps.map (clause view) = qs.map (clause view)) :
    (conj ps).map (clause view) = (conj qs).map (clause view) :=
  clause_fold_congr (fun ps qs h => by simp only [clause_all, h]) h

theorem clause_disj_congr {ps qs : List Predicate}
    (h : ps.map (clause view) = qs.map (clause view)) :
    (disj ps).map (clause view) = (disj qs).map (clause view) :=
  clause_fold_congr (fun ps qs h => by simp only [clause_any, h]) h

end Predicate

section Outline

variable {rt : RecordType} {r : Resolver}

/-- Views of what two lists give are equal, if they are so for one member after another. -/
theorem map_filterMap_of_forall₂ {α β γ : Type} {F : α → Option β} {view : β → γ} {l l' : List α}
    (h : List.Forall₂ (fun x y => (F x).map view = (F y).map view) l l') :
    (l.filterMap F).map view = (l'.filterMap F).map view := by
  induction h with
  | nil => rfl
  | @cons x y l l' head _ ih => cases hx : F x <;> cases hy : F y <;> simp_all

/-- Parts with the same outlines one by one have the same outlines together, where no condition of
either side is wrong. -/
theorem map_filterMap_congr {α β : Type} {R : α → α → Prop} {located : α → List (Path × Condition)}
    {F : α → Option β} {outline : β → Clause Nat}
    (step : ∀ x y, R x y → errorsOf rt r (located x) = [] → errorsOf rt r (located y) = [] →
      (F x).map outline = (F y).map outline)
    {l l' : List α} (h : List.Forall₂ R l l') (ok : errorsOf rt r (l.flatMap located) = [])
    (ok' : errorsOf rt r (l'.flatMap located) = []) :
    (l.filterMap F).map outline = (l'.filterMap F).map outline := by
  refine map_filterMap_of_forall₂ ?_
  induction h with
  | nil => exact .nil
  | @cons x y l l' head _ ih =>
    rw [List.flatMap_cons, errorsOf_append, List.append_eq_nil_iff] at ok ok'
    exact .cons (step x y head ok.1 ok'.1) (ih ok.2 ok'.2)

/-- Conditions with the same texts become comparisons with the same outline, if neither is wrong. -/
theorem Condition.outline_congr {path : Path} {c c' : Condition} (same : c.SameTexts c')
    (ok : c.error? rt r path = none) (ok' : c'.error? rt r path = none) :
    (c.comparison? rt r path).map (fun x => (Predicate.compare x).outline) =
      (c'.comparison? rt r path).map fun x => (Predicate.compare x).outline := by
  have complete : c.isComplete = c'.isComplete := by
    rw [isComplete, isComplete, same.property, same.operator]
  rw [← isSome_comparison? ok, ← isSome_comparison? ok'] at complete
  cases hc : c.comparison? rt r path with
  | none =>
    rw [hc] at complete
    cases hc' : c'.comparison? rt r path with
    | none => rfl
    | some comparison' => simp [hc'] at complete
  | some comparison =>
    cases hc' : c'.comparison? rt r path with
    | none => simp [hc, hc'] at complete
    | some comparison' =>
      have size := length_params hc
      have size' := length_params hc'
      obtain ⟨-, resolved, op, params, hr, hop, -, rfl⟩ := comparison?_eq_some_iff.mp hc
      obtain ⟨-, resolved', op', params', hr', hop', -, rfl⟩ := comparison?_eq_some_iff.mp hc'
      rw [same.property, hr'] at hr
      obtain rfl := Option.some.inj hr
      rw [same.operator, hop'] at hop
      obtain rfl := Option.some.inj hop
      have length : params.length = params'.length := by
        by_cases scalar : op'.sql.arity = .scalar
        · simp only [scalar, Arity.Admits] at size size'
          exact size.1.trans size'.1.symm
        · have sizes := (size.2 scalar).symm.trans (same.size.trans (size'.2 scalar))
          exact Option.some.inj sizes
      simp [Predicate.outline, Predicate.clause, length]

theorem SubGroup.outline_congr {sub sub' : SubGroup} {g s : Nat} (same : sub.SameTexts sub')
    (ok : errorsOf rt r (sub.located g s) = []) (ok' : errorsOf rt r (sub'.located g s) = []) :
    (sub.predicate rt r g s).map Predicate.outline =
      (sub'.predicate rt r g s).map Predicate.outline := by
  have located : List.Forall₂ (fun x y => x.1 = y.1 ∧ x.2.SameTexts y.2)
      (sub.located g s) (sub'.located g s) := by
    rw [SubGroup.located, SubGroup.located, List.forall₂_map_left_iff, List.forall₂_map_right_iff]
    refine (forall₂_zipIdx same 0).imp ?_
    rintro ⟨c, i⟩ ⟨c', i'⟩ ⟨same, rfl⟩
    exact ⟨rfl, same⟩
  rw [← List.flatMap_singleton' (sub.located g s)] at ok
  rw [← List.flatMap_singleton' (sub'.located g s)] at ok'
  refine Predicate.clause_conj_congr ?_
  rw [List.map_map, List.map_map]
  refine map_filterMap_congr ?_ located ok ok'
  rintro ⟨path, c⟩ ⟨path', c'⟩ ⟨rfl, same⟩ ok ok'
  exact Condition.outline_congr same (errorsOf_singleton.mp ok) (errorsOf_singleton.mp ok')

theorem Group.outline_congr {group group' : Group} {g : Nat} (same : group.SameTexts group')
    (ok : errorsOf rt r (group.located g) = []) (ok' : errorsOf rt r (group'.located g) = []) :
    (group.predicate rt r g).map Predicate.outline =
      (group'.predicate rt r g).map Predicate.outline := by
  refine Predicate.clause_disj_congr (map_filterMap_congr ?_ (forall₂_zipIdx same 0) ok ok')
  rintro ⟨sub, s⟩ ⟨sub', s'⟩ ⟨same, rfl⟩ ok ok'
  exact SubGroup.outline_congr same ok ok'

/-- The predicates of filters with the same texts have the same outline. -/
theorem Filter.outline_congr {f f' : Filter} (same : f.SameTexts f')
    (ok : errorsOf rt r f.conditions = []) (ok' : errorsOf rt r f'.conditions = []) :
    (f.predicate rt r).map Predicate.outline = (f'.predicate rt r).map Predicate.outline := by
  refine Predicate.clause_conj_congr (map_filterMap_congr ?_ (forall₂_zipIdx same.groups 0) ok ok')
  rintro ⟨group, g⟩ ⟨group', g'⟩ ⟨same, rfl⟩ ok ok'
  exact Group.outline_congr same ok ok'

end Outline

/-- The text of a query does not depend on the values of its filter, in any dialect. -/
theorem Filter.sql_eq_of_sameTexts {f f' : Filter} {r : Resolver} {q q' : Query}
    (same : f.SameTexts f') (h : f.compile r = .ok q) (h' : f'.compile r = .ok q') (d : Dialect) :
    (q.select d).sql = (q'.select d).sql ∧ (q.whereClause d).sql = (q'.whereClause d).sql := by
  obtain ⟨rt, hrt, ok, rfl⟩ := compile_eq_ok_iff.mp h
  obtain ⟨rt', hrt', ok', rfl⟩ := compile_eq_ok_iff.mp h'
  obtain rfl : rt = rt' := Option.some.inj (hrt.symm.trans (same.recordType.trans hrt'))
  have outline :
      (Query.mk rt (f.predicate rt r)).outline = (Query.mk rt (f'.predicate rt r)).outline :=
    outline_congr same ok ok'
  constructor
  · rw [← String.toList_inj, Query.sql_select, Query.sql_select, outline]
  · rw [← String.toList_inj, Query.sql_whereClause, Query.sql_whereClause, outline]

theorem Filter.sameTexts_patchy (low high low' high' : Int64) (name name' : String) :
    (Filter.patchy low high name).SameTexts (.patchy low' high' name') where
  recordType := rfl
  groups := by
    have same (c : Condition) : c.SameTexts c := ⟨rfl, rfl, rfl⟩
    have initial : SubGroup.initial.SameTexts .initial := .cons (same _) .nil
    have ages : SubGroup.SameTexts ⟨[⟨"age", "between", .list [.int low, .int high]⟩, .blank]⟩
        ⟨[⟨"age", "between", .list [.int low', .int high']⟩, .blank]⟩ :=
      .cons ⟨rfl, rfl, rfl⟩ (.cons (same _) .nil)
    have names : SubGroup.SameTexts ⟨[⟨"name", "contains", .text name⟩]⟩
        ⟨[⟨"name", "contains", .text name'⟩]⟩ := .cons ⟨rfl, rfl, rfl⟩ .nil
    exact .cons (.cons ages (.cons initial (.cons names .nil)))
      (.cons (.cons initial .nil) .nil)

theorem Filter.sql_eq_of_sameTexts_patchy :
    ((Query.mk .contact (some (.patchy 18 65 "%50\\%%"))).select .mysql).sql =
      ((Query.mk .contact (some (.patchy 0 9 "%' OR 1=1%"))).select .mysql).sql :=
  (sql_eq_of_sameTexts (sameTexts_patchy 18 65 0 9 "50%" "' OR 1=1") (r := .ageAndName) rfl rfl
    .mysql).1

end RecordFilter
