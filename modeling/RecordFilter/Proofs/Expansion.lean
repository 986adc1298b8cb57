import RecordFilter.Proofs.References

/-!
# Putting variables into configuration texts

Substitution puts the values of the variables that are set in the places of their references, all at
once. `expand` replaces one spelling after the other in the whole text instead, and so it can meet
spellings that earlier replacements have brought about, or that stand inside others.
`expand_eq_substitute` says where the two agree: no reference is spelled in what substitution gives,
and none ends in the spelling of another.
-/
namespace RecordFilter

namespace Text

variable {old new front rest cs : List Char} {c : Char}

theorem replaceFrom_eq (done : List Char) (skip : Nat) :
    replaceFrom old new done skip cs = done.reverse ++ replaceFrom old new [] skip cs := by
  induction cs generalizing done skip with
  | nil => simp [replaceFrom]
  | cons c cs ih =>
    cases skip with
    | succ skip => rw [replaceFrom, replaceFrom, ih]
    | zero =>
      rw [replaceFrom, replaceFrom]
      split
      · rw [ih, ih (new.reverse ++ [])]
        simp
      · rw [ih, ih [c]]
        simp

theorem replaceFrom_append_of_length (front : List Char) :
    replaceFrom old new [] front.length (front ++ rest) = replaceAll old new rest := by
  induction front with
  | nil => rfl
  | cons c front ih => exact ih

/-- An occurrence at the front is replaced. -/
theorem replaceAll_append (nonempty : old ≠ []) :
    replaceAll old new (old ++ rest) = new ++ replaceAll old new rest := by
  obtain ⟨c, old, rfl⟩ := List.exists_cons_of_ne_nil nonempty
  have found : (c :: old).isPrefixOf (c :: (old ++ rest)) = true := by simp
  rw [List.cons_append, replaceAll, replaceFrom, if_pos found, replaceFrom_eq, List.append_nil,
    List.reverse_reverse]
  exact congrArg (new ++ ·) (replaceFrom_append_of_length old)

theorem replaceAll_cons_of_not_prefix (h : ¬old <+: c :: cs) :
    replaceAll old new (c :: cs) = c :: replaceAll old new cs := by
  have absent : ¬old.isPrefixOf (c :: cs) = true := by simpa using h
  rw [replaceAll, replaceFrom, if_neg absent, replaceFrom_eq]
  rfl

/-- A front in which no occurrence starts is kept. -/
theorem replaceAll_append_of_not_prefix
    (h : ∀ u, u ≠ [] → u <:+ front → ¬old <+: u ++ rest) :
    replaceAll old new (front ++ rest) = front ++ replaceAll old new rest := by
  induction front with
  | nil => rfl
  | cons c front ih =>
    have here : ¬old <+: c :: (front ++ rest) := h _ (List.cons_ne_nil c front) List.suffix_rfl
    rw [List.cons_append, replaceAll_cons_of_not_prefix here]
    exact congrArg (c :: ·) (ih fun u ne suffix => h u ne (suffix.trans (List.suffix_cons c front)))

end Text

namespace Config

variable {env : Environment} {cs rest : List Char} {ps : List Piece} {name : List Char}

/-- Values as far as the names are among those that are done. -/
def among (done : List (List Char)) (value : List Char → Option (List Char)) (name : List Char) :
    Option (List Char) :=
  if name ∈ done then value name else none

/-- No reference to a variable that is set ends in the spelling of another, and what comes of
substitution spells none. -/
structure Settled (value : List Char → Option (List Char)) (ps : List Piece) : Prop where
  apart : ∀ n ∈ names ps, ∀ m ∈ names ps, (value n).isSome → (value m).isSome →
    spelling m <:+ spelling n → m = n
  absent : ∀ n ∈ names ps, (value n).isSome → ¬spelling n <:+: substitute value ps

section Replace

variable {value : List Char → Option (List Char)} {done : List (List Char)} {p : Piece}
  {n m w x : List Char}

/-- A piece stands as it will in the end, or is a reference that is still to be replaced. -/
theorem fill_among (value : List Char → Option (List Char)) (done : List (List Char)) (p : Piece) :
    p.fill (among done value) = p.fill value ∨
      ∃ m, p = .reference m ∧ m ∉ done ∧ (value m).isSome := by
  cases p with
  | plain c => exact .inl rfl
  | reference m =>
    by_cases pending : m ∉ done ∧ (value m).isSome
    · exact .inr ⟨m, rfl, pending⟩
    · refine .inl (congrArg (Option.getD · (spelling m)) ?_)
      by_cases fresh : m ∉ done
      · have unset : ¬(value m).isSome := fun set => pending ⟨fresh, set⟩
        rw [among, if_neg fresh, Option.not_isSome_iff_eq_none.mp unset]
      · rw [among, if_pos (Decidable.not_not.mp fresh)]

theorem prefix_append_cases {front : List Char} (h : w <+: front ++ rest) :
    w <+: front ∨ ∃ w', w' ≠ [] ∧ w = front ++ w' ∧ w' <+: rest := by
  obtain ⟨behind, same⟩ := h
  obtain ⟨more, rfl, -⟩ | ⟨w', rfl, whole⟩ := List.append_eq_append_iff.mp same
  · exact .inl (List.prefix_append w more)
  · cases w' with
    | nil => exact .inl (by simp)
    | cons c w' => exact .inr ⟨c :: w', List.cons_ne_nil c w', rfl, behind, whole.symm⟩

/-- A closed list that begins the text as it is on the way begins it in the end too, unless a
reference that is still to be replaced ends there. -/
theorem Closed.prefix_substitute (closed : Closed w) (named : ∀ n ∈ names ps, IsName n)
    (h : w <+: substitute (among done value) ps) : w <+: substitute value ps ∨
      ∃ m ∈ names ps, (value m).isSome ∧ spelling m <:+ w := by
  induction ps generalizing w with
  | nil => exact .inl h
  | cons p ps ih =>
    rw [substitute_cons] at h ⊢
    obtain same | ⟨m, rfl, fresh, set⟩ := fill_among value done p
    · rw [same] at h
      obtain inside | ⟨w', ne, rfl, behind⟩ := prefix_append_cases h
      · exact .inl (inside.trans (List.prefix_append _ _))
      · obtain final | ⟨m, hm, set, suffix⟩ := ih (closed.of_suffix (List.suffix_append _ _) ne)
          (fun n hn => named n (mem_names_cons p hn)) behind
        · exact .inl ((List.prefix_append_right_inj _).mpr final)
        · exact .inr ⟨m, mem_names_cons p hm, set, suffix.trans (List.suffix_append _ _)⟩
    · have here : m ∈ names (.reference m :: ps) := List.mem_cons_self
      rw [Piece.fill, among, if_neg fresh, Option.getD_none] at h
      obtain rfl := closed.eq_of_prefix (named m here).closed h
      exact .inr ⟨m, here, set, List.suffix_rfl⟩

/-- The reference to the variable is spelled nowhere but where it stands among the pieces. -/
structure Distinct (value : List Char → Option (List Char)) (n : List Char) (ps : List Piece) :
    Prop where
  named : ∀ m ∈ names ps, IsName m
  inside : ∀ m ∈ names ps, (value m).isSome → spelling m <:+ spelling n → m = n
  around : ∀ m ∈ names ps, (value m).isSome → spelling n <:+ spelling m → n = m
  absent : ¬spelling n <:+: substitute value ps

theorem Distinct.tail (h : Distinct value n (p :: ps)) : Distinct value n ps where
  named m hm := h.named m (mem_names_cons p hm)
  inside m hm := h.inside m (mem_names_cons p hm)
  around m hm := h.around m (mem_names_cons p hm)
  absent found := h.absent (found.trans (List.suffix_append _ _).isInfix)

/-- Where another piece than the reference begins the text as it is on the way, the reference is
spelled from no character of this piece on. -/
theorem Distinct.not_prefix (h : Distinct value n (p :: ps)) (named : IsName n)
    (other : p = .reference n → n ∈ done) {u : List Char} (ne : u ≠ [])
    (back : u <:+ p.fill (among done value)) :
    ¬spelling n <+: u ++ substitute (among done value) ps := by
  intro found
  obtain same | ⟨m, rfl, fresh, set⟩ := fill_among value done p
  · rw [same] at back
    have absent := h.absent
    rw [substitute_cons, List.infix_append_iff, not_or, not_or] at absent
    obtain within | ⟨w, nonempty, spelled, behind⟩ := prefix_append_cases found
    · exact absent.1 (within.isInfix.trans back.isInfix)
    · have part : w <:+ spelling n := spelled ▸ List.suffix_append u w
      obtain final | ⟨m, hm, set, suffix⟩ :=
        (named.closed.of_suffix part nonempty).prefix_substitute h.tail.named behind
      · exact absent.2.2 ⟨u, w, spelled, back, final⟩
      · -- A reference that ends where `n` ends is `n`, but it starts behind `u`.
        obtain rfl := h.tail.inside m hm set (suffix.trans part)
        have long := suffix.length_le
        rw [spelled, List.length_append] at long
        exact ne (List.length_eq_zero_iff.mp (by omega))
  · have here : m ∈ names (.reference m :: ps) := List.mem_cons_self
    rw [Piece.fill, among, if_neg fresh, Option.getD_none] at back
    have closed := (h.named m here).closed.of_suffix back ne
    have spelled := named.closed.eq_of_prefix closed found
    obtain rfl := h.around m here set (spelled ▸ back)
    exact fresh (other rfl)

/-- A name makes no difference that is done already or whose variable is not set. -/
theorem among_cons_of_imp (h : m = n → n ∈ done ∨ value n = none) :
    among (n :: done) value m = among done value m := by
  by_cases same : m = n
  · obtain rfl := same
    obtain old | unset := h rfl
    · rw [among, among, if_pos old, if_pos (List.mem_cons_of_mem m old)]
    · simp [among, unset]
  · simp [among, same]

/-- Replacing the spelling of a reference in the text as it is on the way puts the value in its
place, wherever it is a piece. -/
theorem Distinct.replaceAll_substitute (h : Distinct value n ps) (named : IsName n)
    (set : value n = some x) : Text.replaceAll (spelling n) x (substitute (among done value) ps) =
      substitute (among (n :: done) value) ps := by
  induction ps with
  | nil => rfl
  | cons p ps ih =>
    have tail := ih h.tail
    rw [substitute_cons, substitute_cons]
    by_cases this : p = .reference n ∧ n ∉ done
    · obtain ⟨rfl, fresh⟩ := this
      have before : Piece.fill (among done value) (.reference n) = spelling n := by
        rw [Piece.fill, among, if_neg fresh, Option.getD_none]
      have after : Piece.fill (among (n :: done) value) (.reference n) = x := by
        rw [Piece.fill, among, if_pos List.mem_cons_self, set, Option.getD_some]
      rw [before, after, Text.replaceAll_append named.closed.ne_nil, tail]
    · have other : p = .reference n → n ∈ done := fun same =>
        Decidable.not_not.mp fun fresh => this ⟨same, fresh⟩
      have same : p.fill (among (n :: done) value) = p.fill (among done value) := by
        cases p with
        | plain c => rfl
        | reference m =>
          have same : among (n :: done) value m = among done value m :=
            among_cons_of_imp fun same => .inl (other (congrArg Piece.reference same))
          rw [Piece.fill, Piece.fill, same]
      rw [Text.replaceAll_append_of_not_prefix fun u ne back => h.not_prefix named other ne back,
        tail, same]

/-- The step of `expand`: one reference is replaced if its variable is set. -/
def replace (value : List Char → Option (List Char)) (text n : List Char) : List Char :=
  match value n with
  | some x => Text.replaceAll (spelling n) x text
  | none => text

theorem Settled.distinct (h : Settled value ps) (split : ∀ m ∈ names ps, IsName m)
    (hn : n ∈ names ps) (set : (value n).isSome) : Distinct value n ps where
  named := split
  inside m hm set' := h.apart n hn m hm set set'
  around m hm set' := h.apart m hm n hn set' set
  absent := h.absent n hn set

theorem replace_substitute (split : ∀ m ∈ names ps, IsName m) (settled : Settled value ps)
    (hn : n ∈ names ps) : replace value (substitute (among done value) ps) n =
      substitute (among (n :: done) value) ps := by
  rw [replace]
  cases set : value n with
  | none => exact substitute_congr fun m _ => (among_cons_of_imp fun _ => .inr set).symm
  | some x =>
    have distinct := settled.distinct split hn (by rw [set]; rfl)
    exact distinct.replaceAll_substitute (split n hn) set

theorem foldl_replace (split : ∀ n ∈ names ps, IsName n) (settled : Settled value ps)
    {ns : List (List Char)} (h : ∀ n ∈ ns, n ∈ names ps) :
    ns.foldl (replace value) (substitute (among done value) ps) =
      substitute (among (ns.reverse ++ done) value) ps := by
  induction ns generalizing done with
  | nil => rfl
  | cons n ns ih =>
    rw [List.forall_mem_cons] at h
    rw [List.foldl_cons, replace_substitute split settled h.1, ih h.2]
    simp

end Replace

/-- Names have no dollar, and values are not empty, have no dollar and do not start with a brace. -/
structure Harmless (value : List Char → Option (List Char)) (ps : List Piece) : Prop where
  name : ∀ n ∈ names ps, '$' ∉ n
  nonempty : ∀ n ∈ names ps, value n ≠ some []
  dollar : ∀ n ∈ names ps, ∀ x ∈ value n, '$' ∉ x
  brace : ∀ n ∈ names ps, ∀ x ∈ value n, x.head? ≠ some '{'

section Harmless

variable {value : List Char → Option (List Char)} {p : Piece} {n : List Char}

theorem Harmless.tail (h : Harmless value (p :: ps)) : Harmless value ps where
  name n hn := h.name n (mem_names_cons p hn)
  nonempty n hn := h.nonempty n (mem_names_cons p hn)
  dollar n hn := h.dollar n (mem_names_cons p hn)
  brace n hn := h.brace n (mem_names_cons p hn)

/-- A list that stands in a joined text starts in the first part, or stands in the second. -/
theorem starts_or_infix {α : Type} {l front behind : List α} (h : l <:+: front ++ behind) :
    (∃ u, u ≠ [] ∧ u <:+ front ∧ l <+: u ++ behind) ∨ l <:+: behind := by
  induction front with
  | nil => exact .inr h
  | cons c front ih =>
    obtain here | later := List.infix_cons_iff.mp h
    · exact .inl ⟨c :: front, List.cons_ne_nil c front, List.suffix_rfl, here⟩
    · obtain ⟨u, ne, back, starts⟩ | inside := ih later
      · exact .inl ⟨u, ne, back.trans (List.suffix_cons c front), starts⟩
      · exact .inr inside

/-- A spelling starts with its only dollar if the name has none. -/
theorem eq_spelling_of_suffix {u : List Char} (plain : '$' ∉ name) (back : u <:+ spelling name)
    (dollar : '$' ∈ u) : u = spelling name := by
  obtain whole | part := List.suffix_cons_iff.mp back
  · exact whole
  · have : '$' ∈ '{' :: (name ++ ['}']) := part.mem dollar
    simp [plain] at this

/-- A text without closing braces has no references. -/
theorem Splits.substitute_of_not_mem (split : Splits cs ps) (h : '}' ∉ cs) :
    substitute value ps = cs := by
  induction split with
  | nil => rfl
  | plain _ _ ih => exact congrArg (_ :: ·) (ih fun mem => h (List.mem_cons_of_mem _ mem))
  | reference _ _ _ => exact absurd (by simp [spelling]) h

/-- Where no name in front of a brace starts the text, none starts it in the end. -/
theorem Splits.not_closes (split : Splits cs ps) (named : IsName n)
    (none : ∀ name rest, IsName name → cs ≠ name ++ '}' :: rest) :
    ¬n ++ ['}'] <+: substitute value ps := by
  intro closes
  by_cases closed : '}' ∈ cs
  · obtain ⟨front, behind, rfl, plain⟩ := List.eq_append_cons_of_mem closed
    have empty : front = [] := Decidable.not_not.mp fun ne => none front behind ⟨ne, plain⟩ rfl
    subst empty
    obtain ⟨d, n, rfl⟩ := List.exists_cons_of_ne_nil named.1
    cases split with
    | plain _ _ =>
      obtain rfl := (List.cons_prefix_cons.mp closes).1
      exact named.2 List.mem_cons_self
  · rw [split.substitute_of_not_mem closed] at closes
    exact closed (closes.mem (List.mem_append_right n List.mem_cons_self))

/-- A brace behind a dollar that starts no reference opens no spelling in the end. -/
theorem Splits.not_opens (split : Splits cs ps) (harmless : Harmless value ps) (named : IsName n)
    (none : ∀ name rest, IsName name → '$' :: cs ≠ spelling name ++ rest) :
    ¬ '{' :: (n ++ ['}']) <+: substitute value ps := by
  intro opens
  cases split with
  | nil => cases List.prefix_nil.mp opens
  | @plain c cs ps _ tail =>
    obtain ⟨rfl, closes⟩ := List.cons_prefix_cons.mp opens
    refine tail.not_closes named (fun name rest named' same => ?_) closes
    exact none name rest named' (by simp [spelling, same])
  | @reference m cs ps _ tail =>
    have here : m ∈ names (.reference m :: ps) := List.mem_cons_self
    rw [substitute_cons, Piece.fill] at opens
    cases put : value m with
    | none =>
      rw [put] at opens
      cases (List.cons_prefix_cons.mp opens).1
    | some x =>
      obtain ⟨c, x, rfl⟩ := List.exists_cons_of_ne_nil fun empty =>
        harmless.nonempty m here (empty ▸ put)
      rw [put] at opens
      have brace := (List.cons_prefix_cons.mp opens).1
      exact harmless.brace m here _ put (congrArg some brace.symm)

theorem Splits.not_spelled (split : Splits cs ps) (harmless : Harmless value ps) (named : IsName n)
    (set : (value n).isSome) : ¬spelling n <:+: substitute value ps := by
  induction split with
  | nil => exact fun found => absurd (List.infix_nil.mp found) (List.cons_ne_nil _ _)
  | @plain c cs ps none tail ih =>
    intro found
    obtain here | later := List.infix_cons_iff.mp found
    · obtain ⟨rfl, opens⟩ := List.cons_prefix_cons.mp here
      exact tail.not_opens harmless.tail named none opens
    · exact ih harmless.tail later
  | @reference m cs ps hm tail ih =>
    intro found
    have here : m ∈ names (.reference m :: ps) := List.mem_cons_self
    obtain ⟨u, ne, back, starts⟩ | later := starts_or_infix found
    · -- What starts a spelling has its dollar, which only the spelling of `m` itself can give.
      obtain ⟨c, u, rfl⟩ := List.exists_cons_of_ne_nil ne
      obtain rfl := (List.cons_prefix_cons.mp starts).1
      cases put : value m with
      | some x =>
        rw [Piece.fill, put, Option.getD_some] at back
        exact harmless.dollar m here x put (back.mem List.mem_cons_self)
      | none =>
        rw [Piece.fill, put, Option.getD_none] at back
        rw [eq_spelling_of_suffix (harmless.name m here) back List.mem_cons_self] at starts
        rw [spelling_inj.mp (named.closed.eq_of_prefix hm.closed starts), put] at set
        cases set
    · exact ih harmless.tail later

theorem Harmless.settled (harmless : Harmless value ps) (split : Splits cs ps) :
    Settled value ps where
  apart n hn _ _ _ _ back :=
    spelling_inj.mp (eq_spelling_of_suffix (harmless.name n hn) back List.mem_cons_self)
  absent n hn set := split.not_spelled harmless (split.isName n hn) set

end Harmless

theorem expand_eq (env : Environment) (s : String) : expand env s =
    String.ofList ((references s.toList).foldl (replace (valueIn env)) s.toList) := by
  rw [expand]
  congr 2
  funext text name
  rw [replace, valueIn]
  cases env (String.ofList name) <;> rfl

/-- Where the text is settled, the references may be replaced in any order. -/
theorem foldl_replace_of_settled (split : Splits cs ps) (settled : Settled (valueIn env) ps)
    {ns : List (List Char)} (h : ∀ n, n ∈ ns ↔ n ∈ references cs) :
    ns.foldl (replace (valueIn env)) cs = substitute (valueIn env) ps := by
  rw [split.references_eq] at h
  have start : substitute (among [] (valueIn env)) ps = cs := split.substitute_eq
  have run : ns.foldl (replace (valueIn env)) (substitute (among [] (valueIn env)) ps) = _ :=
    foldl_replace split.isName settled fun n hn => (h n).mp hn
  rw [start, List.append_nil] at run
  rw [run]
  exact substitute_congr fun n hn => if_pos (List.mem_reverse.mpr ((h n).mpr hn))

theorem expand_of_settled {s : String} (split : Splits s.toList ps)
    (settled : Settled (valueIn env) ps) :
    expand env s = String.ofList (substitute (valueIn env) ps) := by
  rw [expand_eq, foldl_replace_of_settled split settled fun n => Iff.rfl]

/-- Without variables a text is kept. -/
theorem expand_of_none (s : String) : expand (fun _ => none) s = s := by
  obtain ⟨ps, split⟩ := exists_splits s.toList
  have settled : Settled (valueIn fun _ => none) ps := ⟨nofun, nofun⟩
  have kept : substitute (valueIn fun _ => none) ps = s.toList := split.substitute_eq
  rw [expand_of_settled split settled, kept, String.ofList_toList]

/-- Every text is split into pieces in one way. If its pieces are settled, as they are where names
and values are harmless, then expanding it puts the values in the places of the references all at
once, and replacing the references in any other order comes to the same. A configuration is then
read from the text that substitution gives. -/
theorem expand_eq_substitute (env : Environment) (s : String) :
    ∃ ps, (Splits s.toList ps ∧ ∀ qs, Splits s.toList qs → qs = ps) ∧
      (Settled (valueIn env) ps ∨ Harmless (valueIn env) ps →
        expand env s = String.ofList (substitute (valueIn env) ps) ∧
        (∀ ns : List (List Char), (∀ n, n ∈ ns ↔ n ∈ references s.toList) →
          ns.foldl (replace (valueIn env)) s.toList = substitute (valueIn env) ps) ∧
        ofText env s = ofText (fun _ => none) (String.ofList (substitute (valueIn env) ps))) := by
  obtain ⟨ps, split⟩ := exists_splits s.toList
  refine ⟨ps, ⟨split, fun qs split' => split.unique split'⟩, fun apart => ?_⟩
  have settled : Settled (valueIn env) ps := apart.elim id fun harmless => harmless.settled split
  have expanded := expand_of_settled split settled
  refine ⟨expanded, fun ns same => foldl_replace_of_settled split settled same, ?_⟩
  rw [ofText, ofText, expand_of_none, expanded]

/-- A setting from one variable, with another one in a comment. -/
def dialectText : String := "compiler.dialect = \"${A}\" # ${B}"

def dialectPieces : List Piece :=
  "compiler.dialect = \"".toList.map .plain ++ .reference ['A'] ::
    ("\" # ".toList.map .plain ++ [.reference ['B']])

theorem splits_dialectText : Splits dialectText.toList dialectPieces := by
  have text : dialectText.toList = "compiler.dialect = \"".toList ++ (spelling ['A'] ++
      ("\" # ".toList ++ (spelling ['B'] ++ []))) := by decide
  rw [text]
  exact .append (by decide) (.reference (by decide)
    (.append (by decide) (.reference (by decide) .nil)))

def dialectValues (a b : Option String) : Environment := fun name =>
  if name = "A" then a else if name = "B" then b else none

theorem expand_eq_substitute_dialect :
    expand (dialectValues (some "mysql") none) dialectText =
      "compiler.dialect = \"mysql\" # ${B}" := by
  obtain ⟨ps, ⟨-, unique⟩, agree⟩ :=
    expand_eq_substitute (dialectValues (some "mysql") none) dialectText
  obtain rfl := unique _ splits_dialectText
  have references : names dialectPieces = [['A'], ['B']] := by decide
  have harmless : Harmless (valueIn (dialectValues (some "mysql") none)) dialectPieces := by
    constructor <;> rw [references] <;> decide
  exact (agree (.inr harmless)).1.trans (by decide)

/-- A value that spells a reference which follows it in the text is expanded too. -/
theorem not_expand_eq_substitute : ¬∀ env s ps, Splits s.toList ps →
    expand env s = String.ofList (substitute (valueIn env) ps) := by
  intro h
  have once := h (dialectValues (some "${B}") (some "mysql")) _ _ splits_dialectText
  have twice : expand (dialectValues (some "${B}") (some "mysql")) dialectText =
      "compiler.dialect = \"mysql\" # mysql" := by decide
  exact absurd (twice.symm.trans once) (by decide)

end Config
end RecordFilter
