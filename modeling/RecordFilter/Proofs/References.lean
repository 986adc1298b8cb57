import RecordFilter.Config.Basic

/-!
# References in configuration texts

A text is split into references and single characters, the references from left to right where one
can start. It is split in one way, and the scan finds the references among its pieces
(`Splits.references_eq`). Substitution puts values in the places of the references, all at once.
-/
namespace RecordFilter.Config

/-- The names of variables in references. -/
def IsName (name : List Char) : Prop := name ≠ [] ∧ '}' ∉ name

instance (name : List Char) : Decidable (IsName name) :=
  inferInstanceAs (Decidable (name ≠ [] ∧ '}' ∉ name))

/-- A piece of a text: a character, or a reference to a variable. -/
inductive Piece where
  | plain (c : Char)
  | reference (name : List Char)

/-- The text consists of the pieces: of a reference wherever one can start, and of characters. -/
inductive Splits : List Char → List Piece → Prop
  | nil : Splits [] []
  | plain {c : Char} {cs : List Char} {ps : List Piece}
      (none : ∀ name rest, IsName name → c :: cs ≠ spelling name ++ rest) (tail : Splits cs ps) :
      Splits (c :: cs) (.plain c :: ps)
  | reference {name cs : List Char} {ps : List Piece} (named : IsName name) (tail : Splits cs ps) :
      Splits (spelling name ++ cs) (.reference name :: ps)

/-- A piece with a value in the place of a reference, or with its spelling if there is none. -/
def Piece.fill (value : List Char → Option (List Char)) : Piece → List Char
  | plain c => [c]
  | reference name => (value name).getD (spelling name)

/-- The values that variables have in an environment. -/
def valueIn (env : Environment) (name : List Char) : Option (List Char) :=
  (env (String.ofList name)).map String.toList

/-- The pieces with values in the places of their references, all at once. -/
def substitute (value : List Char → Option (List Char)) (ps : List Piece) : List Char :=
  ps.flatMap (Piece.fill value)

theorem substitute_cons (value : List Char → Option (List Char)) (p : Piece) (ps : List Piece) :
    substitute value (p :: ps) = p.fill value ++ substitute value ps := rfl

def names (ps : List Piece) : List (List Char) :=
  ps.filterMap fun
    | .plain _ => none
    | .reference name => some name

variable {cs rest : List Char} {ps qs : List Piece} {name : List Char}

/-- The list ends with its only closing brace, as spellings do. -/
def Closed (cs : List Char) : Prop := ∃ front, '}' ∉ front ∧ cs = front ++ ['}']

theorem IsName.closed (h : IsName name) : Closed (spelling name) :=
  ⟨'$' :: '{' :: name, by simp [h.2], rfl⟩

theorem Closed.ne_nil (h : Closed cs) : cs ≠ [] := by
  obtain ⟨front, -, rfl⟩ := h
  exact List.append_ne_nil_of_right_ne_nil front (List.cons_ne_nil _ _)

/-- Two texts that start with closed lists have the same one. -/
theorem Closed.append_inj {cs' rest' : List Char} (h : Closed cs) (h' : Closed cs')
    (same : cs ++ rest = cs' ++ rest') : cs = cs' ∧ rest = rest' := by
  obtain ⟨front, plain, rfl⟩ := h
  obtain ⟨front', plain', rfl⟩ := h'
  simp only [List.append_assoc, List.singleton_append] at same
  rw [List.append_eq_append_iff] at same
  obtain ⟨between, rfl, same⟩ | ⟨between, rfl, same⟩ := same <;> cases between with
  | nil => simpa [eq_comm] using same
  | cons c between => simp_all

theorem Closed.eq_of_prefix {cs' : List Char} (h : Closed cs) (h' : Closed cs')
    (front : cs <+: cs' ++ rest) : cs = cs' := by
  obtain ⟨behind, same⟩ := front
  exact (h.append_inj h' same).1

theorem Closed.of_suffix {cs' : List Char} (h : Closed cs) (back : cs' <:+ cs) (ne : cs' ≠ []) :
    Closed cs' := by
  obtain ⟨front, plain, rfl⟩ := h
  obtain rfl | ⟨front', rfl, part⟩ := List.suffix_concat_iff.mp back
  · exact absurd rfl ne
  · exact ⟨front', fun mem => plain (part.mem mem), rfl⟩

theorem spelling_inj {name' : List Char} : spelling name = spelling name' ↔ name = name' := by
  simp [spelling]

/-- Every text can be split: at a reference behind it, and else behind the first character. -/
theorem exists_splits_of_length_le (n : Nat) (cs : List Char) (h : cs.length ≤ n) :
    ∃ ps, Splits cs ps := by
  induction n generalizing cs with
  | zero =>
    obtain rfl := List.length_eq_zero_iff.mp (Nat.le_zero.mp h)
    exact ⟨[], .nil⟩
  | succ n ih =>
    by_cases starts : ∃ name rest, IsName name ∧ cs = spelling name ++ rest
    · obtain ⟨name, rest, named, rfl⟩ := starts
      have shorter : rest.length ≤ n := by
        simp only [spelling, List.length_append, List.length_cons] at h
        omega
      obtain ⟨ps, tail⟩ := ih rest shorter
      exact ⟨_, .reference named tail⟩
    · cases cs with
      | nil => exact ⟨[], .nil⟩
      | cons c cs =>
        obtain ⟨ps, tail⟩ := ih cs (Nat.le_of_succ_le_succ h)
        exact ⟨_, .plain (fun name rest named same => starts ⟨name, rest, named, same⟩) tail⟩

theorem exists_splits (cs : List Char) : ∃ ps, Splits cs ps :=
  exists_splits_of_length_le cs.length cs (Nat.le_refl _)

theorem Splits.unique (h : Splits cs ps) (h' : Splits cs qs) : qs = ps := by
  induction h generalizing qs with
  | nil =>
    generalize same : [] = cs' at h'
    cases h' with
    | nil => rfl
    | plain | reference => cases same
  | @plain c cs ps none tail ih =>
    generalize same : c :: cs = cs' at h'
    cases h' with
    | nil => cases same
    | plain none' tail' =>
      cases same
      rw [ih tail']
    | reference named tail' => exact absurd same (none _ _ named)
  | @reference name cs ps named tail ih =>
    generalize same : spelling name ++ cs = cs' at h'
    cases h' with
    | nil => cases same
    | plain none' tail' => exact absurd same.symm (none' _ _ named)
    | reference named' tail' =>
      obtain ⟨spelled, rfl⟩ := named.closed.append_inj named'.closed same
      rw [spelling_inj.mp spelled, ih tail']

/-- Characters that are no dollar start no reference. -/
theorem Splits.append {front : List Char} (h : '$' ∉ front) (tail : Splits cs ps) :
    Splits (front ++ cs) (front.map .plain ++ ps) := by
  induction front with
  | nil => exact tail
  | cons c front ih =>
    rw [List.mem_cons, not_or] at h
    exact .plain (fun _ _ _ same => h.1 (List.cons.inj same).1.symm) (ih h.2)

theorem Splits.substitute_eq (h : Splits cs ps) : substitute (fun _ => none) ps = cs := by
  induction h with
  | nil => rfl
  | plain _ _ ih => exact congrArg (_ :: ·) ih
  | reference _ _ ih => exact congrArg (spelling _ ++ ·) ih

theorem mem_names_cons (p : Piece) (h : name ∈ names ps) :
    name ∈ names (p :: ps) := by
  cases p with
  | plain c => exact h
  | reference m => exact List.mem_cons_of_mem m h

theorem Splits.isName (h : Splits cs ps) : ∀ n ∈ names ps, IsName n := by
  induction h with
  | nil => exact nofun
  | plain _ _ ih => exact ih
  | reference named _ ih => exact List.forall_mem_cons.mpr ⟨named, ih⟩

theorem substitute_congr {value value' : List Char → Option (List Char)}
    (h : ∀ n ∈ names ps, value n = value' n) :
    substitute value ps = substitute value' ps := by
  induction ps with
  | nil => rfl
  | cons p ps ih =>
    cases p with
    | plain c => exact congrArg (c :: ·) (ih h)
    | reference n =>
      have here : value n = value' n := h n List.mem_cons_self
      have behind := ih fun n hn => h n (List.mem_cons_of_mem _ hn)
      rw [substitute_cons, substitute_cons, Piece.fill, Piece.fill, here, behind]

section Scan

variable {done : List (List Char)} {c : Char}

theorem referencesFrom_append_of_length (front : List Char) :
    referencesFrom done front.length (front ++ rest) = referencesFrom done 0 rest := by
  induction front with
  | nil => rfl
  | cons c front ih => exact ih

theorem referencesFrom_spelling (named : IsName name) :
    referencesFrom done 0 (spelling name ++ rest) = referencesFrom (name :: done) 0 rest := by
  have taken : (name ++ '}' :: rest).takeWhile (· != '}') = name := by
    rw [List.takeWhile_append_of_pos fun c hc => ?_]
    · simp
    · exact bne_iff_ne.mpr fun same => named.2 (same ▸ hc)
  have front : spelling name ++ rest = '$' :: '{' :: (name ++ '}' :: rest) := by simp [spelling]
  have body : '{' :: (name ++ '}' :: rest) = ('{' :: (name ++ ['}'])) ++ rest := by simp
  have size : name.length + 2 = ('{' :: (name ++ ['}'])).length := by simp
  have found : ¬(name.isEmpty || name.length == (name ++ '}' :: rest).length) = true := by
    simp [named.1]
  rw [front, referencesFrom]
  simp only [taken, if_neg found]
  rw [body, size, referencesFrom_append_of_length]

theorem referencesFrom_cons_of_ne (h : ∀ rest, c :: cs ≠ '$' :: '{' :: rest) :
    referencesFrom done 0 (c :: cs) = referencesFrom done 0 cs := by
  rw [referencesFrom]
  rintro rest rfl rfl
  exact h rest rfl

/-- The name that the scan finds is closed by a brace. -/
theorem exists_isName_of_takeWhile (found : ¬((rest.takeWhile (· != '}')).isEmpty ||
    (rest.takeWhile (· != '}')).length == rest.length) = true) :
    ∃ name behind, IsName name ∧ rest = name ++ '}' :: behind := by
  simp only [Bool.or_eq_true, not_or, List.isEmpty_iff, beq_iff_eq] at found
  have parts := List.takeWhile_append_dropWhile (p := (· != '}')) (l := rest)
  have named : IsName (rest.takeWhile (· != '}')) := by
    refine ⟨found.1, fun mem => ?_⟩
    simpa using List.all_eq_true.mp List.all_takeWhile _ mem
  cases behind : rest.dropWhile (· != '}') with
  | nil =>
    rw [behind, List.append_nil] at parts
    exact absurd (congrArg List.length parts) found.2
  | cons c behind' =>
    have some : rest.dropWhile (· != '}') ≠ [] := by simp [behind]
    have first := List.head_dropWhile_not (· != '}') some
    obtain rfl : c = '}' := by simpa [behind] using first
    exact ⟨_, behind', named, by rw [← behind, parts]⟩

theorem referencesFrom_cons (none : ∀ name rest, IsName name → c :: cs ≠ spelling name ++ rest) :
    referencesFrom done 0 (c :: cs) = referencesFrom done 0 cs := by
  by_cases opens : ∃ rest, c :: cs = '$' :: '{' :: rest
  · obtain ⟨rest, same⟩ := opens
    cases same
    have skipped : referencesFrom done 0 ('{' :: rest) = referencesFrom done 0 rest :=
      referencesFrom_cons_of_ne fun _ same => by cases same
    rw [referencesFrom, skipped]
    split
    · rfl
    · next found =>
      obtain ⟨name, behind, named, rfl⟩ := exists_isName_of_takeWhile found
      exact absurd (by simp [spelling]) (none name behind named)
  · exact referencesFrom_cons_of_ne (not_exists.mp opens)

theorem Splits.referencesFrom_eq (h : Splits cs ps) (done : List (List Char)) :
    referencesFrom done 0 cs = done.reverse ++ names ps := by
  induction h generalizing done with
  | nil => exact (List.append_nil _).symm
  | plain none _ ih => exact (referencesFrom_cons none).trans (ih done)
  | @reference name cs ps named _ ih =>
    have once : names (.reference name :: ps) = name :: names ps := rfl
    rw [referencesFrom_spelling named, ih, once]
    simp

/-- The references of a text are those among its pieces. -/
theorem Splits.references_eq (h : Splits cs ps) : references cs = names ps :=
  h.referencesFrom_eq []

end Scan

end RecordFilter.Config
