import Mathlib.Algebra.GroupWithZero.Nat
import RecordFilter.Decimal.Reading

/-!
# The grammar of numbers in free text

What the readers of numbers accept, said by the shape of the text alone: an integer is an optional
sign and digits, a decimal numeral has digits on at least one side of an optional point and may have
an exponent part. `readInteger?_eq_some_iff` and `readNumeral?_eq_some_iff` say that the readers
accept exactly these texts and give them these values.
-/
namespace RecordFilter.Decimal

/-- A sign in front of a number, and whether it makes the number negative. -/
inductive Sign : Bool → List Char → Prop
  | absent : Sign false []
  | plus : Sign false ['+']
  | minus : Sign true ['-']

/-- The integer with the sign and the size. -/
def signed (negative : Bool) (n : Nat) : Int :=
  if negative then -(n : Int) else n

/-- Digits without a point and an exponent part are the integer with their size. -/
theorem integer_eq_signed (negative : Bool) (ds : List Char) :
    Numeral.integer ⟨negative, ds, none, none⟩ = signed negative (Nat.ofDigitChars 10 ds 0) := by
  simp [Numeral.integer, Numeral.coefficient, Numeral.digits, signed]

def AreDigits (ds : List Char) : Prop := ∀ d ∈ ds, d.isDigit = true

/-- The text is an optional sign and at least one digit, and `i` is the integer that they spell. -/
def SpellsInteger (cs : List Char) (i : Int64) : Prop :=
  ∃ negative sign ds, Sign negative sign ∧ ds ≠ [] ∧ AreDigits ds ∧ cs = sign ++ ds ∧
    i.toInt = signed negative (Nat.ofDigitChars 10 ds 0)

/-- The part of a numeral from the point on: nothing, or the point and digits. -/
inductive Fraction : Option (List Char) → List Char → Prop
  | absent : Fraction none []
  | point {ds : List Char} (digits : AreDigits ds) : Fraction (some ds) ('.' :: ds)

/-- The exponent part of a numeral: nothing, or a letter, an optional sign and digits. -/
inductive ExponentPart : Option Int → List Char → Prop
  | absent : ExponentPart none []
  | letter {c : Char} {negative : Bool} {sign ds : List Char} (letter : c = 'e' ∨ c = 'E')
      (signs : Sign negative sign) (nonempty : ds ≠ []) (digits : AreDigits ds) :
      ExponentPart (some (signed negative (Nat.ofDigitChars 10 ds 0))) (c :: (sign ++ ds))

/-- The text is the numeral: its sign, whole digits, fraction and exponent part in this order, with
a digit before or after the point. -/
def SpellsNumeral (cs : List Char) (n : Numeral) : Prop :=
  ∃ sign point power, Sign n.negative sign ∧ AreDigits n.whole ∧ Fraction n.fraction point ∧
    ExponentPart n.exponent power ∧ n.digits ≠ [] ∧ cs = sign ++ (n.whole ++ (point ++ power))

theorem exists_takeSign (cs : List Char) :
    ∃ sign, Sign (takeSign cs).1 sign ∧ cs = sign ++ (takeSign cs).2 := by
  fun_cases takeSign cs with
  | case1 cs => exact ⟨['+'], .plus, rfl⟩
  | case2 cs =>
    fun_cases takeMinus cs with
    | case1 cs => exact ⟨['-'], .minus, rfl⟩
    | case2 cs => exact ⟨[], .absent, rfl⟩

theorem takeSign_append {negative : Bool} {sign body : List Char} (h : Sign negative sign)
    (hbody : ∀ c ∈ body.head?, c ≠ '+' ∧ c ≠ '-') : takeSign (sign ++ body) = (negative, body) := by
  cases h with
  | plus => rfl
  | minus => rfl
  | absent =>
    rw [List.nil_append, takeSign.eq_def]
    split
    · exact absurd rfl (hbody '+' rfl).1
    · rw [takeMinus.eq_def]
      split
      · exact absurd rfl (hbody '-' rfl).2
      · rfl

theorem areDigits_of_takeDigits {cs ds rest : List Char} (h : takeDigits cs = (ds, rest)) :
    AreDigits ds ∧ cs = ds ++ rest := by
  have parts := takeDigits_append cs
  rw [h] at parts
  have digits : AreDigits (takeDigits cs).1 := fun _ => isDigit_of_mem_takeDigits
  rw [h] at digits
  exact ⟨digits, parts.symm⟩

/-- A text whose digits after the sign are read is the sign, the digits, and what is left. -/
theorem exists_sign_of_takeDigits {cs ds rest : List Char}
    (h : takeDigits (takeSign cs).2 = (ds, rest)) :
    ∃ sign, Sign (takeSign cs).1 sign ∧ AreDigits ds ∧ cs = sign ++ (ds ++ rest) := by
  obtain ⟨sign, hsign, hcs⟩ := exists_takeSign cs
  obtain ⟨digits, parts⟩ := areDigits_of_takeDigits h
  exact ⟨sign, hsign, digits, parts ▸ hcs⟩

theorem takeDigits_of_areDigits {ds rest : List Char} (hds : AreDigits ds)
    (hrest : ∀ c ∈ rest.head?, c.isDigit = false) : takeDigits (ds ++ rest) = (ds, rest) := by
  induction ds with
  | nil =>
    cases rest with
    | nil => rfl
    | cons c rest =>
      have hc : c.isDigit = false := hrest c rfl
      simp [takeDigits, hc]
  | cons d ds ih =>
    have hd : d.isDigit = true := hds d List.mem_cons_self
    have tail := ih fun c hc => hds c (List.mem_cons_of_mem d hc)
    simpa [takeDigits, hd] using tail

theorem takeDigits_eq_self {ds : List Char} (h : AreDigits ds) : takeDigits ds = (ds, []) := by
  have whole : takeDigits (ds ++ []) = (ds, []) := takeDigits_of_areDigits h (by simp)
  rwa [List.append_nil] at whole

theorem areDigits_toDigits (n : Nat) : AreDigits (Nat.toDigits 10 n) :=
  fun _ hd => Nat.isDigit_of_mem_toDigits (by decide) (by decide) hd

theorem digit_le {d : Char} (h : d.isDigit = true) : d.toNat - '0'.toNat ≤ 9 := by
  rw [Char.isDigit, Bool.and_eq_true, decide_eq_true_eq, decide_eq_true_eq] at h
  have := UInt32.le_iff_toNat_le.mp h.2
  change d.toNat ≤ 57 at this
  change d.toNat - 48 ≤ 9
  omega

theorem ofDigitChars_lt {ds : List Char} (h : AreDigits ds) (n : Nat) :
    Nat.ofDigitChars 10 ds n < (n + 1) * 10 ^ ds.length := by
  induction ds generalizing n with
  | nil =>
    rw [Nat.ofDigitChars_nil]
    simp
  | cons d ds ih =>
    obtain ⟨digit, digits⟩ := List.forall_mem_cons.mp h
    have last := digit_le digit
    rw [Nat.ofDigitChars_cons, List.length_cons]
    calc _ < (10 * n + (d.toNat - '0'.toNat) + 1) * 10 ^ ds.length := ih digits _
      _ ≤ ((n + 1) * 10) * 10 ^ ds.length := Nat.mul_le_mul_right _ (by omega)
      _ = (n + 1) * 10 ^ (ds.length + 1) := by rw [Nat.pow_succ', Nat.mul_assoc]

/-- A digit is no sign. -/
theorem not_sign_of_areDigits {ds : List Char} (h : AreDigits ds) :
    ∀ c ∈ ds.head?, c ≠ '+' ∧ c ≠ '-' := by
  intro c hc
  have digit : c.isDigit = true := h c (List.mem_of_mem_head? hc)
  constructor
  · rintro rfl
    exact absurd digit (by decide)
  · rintro rfl
    exact absurd digit (by decide)

/-- The integers with a sign that 64 bits hold are those that some such number is. -/
theorem fitsInt64_iff {i : Int} : fitsInt64 i = true ↔ ∃ n : Int64, n.toInt = i := by
  simp only [fitsInt64, Bool.and_eq_true, decide_eq_true_eq]
  constructor
  · rintro ⟨low, high⟩
    exact ⟨Int64.ofInt i, Int64.toInt_ofInt_of_le low (Int.lt_add_one_iff.mpr high)⟩
  · rintro ⟨n, rfl⟩
    exact ⟨n.minValue_le_toInt, n.toInt_le⟩

theorem readInteger?_eq (s : String) :
    readInteger? s = match takeDigits (takeSign s.toList).2 with
      | (d :: ds, []) =>
          if fitsInt64 (signed (takeSign s.toList).1 (Nat.ofDigitChars 10 (d :: ds) 0)) then
            some (Int64.ofInt (signed (takeSign s.toList).1 (Nat.ofDigitChars 10 (d :: ds) 0)))
          else none
      | _ => none := rfl

/-- `readInteger?` reads exactly the texts that spell an integer of 64 bits. -/
theorem readInteger?_eq_some_iff {s : String} {i : Int64} :
    readInteger? s = some i ↔ SpellsInteger s.toList i := by
  constructor
  · intro h
    rw [readInteger?_eq] at h
    split at h
    · next d ds hd =>
      obtain ⟨sign, hsign, digits, hs⟩ := exists_sign_of_takeDigits hd
      rw [List.append_nil] at hs
      split at h
      · next fits =>
        obtain ⟨n, hn⟩ := fitsInt64_iff.mp fits
        rw [← hn, Int64.ofInt_toInt, Option.some_inj] at h
        subst h
        exact ⟨_, sign, d :: ds, hsign, List.cons_ne_nil d ds, digits, hs, hn⟩
      · cases h
    · cases h
  · rintro ⟨negative, sign, ds, hsign, nonempty, digits, hs, hi⟩
    rw [readInteger?_eq, hs, takeSign_append hsign (not_sign_of_areDigits digits)]
    obtain ⟨d, ds, rfl⟩ := List.exists_cons_of_ne_nil nonempty
    have fits : fitsInt64 i.toInt = true := fitsInt64_iff.mpr ⟨i, rfl⟩
    simp only [takeDigits_eq_self digits, ← hi, if_pos fits, Int64.ofInt_toInt]

/-- An exponent part is read to the end exactly if it is one. -/
theorem takeExponent_eq_some_nil_iff {cs : List Char} {e : Option Int} :
    takeExponent cs = some (e, []) ↔ ExponentPart e cs := by
  constructor
  · intro h
    cases cs with
    | nil =>
      cases h
      exact .absent
    | cons c cs =>
      rw [takeExponent] at h
      split at h
      · next letter =>
        simp only at h
        split at h
        · cases h
        · next ds rest nonempty hd =>
          obtain ⟨sign, hsign, digits, hcs⟩ := exists_sign_of_takeDigits hd
          have part := ExponentPart.letter letter hsign nonempty digits
          cases h
          rw [List.append_nil] at hcs
          rw [← hcs] at part
          exact part
      · cases h
  · intro h
    cases h with
    | absent => rfl
    | @letter c negative sign ds letter hsign nonempty digits =>
      obtain ⟨d, ds, rfl⟩ := List.exists_cons_of_ne_nil nonempty
      rw [takeExponent, if_pos letter, takeSign_append hsign (not_sign_of_areDigits digits)]
      simp only [takeDigits_eq_self digits]
      rfl

theorem ExponentPart.head {e : Option Int} {power : List Char} (h : ExponentPart e power) :
    ∀ c ∈ power.head?, c = 'e' ∨ c = 'E' := by
  cases h with
  | absent => simp
  | letter letter => simpa using letter

/-- The digits after a leading point, if there is one, and what follows them. -/
def takeFraction (cs : List Char) : Option (List Char) × List Char :=
  match cs with
  | '.' :: cs => (some (takeDigits cs).1, (takeDigits cs).2)
  | cs => (none, cs)

theorem exists_takeFraction (cs : List Char) :
    ∃ point, Fraction (takeFraction cs).1 point ∧ cs = point ++ (takeFraction cs).2 := by
  fun_cases takeFraction cs with
  | case1 cs =>
    obtain ⟨digits, parts⟩ := areDigits_of_takeDigits (Prod.eta (takeDigits cs)).symm
    exact ⟨'.' :: (takeDigits cs).1, .point digits, congrArg ('.' :: ·) parts⟩
  | case2 cs => exact ⟨[], .absent, rfl⟩

theorem takeFraction_append {fraction : Option (List Char)} {point rest : List Char}
    (h : Fraction fraction point) (hrest : ∀ c ∈ rest.head?, c = 'e' ∨ c = 'E') :
    takeFraction (point ++ rest) = (fraction, rest) := by
  cases h with
  | absent =>
    rw [List.nil_append, takeFraction.eq_def]
    split
    · exact absurd (hrest '.' rfl) (by decide)
    · rfl
  | point digits =>
    have after : ∀ c ∈ rest.head?, c.isDigit = false := by
      intro c hc
      rcases hrest c hc with rfl | rfl <;> decide
    rw [List.cons_append, takeFraction, takeDigits_of_areDigits digits after]

theorem Fraction.head {fraction : Option (List Char)} {point rest : List Char}
    (h : Fraction fraction point) (hrest : ∀ c ∈ rest.head?, c = 'e' ∨ c = 'E') :
    ∀ c ∈ (point ++ rest).head?, c = '.' ∨ c = 'e' ∨ c = 'E' := by
  cases h with
  | absent => exact fun c hc => .inr (hrest c hc)
  | point => simp

theorem readNumeral?_eq (s : String) :
    readNumeral? s =
      let whole := takeDigits (takeSign s.toList).2
      let fraction := takeFraction whole.2
      if whole.1.isEmpty && (fraction.1.getD []).isEmpty then none
      else match takeExponent fraction.2 with
        | some (exponent, []) => some ⟨(takeSign s.toList).1, whole.1, fraction.1, exponent⟩
        | _ => none := rfl

/-- `readNumeral?` reads exactly the texts that spell a decimal numeral. -/
theorem readNumeral?_eq_some_iff {s : String} {n : Numeral} :
    readNumeral? s = some n ↔ SpellsNumeral s.toList n := by
  constructor
  · intro h
    obtain ⟨sign, hsign, whole, hs⟩ :=
      exists_sign_of_takeDigits (Prod.eta (takeDigits (takeSign s.toList).2)).symm
    obtain ⟨point, hpoint, hcs⟩ := exists_takeFraction (takeDigits (takeSign s.toList).2).2
    simp only [readNumeral?_eq] at h
    split at h
    · cases h
    · next nonempty =>
      split at h
      · next exponent he =>
        cases h
        rw [takeExponent_eq_some_nil_iff] at he
        refine ⟨sign, point, _, hsign, whole, hpoint, he, ?_, ?_⟩
        · simpa [Numeral.digits] using nonempty
        · rw [← hcs]
          exact hs
      · cases h
  · rintro ⟨sign, point, power, hsign, whole, hpoint, hpower, nonempty, hs⟩
    have after := hpoint.head hpower.head
    have unsigned : ∀ c ∈ (n.whole ++ (point ++ power)).head?, c ≠ '+' ∧ c ≠ '-' := by
      cases hw : n.whole with
      | nil =>
        intro c hc
        rcases after c hc with rfl | rfl | rfl <;> decide
      | cons d ds => exact fun c hc => not_sign_of_areDigits whole c (hw ▸ hc)
    have closing : ∀ c ∈ (point ++ power).head?, c.isDigit = false := by
      intro c hc
      rcases after c hc with rfl | rfl | rfl <;> decide
    rw [readNumeral?_eq, hs, takeSign_append hsign unsigned]
    simp only [takeDigits_of_areDigits whole closing, takeFraction_append hpoint hpower.head,
      takeExponent_eq_some_nil_iff.mpr hpower]
    rw [if_neg]
    simpa [Numeral.digits] using nonempty

/-- A number that is written as a name is not finite. -/
theorem not_isFinite_of_readNamedFloat? {s : String} {x : Float}
    (h : readNamedFloat? s = some x) : x.isFinite = false := by
  simp only [readNamedFloat?] at h
  split at h
  · cases h
    split <;> decide
  · cases h
    split <;> decide
  · cases h
    decide
  · cases h

/-- The finite numbers that are read are those that a decimal numeral spells. -/
theorem readFloat?_isFinite_iff {s : String} {x : Float} :
    readFloat? s = some x ∧ x.isFinite = true ↔
      (∃ n, SpellsNumeral s.toList n ∧ n.toFloat = x) ∧ x.isFinite = true := by
  simp only [← readNumeral?_eq_some_iff]
  cases h : readNumeral? s with
  | some n => simp [readFloat?, h]
  | none =>
    simp only [readFloat?, h]
    constructor
    · rintro ⟨named, finite⟩
      rw [not_isFinite_of_readNamedFloat? named] at finite
      cases finite
    · rintro ⟨⟨n, spelled, -⟩, -⟩
      cases spelled

end RecordFilter.Decimal
