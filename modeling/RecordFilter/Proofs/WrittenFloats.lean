import RecordFilter.Proofs.JsonText
import RecordFilter.Proofs.Shortest

/-!
# Written floating-point numbers

Every finite floating-point number is written as a numeral that is read as some floating-point
number, though perhaps not as the same one. Only numerals with a positive power of ten can be out of
range, and the shortest decimals are not. So the text of any number is scanned as its document, and
this is given some value (`Number.scans`, `Number.isSome_ofDocument?`).
-/
namespace RecordFilter.Json

open Decimal (AreDigits ExponentPart Fraction Layout Numeral Point Sign digit_le dropTrailingZeros
  ofDigitChars_lt scientific signed)

theorem le_ofDigitChars (ds : List Char) (n : Nat) : n ≤ Nat.ofDigitChars 10 ds n := by
  induction ds generalizing n with
  | nil => exact Nat.le_of_eq Nat.ofDigitChars_nil.symm
  | cons d ds ih =>
    rw [Nat.ofDigitChars_cons]
    exact Nat.le_trans (by omega) (ih _)

/-- Digits are all gathered if 64 bits hold the number that they spell. -/
theorem gather_eq {ds : List Char} {n : Nat} (h : Nat.ofDigitChars 10 ds n < UInt64.size) :
    gather n ds = (Nat.ofDigitChars 10 ds n, []) := by
  induction ds generalizing n with
  | nil => rw [gather, Nat.ofDigitChars_nil]
  | cons d ds ih =>
    rw [Nat.ofDigitChars_cons, Nat.mul_comm] at h ⊢
    have fits : n * 10 + (d.toNat - '0'.toNat) < UInt64.size :=
      Nat.lt_of_le_of_lt (le_ofDigitChars ds _) h
    rw [gather]
    simp only [if_pos fits, ih h]

theorem length_gather_le (ds : List Char) (n : Nat) : (gather n ds).2.length ≤ ds.length := by
  induction ds generalizing n with
  | nil => rfl
  | cons d ds ih =>
    rw [gather]
    split
    · exact Nat.le_succ_of_le (ih _)
    · exact Nat.le_refl _

/-- A first digit is gathered if there is room for one. -/
theorem length_gather_cons_le {d : Char} {ds : List Char} {n : Nat} (digit : d.isDigit = true)
    (room : n * 10 + 9 < UInt64.size) : (gather n (d :: ds)).2.length ≤ ds.length := by
  have fits : n * 10 + (d.toNat - '0'.toNat) < UInt64.size :=
    Nat.lt_of_le_of_lt (Nat.add_le_add_left (digit_le digit) _) room
  rw [gather]
  simp only [if_pos fits]
  exact length_gather_le ds _

/-- A division is never out of range. -/
theorem isSome_scaled?_of_neg (x : Float) {e : Int} (h : e < 0) : (scaled? x e).isSome = true := by
  fun_induction scaled? x e with
  | case1 | case2 | case3 | case4 => omega
  | case5 => rfl
  | case6 => rfl
  | case7 x e _ _ small _ ih => exact ih (by omega)

/-- A power of ten that is held is in range if the product is. -/
theorem isSome_scaled?_of_le (x : Float) {k : Nat} (h : k ≤ 308)
    (finite : (x * tenPower k).isInf = false) : (scaled? x k).isSome = true := by
  rw [scaled?, if_neg (by omega), if_pos (Int.natCast_nonneg k), Int.toNat_natCast]
  simp only [finite]
  rfl

/-- A numeral with a fraction and no exponent part is in range if its whole part is short. -/
theorem isSome_magnitude?_of_fraction {negative : Bool} {whole ds : List Char}
    (digits : AreDigits whole) (short : whole.length ≤ 16) (places : AreDigits ds)
    (nonempty : ds ≠ []) : (magnitude? ⟨negative, whole, some ds, none⟩).isSome = true := by
  obtain ⟨d, ds, rfl⟩ := List.exists_cons_of_ne_nil nonempty
  have small : Nat.ofDigitChars 10 whole 0 < 10 ^ 16 := by
    have below := ofDigitChars_lt digits 0
    rw [Nat.zero_add, Nat.one_mul] at below
    exact Nat.lt_of_lt_of_le below (Nat.pow_le_pow_right (by decide) short)
  have gathered := gather_eq (small.trans (by decide : 10 ^ 16 < UInt64.size))
  have fewer : (gather (Nat.ofDigitChars 10 whole 0) (d :: ds)).2.length ≤ ds.length :=
    length_gather_cons_le (places d List.mem_cons_self) (by simp only [UInt64.size]; omega)
  rw [magnitude?, gathered]
  simp only [Option.getD_some, Option.getD_none, Int.natAbs_zero, List.length_nil]
  rw [if_neg (by decide)]
  refine isSome_scaled?_of_neg _ ?_
  rw [List.length_cons]
  omega

theorem exponentLimit_eq : exponentLimit = 2 ^ 31 - 1 := rfl

/-- A numeral with an exponent part is in range if it is so as a decimal. -/
theorem isSome_magnitude?_of_exponent {negative : Bool} {whole : List Char}
    {fraction : Option (List Char)} {e : Int} {c zeros : Nat} {p : Point} (inRange : p.InRange)
    (positive : 0 < c) (value : Nat.ofDigitChars 10 (whole ++ fraction.getD []) 0 = c)
    (same : c * 10 ^ zeros = p.digits) (power : e - (fraction.getD []).length = p.exponent + zeros)
    (short : (fraction.getD []).length ≤ 17) :
    (magnitude? ⟨negative, whole, fraction, some e⟩).isSome = true := by
  have atMost := (Nat.le_mul_of_pos_right c (Nat.pow_pos (n := zeros) (by decide))).trans
    (same.trans_le inRange.digits)
  have fits : c < UInt64.size := Nat.lt_of_le_of_lt atMost (by decide)
  rw [Nat.ofDigitChars_append] at value
  have all : Nat.ofDigitChars 10 whole 0 < UInt64.size :=
    Nat.lt_of_le_of_lt ((le_ofDigitChars _ _).trans_eq value) fits
  rw [magnitude?, gather_eq all]
  simp only [gather_eq (value.trans_lt fits), value, Option.getD_some, List.length_nil,
    Nat.sub_zero]
  have shift : ((0 : Nat) : Int) - ((fraction.getD []).length : Nat) + e = p.exponent + zeros := by
    omega
  rw [shift]
  obtain below | above := Int.lt_or_le (p.exponent + zeros) 0
  · split
    · next large =>
      rw [exponentLimit_eq] at large
      rw [if_pos (.inr (by omega))]
      rfl
    · exact isSome_scaled?_of_neg _ below
  · obtain ⟨k, hk⟩ := Int.eq_ofNat_of_zero_le above
    obtain ⟨small, finite⟩ := inRange.finite c zeros k positive same hk
    rw [if_neg (by rw [exponentLimit_eq]; omega), hk]
    exact isSome_scaled?_of_le _ small finite

theorem dropTrailingZeros_zero (ds : List Char) :
    dropTrailingZeros (ds ++ ['0']) = dropTrailingZeros ds := by
  simp [dropTrailingZeros]

theorem dropTrailingZeros_of_ne {d : Char} (h : d ≠ '0') (ds : List Char) :
    dropTrailingZeros (ds ++ [d]) = ds ++ [d] := by
  simp [dropTrailingZeros, h]

/-- Without the zeros at the end, the digits of a number are those of another one. -/
theorem exists_dropTrailingZeros (n : Nat) : ∃ c zeros,
    dropTrailingZeros (Nat.toDigits 10 n) = Nat.toDigits 10 c ∧ c * 10 ^ zeros = n ∧
      (Nat.toDigits 10 n).length = (Nat.toDigits 10 c).length + zeros := by
  induction n using Nat.strongRecOn with
  | ind n ih =>
    obtain small | large := Nat.lt_or_ge n 10
    · have kept : ∀ m < 10, dropTrailingZeros (Nat.toDigits 10 m) = Nat.toDigits 10 m := by decide
      exact ⟨n, 0, kept n small, Nat.mul_one n, rfl⟩
    · have digits := Nat.toDigits_of_base_le (by decide) large
      obtain last | last := Nat.eq_zero_or_pos (n % 10)
      · obtain ⟨c, zeros, dropped, same, length⟩ := ih (n / 10) (by omega)
        refine ⟨c, zeros + 1, ?_, ?_, ?_⟩
        · rw [digits, last]
          exact (dropTrailingZeros_zero _).trans dropped
        · rw [Nat.pow_succ, ← Nat.mul_assoc, same]
          omega
        · rw [digits, List.length_append, length]
          rfl
      · have nonzero : ∀ m < 10, 0 < m → Nat.digitChar m ≠ '0' := by decide
        have kept := dropTrailingZeros_of_ne (nonzero _ (Nat.mod_lt n (by decide)) last)
          (Nat.toDigits 10 (n / 10))
        exact ⟨n, 0, digits ▸ kept, Nat.mul_one n, rfl⟩

/-- The characters are the numeral: an optional minus, a whole part, an optional fraction with at
least one digit, and an optional exponent part. -/
def Spells (cs : List Char) (m : Numeral) : Prop :=
  ∃ point power, IsWholePart m.whole ∧ Fraction m.fraction point ∧ m.fraction ≠ some [] ∧
    ExponentPart m.exponent power ∧
    cs = (if m.negative then ['-'] else []) ++ (m.whole ++ (point ++ power))

theorem Spells.numeral? {cs : List Char} {m : Numeral} (h : Spells cs m) :
    numeral? cs = some m := by
  obtain ⟨point, power, whole, hpoint, nonempty, hpower, rfl⟩ := h
  exact numeral?_parts whole hpoint nonempty hpower m.negative

theorem all_isWordChar_of_areDigits {ds : List Char} (h : AreDigits ds) :
    ds.all isWordChar = true :=
  List.all_eq_true.mpr fun c hc => isWordChar_of_isDigit (h c hc)

theorem all_isWordChar_fraction {fraction : Option (List Char)} {point : List Char}
    (h : Fraction fraction point) : point.all isWordChar = true := by
  cases h with
  | absent => rfl
  | point digits => exact Bool.and_eq_true_iff.mpr ⟨by decide, all_isWordChar_of_areDigits digits⟩

theorem all_isWordChar_exponentPart {exponent : Option Int} {power : List Char}
    (h : ExponentPart exponent power) : power.all isWordChar = true := by
  cases h with
  | absent => rfl
  | @letter c negative sign ds letter signs _ digits =>
    have first : isWordChar c = true := by rcases letter with rfl | rfl <;> decide
    have second : sign.all isWordChar = true := by cases signs <;> decide
    rw [List.all_cons, List.all_append, first, second, all_isWordChar_of_areDigits digits]
    rfl

theorem Spells.all_isWordChar {cs : List Char} {m : Numeral} (h : Spells cs m) :
    cs.all isWordChar = true := by
  obtain ⟨point, power, whole, hpoint, -, hpower, rfl⟩ := h
  have minus : (if m.negative then ['-'] else []).all isWordChar = true := by
    cases m.negative <;> decide
  simp only [List.all_append, minus, all_isWordChar_of_areDigits whole.1,
    all_isWordChar_fraction hpoint, all_isWordChar_exponentPart hpower, Bool.and_self]

theorem IsWholePart.ne_nil {ds : List Char} (h : IsWholePart ds) : ds ≠ [] := by
  obtain rfl | ⟨nonempty, -⟩ := h.2
  · exact List.cons_ne_nil _ _
  · exact nonempty

/-- More digits may follow a first digit other than zero. -/
theorem isWholePart_of_head? {ds others : List Char} (h : IsWholePart ds) (nonzero : ds ≠ ['0'])
    (digits : AreDigits others) (same : others.head? = ds.head?) : IsWholePart others := by
  obtain ⟨nonempty, leading⟩ := h.2.resolve_left nonzero
  refine ⟨digits, .inr ⟨fun empty => ?_, same ▸ leading⟩⟩
  rw [empty, List.head?_nil] at same
  exact nonempty (List.head?_eq_none_iff.mp same.symm)

theorem areDigits_append {ds others : List Char} (h : AreDigits ds) (h' : AreDigits others) :
    AreDigits (ds ++ others) :=
  List.forall_mem_append.mpr ⟨h, h'⟩

theorem areDigits_zeros (n : Nat) : AreDigits (List.replicate n '0') := by
  intro d hd
  rw [List.eq_of_mem_replicate hd]
  decide

/-- A number without exponent part has digits on both sides of its point, the first not too many. -/
theorem exists_point_eq {ds : List Char} {e : Int} (digits : IsWholePart ds)
    (zero : ds = ['0'] → e = 0) (small : e ≤ 15) :
    ∃ whole places, layout.point ds e = whole ++ '.' :: places ∧ IsWholePart whole ∧
      whole.length ≤ 16 ∧ AreDigits places ∧ places ≠ [] := by
  rw [Layout.point]
  simp only [layout, if_true]
  split
  · refine ⟨['0'], _, rfl, isWholePart_toDigits 0, by decide, ?_, ?_⟩
    · exact areDigits_append (areDigits_zeros _) digits.1
    · exact List.append_ne_nil_of_right_ne_nil _ digits.ne_nil
  · next nonneg =>
    split
    · next short =>
      refine ⟨_, ['0'], rfl, ?_, ?_, areDigits_zeros 1, by decide⟩
      · by_cases alone : ds = ['0']
        · rw [zero alone, alone]
          exact isWholePart_toDigits 0
        · exact isWholePart_of_head? digits alone
            (areDigits_append digits.1 (areDigits_zeros _))
            (List.head?_append_of_ne_nil _ digits.ne_nil)
      · rw [List.length_append, List.length_replicate]
        omega
    · next long =>
      have alone : ds ≠ ['0'] := by
        rintro rfl
        exact long (Nat.le_add_left _ _)
      refine ⟨_, _, rfl, ?_, ?_, ?_, ?_⟩
      · refine isWholePart_of_head? digits alone
          (fun d hd => digits.1 d (List.mem_of_mem_take hd)) ?_
        rw [List.head?_take, if_neg (Nat.succ_ne_zero _)]
      · rw [List.length_take]
        omega
      · exact fun d hd => digits.1 d (List.mem_of_mem_drop hd)
      · intro empty
        rw [List.drop_eq_nil_iff] at empty
        exact long empty

/-- A number with an exponent part has one digit, and after it a point if there are more digits. -/
theorem exists_scientific_eq {ds : List Char} (digits : IsWholePart ds) (nonzero : ds ≠ ['0'])
    (e : Int) :
    ∃ d fraction point power, scientific ds e = [d] ++ (point ++ power) ∧ IsWholePart [d] ∧
      Fraction fraction point ∧ fraction ≠ some [] ∧ ExponentPart (some e) power ∧
      d :: fraction.getD [] = ds := by
  obtain ⟨d, others, rfl⟩ := List.exists_cons_of_ne_nil digits.ne_nil
  obtain ⟨first, following⟩ := List.forall_mem_cons.mp digits.1
  have whole : IsWholePart [d] :=
    isWholePart_of_head? digits nonzero (List.forall_mem_singleton.mpr first) rfl
  have signs : Sign (e < 0) [if e < 0 then '-' else '+'] := by
    by_cases below : e < 0
    · simp only [below, decide_true, if_true]
      exact .minus
    · simp only [below, decide_false, if_false]
      exact .plus
  have value : signed (e < 0) (Nat.ofDigitChars 10 (Nat.toDigits 10 e.natAbs) 0) = e := by
    rw [Nat.ofDigitChars_ten_toDigits, signed]
    simp only [decide_eq_true_eq]
    split <;> omega
  have power : ExponentPart (some e)
      ('e' :: ([if e < 0 then '-' else '+'] ++ Nat.toDigits 10 e.natAbs)) := by
    have part := ExponentPart.letter (.inl rfl) signs (Nat.toDigits_ne_nil (b := 10))
      (Decimal.areDigits_toDigits e.natAbs)
    rwa [value] at part
  cases others with
  | nil => exact ⟨d, none, [], _, rfl, whole, .absent, by simp, power, rfl⟩
  | cons second others =>
    exact ⟨d, some (second :: others), _, _, by simp [scientific], whole, .point following, by simp,
      power, rfl⟩

theorem toDigits_eq_zero_iff {n : Nat} : Nat.toDigits 10 n = ['0'] ↔ n = 0 := by
  constructor
  · intro h
    have value := congrArg (Nat.ofDigitChars 10 · 0) h
    rw [Nat.ofDigitChars_ten_toDigits] at value
    exact value
  · rintro rfl
    rfl

/-- The exponent of the first digit of a decimal. -/
def firstExponent (p : Point) : Int :=
  if p.digits = 0 then 0 else p.exponent + ((Nat.toDigits 10 p.digits).length - 1)

/-- What is written are the digits of the shortest decimal without the zeros at its end. -/
theorem exists_toList_write (x : Float) : ∃ negative : Bool,
    (layout.write x).toList = (if negative then ['-'] else []) ++
      let p := Decimal.shortest .even x
      let ds := dropTrailingZeros (Nat.toDigits 10 p.digits)
      if -5 ≤ firstExponent p ∧ firstExponent p ≤ 15 then layout.point ds (firstExponent p)
      else scientific ds (firstExponent p) := by
  let e := firstExponent (Decimal.shortest .even x)
  have plain : (decide (-5 ≤ e) && decide (e ≤ 15)) = decide (-5 ≤ e ∧ e ≤ 15) :=
    (Bool.decide_and _ _).symm
  refine ⟨x.toBits.toNat / Nat.pow 2 63 = 1, ?_⟩
  rw [Layout.write, String.toList_ofList]
  simp only [decide_eq_true_eq]
  refine congrArg _ ?_
  refine (if_congr (Bool.eq_iff_iff.mp plain) rfl rfl).trans ?_
  simp only [decide_eq_true_eq]
  rfl

/-- Every finite number is written as a numeral with a point or an exponent part. It is in range. -/
theorem exists_spells_write {x : Float} (finite : x.isFinite = true) :
    ∃ m, Spells (layout.write x).toList m ∧ m.isWhole = false ∧ (magnitude? m).isSome = true := by
  have inRange := Decimal.inRange_shortest .even finite
  obtain ⟨negative, written⟩ := exists_toList_write x
  generalize Decimal.shortest .even x = p at inRange written
  obtain ⟨c, zeros, dropped, same, length⟩ := exists_dropTrailingZeros p.digits
  have digits := isWholePart_toDigits c
  have nonempty := List.length_pos_of_ne_nil digits.ne_nil
  simp only [dropped] at written
  have absent (h : c = 0) : firstExponent p = 0 := by
    rw [firstExponent, if_pos (by rw [← same, h, Nat.zero_mul])]
  by_cases plain : -5 ≤ firstExponent p ∧ firstExponent p ≤ 15
  · rw [if_pos plain] at written
    obtain ⟨whole, places, point, hwhole, short, hplaces, present⟩ :=
      exists_point_eq digits (fun h => absent (toDigits_eq_zero_iff.mp h)) plain.2
    refine ⟨⟨negative, whole, some places, none⟩, ?_, rfl,
      isSome_magnitude?_of_fraction hwhole.1 short hplaces present⟩
    exact ⟨'.' :: places, [], hwhole, .point hplaces, by simpa using present, .absent,
      by rw [written, point, List.append_nil]⟩
  · rw [if_neg plain] at written
    have positive : 0 < c := by
      refine Nat.pos_of_ne_zero fun h => plain ?_
      rw [absent h]
      decide
    have nonzero : Nat.toDigits 10 c ≠ ['0'] :=
      fun h => positive.ne' (toDigits_eq_zero_iff.mp h)
    obtain ⟨d, fraction, point, power, shape, hd, hpoint, present, hpower, all⟩ :=
      exists_scientific_eq digits nonzero (firstExponent p)
    refine ⟨⟨negative, [d], fraction, some (firstExponent p)⟩, ?_, by simp [Numeral.isWhole], ?_⟩
    · exact ⟨point, power, hd, hpoint, present, hpower, by rw [written, shape]⟩
    · have size := congrArg List.length all
      rw [List.length_cons] at size
      refine isSome_magnitude?_of_exponent inRange positive ?_ same ?_ ?_
      · rw [List.singleton_append, all, Nat.ofDigitChars_ten_toDigits]
      · have some : p.digits ≠ 0 := by
          rw [← same]
          positivity
        rw [firstExponent, if_neg some, length]
        omega
      · have atMost := (Nat.le_mul_of_pos_right c (Nat.pow_pos (n := zeros) (by decide))).trans
          (same.trans_le inRange.digits)
        have places : (Nat.toDigits 10 c).length ≤ 18 :=
          (Nat.length_toDigits_le_iff (by decide) (by decide)).mpr (atMost.trans_lt (by decide))
        omega

/-- The number is written as a numeral that is read as some number, if it is written as one. -/
def Number.Respelled (n : Number) : Prop :=
  ∃ m, Spells n.write.toList m ∧ (ofNumeral? m).isSome = true

theorem Number.IsInteger.respelled {n : Number} (h : n.IsInteger) : n.Respelled := by
  obtain ⟨negative, k, written, read⟩ := h.exists_written
  refine ⟨⟨negative, Nat.toDigits 10 k, none, none⟩, ?_, Option.isSome_of_mem read⟩
  exact ⟨[], [], isWholePart_toDigits k, .absent, by simp, .absent, by simp [written]⟩

/-- Numerals with a point or an exponent part are no integers. -/
theorem Number.isSome_ofNumeral? {m : Numeral} (h : m.isWhole = false)
    (inRange : (magnitude? m).isSome = true) : (ofNumeral? m).isSome = true := by
  simp [ofNumeral?, float?, h, inRange]

/-- A negative number that is not negative is written like the natural number that it is. -/
theorem Number.respelled_negative (i : Int64) : (negative i).Respelled := by
  obtain below | above := Int.lt_or_le i.toInt 0
  · exact IsInteger.respelled (n := negative i) (Int64.lt_iff_toInt_lt.mpr below)
  · have written : (negative i).write = (natural i.toInt.toNat.toUInt64).write := by
      rw [write, write, toNat_natural above, Int.repr_eq_if, if_pos above]
    rw [Respelled, written]
    exact IsInteger.respelled (n := natural _) trivial

theorem Number.respelled_float {x : Float} (finite : x.isFinite = true) : (float x).Respelled := by
  obtain ⟨m, spells, point, inRange⟩ := exists_spells_write finite
  refine ⟨m, ?_, isSome_ofNumeral? point inRange⟩
  rwa [write, if_pos finite]

/-- Every number is written as a numeral, except for those that are written as null. -/
theorem Number.respelled_or_null (n : Number) : n.Respelled ∨ n.write = "null" := by
  cases n with
  | natural n => exact .inl (IsInteger.respelled (n := natural n) trivial)
  | negative i => exact .inl (respelled_negative i)
  | float x =>
    by_cases finite : x.isFinite = true
    · exact .inl (respelled_float finite)
    · exact .inr (by rw [write, if_neg finite])

theorem Number.Respelled.document_eq {n : Number} (h : n.Respelled) :
    ∃ m, n.document = .number m ∧ Spells n.write.toList m ∧ (ofNumeral? m).isSome = true := by
  obtain ⟨m, spells, read⟩ := h
  exact ⟨m, by rw [document, spells.numeral?], spells, read⟩

theorem Number.document_of_null {n : Number} (h : n.write = "null") : n.document = .null := by
  rw [document, h]
  rfl

theorem Spells.ne_nil {cs : List Char} {m : Numeral} (h : Spells cs m) : cs ≠ [] := by
  obtain ⟨point, power, whole, -, -, -, rfl⟩ := h
  simp [whole.ne_nil]

/-- Every number is scanned as its document. -/
theorem Number.scans (n : Number) : Scans n.write.toList n.document.tokens := by
  obtain respelled | null := n.respelled_or_null
  · obtain ⟨m, document, spells, -⟩ := respelled.document_eq
    rw [document]
    exact scans_word spells.ne_nil spells.all_isWordChar (wordToken?_of_numeral? spells.numeral?)
  · rw [document_of_null null, null]
    exact scans_word (List.cons_ne_nil _ _) (by decide) (by decide)

/-- The document of every number is given some value. -/
theorem Number.isSome_ofDocument? (n : Number) (room : Nat) :
    (Json.ofDocument? room n.document).isSome = true := by
  obtain respelled | null := n.respelled_or_null
  · obtain ⟨m, document, -, read⟩ := respelled.document_eq
    rw [document, Json.ofDocument?, Option.isSome_map]
    exact read
  · rw [document_of_null null]
    rfl

end RecordFilter.Json
