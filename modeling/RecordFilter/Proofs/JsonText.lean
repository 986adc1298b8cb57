import Mathlib
import RecordFilter.Json.Number
import RecordFilter.Proofs.JsonDocument
import RecordFilter.Proofs.Numerals

/-!
# The text of JSON values

`Json.chars` is the text that `Json.write` appends. Scanning takes this text for the tokens of the
document of the value wherever punctuation or the end follows (`Scans`), because a quoted text ends
at its own quote and a word only where punctuation follows. With the documents of JSON values this
makes a written value read back (`read?_render`).
-/
namespace RecordFilter.Json

open Decimal (AreDigits ExponentPart Fraction Numeral signed takeDigits_of_areDigits
  takeExponent_eq_some_nil_iff takeMinus)

def quotedChars (s : String) : List Char :=
  '"' :: (s.toList.flatMap escape ++ ['"'])

mutual

/-- The characters of a written value. -/
def chars : Json → List Char
  | null => "null".toList
  | bool b => (if b then "true" else "false").toList
  | number n => n.write.toList
  | text s => quotedChars s
  | array items => '[' :: ([','].intercalate (itemsChars items) ++ [']'])
  | object fields => '{' :: ([','].intercalate (fieldsChars fields) ++ ['}'])

def itemsChars : List Json → List (List Char)
  | [] => []
  | j :: js => chars j :: itemsChars js

def fieldsChars : List (String × Json) → List (List Char)
  | [] => []
  | (key, j) :: fields => (quotedChars key ++ ':' :: chars j) :: fieldsChars fields

end

theorem itemsChars_eq_map (items : List Json) : itemsChars items = items.map chars := by
  induction items with
  | nil => rfl
  | cons j js ih => rw [itemsChars, ih, List.map_cons]

theorem fieldsChars_eq_map (fields : List (String × Json)) :
    fieldsChars fields = fields.map fun f => quotedChars f.1 ++ ':' :: f.2.chars := by
  induction fields with
  | nil => rfl
  | cons f fields ih => rw [fieldsChars, ih, List.map_cons]

theorem toList_foldl_push (out : String) (cs : List Char) :
    (cs.foldl String.push out).toList = out.toList ++ cs := by
  induction cs generalizing out with
  | nil => rw [List.foldl_nil, List.append_nil]
  | cons c cs ih =>
    rw [List.foldl_cons, ih, String.toList_push, List.append_assoc, List.singleton_append]

theorem toList_foldl_escape (out : String) (cs : List Char) :
    (cs.foldl (fun out c => (escape c).foldl String.push out) out).toList =
      out.toList ++ cs.flatMap escape := by
  induction cs generalizing out with
  | nil => rw [List.foldl_nil, List.flatMap_nil, List.append_nil]
  | cons c cs ih =>
    rw [List.foldl_cons, ih, toList_foldl_push, List.flatMap_cons, List.append_assoc]

theorem toList_writeText (out s : String) :
    (writeText out s).toList = out.toList ++ quotedChars s := by
  rw [writeText, String.toList_push, toList_foldl_escape, String.toList_push, quotedChars,
    List.append_assoc, List.append_assoc, List.singleton_append]

mutual

/-- Writing a value appends its characters. -/
theorem toList_write : ∀ (j : Json) (out : String), (write out j).toList = out.toList ++ chars j
  | null, out => by rw [write, String.toList_append, chars]
  | bool b, out => by rw [write, String.toList_append, chars]
  | number n, out => by rw [write, String.toList_append, chars]
  | text s, out => by rw [write, toList_writeText, chars]
  | array items, out => by
    rw [write, String.toList_push, toList_writeItems items, String.toList_push, chars,
      List.append_assoc, List.append_assoc, List.singleton_append]
  | object fields, out => by
    rw [write, String.toList_push, toList_writeFields fields, String.toList_push, chars,
      List.append_assoc, List.append_assoc, List.singleton_append]

theorem toList_writeItems : ∀ (items : List Json) (out : String),
    (writeItems out items).toList = out.toList ++ [','].intercalate (itemsChars items)
  | [], out => by rw [writeItems, itemsChars, List.intercalate_nil, List.append_nil]
  | [j], out => by
    rw [writeItems, toList_write j, itemsChars, itemsChars, List.intercalate_singleton]
  | j :: k :: js, out => by
    rw [writeItems, toList_writeItems (k :: js), String.toList_push, toList_write j]
    · simp only [itemsChars, List.intercalate_cons_cons, List.append_assoc]
    · exact List.cons_ne_nil k js

theorem toList_writeFields : ∀ (fields : List (String × Json)) (out : String),
    (writeFields out fields).toList = out.toList ++ [','].intercalate (fieldsChars fields)
  | [], out => by rw [writeFields, fieldsChars, List.intercalate_nil, List.append_nil]
  | [(key, j)], out => by
    rw [writeFields, toList_write j, String.toList_push, toList_writeText, fieldsChars, fieldsChars,
      List.intercalate_singleton, List.append_assoc, List.append_assoc, List.singleton_append]
  | (key, j) :: (k, l) :: fields, out => by
    rw [writeFields, toList_writeFields ((k, l) :: fields), String.toList_push, toList_write j,
      String.toList_push, toList_writeText]
    · simp only [fieldsChars, List.intercalate_cons_cons, List.append_assoc, List.cons_append,
        List.nil_append]
    · exact List.cons_ne_nil (k, l) fields

end

theorem toList_render (j : Json) : j.render.toList = j.chars := by
  rw [render, toList_write]
  rfl

/-- The digits in front of the point: `0` alone, or digits that do not start with it. -/
def IsWholePart (ds : List Char) : Prop :=
  AreDigits ds ∧ (ds = ['0'] ∨ ds ≠ [] ∧ ds.head? ≠ some '0')

/-- A number above zero is written without a leading zero. -/
theorem head?_toDigits_ne {n : Nat} (h : 0 < n) : (Nat.toDigits 10 n).head? ≠ some '0' := by
  induction n using Nat.strongRecOn with
  | ind n ih =>
    obtain small | large := Nat.lt_or_ge n 10
    · have digits : ∀ m < 10, 0 < m → (Nat.toDigits 10 m).head? ≠ some '0' := by decide
      exact digits n small h
    · rw [Nat.toDigits_of_base_le (by decide) large,
        List.head?_append_of_ne_nil _ Nat.toDigits_ne_nil]
      exact ih (n / 10) (by omega) (by omega)

theorem isWholePart_toDigits (n : Nat) : IsWholePart (Nat.toDigits 10 n) := by
  refine ⟨Decimal.areDigits_toDigits n, ?_⟩
  obtain rfl | pos := Nat.eq_zero_or_pos n
  · exact .inl (by decide)
  · exact .inr ⟨Nat.toDigits_ne_nil, head?_toDigits_ne pos⟩

theorem takeMinus_append {ds : List Char} (h : AreDigits ds) (nonempty : ds ≠ [])
    (rest : List Char) : takeMinus (ds ++ rest) = (false, ds ++ rest) := by
  obtain ⟨d, ds, rfl⟩ := List.exists_cons_of_ne_nil nonempty
  rw [List.cons_append, Decimal.takeMinus.eq_def]
  split
  · next same =>
    cases same
    exact absurd (h '-' List.mem_cons_self) (by decide)
  · rfl

/-- A sign, whole digits, a fraction and an exponent part are a numeral. -/
theorem numeral?_parts {ds point power : List Char} {fraction : Option (List Char)}
    {exponent : Option Int} (whole : IsWholePart ds) (hpoint : Fraction fraction point)
    (nonempty : fraction ≠ some []) (hpower : ExponentPart exponent power) (negative : Bool) :
    numeral? ((if negative then ['-'] else []) ++ (ds ++ (point ++ power))) =
      some ⟨negative, ds, fraction, exponent⟩ := by
  obtain ⟨digits, leading⟩ := whole
  have present : ds ≠ [] := by
    obtain rfl | ⟨present, -⟩ := leading
    · exact List.cons_ne_nil _ _
    · exact present
  have sign : takeMinus ((if negative then ['-'] else []) ++ (ds ++ (point ++ power))) =
      (negative, ds ++ (point ++ power)) := by
    cases negative with
    | true => rfl
    | false => exact takeMinus_append digits present _
  have admitted : (!ds.isEmpty && (ds.head? != some '0' || ds.length == 1)) = true := by
    obtain rfl | ⟨nonempty, first⟩ := leading
    · decide
    · simp [nonempty, first]
  have closing : ∀ c ∈ (point ++ power).head?, c.isDigit = false := by
    intro c hc
    rcases hpoint.head hpower.head c hc with rfl | rfl | rfl <;> decide
  have exponents := takeExponent_eq_some_nil_iff.mpr hpower
  simp only [numeral?, sign, takeDigits_of_areDigits digits closing, admitted]
  cases hpoint with
  | absent =>
    rw [List.nil_append]
    split
    · next cs => exact absurd (hpower.head '.' rfl) (by decide)
    · simp only [Option.bind_eq_bind, Option.bind_some, exponents]
      rfl
  | @point cs hcs =>
    have after : ∀ c ∈ power.head?, c.isDigit = false := by
      intro c hc
      rcases hpower.head c hc with rfl | rfl <;> decide
    obtain ⟨d, cs, rfl⟩ := List.exists_cons_of_ne_nil fun empty => nonempty (congrArg some empty)
    have fraction := takeDigits_of_areDigits hcs after
    rw [List.cons_append]
    simp only [fraction, Option.bind_eq_bind, Option.bind_some, exponents]
    rfl

/-- Digits alone or after a minus are a numeral. -/
theorem numeral?_eq_some {ds : List Char} (whole : IsWholePart ds) (negative : Bool) :
    numeral? ((if negative then ['-'] else []) ++ ds) = some ⟨negative, ds, none, none⟩ := by
  have parts := numeral?_parts whole .absent (by simp) .absent negative
  rwa [List.append_nil, List.append_nil] at parts

/-- Whether the number is an integer, held as negative only if it is. -/
def Number.IsInteger : Number → Prop
  | .natural _ => True
  | .negative i => i < 0
  | .float _ => False

theorem integer_toDigits (negative : Bool) (n : Nat) :
    Numeral.integer ⟨negative, Nat.toDigits 10 n, none, none⟩ = signed negative n := by
  rw [Decimal.integer_eq_signed, Nat.ofDigitChars_ten_toDigits]

/-- An integer that is not negative fits 64 bits without a sign. -/
theorem Number.toNat_natural {i : Int64} (above : 0 ≤ i.toInt) :
    i.toInt.toNat.toUInt64.toNat = i.toInt.toNat := by
  have upper : i.toInt ≤ 2 ^ 63 - 1 := i.toInt_le
  exact UInt64.toNat_ofNat_of_lt' (by simp only [UInt64.size]; omega)

theorem Number.ofNumeral?_eq_natural {m : Numeral} {n : UInt64} (whole : m.isWhole = true)
    (sign : m.negative = false) (h : m.integer = n.toNat) : ofNumeral? m = some (natural n) := by
  have fits : m.integer.toNat < UInt64.size := by
    rw [h]
    exact n.toNat_lt
  rw [ofNumeral?, if_pos ⟨whole, sign, fits⟩, h, Int.toNat_natCast, UInt64.ofNat_toNat]

theorem Number.ofNumeral?_eq_negative {m : Numeral} {i : Int64} (whole : m.isWhole = true)
    (sign : m.negative = true) (h : m.integer = i.toInt) (below : i.toInt < 0) :
    ofNumeral? m = some (negative i) := by
  rw [ofNumeral?, if_neg, if_pos ⟨whole, h ▸ below, h ▸ i.minValue_le_toInt⟩, h, Int64.ofInt_toInt]
  rintro ⟨-, positive, -⟩
  rw [sign] at positive
  cases positive

/-- An integer is written as digits, with a minus in front if it is negative. -/
theorem Number.IsInteger.exists_written {n : Number} (h : n.IsInteger) :
    ∃ negative k, n.write.toList = (if negative then ['-'] else []) ++ Nat.toDigits 10 k ∧
      ofNumeral? ⟨negative, Nat.toDigits 10 k, none, none⟩ = some n := by
  cases n with
  | natural n =>
    refine ⟨false, n.toNat, ?_, ofNumeral?_eq_natural rfl rfl (integer_toDigits false n.toNat)⟩
    rw [write, Nat.toList_repr]
    rfl
  | negative i =>
    have below : i.toInt < 0 := Int64.lt_iff_toInt_lt.mp h
    have value : Numeral.integer ⟨true, Nat.toDigits 10 (-i.toInt).toNat, none, none⟩ =
        i.toInt := by
      rw [integer_toDigits, signed, if_pos rfl]
      omega
    refine ⟨true, (-i.toInt).toNat, ?_, ofNumeral?_eq_negative rfl rfl value below⟩
    rw [write, Int.repr_eq_if, if_neg (Int.not_le.mpr below), String.toList_append,
      Nat.toList_repr]
    rfl
  | float x => exact h.elim

theorem Number.IsInteger.readsBack {n : Number} (h : n.IsInteger) : n.ReadsBack := by
  obtain ⟨negative, k, written, read⟩ := h.exists_written
  rw [ReadsBack, written]
  exact ⟨_, numeral?_eq_some (isWholePart_toDigits k) negative, read⟩

/-- The part of a quoted text as which a written character is read. -/
def Piece.ofChar (c : Char) : Piece :=
  if c.toNat < 0x20 ∧ c ∉ ['\x08', '\t', '\n', '\x0c', '\r'] then .unit c.toNat else .char c

theorem hexUnit?_toNat {c : Char} (h : c.toNat < 0x20) :
    hexUnit? '0' '0' (Nat.digitChar (c.toNat / 16)) (Nat.digitChar (c.toNat % 16)) =
      some c.toNat := by
  have units : ∀ n < 0x20,
      hexUnit? '0' '0' (Nat.digitChar (n / 16)) (Nat.digitChar (n % 16)) = some n := by decide
  exact units c.toNat h

/-- The written form of a character is read as its piece. -/
theorem scanQuoted_escape (done : List Token) (pieces : List Piece) (c : Char) (rest : List Char) :
    scanQuoted done pieces (escape c ++ rest) = scanQuoted done (.ofChar c :: pieces) rest := by
  fun_cases escape c with
  | case1 | case2 | case3 | case4 | case5 | case6 | case7 =>
    -- The escapes of two characters.
    subst_vars
    rfl
  | case8 _ _ backspace tab newline feed carriage control =>
    -- Any other control is written as the 16 bits of its number.
    have piece : Piece.ofChar c = .unit c.toNat :=
      if_pos ⟨control, by simp [backspace, tab, newline, feed, carriage]⟩
    rw [piece]
    simp only [List.cons_append, List.nil_append, scanQuoted, hexUnit?_toNat control]
  | case9 quote backslash _ _ _ _ _ printed =>
    have piece : Piece.ofChar c = .char c := if_neg fun h => printed h.1
    rw [piece, List.cons_append, List.nil_append, scanQuoted, if_neg printed]
    · exact quote
    · exact fun _ _ _ _ _ h => absurd h backslash
    · exact fun _ _ h => absurd h backslash

theorem scanQuoted_flatMap_escape (done : List Token) (pieces : List Piece) (cs rest : List Char) :
    scanQuoted done pieces (cs.flatMap escape ++ rest) =
      scanQuoted done ((cs.map Piece.ofChar).reverse ++ pieces) rest := by
  induction cs generalizing pieces with
  | nil => rfl
  | cons c cs ih =>
    rw [List.flatMap_cons, List.append_assoc, scanQuoted_escape, ih, List.map_cons,
      List.reverse_cons, List.append_assoc, List.singleton_append]

/-- Controls are no halves of surrogate pairs. -/
theorem joinPieces_unit (done : List Char) {n : Nat} (h : n < 0x20) (pieces : List Piece) :
    joinPieces done (.unit n :: pieces) = joinPieces (Char.ofNat n :: done) pieces := by
  have high : isHighHalf n = false := by simp [isHighHalf]; omega
  have low : isLowHalf n = false := by simp [isLowHalf]; omega
  cases pieces with
  | nil => simp [joinPieces, high, low]
  | cons p ps => cases p <;> simp [joinPieces, high, low]

theorem joinPieces_ofChar (done : List Char) (c : Char) (pieces : List Piece) :
    joinPieces done (.ofChar c :: pieces) = joinPieces (c :: done) pieces := by
  fun_cases Piece.ofChar c with
  | case1 h => rw [joinPieces_unit done h.1, Char.ofNat_toNat]
  | case2 => rw [joinPieces]

theorem joinPieces_map_ofChar (done cs : List Char) :
    joinPieces done (cs.map Piece.ofChar) = some (done.reverse ++ cs) := by
  induction cs generalizing done with
  | nil => rw [List.map_nil, joinPieces, List.append_nil]
  | cons c cs ih =>
    rw [List.map_cons, joinPieces_ofChar, ih, List.reverse_cons, List.append_assoc,
      List.singleton_append]

theorem textOf_map_ofChar (s : String) : textOf (s.toList.map Piece.ofChar) = some s := by
  rw [textOf, joinPieces_map_ofChar, Option.map_some, List.reverse_nil, List.nil_append,
    String.ofList_toList]

/-- A quoted text is scanned up to its closing quote, whatever follows. -/
theorem scanBetween_quotedChars (done : List Token) (s : String) (rest : List Char) :
    scanBetween done (quotedChars s ++ rest) = scanBetween (.text (some s) :: done) rest := by
  have opened : scanBetween done (quotedChars s ++ rest) =
      scanQuoted done [] (s.toList.flatMap escape ++ '"' :: rest) := by
    rw [quotedChars, List.cons_append, List.append_assoc]
    rfl
  have closed : scanQuoted done (s.toList.map Piece.ofChar).reverse ('"' :: rest) =
      scanBetween (.text (textOf (s.toList.map Piece.ofChar)) :: done) rest := by
    rw [scanQuoted, List.reverse_reverse]
  rw [opened, scanQuoted_flatMap_escape, List.append_nil, closed, textOf_map_ofChar]

/-- A character of a word: no blank, no quote and no punctuation. -/
def isWordChar (c : Char) : Bool :=
  !isSpace c && c != '"' && (punctuation? c).isNone

theorem isWordChar_iff {c : Char} :
    isWordChar c = true ↔ isSpace c = false ∧ c ≠ '"' ∧ punctuation? c = none := by
  simp [isWordChar, and_assoc]

/-- The text is empty or begins with punctuation. -/
def Closes (cs : List Char) : Prop :=
  ∀ c ∈ cs.head?, (punctuation? c).isSome = true

/-- Whether the characters are scanned as the tokens wherever punctuation or the end follows. -/
def Scans (cs : List Char) (ts : List Token) : Prop :=
  ∀ done rest, Closes rest → scanBetween done (cs ++ rest) = scanBetween (ts.reverse ++ done) rest

theorem not_space_of_punctuation {c : Char} {p : Token} (h : punctuation? c = some p) :
    isSpace c = false ∧ c ≠ '"' := by
  unfold punctuation? at h
  split at h
  case h_7 => cases h
  all_goals decide

theorem scanBetween_punctuation {c : Char} {p : Token} (h : punctuation? c = some p)
    (done : List Token) (cs : List Char) :
    scanBetween done (c :: cs) = scanBetween (p :: done) cs := by
  obtain ⟨space, quote⟩ := not_space_of_punctuation h
  simp only [scanBetween, space, quote, h, if_false, Bool.false_eq_true]

/-- A word is scanned to its end. -/
theorem scanWord_append {word : List Char} (h : word.all isWordChar = true) (done : List Token)
    (before rest : List Char) :
    scanWord done before (word ++ rest) = scanWord done (word.reverse ++ before) rest := by
  induction word generalizing before with
  | nil => rfl
  | cons c word ih =>
    obtain ⟨first, others⟩ := Bool.and_eq_true_iff.mp h
    obtain ⟨space, quote, punctuation⟩ := isWordChar_iff.mp first
    rw [List.reverse_cons, List.append_assoc, List.singleton_append, ← ih others]
    simp only [List.cons_append, scanWord, space, quote, punctuation, if_false, Bool.false_eq_true]

/-- A word ends where punctuation or the end follows. -/
theorem scanWord_of_closes {word : List Char} {t : Token} (h : wordToken? word.reverse = some t)
    (done : List Token) {rest : List Char} (closes : Closes rest) :
    scanWord done word rest = scanBetween (t :: done) rest := by
  cases rest with
  | nil => rw [scanWord, h, scanBetween, Option.map_some]
  | cons c cs =>
    obtain ⟨p, hp⟩ := Option.isSome_iff_exists.mp (closes c rfl)
    obtain ⟨space, quote⟩ := not_space_of_punctuation hp
    rw [scanBetween_punctuation hp]
    simp only [scanWord, space, quote, hp, h, if_false, Bool.false_eq_true]

theorem scans_word {word : List Char} {t : Token} (nonempty : word ≠ [])
    (chars : word.all isWordChar = true) (h : wordToken? word = some t) : Scans word [t] := by
  intro done rest closes
  obtain ⟨c, word, rfl⟩ := List.exists_cons_of_ne_nil nonempty
  obtain ⟨first, others⟩ := Bool.and_eq_true_iff.mp chars
  obtain ⟨space, quote, punctuation⟩ := isWordChar_iff.mp first
  have begun : scanBetween done (c :: word ++ rest) = scanWord done [c] (word ++ rest) := by
    simp only [List.cons_append, scanBetween, space, quote, punctuation, if_false,
      Bool.false_eq_true]
  have ended : wordToken? (word.reverse ++ [c]).reverse = some t := by simpa using h
  rw [begun, scanWord_append others, scanWord_of_closes ended done closes]
  rfl

theorem scans_quotedChars (s : String) : Scans (quotedChars s) [.text (some s)] :=
  fun done rest _ => scanBetween_quotedChars done s rest

theorem scans_nil : Scans [] [] := fun _ _ _ => rfl

theorem Scans.cons {c : Char} {p : Token} {cs : List Char} {ts : List Token}
    (h : punctuation? c = some p) (others : Scans cs ts) : Scans (c :: cs) (p :: ts) := by
  intro done rest closes
  rw [List.cons_append, scanBetween_punctuation h, others _ _ closes, List.reverse_cons,
    List.append_assoc, List.singleton_append]

/-- What is scanned before a text that begins with punctuation is scanned in front of it. -/
theorem Scans.append {cs cs' : List Char} {ts ts' : List Token} (h : Scans cs ts)
    (h' : Scans cs' ts') (closes' : Closes cs') : Scans (cs ++ cs') (ts ++ ts') := by
  intro done rest closes
  -- If `cs'` is empty, what follows both texts closes the first of them.
  have follows : Closes (cs' ++ rest) := by
    cases cs' with
    | nil => exact closes
    | cons c cs' => exact closes'
  rw [List.append_assoc, h _ _ follows, h' _ _ closes, List.reverse_append, List.append_assoc]

theorem closes_cons {c : Char} {p : Token} (h : punctuation? c = some p) (cs : List Char) :
    Closes (c :: cs) := by
  rintro c' hc
  cases hc
  exact Option.isSome_of_mem h

theorem closes_flatMap (css : List (List Char)) : Closes (css.flatMap (',' :: ·)) := by
  cases css with
  | nil => exact fun _ h => absurd h (Option.not_mem_none _)
  | cons cs css => exact closes_cons rfl (cs ++ css.flatMap (',' :: ·))

/-- Parts each after a comma are scanned part by part. -/
theorem scans_flatMap {css : List (List Char)} {tss : List (List Token)}
    (h : List.Forall₂ Scans css tss) :
    Scans (css.flatMap (',' :: ·)) (tss.flatMap (.comma :: ·)) := by
  induction h with
  | nil => exact scans_nil
  | @cons cs ts css tss first _ ih =>
    exact (Scans.cons rfl first).append ih (closes_flatMap css)

theorem scans_intercalate {css : List (List Char)} {tss : List (List Token)}
    (h : List.Forall₂ Scans css tss) :
    Scans ([','].intercalate css) ([.comma].intercalate tss) := by
  cases h with
  | nil => exact scans_nil
  | @cons cs ts css tss first others =>
    rw [intercalate_cons, intercalate_cons]
    exact first.append (scans_flatMap others) (closes_flatMap css)

/-- Brackets around scanned text are scanned with it. -/
theorem Scans.enclosed {a b : Char} {p q : Token} {cs : List Char} {ts : List Token}
    (h : Scans cs ts) (opening : punctuation? a = some p) (closing : punctuation? b = some q) :
    Scans (a :: (cs ++ [b])) (p :: (ts ++ [q])) :=
  .cons opening (h.append (.cons closing scans_nil) (closes_cons closing []))

theorem isWordChar_of_isDigit {c : Char} (h : c.isDigit = true) : isWordChar c = true := by
  refine isWordChar_iff.mpr ⟨?_, ?_, ?_⟩
  · rw [← Bool.not_eq_true]
    intro space
    have blank : c = ' ' ∨ c = '\t' ∨ c = '\n' ∨ c = '\r' := by
      simpa [isSpace, or_assoc] using space
    rcases blank with rfl | rfl | rfl | rfl <;> exact absurd h (by decide)
  · rintro rfl
    exact absurd h (by decide)
  · unfold punctuation?
    split
    case h_7 => rfl
    all_goals exact absurd h (by decide)

/-- A numeral is none of the other words. -/
theorem wordToken?_of_numeral? {word : List Char} {m : Numeral} (h : numeral? word = some m) :
    wordToken? word = some (.number m) := by
  fun_cases wordToken? word with
  | case1 | case2 | case3 => cases h
  | case4 => rw [h, Option.map_some]

theorem Number.IsInteger.scans {n : Number} (h : n.IsInteger) :
    Scans n.write.toList n.document.tokens := by
  obtain ⟨negative, k, written, -⟩ := h.exists_written
  have whole := isWholePart_toDigits k
  have spelled := numeral?_eq_some whole negative
  have tokens : n.document.tokens = [.number ⟨negative, Nat.toDigits 10 k, none, none⟩] := by
    rw [document, written, spelled]
    rfl
  rw [tokens, written]
  have digits : (Nat.toDigits 10 k).all isWordChar = true :=
    List.all_eq_true.mpr fun c hc => isWordChar_of_isDigit (whole.1 c hc)
  have minus : (if negative then ['-'] else []).all isWordChar = true := by
    cases negative <;> decide
  refine scans_word (by simp [Nat.toDigits_ne_nil]) ?_ (wordToken?_of_numeral? spelled)
  rw [List.all_append, minus, digits]
  rfl

theorem forall₂_itemsChars {items : List Json}
    (h : ∀ j ∈ items, Scans j.chars j.document.tokens) :
    List.Forall₂ Scans (itemsChars items) (Document.itemsTokens (itemsDocuments items)) := by
  induction items with
  | nil => exact .nil
  | cons j js ih =>
    obtain ⟨hj, hjs⟩ := List.forall_mem_cons.mp h
    exact .cons hj (ih hjs)

theorem forall₂_fieldsChars {fields : List (String × Json)}
    (h : ∀ f ∈ fields, Scans f.2.chars f.2.document.tokens) :
    List.Forall₂ Scans (fieldsChars fields) (Document.fieldsTokens (fieldsDocuments fields)) := by
  induction fields with
  | nil => exact .nil
  | cons f fields ih =>
    obtain ⟨hf, hfields⟩ := List.forall_mem_cons.mp h
    refine .cons ?_ (ih hfields)
    exact (scans_quotedChars f.1).append (.cons rfl hf) (closes_cons rfl f.2.chars)

/-- The text of a value is scanned as the tokens of its document. -/
theorem scans_chars {j : Json} (h : j.Numbers fun n => Scans n.write.toList n.document.tokens) :
    Scans j.chars j.document.tokens := by
  induction h with
  | null => exact scans_word (List.cons_ne_nil _ _) (by decide) (by decide)
  | bool b => cases b <;> exact scans_word (List.cons_ne_nil _ _) (by decide) (by decide)
  | number n holds => exact holds
  | text s => exact scans_quotedChars s
  | array items _ ih => exact (scans_intercalate (forall₂_itemsChars ih)).enclosed rfl rfl
  | object fields _ ih => exact (scans_intercalate (forall₂_fieldsChars ih)).enclosed rfl rfl

/-- A written value is read as its document. -/
theorem Document.read?_render {j : Json}
    (h : j.Numbers fun n => Scans n.write.toList n.document.tokens) :
    Document.read? j.render = some j.document := by
  have scanned := scans_chars h [] [] fun _ h => absurd h (Option.not_mem_none _)
  rw [List.append_nil, List.append_nil] at scanned
  rw [Document.read?, Token.scan?, toList_render, scanned, scanBetween, List.reverse_reverse,
    Option.bind_some, ofTokens?_tokens]

/-- A written value without floating-point numbers is read back, with the keys in order, if it
nests no deeper than is allowed. -/
theorem read?_render {j : Json} (h : j.Numbers Number.IsInteger) (nesting : j.nesting ≤ maxNesting) :
    read? j.render = some j.keySorted := by
  rw [read?, Document.read?_render (h.imp fun _ => Number.IsInteger.scans), Option.bind_some,
    ofDocument?_document (h.imp fun _ => Number.IsInteger.readsBack) nesting]

end RecordFilter.Json
