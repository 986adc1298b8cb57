import RecordFilter.Proofs.SearchedListings

/-!
# Searching for a part of a text

A search lowers the search text and the texts searched, each on its own. All characters but one are
lowered alike wherever they stand. A capital sigma is not: it is lowered to `ς` where it ends a word
and to `σ` elsewhere. If it ends a word in the search text and not in a text that contains the
search text, or the other way round, then the search may miss that text. Otherwise it finds what
literally contains the search text (`Text.found_of_occurs`).
-/
namespace RecordFilter

/-- A page that has room for a list holds it all if it is the first one. -/
theorem Page.slice_first {α : Type} {items : List α} {size : UInt32}
    (room : items.length ≤ size.toNat) : (first size).slice items = items := by
  have window : (first size).slice items = (items.drop (0 * size.toNat)).take size.toNat :=
    slice_nth (n := 0) items size (by decide)
  rw [window, Nat.zero_mul, List.drop_zero, List.take_of_length_le room]

namespace Text

/-- The lowercase of a text that stands between two others. The text in front of it is given with
the nearest character first. -/
def lowerBetween (before : List Char) : List Char → List Char → List Char
  | [], _ => []
  | c :: cs, behind => lowerIn before c (cs ++ behind) ++ lowerBetween (c :: before) cs behind

theorem lowerFrom_eq (done before cs : List Char) :
    lowerFrom done before cs = done.reverse ++ lowerBetween before cs [] := by
  induction cs generalizing done before with
  | nil => simp [lowerFrom, lowerBetween]
  | cons c cs ih => simp [lowerFrom, lowerBetween, ih]

theorem toList_lowercase (s : String) : (lowercase s).toList = lowerBetween [] s.toList [] := by
  rw [lowercase, String.toList_ofList, lowerFrom_eq, List.reverse_nil, List.nil_append]

theorem lowerBetween_append (before cs ds behind : List Char) :
    lowerBetween before (cs ++ ds) behind =
      lowerBetween before cs (ds ++ behind) ++ lowerBetween (cs.reverse ++ before) ds behind := by
  induction cs generalizing before with
  | nil => rfl
  | cons c cs ih => simp [lowerBetween, ih]

/-- Whether a capital sigma between two texts ends a word. -/
def endsWord (before after : List Char) : Bool :=
  meetsLetter before && !meetsLetter after

/-- Each capital sigma of a text ends a word in the text alone exactly if it does so where the text
stands between two others. -/
def KeepsSigmas (front text back : List Char) : Prop :=
  ∀ u v, text = u ++ 'Σ' :: v →
    endsWord (u.reverse ++ front.reverse) (v ++ back) = endsWord u.reverse v

/-- What a character is lowered to has one length wherever the character stands. -/
theorem length_lowerIn (before before' after after' : List Char) (c : Char) :
    (lowerIn before c after).length = (lowerIn before' c after').length := by
  unfold lowerIn
  split_ifs <;> rfl

theorem lowerIn_eq_iff {before before' after after' : List Char} {c : Char} :
    lowerIn before c after = lowerIn before' c after' ↔
      (c = 'Σ' → endsWord before after = endsWord before' after') := by
  by_cases sigma : c = 'Σ'
  · rw [lowerIn, lowerIn, if_pos sigma, if_pos sigma, ← endsWord, ← endsWord]
    cases endsWord before after <;> cases endsWord before' after' <;> simp [sigma]
  · rw [lowerIn, lowerIn, if_neg sigma, if_neg sigma]
    exact iff_of_true rfl fun h => absurd h sigma

/-- A text is lowered alike in two places exactly if each capital sigma ends a word in both places
or in none. -/
theorem lowerBetween_eq_iff {before before' behind behind' text : List Char} :
    lowerBetween before text behind = lowerBetween before' text behind' ↔
      ∀ u v, text = u ++ 'Σ' :: v →
        endsWord (u.reverse ++ before) (v ++ behind) =
          endsWord (u.reverse ++ before') (v ++ behind') := by
  induction text generalizing before before' with
  | nil => simp [lowerBetween]
  | cons c cs ih =>
    have parts : lowerBetween before (c :: cs) behind = lowerBetween before' (c :: cs) behind' ↔
        lowerIn before c (cs ++ behind) = lowerIn before' c (cs ++ behind') ∧
          lowerBetween (c :: before) cs behind = lowerBetween (c :: before') cs behind' :=
      ⟨fun h => List.append_inj h (length_lowerIn _ _ _ _ c),
        fun h => by rw [lowerBetween, lowerBetween, h.1, h.2]⟩
    rw [parts, lowerIn_eq_iff, ih]
    constructor
    · rintro ⟨here, further⟩ u v same
      cases u with
      | nil =>
        obtain ⟨sigma, rfl⟩ := List.cons.inj same
        exact here sigma
      | cons d u =>
        obtain ⟨rfl, rest⟩ := List.cons.inj same
        simpa using further u v rest
    · intro all
      refine ⟨fun sigma => all [] cs (sigma ▸ rfl), fun u v same => ?_⟩
      simpa using all (c :: u) v (congrArg (c :: ·) same)

theorem keepsSigmas_iff {front text back : List Char} :
    KeepsSigmas front text back ↔
      lowerBetween front.reverse text back = lowerBetween [] text [] := by
  rw [lowerBetween_eq_iff, KeepsSigmas]
  simp only [List.append_nil]

/-- Whether a character stands between letters without ending a word. -/
def isIgnorable (c : Char) : Bool :=
  CaseTable.inRanges CaseTable.ignorableRanges c.toNat

/-- Only the characters up to the first that is not ignorable count. -/
theorem meetsLetter_append {cs : List Char} (counts : ∃ c ∈ cs, isIgnorable c = false)
    (ds : List Char) : meetsLetter (cs ++ ds) = meetsLetter cs := by
  obtain ⟨c, member, counted⟩ := counts
  have found : (cs.find? fun c => !isIgnorable c).isSome := by
    rw [List.find?_isSome]
    exact ⟨c, member, by rw [counted]; rfl⟩
  obtain ⟨d, first⟩ := Option.isSome_iff_exists.mp found
  have first' : ((cs ++ ds).find? fun c => !isIgnorable c) = some d := by
    rw [List.find?_append, first, Option.some_or]
  simp only [isIgnorable] at first first'
  rw [meetsLetter, meetsLetter, first, first']

/-- Capital sigmas are kept in every place if inside the text each has, on both sides, a character
that is not ignorable. -/
theorem keepsSigmas_of_inner {text : List Char} (inner : ∀ u v, text = u ++ 'Σ' :: v →
    (∃ c ∈ u, isIgnorable c = false) ∧ ∃ c ∈ v, isIgnorable c = false) (front back : List Char) :
    KeepsSigmas front text back := by
  intro u v same
  obtain ⟨⟨c, member, counted⟩, right⟩ := inner u v same
  have left : ∃ c ∈ u.reverse, isIgnorable c = false := ⟨c, List.mem_reverse.mpr member, counted⟩
  rw [endsWord, meetsLetter_append left, meetsLetter_append right, endsWord]

variable {key needle : String} {front back : List Char}

theorem contains_of_keepsSigmas (occurs : key.toList = front ++ needle.toList ++ back)
    (keeps : KeepsSigmas front needle.toList back) : contains key needle = true := by
  rw [contains_iff, toList_lowercase, toList_lowercase, occurs, lowerBetween_append,
    lowerBetween_append, List.append_nil, List.append_nil, keepsSigmas_iff.mp keeps]
  exact List.infix_append _ _ _

theorem finds_of_contains {search : String} (found : contains key (trim search) = true) :
    Finds (some search) key :=
  contains_trim_iff.mp found

/-- A text that literally contains a search text is found by it where each capital sigma of the
search text ends a word in both or in neither: among the properties of a catalog, and on the first
page of a listing of properties or values if there is room for all that is found. This is so
wherever the search text stands, if inside it each capital sigma has, on both sides, a character
that is not ignorable. -/
theorem found_of_occurs (occurs : key.toList = front ++ needle.toList ++ back) :
    ((∀ u v, needle.toList = u ++ 'Σ' :: v →
        (∃ c ∈ u, isIgnorable c = false) ∧ ∃ c ∈ v, isIgnorable c = false) →
      KeepsSigmas front needle.toList back) ∧
    (KeepsSigmas front needle.toList back →
      (∀ (c : Catalog) rt type, (key, type) ∈ c.properties rt →
        (key, type) ∈ c.search rt needle ∧
        ∀ search size earlier, trim search = needle →
          (c.found rt (some search)).length ≤ size.toNat →
          ∃ ps, (PropertyProvider.ofCatalog c).answer earlier rt (.first size) (some search) =
            .ok ps ∧ (key, type) ∈ ps.entries) ∧
      ∀ (r : ValueRegister) rt property values search size,
        r.get? (rt, property) = some values → key ∈ values → trim search = needle →
        (values.filter fun v => Finds (some search) v).length ≤ size.toNat →
        key ∈ r.listing rt property (.first size) (some search)) := by
  refine ⟨fun inner => keepsSigmas_of_inner inner front back, fun keeps => ?_⟩
  have contained := contains_of_keepsSigmas occurs keeps
  constructor
  case left =>
    intro c rt type member
    refine ⟨List.mem_filter.mpr ⟨member, contained⟩, ?_⟩
    rintro search size earlier rfl room
    refine ⟨_, rfl, ?_⟩
    rw [PropertyProvider.entries_listing, Page.slice_first room]
    exact List.mem_filter.mpr ⟨member, decide_eq_true (finds_of_contains contained)⟩
  case right =>
    rintro r rt property values search size registered member rfl room
    rw [ValueRegister.listing_of_get? registered, Page.slice_first room]
    exact List.mem_filter.mpr ⟨member, decide_eq_true (finds_of_contains contained)⟩

/-- A search for the second half of a key finds it, though that half begins and ends with a sigma:
the one ends no word and the other ends one, also in the key. -/
theorem found_of_occurs_odysseus :
    let key := "ΟΔΥΣΣΕΥΣ"
    let needle := "ΣΣΕΥΣ"
    let c : Catalog := .ofRows [(.task, "age", .number), (.task, key, .text)]
    let r := ValueRegister.ofCalls [((.task, "hero"), ["ΑΙΑΣ", key])]
    key.toList = "ΟΔΥ".toList ++ needle.toList ++ [] ∧
    KeepsSigmas "ΟΔΥ".toList needle.toList [] ∧ (key, .text) ∈ c.properties .task ∧
    (key, .text) ∈ c.search .task needle ∧ trim " ΣΣΕΥΣ\n" = needle ∧
    (c.found .task (some " ΣΣΕΥΣ\n")).length ≤ (1 : UInt32).toNat ∧
    (∃ ps, (PropertyProvider.ofCatalog c).answer 0 .task (.first 1) (some " ΣΣΕΥΣ\n") = .ok ps ∧
      (key, .text) ∈ ps.entries) ∧
    key ∈ r.listing .task "hero" (.first 1) (some " ΣΣΕΥΣ\n") ∧
    KeepsSigmas "ΟΔ".toList "ΥΣΣΕ".toList "ΥΣ".toList := by
  intro key needle c r
  have occurs : key.toList = "ΟΔΥ".toList ++ needle.toList ++ [] := by decide
  have keeps : KeepsSigmas "ΟΔΥ".toList needle.toList [] := keepsSigmas_iff.mpr (by decide +kernel)
  have member : (key, .text) ∈ c.properties .task := .tail _ (.head _)
  have trimmed : trim " ΣΣΕΥΣ\n" = needle := by decide
  have found : c.found .task (some " ΣΣΕΥΣ\n") = [(key, .text)] := by decide +kernel
  have foundValues : (["ΑΙΑΣ", key].filter fun v => Finds (some " ΣΣΕΥΣ\n") v) = [key] := by
    decide +kernel
  have room : (c.found .task (some " ΣΣΕΥΣ\n")).length ≤ (1 : UInt32).toNat := by
    rw [found]
    decide
  have roomValues : (["ΑΙΑΣ", key].filter fun v => Finds (some " ΣΣΕΥΣ\n") v).length ≤
      (1 : UInt32).toNat := by
    rw [foundValues]
    decide
  have inner : ∀ u v, "ΥΣΣΕ".toList = u ++ 'Σ' :: v →
      (∃ c ∈ u, isIgnorable c = false) ∧ ∃ c ∈ v, isIgnorable c = false := by
    intro u v same
    -- the sigmas are the two characters in the middle
    rcases u with _ | ⟨a, _ | ⟨b, _ | ⟨d, _ | ⟨e, u⟩⟩⟩⟩ <;>
      simp only [String.reduceToList, List.nil_append, List.cons_append, List.cons.injEq,
        Char.reduceEq, List.nil_eq, List.append_eq_nil_iff, reduceCtorEq, true_and, false_and,
        and_false] at same
    · obtain ⟨rfl, rfl⟩ := same
      exact ⟨⟨'Υ', .head _, by decide +kernel⟩, 'Ε', .tail _ (.head _), by decide +kernel⟩
    · obtain ⟨rfl, rfl, rfl⟩ := same
      exact ⟨⟨'Υ', .head _, by decide +kernel⟩, 'Ε', .head _, by decide +kernel⟩
  have within : key.toList = "ΟΔ".toList ++ "ΥΣΣΕ".toList ++ "ΥΣ".toList := by decide
  obtain ⟨properties, values⟩ := (found_of_occurs occurs).2 keeps
  obtain ⟨searched, listed⟩ := properties c .task .text member
  exact ⟨occurs, keeps, member, searched, trimmed, room, listed _ 1 0 trimmed room,
    values r .task "hero" _ _ 1 rfl (.tail _ (.head _)) trimmed roomValues,
    (found_of_occurs within).1 inner⟩

/-- A sigma that ends the search text, but no word of the key, hides the key: nothing is found by a
part of the only key, and likewise of the only value, on no page whatever. -/
theorem not_found_of_occurs_sigma :
    let key := "ΑΣΑ"
    let needle := "ΑΣ"
    let c : Catalog := .ofRows [(.task, key, .text)]
    let r := ValueRegister.ofCalls [((.task, "word"), [key])]
    needle.toList <:+: key.toList ∧ trim needle = needle ∧
      c.propertyType? .task key = some .text ∧ r.get? (.task, "word") = some [key] ∧
      c.search .task needle = [] ∧
      (∀ page, (PropertyProvider.listing c .task page (some needle)).entries = []) ∧
      ∀ page, r.listing .task "word" page (some needle) = [] := by
  intro key needle c r
  have registered : r.get? (.task, "word") = some [key] := rfl
  have found : c.found .task (some needle) = [] := by decide +kernel
  have foundValues : ([key].filter fun v => Finds (some needle) v) = [] := by decide +kernel
  have occurs : needle.toList <:+: key.toList := ⟨[], ['Α'], by decide⟩
  refine ⟨occurs, by decide, rfl, registered, by decide +kernel, fun page => ?_, fun page => ?_⟩
  · rw [PropertyProvider.entries_listing, found, Page.slice, List.drop_nil, List.take_nil]
  · rw [ValueRegister.listing_of_get? registered, foundValues, Page.slice, List.drop_nil,
      List.take_nil]

end Text

end RecordFilter
