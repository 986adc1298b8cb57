import Mathlib.Data.List.Basic
import RecordFilter.Metadata.Turn

/-!
# Pages of a listing

Pages of one size, asked for one after another up to the first that is not full, cut a listing into
parts without a gap or an overlap (`Page.slices_tile`). Where a page begins and ends is reckoned in
words of 64 bits, whose sums and products stop at the greatest one; numbers and sizes of 32 bits
never get there, so that every page of every listing lies within it.
-/
namespace RecordFilter

/-- The greatest number in a word of 64 bits. -/
def wordLimit : Nat := UInt64.size - 1

/-- The items from one position up to another; none if these are not positions in the list. -/
def between? {α : Type} (items : List α) (start stop : Nat) : Option (List α) :=
  if start ≤ stop ∧ stop ≤ items.length then some ((items.take stop).drop start) else none

/-- Windows side by side make up a beginning of a list. -/
theorem flatMap_range_windows {α : Type} (items : List α) (size k : Nat) :
    (List.range k).flatMap (fun n => (items.drop (n * size)).take size) =
      items.take (k * size) := by
  induction k with
  | zero => simp
  | succ k ih => rw [List.range_succ, List.flatMap_append, ih, Nat.succ_mul, List.take_add]; simp

theorem mem_window_zipIdx {α : Type} {items : List α} {start size i : Nat} {x : α} :
    (x, i) ∈ (items.zipIdx.drop start).take size ↔
      items[i]? = some x ∧ start ≤ i ∧ i < start + size := by
  rw [List.mem_iff_getElem?]
  simp only [List.getElem?_take, List.getElem?_drop, List.getElem?_zipIdx]
  constructor
  · rintro ⟨j, hj⟩
    split_ifs at hj with within
    obtain ⟨y, hy, same⟩ := Option.map_eq_some_iff.mp hj
    obtain ⟨rfl, rfl⟩ := Prod.mk.inj same
    exact ⟨by simpa using hy, by omega, by omega⟩
  · rintro ⟨hx, lower, upper⟩
    have here : start + (i - start) = i := by omega
    refine ⟨i - start, ?_⟩
    rw [if_pos (by omega), here, hx]
    simp

namespace Page

/-- The first position on the page in a list of some length. -/
def start (p : Page) (length : Nat) : Nat :=
  min (min ((p.number.toNat - 1) * p.size.toNat) wordLimit) length

/-- The position behind the page in a list of some length. -/
def stop (p : Page) (length : Nat) : Nat :=
  min (min (p.start length + p.size.toNat) wordLimit) length

theorem start_le_stop (p : Page) (length : Nat) : p.start length ≤ p.stop length := by
  unfold stop start
  omega

theorem stop_le (p : Page) (length : Nat) : p.stop length ≤ length := by
  unfold stop
  omega

/-- No page reaches beyond the greatest word. -/
theorem offset_add_size_le (p : Page) : p.offset + p.size.toNat ≤ wordLimit := by
  have number := p.number.toNat_lt
  have size := p.size.toNat_lt
  have product : p.offset ≤ (UInt32.size - 2) * (UInt32.size - 1) := by
    unfold UInt32.size
    exact Nat.mul_le_mul (by omega) (by omega)
  unfold wordLimit UInt64.size
  unfold UInt32.size at product
  omega

theorem start_eq (p : Page) (length : Nat) : p.start length = min p.offset length := by
  have within := p.offset_add_size_le
  unfold start
  unfold offset at *
  omega

theorem stop_eq (p : Page) (length : Nat) :
    p.stop length = min (min p.offset length + p.size.toNat) length := by
  have within := p.offset_add_size_le
  unfold stop
  rw [start_eq]
  omega

/-- The items between the bounds of a page are those on the page, whatever the list. -/
theorem between?_bounds {α : Type} (p : Page) (items : List α) :
    between? items (p.start items.length) (p.stop items.length) = some (p.slice items) := by
  rw [between?, if_pos ⟨p.start_le_stop _, p.stop_le _⟩, List.drop_take, slice]
  have front : items.drop (p.start items.length) = items.drop p.offset := by
    rw [List.drop_eq_drop_iff, start_eq]
    omega
  rw [front, Option.some_inj, List.take_eq_take_iff, List.length_drop, stop_eq, start_eq]
  omega

/-- The pages from one page on, each after the one before, up to the first that is reported as the
last one of the listing. -/
inductive Leads {α : Type} (items : List α) : Page → List Page → Prop where
  | last {p : Page} (short : p.isLast (p.slice items).length = true) : Leads items p [p]
  | next {p : Page} {ps : List Page} (full : p.isLast (p.slice items).length = false)
      (rest : Leads items p.next ps) : Leads items p (p :: ps)

variable {α : Type} {items : List α} {p : Page} {ps ps' : List Page} {n : Nat} {size : UInt32}

theorem Leads.unique (h : Leads items p ps) (h' : Leads items p ps') : ps = ps' := by
  induction h generalizing ps' with
  | last short =>
    cases h' with
    | last _ => rfl
    | next full _ => exact absurd (short.symm.trans full) (by decide)
  | next full _ ih =>
    cases h' with
    | last short => exact absurd (short.symm.trans full) (by decide)
    | next _ rest => rw [ih rest]

theorem toNat_number_nth (size : UInt32) (h : n + 1 < UInt32.size) :
    (nth size n).number.toNat = n + 1 :=
  UInt32.toNat_ofNat_of_lt' h

theorem next_nth (size : UInt32) (h : n + 2 < UInt32.size) :
    (nth size n).next = nth size (n + 1) := by
  have number : (nth size n).number + 1 = UInt32.ofNat (n + 2) := (UInt32.ofNat_add (n + 1) 1).symm
  have above : ¬UInt32.ofNat (n + 2) ≤ 1 := by
    rw [UInt32.le_iff_toNat_le, UInt32.toNat_ofNat_of_lt' h]
    exact Nat.not_le.mpr (Nat.lt_add_left n Nat.one_lt_two)
  rw [next, toNat_number_nth size (by omega), if_pos h, number, ofNumber]
  exact congrArg (Page.mk · size) (if_neg above)

theorem offset_nth (size : UInt32) (h : n + 1 < UInt32.size) :
    (nth size n).offset = n * size.toNat := by
  rw [offset, toNat_number_nth size h]
  rfl

theorem slice_nth (items : List α) (size : UInt32) (h : n + 1 < UInt32.size) :
    (nth size n).slice items = (items.drop (n * size.toNat)).take size.toNat := by
  rw [slice, offset_nth size h]
  rfl

/-- The items on the first `k` pages are the beginning of a list. -/
theorem flatMap_slice_nth {k : Nat} (items : List α) (size : UInt32) (fits : k < UInt32.size) :
    ((List.range k).map (nth size)).flatMap (·.slice items) = items.take (k * size.toNat) := by
  rw [List.flatMap_map, ← flatMap_range_windows]
  refine List.flatMap_congr fun n hn => slice_nth items size ?_
  have before := List.mem_range.mp hn
  omega

/-- A page that ends within a list is full. -/
theorem length_slice_nth (h : n + 1 < UInt32.size)
    (within : (n + 1) * size.toNat ≤ items.length) :
    ((nth size n).slice items).length = size.toNat := by
  rw [Nat.succ_mul] at within
  rw [slice_nth items size h, List.length_take, List.length_drop]
  omega

theorem numbers_nth {k : Nat} (size : UInt32) (fits : k < UInt32.size) :
    ((List.range k).map (nth size)).map (·.number.toNat) = List.range' 1 k := by
  rw [List.map_map, List.range'_eq_map_range]
  refine List.map_congr_left fun n hn => ?_
  have before := List.mem_range.mp hn
  rw [Function.comp_apply, toNat_number_nth size (by omega), Nat.add_comm]

/-- A page is reported as the last one exactly if the list ends on it or before. -/
theorem isLast_slice_nth (positive : 0 < size.toNat) (h : n + 1 < UInt32.size) :
    (nth size n).isLast ((nth size n).slice items).length = true ↔
      items.length < n * size.toNat + size.toNat := by
  rw [slice_nth items size h, isLast, decide_eq_true_eq, List.length_take, List.length_drop]
  show min size.toNat _ < size.toNat ↔ _
  omega

/-- From page `n` on, `k` full pages and one that is not lead to the end of a list. -/
theorem leads_nth {k : Nat} (positive : 0 < size.toNat) (fits : n + k + 1 < UInt32.size)
    (full : (n + k) * size.toNat ≤ items.length)
    (short : items.length < (n + k) * size.toNat + size.toNat) :
    Leads items (nth size n) ((List.range' n (k + 1)).map (nth size)) := by
  induction k generalizing n with
  | zero => exact .last ((isLast_slice_nth positive fits).mpr short)
  | succ k ih =>
    have further : n + (k + 1) = n + 1 + k := by omega
    rw [further] at fits full short
    rw [List.range'_succ, List.map_cons]
    have here : ¬items.length < n * size.toNat + size.toNat := by
      rw [← Nat.succ_mul]
      exact Nat.not_lt.mpr (Nat.le_trans (Nat.mul_le_mul_right _ (by omega)) full)
    refine .next ?_ ?_
    · rw [← Bool.not_eq_true, isLast_slice_nth positive (by omega)]
      exact here
    · rw [next_nth size (by omega)]
      exact ih fits full short

/-- The item at position `i` is on the page with number `i / size + 1` alone. -/
theorem mem_slice_nth {i : Nat} {x : α} (positive : 0 < size.toNat) (h : n + 1 < UInt32.size)
    (item : items[i]? = some x) :
    (x, i) ∈ (nth size n).slice items.zipIdx ↔
      (nth size n).number.toNat = i / size.toNat + 1 := by
  have quotient := Nat.div_eq_iff (x := i) (y := n) positive
  rw [slice_nth _ size h, mem_window_zipIdx, toNat_number_nth size h]
  constructor
  · rintro ⟨-, lower, upper⟩
    have : i / size.toNat = n := quotient.mpr (by omega)
    omega
  · intro number
    have := quotient.mp (by omega)
    exact ⟨item, by omega, by omega⟩

/-- Every page of every list has its first position in front of its end, and its end within the
list, so that its items can be taken. If a list has fewer items than fit on the pages that have a
number, the pages of a size from the first one on, up to the first that is reported as the last one,
are numbered from one to the length divided by the size and one more. Their items together are the
list, all but the last of them are full, and each item is on the page with the number of its
position divided by the size and one more, and on no other. -/
theorem slices_tile (items : List α) :
    (∀ p : Page, p.start items.length ≤ p.stop items.length ∧
      p.stop items.length ≤ items.length ∧
      between? items (p.start items.length) (p.stop items.length) = some (p.slice items)) ∧
    ∀ size : UInt32, 1 ≤ size → items.length < (UInt32.size - 1) * size.toNat → ∃ pages,
      (∀ ps, Leads items (first size) ps ↔ ps = pages) ∧
      pages.flatMap (·.slice items) = items ∧
      (∀ p ∈ pages.dropLast, (p.slice items).length = size.toNat) ∧
      pages.map (·.number.toNat) = List.range' 1 (items.length / size.toNat + 1) ∧
      ∀ i x, items[i]? = some x → ∀ p ∈ pages,
        (x, i) ∈ p.slice items.zipIdx ↔ p.number.toNat = i / size.toNat + 1 := by
  refine ⟨fun p => ⟨p.start_le_stop _, p.stop_le _, p.between?_bounds items⟩,
    fun size nonzero within => ?_⟩
  have positive : 0 < size.toNat := UInt32.le_iff_toNat_le.mp nonzero
  have few : items.length / size.toNat < UInt32.size - 1 :=
    (Nat.div_lt_iff_lt_mul positive).mpr within
  have full : items.length / size.toNat * size.toNat ≤ items.length := Nat.div_mul_le_self _ _
  have short : items.length < items.length / size.toNat * size.toNat + size.toNat :=
    Nat.lt_div_mul_add positive
  generalize items.length / size.toNat = k at few full short
  have fits : k + 1 < UInt32.size := by omega
  have leads : Leads items (first size) ((List.range (k + 1)).map (nth size)) := by
    have last := fits
    rw [List.range_eq_range']
    rw [← Nat.zero_add k] at full short last
    exact leads_nth positive last full short
  refine ⟨_, fun ps => ⟨fun h => h.unique leads, fun h => h ▸ leads⟩, ?_, ?_,
    numbers_nth size fits, ?_⟩
  · rw [flatMap_slice_nth items size fits, Nat.succ_mul]
    exact List.take_of_length_le (Nat.le_of_lt short)
  · intro p hp
    rw [List.range_succ, List.map_append, List.map_singleton, List.dropLast_concat] at hp
    obtain ⟨n, hn, rfl⟩ := List.mem_map.mp hp
    have before := List.mem_range.mp hn
    exact length_slice_nth (by omega) (Nat.le_trans (Nat.mul_le_mul_right _ before) full)
  · intro i x item p hp
    obtain ⟨n, hn, rfl⟩ := List.mem_map.mp hp
    have before := List.mem_range.mp hn
    exact mem_slice_nth positive (by omega) item

/-- Four items fill two pages, so that the last page is the third one and is empty. -/
theorem slices_tile_fourItems :
    let items := [3, 1, 4, 1]
    (1 : UInt32) ≤ 2 ∧ items.length < (UInt32.size - 1) * (2 : UInt32).toNat ∧ ∃ pages,
      Leads items (first 2) pages ∧ pages.flatMap (·.slice items) = items ∧
      pages.map (·.number.toNat) = [1, 2, 3] ∧
      ∀ p ∈ pages, (1, 3) ∈ p.slice items.zipIdx ↔ p.number.toNat = 2 := by
  intro items
  have nonzero : (1 : UInt32) ≤ 2 := by decide
  have within : items.length < (UInt32.size - 1) * (2 : UInt32).toNat := by decide
  obtain ⟨pages, leads, whole, -, numbers, places⟩ := (slices_tile items).2 2 nonzero within
  exact ⟨nonzero, within, pages, (leads pages).mpr rfl, whole, numbers.trans (by decide),
    places 3 1 rfl⟩

-- The greatest page there is, of a short list: it begins and ends behind the last item.
example : (⟨4294967295, 4294967295⟩ : Page).start 5 = 5 ∧
    (⟨4294967295, 4294967295⟩ : Page).stop 5 = 5 := by decide

end Page
end RecordFilter
