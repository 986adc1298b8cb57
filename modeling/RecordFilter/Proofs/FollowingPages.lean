import RecordFilter.Proofs.Paging
import RecordFilter.Proofs.Saving

/-!
# The pages after a page

Page zero means page one. A page that is made gets the number one instead, but a page that is read
from JSON keeps the number zero. It begins and ends where page one does, has the same items and is
the last one of the same listings. But the page after it is page one and not page two, so that who
walks on from it meets the items of page one twice. From all other pages on, each page begins where
the one before ends (`Page.following_of_number`).
-/
namespace RecordFilter.Page

/-- A page and the pages after it, `n` in all. -/
def following (p : Page) : Nat → List Page
  | 0 => []
  | n + 1 => p :: p.next.following n

variable {p : Page}

theorem toNat_number_ofNumber (number size : UInt32) :
    (ofNumber number size).number.toNat = max number.toNat 1 := by
  show (if number ≤ 1 then 1 else number).toNat = _
  by_cases h : number ≤ 1
  · rw [if_pos h]
    exact (Nat.max_eq_right (UInt32.le_iff_toNat_le.mp h)).symm
  · rw [if_neg h]
    exact (Nat.max_eq_left (Nat.le_of_not_le fun le => h (UInt32.le_iff_toNat_le.mpr le))).symm

theorem toNat_number_pos (h : p.number ≠ 0) : 0 < p.number.toNat :=
  Nat.pos_of_ne_zero fun zero => h (UInt32.toNat_inj.mp zero)

/-- Making a page anew changes it only if its number is zero. -/
theorem ofNumber_of_ne_zero (h : p.number ≠ 0) : ofNumber p.number p.size = p := by
  have positive := toNat_number_pos h
  have number : (ofNumber p.number p.size).number = p.number := by
    rw [← UInt32.toNat_inj, toNat_number_ofNumber]
    omega
  exact congrArg (Page.mk · p.size) number

theorem next_of_zero (h : p.number = 0) : p.next = ofNumber p.number p.size := by
  rw [next, h]
  rfl

theorem toNat_number_next (h : p.number.toNat + 1 < UInt32.size) :
    p.next.number.toNat = p.number.toNat + 1 := by
  have sum : (p.number + 1).toNat = p.number.toNat + 1 := by
    rw [UInt32.toNat_add]
    exact Nat.mod_eq_of_lt h
  rw [next, if_pos h, toNat_number_ofNumber, sum]
  omega

@[simp] theorem size_next (p : Page) : p.next.size = p.size := rfl

theorem offset_ofNumber (p : Page) : (ofNumber p.number p.size).offset = p.offset := by
  have before : max p.number.toNat 1 - 1 = p.number.toNat - 1 := by omega
  rw [offset, toNat_number_ofNumber, before]
  rfl

theorem slice_ofNumber {α : Type} (p : Page) (items : List α) :
    (ofNumber p.number p.size).slice items = p.slice items := by
  rw [slice, offset_ofNumber]
  rfl

theorem offset_of_zero (h : p.number = 0) : p.offset = 0 := by
  rw [offset, h]
  exact Nat.zero_mul _

/-- The page after a page that has a number begins where that one ends. -/
theorem offset_next (positive : 0 < p.number.toNat) (h : p.number.toNat + 1 < UInt32.size) :
    p.next.offset = p.offset + p.size.toNat := by
  have succ : p.number.toNat + 1 - 1 = p.number.toNat - 1 + 1 := by omega
  rw [offset, toNat_number_next h, size_next, succ, Nat.succ_mul, offset]

/-- From a page that has a number on, the pages hold the items without a gap or an overlap. -/
theorem flatMap_slice_following {α : Type} (items : List α) {n : Nat}
    (positive : 0 < p.number.toNat) (fits : p.number.toNat + n ≤ UInt32.size) :
    (p.following n).flatMap (·.slice items) =
      (items.drop p.offset).take (n * p.size.toNat) := by
  induction n generalizing p with
  | zero => simp [following]
  | succ n ih =>
    rw [following, List.flatMap_cons]
    obtain rfl | more := Nat.eq_zero_or_pos n
    · simp [following, slice]
    · have further : p.number.toNat + 1 < UInt32.size := by omega
      have number := toNat_number_next further
      rw [ih (by omega) (by omega), offset_next positive further, size_next, slice,
        ← List.drop_drop, ← List.take_add, Nat.succ_mul, Nat.add_comm]

theorem word?_document (n : UInt32) :
    word? (Json.number (.natural n.toUInt64)).document = some n := by
  obtain ⟨m, read, same⟩ := Json.Number.IsInteger.readsBack (n := .natural n.toUInt64) trivial
  have small : n.toUInt64.toNat < UInt32.size := n.toNat_toUInt64 ▸ n.toNat_lt
  rw [Json.document, Json.Number.document, read, word?]
  simp only [Json.Document.natural?, same, Option.bind_eq_bind, Option.bind_some, if_pos small]
  rw [n.toNat_toUInt64, UInt32.ofNat_toNat]

/-- A page is read from its JSON text as it is, also if its number is zero. -/
theorem ofText?_render (p : Page) : ofText? p.toJson.render = some p := by
  have integers : p.toJson.Numbers Json.Number.IsInteger := by
    refine .object _ fun f hf => ?_
    simp only [List.mem_cons, List.not_mem_nil, or_false] at hf
    rcases hf with rfl | rfl <;> exact .number _ trivial
  have record : Json.Document.record? ["page", "pageSize"] p.toJson.document =
      some [some (Json.number (.natural p.number.toUInt64)).document,
        some (Json.number (.natural p.size.toUInt64)).document] :=
    Json.Document.record?_object [("page", (Json.number (.natural p.number.toUInt64)).document),
      ("pageSize", (Json.number (.natural p.size.toUInt64)).document)] (by simp)
  rw [ofText?, Json.Document.read?_render (integers.imp fun _ => Json.Number.IsInteger.scans),
    Option.bind_some, ofDocument?, record]
  simp only [Option.bind_eq_bind, Option.bind_some, word?_document]
  rfl

/-- Every page can be read from a JSON text. It begins where the page does that is made of its
number, has the same items, is the last one of the same listings, and has the same page after it,
unless its number is zero. After page zero comes page one, which begins where page zero does. From
any other page on, each page begins where the one before ends, and the pages hold the items without
a gap or an overlap; from page zero on they hold those of page one twice. -/
theorem following_of_number {α : Type} (p : Page) (items : List α) :
    let made := ofNumber p.number p.size
    ofText? p.toJson.render = some p ∧
    p.offset = made.offset ∧ p.slice items = made.slice items ∧
    (∀ length, p.isLast length = made.isLast length) ∧
    p.next = (if p.number = 0 then made else made.next) ∧
    (p.number.toNat + 1 < UInt32.size →
      p.next.offset = p.offset + if p.number = 0 then 0 else p.size.toNat) ∧
    ∀ n, p.number.toNat + n < UInt32.size →
      (p.following (n + 1)).flatMap (·.slice items) =
        if p.number = 0 then items.take p.size.toNat ++ items.take (n * p.size.toNat)
        else (items.drop p.offset).take ((n + 1) * p.size.toNat) := by
  intro made
  refine ⟨p.ofText?_render, p.offset_ofNumber.symm, (p.slice_ofNumber items).symm, fun _ => rfl, ?_⟩
  by_cases zero : p.number = 0
  case neg =>
    have same : made = p := ofNumber_of_ne_zero zero
    have positive := toNat_number_pos zero
    rw [if_neg zero, if_neg zero, same]
    refine ⟨rfl, offset_next positive, fun n fits => ?_⟩
    rw [if_neg zero]
    exact flatMap_slice_following items positive fits
  case pos =>
    have after : p.next = made := next_of_zero zero
    have begins : p.offset = 0 := offset_of_zero zero
    have number : made.number.toNat = 1 := by
      rw [toNat_number_ofNumber, zero]
      rfl
    rw [if_pos zero, if_pos zero, after, p.offset_ofNumber]
    refine ⟨rfl, fun _ => rfl, fun n fits => ?_⟩
    rw [if_pos zero, following, List.flatMap_cons, after,
      flatMap_slice_following items (by omega) (by rw [number]; omega), p.offset_ofNumber, slice,
      begins]
    rfl

/-- Who walks on from page zero of five items, two on a page, meets the first two twice. -/
theorem following_of_number_zero :
    let p : Page := ⟨0, 2⟩
    p.number.toNat + 1 < UInt32.size ∧ p.number.toNat + 2 < UInt32.size ∧ p.next.offset = 0 ∧
      (p.following 3).flatMap (·.slice [3, 1, 4, 1, 5]) = [3, 1, 3, 1, 4, 1] := by
  intro p
  have below : p.number.toNat + 1 < UInt32.size := by decide
  have fits : p.number.toNat + 2 < UInt32.size := by decide
  obtain ⟨-, -, -, -, -, offset, items⟩ := p.following_of_number [3, 1, 4, 1, 5]
  exact ⟨below, fits, offset below, items 2 fits⟩

/-- Not every page is followed by the page that follows the one made of its number, nor does every
page end where the next one begins. Page zero, which can be read, is no such page. -/
theorem not_following_of_read : ¬∀ p : Page,
    (∃ number size, p = ofNumber number size) ∨ (∃ text, ofText? text = some p) →
    p.number.toNat < UInt32.size - 1 → ∀ items : List Nat,
    let made := ofNumber p.number p.size
    p.offset = made.offset ∧ p.slice items = made.slice items ∧
      (∀ length, p.isLast length = made.isLast length) ∧ p.next = made.next ∧
      p.next.offset = p.offset + p.size.toNat := by
  intro claimed
  let p : Page := ⟨0, 10⟩
  have read : ∃ text, ofText? text = some p := ⟨_, p.ofText?_render⟩
  obtain ⟨-, -, -, next, -⟩ := claimed p (.inr read) (by decide) []
  exact absurd next (by decide)

end RecordFilter.Page
