import RecordFilter.Json.Printer
import RecordFilter.Json.Reader
import RecordFilter.Proofs.Sequences

/-!
# The documents of JSON values

`Document.tokens` are the tokens that spell a document, and `Document.ofTokens?` builds it back from
them. `Json.document` is the document of the written form of a value: it is given the value again if
its numbers read back and it nests no deeper than is allowed. Reading puts the fields of each object
in the order of their keys, which is what `Json.keySorted` does and what changes nothing in a value
that is `Json.Sorted` already.
-/
namespace RecordFilter.Json

/-- Parts with a separator between them: the first part, and the others each after a separator. -/
theorem intercalate_cons {α : Type} (separator : α) (part : List α) (parts : List (List α)) :
    [separator].intercalate (part :: parts) = part ++ parts.flatMap (separator :: ·) := by
  induction parts generalizing part with
  | nil => rw [List.intercalate_singleton, List.flatMap_nil, List.append_nil]
  | cons next parts ih =>
    rw [List.intercalate_cons_cons, ih, List.flatMap_cons, List.append_assoc,
      List.singleton_append, List.cons_append]

namespace Document

mutual

/-- The tokens that spell a document. -/
def tokens : Document → List Token
  | null => [.null]
  | bool b => [.bool b]
  | number n => [.number n]
  | text content => [.text content]
  | array items => .openArray :: ([.comma].intercalate (itemsTokens items) ++ [.closeArray])
  | object fields => .openObject :: ([.comma].intercalate (fieldsTokens fields) ++ [.closeObject])

def itemsTokens : List Document → List (List Token)
  | [] => []
  | d :: ds => tokens d :: itemsTokens ds

def fieldsTokens : List (Option String × Document) → List (List Token)
  | [] => []
  | (key, d) :: fields => (.text key :: .colon :: tokens d) :: fieldsTokens fields

end

/-- Whether the tokens of the document are taken as the document, whatever is open around it and
whatever follows. -/
def Runs (d : Document) : Prop :=
  ∀ outer ts, (State.value outer).run (d.tokens ++ ts) = (State.after d outer).run ts

end Document

namespace State

open Document (Runs)

theorem run_cons {s s' : State} {t : Token} (h : s.step t = some s') (ts : List Token) :
    s.run (t :: ts) = s'.run ts := by
  simp only [run, h]

/-- The first item of an array is taken like any other. -/
theorem run_firstItem (d : Document) (outer : List Frame) (ts : List Token) :
    (firstItem outer).run (d.tokens ++ ts) = (value (.array [] :: outer)).run (d.tokens ++ ts) := by
  cases d <;> rfl

/-- After an item the others are taken up to the end of the array. -/
theorem run_items {ds : List Document} (h : ∀ e ∈ ds, Runs e) (d : Document) (done : List Document)
    (outer : List Frame) (ts : List Token) :
    (after d (.array done :: outer)).run
        ((Document.itemsTokens ds).flatMap (.comma :: ·) ++ .closeArray :: ts) =
      (after (.array (done.reverse ++ d :: ds)) outer).run ts := by
  induction ds generalizing d done with
  | nil => rw [Document.itemsTokens, List.flatMap_nil, List.nil_append, run_cons rfl,
      List.reverse_cons]
  | cons e ds ih =>
    obtain ⟨he, hds⟩ := List.forall_mem_cons.mp h
    simp only [Document.itemsTokens, List.flatMap_cons, List.cons_append, List.append_assoc]
    rw [run_cons rfl, he, ih hds, List.reverse_cons, List.append_assoc, List.singleton_append]

/-- After a field the others are taken up to the end of the object. -/
theorem run_fields {fields : List (Option String × Document)} (h : ∀ f ∈ fields, Runs f.2)
    (key : Option String) (d : Document) (done : List (Option String × Document))
    (outer : List Frame) (ts : List Token) :
    (after d (.object done key :: outer)).run
        ((Document.fieldsTokens fields).flatMap (.comma :: ·) ++ .closeObject :: ts) =
      (after (.object (done.reverse ++ (key, d) :: fields)) outer).run ts := by
  induction fields generalizing key d done with
  | nil => rw [Document.fieldsTokens, List.flatMap_nil, List.nil_append, run_cons rfl,
      List.reverse_cons]
  | cons f fields ih =>
    obtain ⟨hf, hfields⟩ := List.forall_mem_cons.mp h
    simp only [Document.fieldsTokens, List.flatMap_cons, List.cons_append, List.append_assoc]
    rw [run_cons rfl, run_cons rfl, run_cons rfl, hf, ih hfields, List.reverse_cons,
      List.append_assoc, List.singleton_append]

end State

namespace Document

theorem runs_array {items : List Document} (h : ∀ d ∈ items, Runs d) : Runs (.array items) := by
  intro outer ts
  rw [tokens, List.cons_append, State.run_cons rfl, List.append_assoc]
  cases items with
  | nil => rfl
  | cons d ds =>
    obtain ⟨hd, hds⟩ := List.forall_mem_cons.mp h
    -- The first item follows the bracket itself, the others each a comma.
    rw [itemsTokens, intercalate_cons, List.append_assoc, State.run_firstItem, hd]
    exact State.run_items hds d [] outer ts

theorem runs_object {fields : List (Option String × Document)} (h : ∀ f ∈ fields, Runs f.2) :
    Runs (.object fields) := by
  intro outer ts
  rw [tokens, List.cons_append, State.run_cons rfl, List.append_assoc]
  cases fields with
  | nil => rfl
  | cons f fields =>
    obtain ⟨hf, hfields⟩ := List.forall_mem_cons.mp h
    rw [fieldsTokens, intercalate_cons, List.append_assoc, List.cons_append, List.cons_append,
      State.run_cons rfl, State.run_cons rfl, hf]
    exact State.run_fields hfields f.1 f.2 [] outer ts

mutual

theorem runs : ∀ d : Document, Runs d
  | null | bool _ | number _ | text _ => fun _ _ => rfl
  | array items => runs_array (runs_items items)
  | object fields => runs_object (runs_fields fields)

theorem runs_items : ∀ items : List Document, ∀ d ∈ items, Runs d
  | [] => List.forall_mem_nil _
  | d :: ds => List.forall_mem_cons.mpr ⟨runs d, runs_items ds⟩

theorem runs_fields : ∀ fields : List (Option String × Document), ∀ f ∈ fields, Runs f.2
  | [] => List.forall_mem_nil _
  | (_, d) :: fields => List.forall_mem_cons.mpr ⟨runs d, runs_fields fields⟩

end

/-- A document is built back from its tokens. -/
theorem ofTokens?_tokens (d : Document) : ofTokens? d.tokens = some d := by
  have taken := runs d [] []
  rw [List.append_nil] at taken
  exact taken

end Document

/-- The document of a written number. One that is not finite is written as null. -/
def Number.document (n : Number) : Document :=
  match numeral? n.write.toList with
  | some m => .number m
  | none => .null

mutual

/-- The document that the written form of a value spells. -/
def document : Json → Document
  | null => .null
  | bool b => .bool b
  | number n => n.document
  | text s => .text (some s)
  | array items => .array (itemsDocuments items)
  | object fields => .object (fieldsDocuments fields)

def itemsDocuments : List Json → List Document
  | [] => []
  | j :: js => document j :: itemsDocuments js

def fieldsDocuments : List (String × Json) → List (Option String × Document)
  | [] => []
  | (key, j) :: fields => (some key, document j) :: fieldsDocuments fields

end

mutual

/-- The value with the fields of each object in the order of their keys, the last of equal keys
kept. -/
def keySorted : Json → Json
  | null => null
  | bool b => bool b
  | number n => number n
  | text s => text s
  | array items => array (itemsKeySorted items)
  | object fields => ofFields (fieldsKeySorted fields)

def itemsKeySorted : List Json → List Json
  | [] => []
  | j :: js => keySorted j :: itemsKeySorted js

/-- The fields of an object, as they stand, with the keys inside them in order. -/
def fieldsKeySorted : List (String × Json) → List (String × Json)
  | [] => []
  | (key, j) :: fields => (key, keySorted j) :: fieldsKeySorted fields

end

mutual

/-- How deep arrays and objects nest in a value. -/
def nesting : Json → Nat
  | array items => itemsNesting items + 1
  | object fields => fieldsNesting fields + 1
  | _ => 0

def itemsNesting : List Json → Nat
  | [] => 0
  | j :: js => max (nesting j) (itemsNesting js)

def fieldsNesting : List (String × Json) → Nat
  | [] => 0
  | (_, j) :: fields => max (nesting j) (fieldsNesting fields)

end

/-- Every number in the value has the property. -/
inductive Numbers (P : Number → Prop) : Json → Prop where
  | null : Numbers P null
  | bool (b : Bool) : Numbers P (bool b)
  | number (n : Number) (holds : P n) : Numbers P (number n)
  | text (s : String) : Numbers P (text s)
  | array (items : List Json) (all : ∀ j ∈ items, Numbers P j) : Numbers P (array items)
  | object (fields : List (String × Json)) (all : ∀ f ∈ fields, Numbers P f.2) :
      Numbers P (object fields)

/-- Whether the written form of the number is read as the number. -/
def Number.ReadsBack (n : Number) : Prop :=
  ∃ m, numeral? n.write.toList = some m ∧ ofNumeral? m = some n

theorem Numbers.imp {P Q : Number → Prop} (h : ∀ n, P n → Q n) {j : Json} (hj : j.Numbers P) :
    j.Numbers Q := by
  induction hj with
  | null => exact .null
  | bool b => exact .bool b
  | number n holds => exact .number n (h n holds)
  | text s => exact .text s
  | array items _ ih => exact .array items ih
  | object fields _ ih => exact .object fields ih

theorem itemsNesting_le_iff {items : List Json} {n : Nat} :
    itemsNesting items ≤ n ↔ ∀ j ∈ items, j.nesting ≤ n := by
  induction items with
  | nil => simp [itemsNesting]
  | cons j js ih => rw [itemsNesting, Nat.max_le, ih, List.forall_mem_cons]

theorem fieldsNesting_le_iff {fields : List (String × Json)} {n : Nat} :
    fieldsNesting fields ≤ n ↔ ∀ f ∈ fields, f.2.nesting ≤ n := by
  induction fields with
  | nil => simp [fieldsNesting]
  | cons f fields ih => rw [fieldsNesting, Nat.max_le, ih, List.forall_mem_cons]

theorem itemsDocuments_eq_map (items : List Json) : itemsDocuments items = items.map document := by
  induction items with
  | nil => rfl
  | cons j js ih => rw [itemsDocuments, ih, List.map_cons]

theorem fieldsDocuments_eq_map (fields : List (String × Json)) :
    fieldsDocuments fields = fields.map fun f => (some f.1, f.2.document) := by
  induction fields with
  | nil => rfl
  | cons f fields ih => rw [fieldsDocuments, ih, List.map_cons]

theorem itemsKeySorted_eq_map (items : List Json) : itemsKeySorted items = items.map keySorted := by
  induction items with
  | nil => rfl
  | cons j js ih => rw [itemsKeySorted, ih, List.map_cons]

theorem fieldsKeySorted_eq_map (fields : List (String × Json)) :
    fieldsKeySorted fields = fields.map fun f => (f.1, f.2.keySorted) := by
  induction fields with
  | nil => rfl
  | cons f fields ih => rw [fieldsKeySorted, ih, List.map_cons]

theorem itemsOf?_eq_mapM (room : Nat) (ds : List Document) :
    itemsOf? room ds = ds.mapM (ofDocument? room) := by
  induction ds with
  | nil => rfl
  | cons d ds ih => rw [itemsOf?, ih, List.mapM_cons]

/-- The field that a key and a document are, in which `room` more levels may be opened. -/
def fieldOf? (room : Nat) (f : Option String × Document) : Option (String × Json) := do
  let key ← f.1
  let j ← ofDocument? room f.2
  return (key, j)

theorem fieldsOf?_eq_mapM (room : Nat) (fields : List (Option String × Document)) :
    fieldsOf? room fields = fields.mapM (fieldOf? room) := by
  induction fields with
  | nil => rfl
  | cons f fields ih =>
    rw [fieldsOf?, ih, List.mapM_cons, fieldOf?]
    simp only [bind_assoc, pure_bind]

theorem fieldOf?_document (room : Nat) (f : String × Json) :
    fieldOf? room (some f.1, f.2.document) =
      (ofDocument? room f.2.document).map fun j => (f.1, j) := by
  rw [fieldOf?, Option.bind_eq_bind, Option.bind_some]
  exact Option.map_eq_bind.symm

theorem itemsOf?_documents {room : Nat} {items : List Json}
    (h : ∀ j ∈ items, ofDocument? room j.document = some j.keySorted) :
    itemsOf? room (itemsDocuments items) = some (itemsKeySorted items) := by
  rw [itemsOf?_eq_mapM, itemsDocuments_eq_map, itemsKeySorted_eq_map]
  exact mapM_map_eq_some h

theorem fieldsOf?_documents {room : Nat} {fields : List (String × Json)}
    (h : ∀ f ∈ fields, ofDocument? room f.2.document = some f.2.keySorted) :
    fieldsOf? room (fieldsDocuments fields) = some (fieldsKeySorted fields) := by
  rw [fieldsOf?_eq_mapM, fieldsDocuments_eq_map, fieldsKeySorted_eq_map]
  refine mapM_map_eq_some fun f hf => ?_
  rw [fieldOf?_document, h f hf, Option.map_some]

/-- The document of a value is given the value again, with the keys in order. -/
theorem ofDocument?_document {j : Json} (h : j.Numbers Number.ReadsBack) {room : Nat}
    (fits : j.nesting ≤ room) : ofDocument? room j.document = some j.keySorted := by
  induction h generalizing room with
  | null | bool | text => rfl
  | number n holds =>
    obtain ⟨m, spelled, read⟩ := holds
    rw [document, Number.document, spelled]
    simp only [ofDocument?, read, Option.map_some, keySorted]
  | array items all ih =>
    cases room with
    | zero => exact absurd fits (Nat.not_succ_le_zero _)
    | succ room =>
      have inner := itemsNesting_le_iff.mp (Nat.le_of_succ_le_succ fits)
      have read := itemsOf?_documents fun j hj => ih j hj (inner j hj)
      rw [document, ofDocument?, read, Option.map_some, keySorted]
  | object fields all ih =>
    cases room with
    | zero => exact absurd fits (Nat.not_succ_le_zero _)
    | succ room =>
      have inner := fieldsNesting_le_iff.mp (Nat.le_of_succ_le_succ fits)
      have read := fieldsOf?_documents fun f hf => ih f hf (inner f hf)
      rw [document, ofDocument?, read, Option.map_some, keySorted]

/-- Fields with different keys are all kept. -/
theorem keepLast_of_pairwise {done fields : List (String × Json)}
    (h : fields.Pairwise fun f g => f.1 ≠ g.1) : keepLast done fields = done.reverse ++ fields := by
  fun_induction keepLast done fields with
  | case1 done => rw [List.append_nil]
  | case2 done f => rw [List.reverse_cons]
  | case3 done f g rest ih =>
    obtain ⟨hf, others⟩ := List.pairwise_cons.mp h
    have differ : f.1 ≠ g.1 := hf g List.mem_cons_self
    simp only [if_neg differ] at ih ⊢
    rw [ih others, List.reverse_cons, List.append_assoc, List.singleton_append]

theorem ofFields_of_pairwise {fields : List (String × Json)}
    (h : (fields.map Prod.fst).Pairwise (· < ·)) : ofFields fields = object fields := by
  have keys : fields.Pairwise fun f g => f.1 < g.1 := List.pairwise_map.mp h
  have ordered : fields.Pairwise fun f g => decide (f.1 ≤ g.1) = true :=
    keys.imp fun lt => decide_eq_true (String.not_lt.mp (String.lt_asymm lt))
  have differ : fields.Pairwise fun f g => f.1 ≠ g.1 := keys.imp fun lt => String.ne_of_lt lt
  rw [ofFields, List.mergeSort_of_pairwise ordered, keepLast_of_pairwise differ, List.reverse_nil,
    List.nil_append]

theorem itemsKeySorted_eq_self {items : List Json} (h : ∀ j ∈ items, j.keySorted = j) :
    itemsKeySorted items = items := by
  rw [itemsKeySorted_eq_map, List.map_congr_left h, List.map_id']

theorem fieldsKeySorted_eq_self {fields : List (String × Json)}
    (h : ∀ f ∈ fields, f.2.keySorted = f.2) : fieldsKeySorted fields = fields := by
  have same : ∀ f ∈ fields, (f.1, f.2.keySorted) = f := fun f hf => by rw [h f hf]
  rw [fieldsKeySorted_eq_map, List.map_congr_left same, List.map_id']

/-- Putting the keys in order changes nothing where they are in order. -/
theorem keySorted_eq_self {j : Json} (h : j.Sorted) : j.keySorted = j := by
  induction h with
  | null | bool | number | text => rfl
  | array items _ ih => rw [keySorted, itemsKeySorted_eq_self ih]
  | object fields keys _ ih =>
    rw [keySorted, fieldsKeySorted_eq_self ih, ofFields_of_pairwise keys]

/-- Of fields in order, those that are kept have increasing keys. -/
theorem pairwise_keepLast {done fields : List (String × Json)}
    (kept : done.reverse.Pairwise fun f g => f.1 < g.1)
    (ordered : fields.Pairwise fun f g => f.1 ≤ g.1) (before : ∀ d ∈ done, ∀ f ∈ fields, d.1 < f.1) :
    (keepLast done fields).Pairwise fun f g => f.1 < g.1 := by
  fun_induction keepLast done fields with
  | case1 done => exact kept
  | case2 done f =>
    rw [List.reverse_cons, List.pairwise_append]
    refine ⟨kept, List.pairwise_singleton _ f, fun d hd g hg => ?_⟩
    exact before d (List.mem_reverse.mp hd) g hg
  | case3 done f g rest ih =>
    obtain ⟨least, ordered⟩ := List.pairwise_cons.mp ordered
    have others : ∀ d ∈ done, ∀ x ∈ g :: rest, d.1 < x.1 := fun d hd x hx =>
      before d hd x (List.mem_cons_of_mem f hx)
    -- Of equal neighbours the earlier one is dropped, so what is kept stays below what is left.
    by_cases same : f.1 = g.1
    · simp only [if_pos same] at ih ⊢
      exact ih kept ordered others
    · simp only [if_neg same] at ih ⊢
      -- A neighbour that differs is greater, and then so is all that comes after it.
      have next : f.1 < g.1 := Std.lt_of_le_of_ne (least g List.mem_cons_self) same
      have first : ∀ x ∈ g :: rest, f.1 < x.1 := by
        intro x hx
        obtain rfl | hx := List.mem_cons.mp hx
        · exact next
        · exact Std.lt_of_lt_of_le next ((List.pairwise_cons.mp ordered).1 x hx)
      refine ih ?_ ordered (List.forall_mem_cons.mpr ⟨first, others⟩)
      rw [List.reverse_cons, List.pairwise_append]
      refine ⟨kept, List.pairwise_singleton _ f, fun d hd x hx => ?_⟩
      obtain rfl := List.mem_singleton.mp hx
      exact before d (List.mem_reverse.mp hd) x List.mem_cons_self

theorem mem_of_mem_keepLast {done fields : List (String × Json)} {f : String × Json}
    (h : f ∈ keepLast done fields) : f ∈ done ∨ f ∈ fields := by
  fun_induction keepLast done fields with
  | case1 done => simpa using h
  | case2 done g => simpa [or_comm] using h
  | case3 done g k rest ih =>
    obtain kept | left := ih h
    · split at kept
      · exact .inl kept
      · obtain rfl | kept := List.mem_cons.mp kept
        · exact .inr List.mem_cons_self
        · exact .inl kept
    · exact .inr (List.mem_cons_of_mem g left)

/-- An object is sorted if its fields are, in whatever order they are given. -/
theorem sorted_ofFields {fields : List (String × Json)} (h : ∀ f ∈ fields, f.2.Sorted) :
    (ofFields fields).Sorted := by
  have sorted : (fields.mergeSort fun f g => f.1 ≤ g.1).Pairwise
      fun f g => decide (f.1 ≤ g.1) = true := by
    refine List.pairwise_mergeSort (fun f g k hfg hgk => ?_) (fun f g => ?_) fields
    · exact decide_eq_true (String.le_trans (of_decide_eq_true hfg) (of_decide_eq_true hgk))
    · simpa using String.le_total f.1 g.1
  have ordered := sorted.imp fun le => of_decide_eq_true le
  have keys : (keepLast [] (fields.mergeSort fun f g => f.1 ≤ g.1)).Pairwise
      fun f g => f.1 < g.1 := pairwise_keepLast .nil ordered (fun _ h => by cases h)
  refine .object _ (List.pairwise_map.mpr keys) fun f hf => ?_
  obtain earlier | mem := mem_of_mem_keepLast hf
  · cases earlier
  · exact h f (List.mem_mergeSort.mp mem)

theorem nesting_ofFields_le {fields : List (String × Json)} {n : Nat}
    (h : ∀ f ∈ fields, f.2.nesting ≤ n) : (ofFields fields).nesting ≤ n + 1 := by
  rw [ofFields, nesting]
  refine Nat.succ_le_succ (fieldsNesting_le_iff.mpr fun f hf => ?_)
  obtain earlier | mem := mem_of_mem_keepLast hf
  · cases earlier
  · exact h f (List.mem_mergeSort.mp mem)

/-- What values are made of that are read where `room` more levels may be opened. -/
inductive ReadWithin : (room : Nat) → Json → Prop where
  | null (room : Nat) : ReadWithin room null
  | bool (room : Nat) (b : Bool) : ReadWithin room (bool b)
  | number (room : Nat) (n : Number) : ReadWithin room (number n)
  | text (room : Nat) (s : String) : ReadWithin room (text s)
  | array {room : Nat} (items : List Json) (all : ∀ j ∈ items, ReadWithin room j) :
      ReadWithin (room + 1) (array items)
  | object {room : Nat} (fields : List (String × Json)) (all : ∀ f ∈ fields, ReadWithin room f.2) :
      ReadWithin (room + 1) (ofFields fields)

mutual

theorem readWithin_of_ofDocument? : ∀ (d : Document) {room : Nat} {j : Json},
    ofDocument? room d = some j → ReadWithin room j
  | .null, room, _, h => by cases h; exact .null room
  | .bool b, room, _, h => by cases h; exact .bool room b
  | .number n, room, _, h => by
    obtain ⟨m, -, rfl⟩ := Option.map_eq_some_iff.mp h
    exact .number room m
  | .text content, room, _, h => by
    obtain ⟨s, -, rfl⟩ := Option.map_eq_some_iff.mp h
    exact .text room s
  | .array items, 0, _, h => by cases h
  | .array items, room + 1, _, h => by
    obtain ⟨js, read, rfl⟩ := Option.map_eq_some_iff.mp h
    exact .array js (readWithin_of_itemsOf? items read)
  | .object fields, 0, _, h => by cases h
  | .object fields, room + 1, _, h => by
    obtain ⟨js, read, rfl⟩ := Option.map_eq_some_iff.mp h
    exact .object js (readWithin_of_fieldsOf? fields read)

theorem readWithin_of_itemsOf? : ∀ (ds : List Document) {room : Nat} {js : List Json},
    itemsOf? room ds = some js → ∀ j ∈ js, ReadWithin room j
  | [], _, _, h => by cases h; exact List.forall_mem_nil _
  | d :: ds, _, _, h => by
    obtain ⟨j, hj, h⟩ := Option.bind_eq_some_iff.mp h
    obtain ⟨js, hjs, h⟩ := Option.bind_eq_some_iff.mp h
    cases h
    exact List.forall_mem_cons.mpr ⟨readWithin_of_ofDocument? d hj, readWithin_of_itemsOf? ds hjs⟩

theorem readWithin_of_fieldsOf? : ∀ (ds : List (Option String × Document)) {room : Nat}
    {fields : List (String × Json)}, fieldsOf? room ds = some fields →
      ∀ f ∈ fields, ReadWithin room f.2
  | [], _, _, h => by cases h; exact List.forall_mem_nil _
  | (_, d) :: ds, _, _, h => by
    obtain ⟨key, -, h⟩ := Option.bind_eq_some_iff.mp h
    obtain ⟨j, hj, h⟩ := Option.bind_eq_some_iff.mp h
    obtain ⟨fields, hfields, h⟩ := Option.bind_eq_some_iff.mp h
    cases h
    exact List.forall_mem_cons.mpr
      ⟨readWithin_of_ofDocument? d hj, readWithin_of_fieldsOf? ds hfields⟩

end

/-- Every value that is read is sorted. -/
theorem ReadWithin.sorted {room : Nat} {j : Json} (h : j.ReadWithin room) : j.Sorted := by
  induction h with
  | null => exact .null
  | bool _ b => exact .bool b
  | number _ n => exact .number n
  | text _ s => exact .text s
  | array items _ ih => exact .array items ih
  | object fields _ ih => exact sorted_ofFields ih

/-- A value that is read nests no deeper than there was room. -/
theorem ReadWithin.nesting_le {room : Nat} {j : Json} (h : j.ReadWithin room) :
    j.nesting ≤ room := by
  induction h with
  | null | bool | number | text => exact Nat.zero_le _
  | array items _ ih =>
    rw [nesting]
    exact Nat.succ_le_succ (itemsNesting_le_iff.mpr ih)
  | object fields _ ih => exact nesting_ofFields_le ih

end RecordFilter.Json
