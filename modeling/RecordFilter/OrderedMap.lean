/-!
# Maps in order of insertion

A map is the list of its entries, no key twice. Writing to a key that is there keeps its place;
another key goes to the end. `get?` and `keys` are the views that the laws speak of.
-/
namespace RecordFilter

/-- A map whose entries keep the order in which their keys were first written. -/
structure OrderedMap (κ : Type) (α : Type) where
  entries : List (κ × α)
  nodup : (entries.map Prod.fst).Nodup

namespace OrderedMap

variable {κ α : Type} [DecidableEq κ]

def put (k : κ) (a : α) : List (κ × α) → List (κ × α)
  | [] => [(k, a)]
  | e :: rest => if e.1 = k then (k, a) :: rest else e :: put k a rest

theorem keys_put (k : κ) (a : α) (es : List (κ × α)) :
    (put k a es).map Prod.fst =
      if k ∈ es.map Prod.fst then es.map Prod.fst else es.map Prod.fst ++ [k] := by
  induction es with
  | nil => simp [put]
  | cons e es ih =>
      by_cases h : e.1 = k
      · simp [put, h]
      · have h' : ¬k = e.1 := fun h' => h h'.symm
        simp only [put, h, if_false, List.map_cons, ih, List.mem_cons, h', false_or]
        split <;> simp

theorem nodup_put {k : κ} {a : α} {es : List (κ × α)} (h : (es.map Prod.fst).Nodup) :
    ((put k a es).map Prod.fst).Nodup := by
  rw [keys_put]
  split
  · exact h
  · next hk =>
    simpa [List.nodup_append, h] using
      fun x b hx => fun hx' => hk (by simpa using ⟨b, hx' ▸ hx⟩)

def empty : OrderedMap κ α := ⟨[], List.nodup_nil⟩

instance : Inhabited (OrderedMap κ α) := ⟨empty⟩

def insert (m : OrderedMap κ α) (k : κ) (a : α) : OrderedMap κ α :=
  ⟨put k a m.entries, nodup_put m.nodup⟩

/-- Writes entries from left to right. -/
def insertAll (m : OrderedMap κ α) (es : List (κ × α)) : OrderedMap κ α :=
  es.foldl (fun m e => m.insert e.1 e.2) m

/-- The map that results from writing the entries from left to right. -/
def ofList (es : List (κ × α)) : OrderedMap κ α :=
  empty.insertAll es

def keys (m : OrderedMap κ α) : List κ :=
  m.entries.map Prod.fst

def size (m : OrderedMap κ α) : Nat :=
  m.entries.length

def get? (m : OrderedMap κ α) (k : κ) : Option α :=
  (m.entries.find? fun e => e.1 = k).map Prod.snd

def filter (m : OrderedMap κ α) (p : κ × α → Bool) : OrderedMap κ α :=
  ⟨m.entries.filter p, List.Nodup.sublist (List.filter_sublist.map _) m.nodup⟩

/-- The first `n` entries after the first `start`. -/
def slice (m : OrderedMap κ α) (start n : Nat) : OrderedMap κ α :=
  ⟨(m.entries.drop start).take n,
    List.Nodup.sublist (((List.take_sublist _ _).trans (List.drop_sublist _ _)).map _) m.nodup⟩

omit [DecidableEq κ] in
@[simp] theorem entries_empty : (empty : OrderedMap κ α).entries = [] := rfl

@[simp] theorem entries_insert (m : OrderedMap κ α) (k : κ) (a : α) :
    (m.insert k a).entries = put k a m.entries := rfl

theorem keys_insert (m : OrderedMap κ α) (k : κ) (a : α) :
    (m.insert k a).keys = if k ∈ m.keys then m.keys else m.keys ++ [k] :=
  keys_put k a m.entries

theorem find?_put (k k' : κ) (a : α) (es : List (κ × α)) :
    ((put k a es).find? fun e => e.1 = k').map Prod.snd =
      if k = k' then some a else (es.find? fun e => e.1 = k').map Prod.snd := by
  induction es with
  | nil => by_cases h : k = k' <;> simp [put, h]
  | cons e es ih =>
      by_cases h : e.1 = k
      · subst h
        by_cases h' : e.1 = k' <;> simp [put, h']
      · by_cases h' : e.1 = k'
        · subst h'
          simp [put, h, Ne.symm h]
        · simp [put, h, h', ih]

/-- A write is seen at its key and nowhere else. -/
theorem get?_insert (m : OrderedMap κ α) (k k' : κ) (a : α) :
    (m.insert k a).get? k' = if k = k' then some a else m.get? k' :=
  find?_put k k' a m.entries

end OrderedMap
end RecordFilter
