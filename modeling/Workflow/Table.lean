/-!
# Workflow.Table — finite maps that keep the order of their keys

A table is a list of entries with distinct keys.  A new key goes to the end, a known one keeps its
place.  `get?_put_self`, `get?_put_of_ne`, `get?_erase_self` and `get?_erase_of_ne` say what an
entry's change does to look-ups.
-/

namespace Workflow

/-- A finite map with its keys in the order in which they came. -/
structure Table (κ ν : Type) where
  entries : List (κ × ν)
  nodup : (entries.map Prod.fst).Nodup

namespace Table

variable {κ ν : Type} [DecidableEq κ]

def empty : Table κ ν := ⟨[], List.nodup_nil⟩

instance : Inhabited (Table κ ν) := ⟨empty⟩

instance [BEq ν] : BEq (Table κ ν) := ⟨fun a b => a.entries == b.entries⟩

/-- The value of a key among entries. -/
def find? (key : κ) : List (κ × ν) → Option ν
  | [] => none
  | (k, v) :: rest => if k = key then some v else find? key rest

/-- The entries with a new value for a key. -/
def insert (key : κ) (value : ν) : List (κ × ν) → List (κ × ν)
  | [] => [(key, value)]
  | (k, v) :: rest => if k = key then (k, value) :: rest else (k, v) :: insert key value rest

theorem mem_keys_insert {key k : κ} {value : ν} {es : List (κ × ν)} :
    k ∈ (insert key value es).map Prod.fst ↔ k = key ∨ k ∈ es.map Prod.fst := by
  induction es with
  | nil => simp [insert]
  | cons e rest ih =>
    by_cases h : e.1 = key
    · simp [insert, h]
    · simp only [insert, h, if_false, List.map_cons, List.mem_cons, ih]
      constructor <;> rintro (h | h | h) <;> simp [h]

theorem nodup_insert {key : κ} {value : ν} {es : List (κ × ν)} (h : (es.map Prod.fst).Nodup) :
    ((insert key value es).map Prod.fst).Nodup := by
  induction es with
  | nil => simp [insert]
  | cons e rest ih =>
    have hrest := List.nodup_cons.1 h
    by_cases hk : e.1 = key
    · simpa [insert, hk] using h
    · simp only [insert, hk, if_false, List.map_cons, List.nodup_cons]
      refine ⟨fun hmem => ?_, ih hrest.2⟩
      rcases mem_keys_insert.1 hmem with heq | hold
      · exact hk heq
      · exact hrest.1 hold

/-- The value of a key. -/
def get? (t : Table κ ν) (key : κ) : Option ν := find? key t.entries

/-- Whether the key has a value. -/
def contains (t : Table κ ν) (key : κ) : Bool := (t.get? key).isSome

/-- The table with a new value for a key. -/
def put (t : Table κ ν) (key : κ) (value : ν) : Table κ ν :=
  ⟨insert key value t.entries, nodup_insert t.nodup⟩

/-- The table without a key. -/
def erase (t : Table κ ν) (key : κ) : Table κ ν :=
  ⟨t.entries.filter fun e => e.1 ≠ key,
    (List.filter_sublist.map Prod.fst).nodup t.nodup⟩

/-- How many keys have a value. -/
def size (t : Table κ ν) : Nat := t.entries.length

/-- The table of a list of entries; of a repeated key the last value counts. -/
def ofList (es : List (κ × ν)) : Table κ ν := es.foldl (fun t e => t.put e.1 e.2) empty

/-! ### Look-ups -/

theorem find?_insert {key k : κ} {value : ν} {es : List (κ × ν)} :
    find? k (insert key value es) = if k = key then some value else find? k es := by
  induction es with
  | nil => by_cases h : key = k <;> simp [insert, find?, h, eq_comm]
  | cons e rest ih =>
    by_cases h : e.1 = key
    · subst h
      by_cases hk : e.1 = k
      · simp [insert, find?, hk]
      · simp [insert, find?, hk, Ne.symm hk]
    · by_cases hk : e.1 = k
      · subst hk
        simp [insert, find?, h]
      · simp [insert, find?, h, hk, ih]

@[simp] theorem get?_put_self (t : Table κ ν) (key : κ) (value : ν) :
    (t.put key value).get? key = some value := by
  simp [get?, put, find?_insert]

theorem get?_put_of_ne (t : Table κ ν) {key k : κ} (value : ν) (h : k ≠ key) :
    (t.put key value).get? k = t.get? k := by
  simp [get?, put, find?_insert, h]

theorem put_put (t : Table κ ν) (key : κ) (old new : ν) :
    (t.put key old).put key new = t.put key new := by
  have twice (es : List (κ × ν)) :
      insert key new (insert key old es) = insert key new es := by
    induction es with
    | nil => simp [insert]
    | cons e rest ih =>
      by_cases h : e.1 = key
      · simp [insert, h]
      · simp [insert, h, ih]
  simp only [put, twice]

@[simp] theorem get?_erase_self (t : Table κ ν) (key : κ) : (t.erase key).get? key = none := by
  have hfind : ∀ es : List (κ × ν), find? key (es.filter fun e => e.1 ≠ key) = none := by
    intro es
    induction es with
    | nil => rfl
    | cons e rest ih =>
      by_cases h : e.1 = key
      · simpa [h] using ih
      · simpa [h, find?] using ih
  exact hfind t.entries

theorem get?_erase_of_ne (t : Table κ ν) {key k : κ} (h : k ≠ key) :
    (t.erase key).get? k = t.get? k := by
  have hfind (es : List (κ × ν)) : find? k (es.filter fun e => e.1 ≠ key) = find? k es := by
    induction es with
    | nil => rfl
    | cons e rest ih =>
      by_cases he : e.1 = key
      · simpa [he, find?, Ne.symm h] using ih
      · by_cases hk : e.1 = k
        · simp [find?, hk, h]
        · simpa [he, find?, hk] using ih
  exact hfind t.entries

@[simp] theorem get?_empty (key : κ) : (empty : Table κ ν).get? key = none := rfl

end Table

end Workflow
