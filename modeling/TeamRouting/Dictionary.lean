/-!
# Dictionaries

Values under keys. A key that is set again keeps its place and takes the new value, so a
dictionary read from a document lists its keys in the order of their first appearance.

* `find?` — the value under a key;
* `insert`, `ofList` — setting values;
* `find?_insert_self`, `find?_insert_of_ne` — what is found afterwards.
-/

namespace TeamRouting

/-- Values of a type under keys of another. -/
structure Dictionary (κ : Type) (α : Type) where
  entries : List (κ × α) := []
deriving Repr, DecidableEq

namespace Dictionary

variable {κ α : Type} [DecidableEq κ]

/-- The dictionary without keys. -/
def empty : Dictionary κ α := ⟨[]⟩

instance : Inhabited (Dictionary κ α) := ⟨empty⟩

instance : EmptyCollection (Dictionary κ α) := ⟨empty⟩

/-- The value under a key. -/
def find? (d : Dictionary κ α) (k : κ) : Option α :=
  (d.entries.find? fun entry => entry.1 = k).map Prod.snd

/-- The keys, in the order in which they first appeared. -/
def keys (d : Dictionary κ α) : List κ := d.entries.map Prod.fst

/-- Sets the value of a key in a list of entries. -/
def put (k : κ) (v : α) : List (κ × α) → List (κ × α)
  | [] => [(k, v)]
  | entry :: rest => if entry.1 = k then (k, v) :: rest else entry :: put k v rest

/-- The dictionary with a value set. -/
def insert (d : Dictionary κ α) (k : κ) (v : α) : Dictionary κ α := ⟨put k v d.entries⟩

/-- The dictionary of a list of entries, where the last value of a key counts. -/
def ofList (entries : List (κ × α)) : Dictionary κ α :=
  entries.foldl (fun d entry => d.insert entry.1 entry.2) empty

/-! ## What is found -/

/-- A value that was set is found. -/
@[simp] theorem find?_insert_self (d : Dictionary κ α) (k : κ) (v : α) :
    (d.insert k v).find? k = some v := by
  obtain ⟨entries⟩ := d
  simp only [find?, insert]
  induction entries with
  | nil => simp [put]
  | cons entry rest ih =>
    unfold put
    by_cases h : entry.1 = k
    · simp [h]
    · simp only [h, if_false, List.find?_cons, decide_false]
      exact ih

/-- Setting a value leaves the other keys alone. -/
theorem find?_insert_of_ne (d : Dictionary κ α) {k k' : κ} (v : α) (h : k' ≠ k) :
    (d.insert k v).find? k' = d.find? k' := by
  obtain ⟨entries⟩ := d
  simp only [find?, insert]
  have hk : ¬ k = k' := fun e => h e.symm
  induction entries with
  | nil => simp [put, hk]
  | cons entry rest ih =>
    unfold put
    by_cases he : entry.1 = k
    · simp [he, hk]
    · by_cases he' : entry.1 = k'
      · simp [he', h]
      · simp only [he, if_false, List.find?_cons, he', decide_false]
        exact ih

end Dictionary

end TeamRouting
