/-!
# Sets of names

A set of texts kept as an ascending list, in the order of code points. Member ids, warnings and
known sources are such sets: the order in which their elements arrive never shows.

* `insert`, `union`, `ofList` — building a set;
* `mem_insert`, `mem_union`, `mem_ofList` — what the operations hold;
* `ext` — two sets with the same elements are equal.
-/

namespace TeamRouting

/-- A finite set of texts, listed in ascending order without repetition. -/
structure NameSet where
  toList : List String
  ascending : toList.Pairwise (· < ·) := by exact List.Pairwise.nil
deriving DecidableEq

namespace NameSet

/-- The set without elements. -/
def empty : NameSet := ⟨[], List.Pairwise.nil⟩

instance : EmptyCollection NameSet := ⟨empty⟩

instance : Inhabited NameSet := ⟨empty⟩

instance : Membership String NameSet := ⟨fun s a => a ∈ s.toList⟩

/-- Whether a text is in the set. -/
def contains (s : NameSet) (a : String) : Bool := s.toList.contains a

/-- Whether the set has no elements. -/
def isEmpty (s : NameSet) : Bool := s.toList.isEmpty

/-! ## Insertion -/

/-- Places a text into an ascending list, unless it is there. -/
def place (a : String) : List String → List String
  | [] => [a]
  | b :: bs => if a < b then a :: b :: bs else if a = b then b :: bs else b :: place a bs

/-- A placed text and the old elements are what the list holds afterwards. -/
theorem mem_place {a x : String} {bs : List String} : x ∈ place a bs ↔ x = a ∨ x ∈ bs := by
  induction bs with
  | nil => simp [place]
  | cons b bs ih =>
    unfold place
    split
    · simp
    · split
      · next heq => subst heq; simp
      · simp only [List.mem_cons, ih]
        constructor
        · rintro (h | h | h) <;> simp [h]
        · rintro (h | h | h) <;> simp [h]

/-- Of two different texts one comes first. -/
theorem lt_of_not_lt_of_ne {a b : String} (h : ¬ a < b) (hne : a ≠ b) : b < a := by
  rcases Decidable.em (b < a) with h' | h'
  · exact h'
  · exact absurd (String.le_antisymm (String.not_lt.1 h') (String.not_lt.1 h)) hne

/-- Placing keeps a list ascending. -/
theorem pairwise_place {a : String} {bs : List String} (h : bs.Pairwise (· < ·)) :
    (place a bs).Pairwise (· < ·) := by
  induction bs with
  | nil => simp [place]
  | cons b bs ih =>
    obtain ⟨hb, hbs⟩ := List.pairwise_cons.1 h
    unfold place
    split
    · next hlt =>
      refine List.pairwise_cons.2 ⟨fun c hc => ?_, h⟩
      rcases List.mem_cons.1 hc with rfl | hc
      · exact hlt
      · exact String.lt_trans hlt (hb c hc)
    · next hnlt =>
      split
      · exact h
      · next hne =>
        refine List.pairwise_cons.2 ⟨fun c hc => ?_, ih hbs⟩
        rcases mem_place.1 hc with rfl | hc
        · exact lt_of_not_lt_of_ne hnlt hne
        · exact hb c hc

/-- The set with one more element. -/
def insert (s : NameSet) (a : String) : NameSet := ⟨place a s.toList, pairwise_place s.ascending⟩

/-- The set of the texts of a list. -/
def ofList (as : List String) : NameSet := as.foldl insert empty

/-- The elements of both sets. -/
def union (s t : NameSet) : NameSet := t.toList.foldl insert s

/-! ## What the operations hold -/

@[simp] theorem mem_insert {s : NameSet} {a x : String} : x ∈ s.insert a ↔ x = a ∨ x ∈ s :=
  mem_place

@[simp] theorem not_mem_empty {x : String} : x ∉ empty := by
  intro h; cases h

/-- Inserting a list adds its elements. -/
theorem mem_foldl_insert {as : List String} {s : NameSet} {x : String} :
    x ∈ as.foldl insert s ↔ x ∈ s ∨ x ∈ as := by
  induction as generalizing s with
  | nil => simp
  | cons a as ih =>
    rw [List.foldl_cons, ih, mem_insert, List.mem_cons]
    constructor
    · rintro ((h | h) | h) <;> simp [h]
    · rintro (h | h | h) <;> simp [h]

@[simp] theorem mem_union {s t : NameSet} {x : String} : x ∈ s.union t ↔ x ∈ s ∨ x ∈ t :=
  mem_foldl_insert

@[simp] theorem mem_ofList {as : List String} {x : String} : x ∈ ofList as ↔ x ∈ as := by
  rw [ofList, mem_foldl_insert]
  simp

/-! ## Extensionality -/

/-- Ascending lists with the same elements are equal. -/
theorem eq_of_pairwise {as bs : List String} (ha : as.Pairwise (· < ·)) (hb : bs.Pairwise (· < ·))
    (h : ∀ x, x ∈ as ↔ x ∈ bs) : as = bs := by
  induction as generalizing bs with
  | nil =>
    cases bs with
    | nil => rfl
    | cons b bs => exact absurd ((h b).2 (by simp)) (by simp)
  | cons a as ih =>
    cases bs with
    | nil => exact absurd ((h a).1 (by simp)) (by simp)
    | cons b bs =>
      obtain ⟨ha1, ha2⟩ := List.pairwise_cons.1 ha
      obtain ⟨hb1, hb2⟩ := List.pairwise_cons.1 hb
      have hab : a = b := by
        rcases List.mem_cons.1 ((h a).1 (by simp)) with h1 | h1
        · exact h1
        · rcases List.mem_cons.1 ((h b).2 (by simp)) with h2 | h2
          · exact h2.symm
          · exact absurd (String.lt_trans (ha1 b h2) (hb1 a h1)) (String.lt_irrefl a)
      subst hab
      congr 1
      refine ih ha2 hb2 fun x => ?_
      have hx := h x
      simp only [List.mem_cons] at hx
      constructor
      · intro hm
        rcases hx.1 (Or.inr hm) with rfl | h'
        · exact absurd (ha1 x hm) (String.lt_irrefl x)
        · exact h'
      · intro hm
        rcases hx.2 (Or.inr hm) with rfl | h'
        · exact absurd (hb1 x hm) (String.lt_irrefl x)
        · exact h'

/-- Two sets with the same elements are equal. -/
@[ext] theorem ext {s t : NameSet} (h : ∀ x, x ∈ s ↔ x ∈ t) : s = t := by
  cases s with
  | mk as ha =>
    cases t with
    | mk bs hb =>
      congr
      exact eq_of_pairwise ha hb h

end NameSet

end TeamRouting
