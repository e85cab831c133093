import TeamRouting.Proofs.Trimming
import TeamRouting.Reference

/-!
# Templates and the references they stand for

A reference is written as a template and read back from it.  The template is read by taking it
apart from the outside: blanks, braces, the first colon, and blanks again.  Names hold none of
these, so each step finds what was put there.

* `Reference.WellFormed` — both sides of a reference are names;
* `Reference.wellFormed_of_ofText?` — whatever text a reference is read from, it is well-formed;
* `Reference.ofText?_text` — and a well-formed reference is read back from its template.
-/

namespace TeamRouting

namespace Reference

/-! ## Names -/

/-- A text that can be the name of a source or a field: some ASCII letters and digits, `_`, `-`
and `.`, at least one of them. -/
def Names (s : String) : Prop :=
  s ≠ "" ∧ ∀ c ∈ s.toList, c.isAlphanum = true ∨ c = '_' ∨ c = '-' ∨ c = '.'

/-- A reference whose source and field are names. -/
structure WellFormed (r : Reference) : Prop where
  source : Names r.source
  field : Names r.field

theorem isNameChar_iff {c : Char} :
    isNameChar c = true ↔ c.isAlphanum = true ∨ c = '_' ∨ c = '-' ∨ c = '.' := by
  simp only [isNameChar, Bool.or_eq_true, decide_eq_true_eq, or_assoc]

theorem isName_toList_iff {s : String} : isName s.toList = true ↔ Names s := by
  have hempty : s.toList.isEmpty = false ↔ s ≠ "" := by
    rw [← Bool.not_eq_true, List.isEmpty_iff, String.toList_eq_nil_iff]
  simp only [isName, Names, Bool.and_eq_true, Bool.not_eq_true', List.all_eq_true, isNameChar_iff,
    hempty]

theorem bounds_of_isNameChar {c : Char} (h : isNameChar c = true) :
    45 ≤ c.toNat ∧ c.toNat ≤ 122 := by
  delta isNameChar Char.isAlphanum Char.isAlpha Char.isUpper Char.isLower Char.isDigit at h
  simp only [Bool.or_eq_true, decide_eq_true_eq, Bool.and_eq_true, ge_iff_le,
    UInt32.le_iff_toNat_le] at h
  show 45 ≤ c.val.toNat ∧ c.val.toNat ≤ 122
  rcases h with ((((h | h) | h) | rfl) | rfl) | rfl
  · exact ⟨Nat.le_trans (by decide) h.1, Nat.le_trans h.2 (by decide)⟩
  · exact ⟨Nat.le_trans (by decide) h.1, Nat.le_trans h.2 (by decide)⟩
  · exact ⟨Nat.le_trans (by decide) h.1, Nat.le_trans h.2 (by decide)⟩
  · decide
  · decide
  · decide

/-- No character of a name is blank. -/
theorem isBlank_of_isNameChar {c : Char} (h : isNameChar c = true) : Text.isBlank c = false := by
  obtain ⟨hlow, hhigh⟩ := bounds_of_isNameChar h
  exact Text.isBlank_of_bounds hlow hhigh

/-- Nor is it a colon. -/
theorem ne_colon_of_isNameChar {c : Char} (h : isNameChar c = true) : c ≠ ':' := by
  rintro rfl
  exact absurd h (by decide)

theorem trimChars_of_isName {cs : List Char} (h : isName cs = true) : Text.trimChars cs = cs := by
  have hblank : ∀ c ∈ cs, Text.isBlank c = false := by
    intro c hc
    rw [isName, Bool.and_eq_true, List.all_eq_true] at h
    exact isBlank_of_isNameChar (h.2 c hc)
  exact Text.trimChars_of_not_blank hblank

/-! ## Taking a template apart -/

theorem inner?_braces (cs : List Char) : inner? ('\x7b' :: (cs ++ ['\x7d'])) = some cs := by
  rw [inner?, List.reverse_append, List.reverse_singleton, List.singleton_append]
  exact congrArg some (List.reverse_reverse cs)

/-- There are no blanks to take off in front of a brace or behind one. -/
theorem trimChars_braces (cs : List Char) :
    Text.trimChars ('\x7b' :: (cs ++ ['\x7d'])) = '\x7b' :: (cs ++ ['\x7d']) := by
  refine Text.trimChars_eq_self ?_ ?_
  · rintro c ⟨⟩
    decide
  · intro c hc
    rw [← List.cons_append, List.getLast?_concat] at hc
    cases hc
    decide

/-- The colon is found behind a text that has none. -/
theorem splitColon?_append {before : List Char} (behind : List Char) (h : ':' ∉ before) :
    splitColon? (before ++ ':' :: behind) = some (before, behind) := by
  induction before with
  | nil => rfl
  | cons c before ih =>
      rw [List.mem_cons, not_or] at h
      rw [List.cons_append, splitColon?, if_neg (Ne.symm h.1), ih h.2]
      rfl

theorem toList_text (r : Reference) :
    r.text.toList = '\x7b' :: ((r.source.toList ++ ':' :: r.field.toList) ++ ['\x7d']) := by
  simp [text]

/-! ## Reading -/

/-- **A reference is well-formed, whatever text it is read from.** -/
theorem wellFormed_of_ofText? {s : String} {r : Reference} (h : ofText? s = some r) :
    r.WellFormed := by
  simp only [ofText?, ofChars?, Option.bind_eq_bind, Option.bind_eq_some_iff] at h
  obtain ⟨inside, -, ⟨before, behind⟩, -, h⟩ := h
  split at h
  · next hnames =>
    cases h
    rw [Bool.and_eq_true] at hnames
    exact ⟨isName_toList_iff.1 (by rw [String.toList_ofList]; exact hnames.1),
      isName_toList_iff.1 (by rw [String.toList_ofList]; exact hnames.2)⟩
  · cases h

/-- **A well-formed reference is read back from its template.** -/
theorem ofText?_text {r : Reference} (h : r.WellFormed) : ofText? r.text = some r := by
  have hsource : isName r.source.toList = true := isName_toList_iff.2 h.source
  have hfield : isName r.field.toList = true := isName_toList_iff.2 h.field
  have hcolon : ':' ∉ r.source.toList := by
    intro hmem
    rw [isName, Bool.and_eq_true, List.all_eq_true] at hsource
    exact ne_colon_of_isNameChar (hsource.2 _ hmem) rfl
  rw [ofText?, ofChars?, toList_text, trimChars_braces, inner?_braces]
  simp only [Option.bind_eq_bind, Option.bind_some, splitColon?_append _ hcolon,
    trimChars_of_isName hsource, trimChars_of_isName hfield, hsource, hfield, Bool.and_self,
    if_true, String.ofList_toList]

end Reference

end TeamRouting
