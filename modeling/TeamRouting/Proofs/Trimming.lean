import Mathlib.Data.List.TakeWhile
import TeamRouting.Text.LowerCase

/-!
# What trimming takes off

A text is a core between blanks, and trimming finds the core.  So blanks around a text make no
difference once it is trimmed, and neither does a replacement of characters that leaves the blanks
where they are, such as another case for some letters.

* `Text.Ranges.not_contains_of_apart` — classes of characters that have none in common;
* `Text.Blanks` — texts of blanks alone;
* `Text.trimChars_append_blanks` — blanks around a text are taken off;
* `Text.exists_blanks` — and nothing else is, so that a text is its core between blanks;
* `Text.exists_split_trimmed` — what stands in a text, without blanks at its own ends, stands in
  the core;
* `Text.trimChars_map` — trimming a text with other characters;
* `Text.equalsIgnoringCase_trim` — equality up to case, of texts and of their cores.
-/

namespace TeamRouting.Text

/-! ## Ranges -/

theorem Ranges.contains_iff {ranges : Ranges} {c : Char} :
    ranges.contains c = true ↔ ∃ range ∈ ranges, range.1 ≤ c.toNat ∧ c.toNat ≤ range.2 := by
  simp [Ranges.contains]

/-- Ranges that keep apart have no character in common. -/
theorem Ranges.not_contains_of_apart {ranges others : Ranges} {c : Char}
    (apart : ∀ range ∈ ranges, ∀ other ∈ others, range.2 < other.1 ∨ other.2 < range.1)
    (hc : ranges.contains c = true) : others.contains c = false := by
  obtain ⟨range, hrange, hlow, hhigh⟩ := Ranges.contains_iff.1 hc
  rw [Bool.eq_false_iff, ne_eq, Ranges.contains_iff]
  rintro ⟨other, hother, hlow', hhigh'⟩
  have := apart range hrange other hother
  omega

/-! ## Texts of blanks -/

/-- A text of blanks alone. -/
def Blanks (cs : List Char) : Prop := ∀ c ∈ cs, isBlank c = true

instance (cs : List Char) : Decidable (Blanks cs) :=
  List.decidableBAll (fun c => isBlank c = true) cs

variable {cs before after : List Char}

theorem Blanks.reverse (h : Blanks cs) : Blanks cs.reverse :=
  fun c hc => h c (List.mem_reverse.1 hc)

theorem trimStart_append_blanks (h : Blanks before) : trimStart (before ++ cs) = trimStart cs :=
  List.dropWhile_append_of_pos h

theorem trimEnd_eq (cs : List Char) : trimEnd cs = (trimStart cs.reverse).reverse := rfl

theorem trimEnd_append_blanks (h : Blanks after) : trimEnd (cs ++ after) = trimEnd cs := by
  rw [trimEnd_eq, trimEnd_eq, List.reverse_append, trimStart_append_blanks h.reverse]

theorem trimStart_of_blanks (h : Blanks cs) : trimStart cs = [] := List.dropWhile_eq_nil_iff.2 h

theorem trimChars_of_blanks (h : Blanks cs) : trimChars cs = [] := by
  rw [trimChars, trimStart_of_blanks h]
  rfl

/-- A text that is not blank keeps what follows it when its first blanks are taken off. -/
theorem trimStart_append_of_not_blanks (h : ¬ Blanks cs) :
    trimStart (cs ++ after) = trimStart cs ++ after := by
  have hne : cs.dropWhile isBlank ≠ [] := fun hnil => h (List.dropWhile_eq_nil_iff.1 hnil)
  show (cs ++ after).dropWhile isBlank = cs.dropWhile isBlank ++ after
  rw [List.dropWhile_append, if_neg (by simpa using hne)]

/-- **Blanks around a text are taken off.** -/
theorem trimChars_append_blanks (hbefore : Blanks before) (hafter : Blanks after) :
    trimChars (before ++ cs ++ after) = trimChars cs := by
  rw [List.append_assoc, trimChars, trimStart_append_blanks hbefore]
  by_cases hcs : Blanks cs
  · have hall : Blanks (cs ++ after) := by
      intro c hc
      rcases List.mem_append.1 hc with hc | hc
      · exact hcs c hc
      · exact hafter c hc
    rw [trimStart_of_blanks hall, trimChars_of_blanks hcs]
    rfl
  · rw [trimStart_append_of_not_blanks hcs, trimEnd_append_blanks hafter, trimChars]

/-! ## The core of a text -/

theorem exists_blanks_trimStart (cs : List Char) :
    ∃ before, Blanks before ∧ cs = before ++ trimStart cs :=
  ⟨cs.takeWhile isBlank, fun _ hc => List.mem_takeWhile_imp hc,
    (List.takeWhile_append_dropWhile).symm⟩

theorem exists_trimStart_eq (cs : List Char) :
    ∃ after, Blanks after ∧ trimStart cs = trimChars cs ++ after := by
  obtain ⟨after, hafter, hrest⟩ := exists_blanks_trimStart (trimStart cs).reverse
  refine ⟨after.reverse, hafter.reverse, ?_⟩
  rw [trimChars, trimEnd_eq, ← List.reverse_append, ← hrest, List.reverse_reverse]

/-- **A text is its core between blanks.** -/
theorem exists_blanks (cs : List Char) :
    ∃ before after, Blanks before ∧ Blanks after ∧ cs = before ++ trimChars cs ++ after := by
  obtain ⟨before, hbefore, hcs⟩ := exists_blanks_trimStart cs
  obtain ⟨after, hafter, hcore⟩ := exists_trimStart_eq cs
  refine ⟨before, after, hbefore, hafter, ?_⟩
  rw [List.append_assoc, ← hcore]
  exact hcs

theorem trimStart_eq_self (h : ∀ c ∈ cs.head?, isBlank c = false) : trimStart cs = cs := by
  cases cs with
  | nil => rfl
  | cons c cs => exact List.dropWhile_cons_of_neg (by rw [h c rfl]; exact Bool.false_ne_true)

/-- Nothing is taken off a text with no blank at either end. -/
theorem trimChars_eq_self (hhead : ∀ c ∈ cs.head?, isBlank c = false)
    (hlast : ∀ c ∈ cs.getLast?, isBlank c = false) : trimChars cs = cs := by
  have hend : trimStart cs.reverse = cs.reverse :=
    trimStart_eq_self (by rwa [List.head?_reverse])
  rw [trimChars, trimStart_eq_self hhead, trimEnd_eq, hend, List.reverse_reverse]

theorem trimChars_of_not_blank (h : ∀ c ∈ cs, isBlank c = false) : trimChars cs = cs :=
  trimChars_eq_self (fun c hc => h c (List.mem_of_head? hc)) fun c hc =>
    h c (List.mem_of_getLast? hc)

theorem not_isBlank_of_head?_trimStart {c : Char} (h : c ∈ (trimStart cs).head?) :
    isBlank c = false := by
  have hhead := List.head?_dropWhile_not isBlank cs
  rw [show cs.dropWhile isBlank = trimStart cs from rfl, h] at hhead
  exact hhead

/-- No blank is left at the beginning of a core. -/
theorem not_isBlank_of_head?_trimChars {c : Char} (h : c ∈ (trimChars cs).head?) :
    isBlank c = false := by
  obtain ⟨after, -, hcore⟩ := exists_trimStart_eq cs
  have hstart : c ∈ (trimStart cs).head? := by
    rw [hcore, List.head?_append, h]
    rfl
  exact not_isBlank_of_head?_trimStart hstart

/-- Nor is one at its end. -/
theorem not_isBlank_of_getLast?_trimChars {c : Char} (h : c ∈ (trimChars cs).getLast?) :
    isBlank c = false := by
  rw [trimChars, trimEnd_eq, List.getLast?_reverse] at h
  exact not_isBlank_of_head?_trimStart h

/-- **What stands in a text stands in its core**, if it has no blanks at its own ends. -/
theorem exists_split_trimmed {part core left right : List Char} (hne : part ≠ [])
    (hhead : ∀ c ∈ part.head?, isBlank c = false) (hlast : ∀ c ∈ part.getLast?, isBlank c = false)
    (hleft : Blanks left) (hright : Blanks right)
    (h : before ++ part ++ after = left ++ core ++ right) :
    ∃ p q, before = left ++ p ∧ after = q ++ right ∧ core = p ++ part ++ q := by
  obtain ⟨p, hp, hrest⟩ : ∃ p, before = left ++ p ∧ core ++ right = p ++ (part ++ after) := by
    rw [List.append_assoc, List.append_assoc] at h
    rcases List.append_eq_append_iff.1 h with ⟨p, hp, hrest⟩ | ⟨p, hp, hrest⟩
    · -- the part would begin with a blank
      cases p with
      | nil => exact ⟨[], by simpa using hp.symm, by simpa using hrest.symm⟩
      | cons c p =>
          have hc : c ∈ part.head? := by
            obtain ⟨d, part, rfl⟩ := List.exists_cons_of_ne_nil hne
            exact congrArg List.head? hrest
          have hblank := hleft c (by simp [hp])
          rw [hhead c hc] at hblank
          cases hblank
    · exact ⟨p, hp, hrest⟩
  rw [← List.append_assoc] at hrest
  rcases List.append_eq_append_iff.1 hrest with ⟨q, hq, hafter⟩ | ⟨q, hcore, hafter⟩
  · -- and here it would end with one
    rcases List.eq_nil_or_concat q with rfl | ⟨q, c, rfl⟩
    · exact ⟨p, [], hp, by simpa using hafter.symm, by simpa using hq.symm⟩
    · have hc : c ∈ part.getLast? := by
        obtain ⟨part, d, rfl⟩ := (List.eq_nil_or_concat part).resolve_left hne
        have hc := congrArg List.getLast? hq
        simpa using hc
      have hblank := hright c (by simp [hafter])
      rw [hlast c hc] at hblank
      cases hblank
  · exact ⟨p, q, hp, hafter, hcore⟩

/-! ## Other characters in the same places -/

/-- **Trimming a text with other characters**, as long as the blanks stay where they are. -/
theorem trimChars_map {f : Char → Char} (h : ∀ c, isBlank (f c) = isBlank c) (cs : List Char) :
    trimChars (cs.map f) = (trimChars cs).map f := by
  have hcomp : isBlank ∘ f = isBlank := funext h
  have hstart : ∀ xs : List Char, trimStart (xs.map f) = (trimStart xs).map f := by
    intro xs
    rw [trimStart, List.dropWhile_map, hcomp, trimStart]
  rw [trimChars, trimChars, hstart, trimEnd_eq, trimEnd_eq, ← List.map_reverse, hstart,
    List.map_reverse]

/-- The blanks lie all below the letters and digits of ASCII or all above them. -/
theorem isBlank_of_bounds {c : Char} (hlow : 45 ≤ c.toNat) (hhigh : c.toNat ≤ 122) :
    isBlank c = false := by
  have hc : Ranges.contains [(45, 122)] c = true :=
    Ranges.contains_iff.2 ⟨_, List.mem_singleton_self _, hlow, hhigh⟩
  exact Ranges.not_contains_of_apart (by decide) hc

theorem bounds_of_upper {c : Char} (h : c.val ≥ 'A'.val ∧ c.val ≤ 'Z'.val) :
    65 ≤ c.toNat ∧ c.toNat ≤ 90 :=
  ⟨UInt32.le_iff_toNat_le.1 h.1, UInt32.le_iff_toNat_le.1 h.2⟩

theorem toNat_toLower {c : Char} (h : c.val ≥ 'A'.val ∧ c.val ≤ 'Z'.val) :
    c.toLower.toNat = c.toNat + 32 := by
  obtain ⟨hlow, hhigh⟩ := bounds_of_upper h
  unfold Char.toLower
  rw [dif_pos h]
  show (c.val + ('a'.val - 'A'.val)).toNat = c.toNat + 32
  rw [UInt32.toNat_add]
  show (c.toNat + 32) % 2 ^ 32 = c.toNat + 32
  omega

theorem isBlank_toLower (c : Char) : isBlank c.toLower = isBlank c := by
  by_cases h : c.val ≥ 'A'.val ∧ c.val ≤ 'Z'.val
  · obtain ⟨hlow, hhigh⟩ := bounds_of_upper h
    have hlower := toNat_toLower h
    rw [isBlank_of_bounds (c := c) (by omega) (by omega)]
    exact isBlank_of_bounds (by omega) (by omega)
  · unfold Char.toLower
    rw [dif_neg h]

/-! ## Equality up to case -/

theorem equalsIgnoringCase_iff {s t : String} :
    equalsIgnoringCase s t = true ↔ s.toList.map Char.toLower = t.toList.map Char.toLower := by
  rw [equalsIgnoringCase, beq_iff_eq]

/-- Texts that are equal up to case have cores that are. -/
theorem equalsIgnoringCase_trim {s t : String} (h : equalsIgnoringCase s t = true) :
    equalsIgnoringCase (trim s) (trim t) = true := by
  rw [equalsIgnoringCase_iff] at h ⊢
  rw [trim, trim, String.toList_ofList, String.toList_ofList, ← trimChars_map isBlank_toLower,
    ← trimChars_map isBlank_toLower, h]

end TeamRouting.Text
