import TeamRouting.Proofs.Trimming
import TeamRouting.Text.Search

/-!
# Lower case, part by part

A part of a text keeps its lower-case form wherever it stands, but for the capital sigmas in it.
Which form a sigma takes depends on the letters around it, and these may lie outside the part.  They
do not if the part itself decides: on either side of the sigma the first character that casing does
not ignore counts, and once there is one, whatever stands beyond it makes no difference.

* `lowerBetween` — the lower-case form of a part between two others;
* `lowerBetween_congr` — it depends on the rest through the sigmas alone;
* `lowerBetween_at_sigma` — and a sigma hides from the others what stands beyond it;
* `exists_blanks_lowerChars` — trimming and lower case, in either order;
* `SigmasSettled` — a part that decides about all its sigmas;
* `lowerBetween_of_settled` — such a part has one lower-case form everywhere;
* `not_infix_of_open_end`, `not_infix_of_open_start` — the two ways in which a part leaves a sigma
  open, each with one letter that makes the difference;
* `infix_normalizeChars_iff` — so a part is found wherever it stands just if it decides;
* `lowerChars_eq_iff` — numerals, which have no letters, are the lower case of nothing else.
-/

namespace TeamRouting.Text

variable {before after before' after' cs ds : List Char} {c : Char}

/-! ## What a sigma sees -/

/-- Casing does not ignore blanks. -/
theorem not_caseIgnorable_of_isBlank (h : isBlank c = true) :
    caseIgnorableRanges.contains c = false :=
  Ranges.not_contains_of_apart (by decide +kernel) h

/-- And blanks are no letters. -/
theorem not_cased_of_isBlank (h : isBlank c = true) : casedRanges.contains c = false :=
  Ranges.not_contains_of_apart (by decide +kernel) h

/-- A text that hides what stands beyond it: casing does not ignore all of its characters. -/
def Decides (cs : List Char) : Prop := ∃ c ∈ cs, caseIgnorableRanges.contains c = false

theorem leadsToCased_append_of_decides (h : Decides cs) :
    leadsToCased (cs ++ ds) = leadsToCased cs := by
  obtain ⟨c, hc, hseen⟩ := h
  have hne : cs.dropWhile caseIgnorableRanges.contains ≠ [] := by
    intro hnil
    rw [List.dropWhile_eq_nil_iff.1 hnil c hc] at hseen
    cases hseen
  rw [leadsToCased, List.dropWhile_append, if_neg (by simpa using hne), leadsToCased]
  obtain ⟨d, rest, hrest⟩ := List.exists_cons_of_ne_nil hne
  rw [hrest, List.cons_append]

theorem leadsToCased_append_of_not_decides (h : ¬ Decides cs) :
    leadsToCased (cs ++ ds) = leadsToCased ds := by
  rw [leadsToCased, List.dropWhile_append_of_pos, leadsToCased]
  intro c hc
  by_contra hseen
  exact h ⟨c, hc, Bool.eq_false_iff.2 hseen⟩

theorem leadsToCased_of_not_decides (h : ¬ Decides cs) : leadsToCased cs = false := by
  rw [← List.append_nil cs, leadsToCased_append_of_not_decides h]
  rfl

theorem decides_of_leadsToCased (h : leadsToCased cs = true) : Decides cs := by
  by_contra hundecided
  rw [leadsToCased_of_not_decides hundecided] at h
  cases h

theorem leadsToCased_append_of_leadsToCased (h : leadsToCased cs = true) :
    leadsToCased (cs ++ ds) = true := by
  rw [leadsToCased_append_of_decides (decides_of_leadsToCased h), h]

theorem decides_reverse : Decides cs.reverse ↔ Decides cs := by
  simp [Decides]

/-- Blanks lead nowhere. -/
theorem leadsToCased_append_blanks (h : Blanks ds) : leadsToCased (cs ++ ds) = leadsToCased cs := by
  by_cases hcs : Decides cs
  · exact leadsToCased_append_of_decides hcs
  · rw [leadsToCased_append_of_not_decides hcs, leadsToCased_of_not_decides hcs]
    cases ds with
    | nil => rfl
    | cons c ds =>
        have hc : isBlank c = true := h c List.mem_cons_self
        have hseen : ¬ caseIgnorableRanges.contains c = true := by
          rw [not_caseIgnorable_of_isBlank hc]
          exact Bool.false_ne_true
        rw [leadsToCased, List.dropWhile_cons_of_neg hseen]
        exact not_cased_of_isBlank hc

/-! ## Parts of a text -/

/-- The lower-case form of a part of a text that stands between two others; the text before it is
given backwards. -/
def lowerBetween (before cs after : List Char) : List Char :=
  match cs with
  | [] => []
  | c :: rest => lowerAt before c (rest ++ after) ++ lowerBetween (c :: before) rest after

theorem lowerBetween_nil_right (before cs : List Char) :
    lowerBetween before cs [] = lowerAfter before cs := by
  induction cs generalizing before with
  | nil => rfl
  | cons c rest ih => rw [lowerBetween, ih, List.append_nil, lowerAfter]

/-- **The lower-case form of a text, part by part.** -/
theorem lowerBetween_append (before cs ds after : List Char) :
    lowerBetween before (cs ++ ds) after =
      lowerBetween before cs (ds ++ after) ++ lowerBetween (cs.reverse ++ before) ds after := by
  induction cs generalizing before with
  | nil => rfl
  | cons c rest ih =>
      rw [List.cons_append, lowerBetween, lowerBetween, ih, List.append_assoc, List.append_assoc,
        List.reverse_cons, List.append_assoc]
      rfl

/-- The rest of the text matters for sigmas alone. -/
theorem lowerAt_congr
    (h : c = 'Σ' → endsWord before after = endsWord before' after') :
    lowerAt before c after = lowerAt before' c after' := by
  unfold lowerAt
  by_cases hc : c = 'Σ'
  · rw [if_pos hc, if_pos hc, h hc]
  · rw [if_neg hc, if_neg hc]

/-- **The rest of a text matters for the sigmas of a part alone.** -/
theorem lowerBetween_congr
    (h : ∀ l r, cs = l ++ 'Σ' :: r →
      endsWord (l.reverse ++ before) (r ++ after) = endsWord (l.reverse ++ before') (r ++ after')) :
    lowerBetween before cs after = lowerBetween before' cs after' := by
  induction cs generalizing before before' with
  | nil => rfl
  | cons c rest ih =>
      have hfirst : lowerAt before c (rest ++ after) = lowerAt before' c (rest ++ after') := by
        apply lowerAt_congr
        rintro rfl
        exact h [] rest rfl
      have hrest : lowerBetween (c :: before) rest after =
          lowerBetween (c :: before') rest after' := by
        apply ih
        rintro l r rfl
        simpa using h (c :: l) r rfl
      rw [lowerBetween, lowerBetween, hfirst, hrest]

theorem not_mem_of_not_decides (h : ¬ Decides cs) : 'Σ' ∉ cs :=
  fun hmem => h ⟨'Σ', hmem, by decide +kernel⟩

theorem lowerBetween_of_not_mem (h : 'Σ' ∉ cs) :
    lowerBetween before cs after = lowerBetween before' cs after' := by
  apply lowerBetween_congr
  rintro l r rfl
  simp at h

/-- **A sigma keeps the two sides of a text apart.**  Whatever stands beyond it makes no difference
to the other sigmas. -/
theorem lowerBetween_at_sigma (before l r after : List Char) :
    lowerBetween before (l ++ 'Σ' :: r) after =
      lowerBetween before l ['Σ'] ++
        (if endsWord (l.reverse ++ before) (r ++ after) then 'ς' else 'σ') ::
          lowerBetween ['Σ'] r after := by
  have hides : ∀ xs ys : List Char,
      leadsToCased (xs ++ 'Σ' :: ys) = leadsToCased (xs ++ ['Σ']) := by
    intro xs ys
    rw [List.append_cons]
    exact leadsToCased_append_of_decides ⟨'Σ', by simp, by decide +kernel⟩
  have hleft : lowerBetween before l ('Σ' :: r ++ after) = lowerBetween before l ['Σ'] := by
    apply lowerBetween_congr
    intro l' r' _
    rw [endsWord, endsWord, List.cons_append, hides]
  have hright : lowerBetween ('Σ' :: (l.reverse ++ before)) r after =
      lowerBetween ['Σ'] r after := by
    apply lowerBetween_congr
    intro l' r' _
    rw [endsWord, endsWord, hides]
  rw [lowerBetween_append, lowerBetween, hleft, hright, lowerAt, if_pos rfl]
  rfl

/-! ## Blanks -/

/-- Blanks are their own lower case. -/
theorem lowerChar_of_isBlank (h : isBlank c = true) : lowerChar c = c := by
  unfold lowerChar
  split
  · unfold Char.toLower
    refine dif_neg fun hupper => ?_
    obtain ⟨hlow, hhigh⟩ := bounds_of_upper hupper
    rw [isBlank_of_bounds (by omega) (by omega)] at h
    cases h
  · have hruns : Ranges.contains (lowerRuns.map fun run => (run.first, run.last)) c = false :=
      Ranges.not_contains_of_apart (by decide +kernel) h
    have hnone : lowerRuns.findSome? (·.lowered? c) = none := by
      rw [List.findSome?_eq_none_iff]
      intro run hrun
      refine if_neg fun hin => ?_
      simp only [Bool.and_eq_true, decide_eq_true_eq] at hin
      rw [Bool.eq_false_iff, ne_eq, Ranges.contains_iff] at hruns
      exact hruns ⟨_, List.mem_map_of_mem hrun, hin.1⟩
    rw [hnone]
    rfl

theorem lowerBetween_of_blanks (h : Blanks cs) : lowerBetween before cs after = cs := by
  induction cs generalizing before with
  | nil => rfl
  | cons c rest ih =>
      have hc : isBlank c = true := h c List.mem_cons_self
      have hrest : Blanks rest := fun d hd => h d (List.mem_cons_of_mem c hd)
      have hsigma : c ≠ 'Σ' := by
        rintro rfl
        exact absurd hc (by decide)
      have hdotted : c ≠ 'İ' := by
        rintro rfl
        exact absurd hc (by decide)
      rw [lowerBetween, ih hrest, lowerAt, if_neg hsigma, if_neg hdotted, lowerChar_of_isBlank hc]
      rfl

/-- Blanks at the far ends of a text make no difference to what stands between them. -/
theorem lowerBetween_append_blanks {left right : List Char} (hleft : Blanks left)
    (hright : Blanks right) :
    lowerBetween (before ++ left) cs (after ++ right) = lowerBetween before cs after := by
  apply lowerBetween_congr
  intro l r _
  rw [endsWord, endsWord, ← List.append_assoc, ← List.append_assoc,
    leadsToCased_append_blanks hleft, leadsToCased_append_blanks hright]

theorem normalizeChars_eq (cs : List Char) :
    normalizeChars cs = lowerBetween [] (trimChars cs) [] :=
  (lowerBetween_nil_right [] (trimChars cs)).symm

/-- **It makes no difference whether blanks are taken off before or after the case is changed.** -/
theorem exists_blanks_lowerChars (cs : List Char) :
    ∃ left right, Blanks left ∧ Blanks right ∧
      lowerChars cs = left ++ normalizeChars cs ++ right := by
  obtain ⟨left, right, hleft, hright, hcs⟩ := exists_blanks cs
  refine ⟨left, right, hleft, hright, ?_⟩
  have hcore : lowerBetween ([] ++ left.reverse) (trimChars cs) ([] ++ right) =
      lowerBetween [] (trimChars cs) [] := lowerBetween_append_blanks hleft.reverse hright
  calc lowerChars cs
      = lowerBetween [] (left ++ trimChars cs ++ right) [] := by
        rw [← hcs, lowerBetween_nil_right, lowerChars]
    _ = left ++ lowerBetween ([] ++ left.reverse) (trimChars cs) ([] ++ right) ++ right := by
        simp only [lowerBetween_append, lowerBetween_of_blanks hleft, lowerBetween_of_blanks hright,
          List.append_nil, List.nil_append]
    _ = left ++ normalizeChars cs ++ right := by rw [hcore, normalizeChars_eq]

theorem count_normalizeChars (h : isBlank c = false) (cs : List Char) :
    (normalizeChars cs).count c = (lowerChars cs).count c := by
  obtain ⟨left, right, hleft, hright, hlower⟩ := exists_blanks_lowerChars cs
  have hnone : ∀ bs, Blanks bs → bs.count c = 0 := by
    intro bs hbs
    rw [List.count_eq_zero]
    intro hc
    rw [hbs c hc] at h
    cases h
  rw [hlower, List.count_append, List.count_append, hnone left hleft, hnone right hright]
  omega

/-! ## Parts that decide about their sigmas -/

/-- Whether the texts on the two sides of a sigma settle its form.  If a cased letter stands before
it, something must be seen behind it, and if none stands behind it, something must be seen before
it. -/
def SettlesSigma (l r : List Char) : Prop :=
  (leadsToCased l.reverse = true → Decides r) ∧ (leadsToCased r = false → Decides l)

/-- A text that settles the form of all its sigmas, wherever it stands. -/
def SigmasSettled (cs : List Char) : Prop := ∀ l r, cs = l ++ 'Σ' :: r → SettlesSigma l r

instance (cs : List Char) : Decidable (Decides cs) :=
  List.decidableBEx (fun c => caseIgnorableRanges.contains c = false) cs

instance (l r : List Char) : Decidable (SettlesSigma l r) :=
  inferInstanceAs
    (Decidable ((leadsToCased l.reverse = true → Decides r) ∧ (leadsToCased r = false → Decides l)))

theorem sigmasSettled_iff_places :
    SigmasSettled cs ↔
      ∀ n < cs.length, cs[n]? = some 'Σ' → SettlesSigma (cs.take n) (cs.drop (n + 1)) := by
  constructor
  · intro h n hn hsigma
    rw [List.getElem?_eq_getElem hn, Option.some.injEq] at hsigma
    apply h
    rw [← hsigma, List.getElem_cons_drop, List.take_append_drop]
  · rintro h l r rfl
    simpa using h l.length (by simp) (by simp)

instance (cs : List Char) : Decidable (SigmasSettled cs) :=
  decidable_of_iff _ sigmasSettled_iff_places.symm

/-- **A settled sigma has one form everywhere.** -/
theorem SettlesSigma.endsWord_eq {l r : List Char} (h : SettlesSigma l r)
    (before after : List Char) :
    endsWord (l.reverse ++ before) (r ++ after) = endsWord l.reverse r := by
  unfold endsWord
  cases hl : leadsToCased l.reverse with
  | true => rw [leadsToCased_append_of_leadsToCased hl, leadsToCased_append_of_decides (h.1 hl)]
  | false =>
      cases hr : leadsToCased r with
      | true => simp [leadsToCased_append_of_leadsToCased hr]
      | false =>
          rw [leadsToCased_append_of_decides (decides_reverse.2 (h.2 hr)), hl]
          rfl

/-- **A part with settled sigmas has one lower-case form everywhere.**  The blanks at its ends
count as something to be seen. -/
theorem lowerBetween_of_settled {left core right : List Char} (settled : SigmasSettled cs)
    (hleft : Blanks left) (hright : Blanks right) (hcs : cs = left ++ core ++ right)
    (before after : List Char) :
    lowerBetween (left.reverse ++ before) core (right ++ after) = lowerBetween [] core [] := by
  calc lowerBetween (left.reverse ++ before) core (right ++ after)
      = lowerBetween left.reverse core right := by
        apply lowerBetween_congr
        intro l r hlr
        have hsettled : SettlesSigma (left ++ l) (r ++ right) := by
          apply settled
          rw [hcs, hlr]
          simp
        simpa using hsettled.endsWord_eq before after
    _ = lowerBetween ([] ++ left.reverse) core ([] ++ right) := rfl
    _ = lowerBetween [] core [] := lowerBetween_append_blanks hleft.reverse hright

/-- What stands in a text stands in it when both are trimmed and in lower case, if its sigmas are
settled. -/
theorem infix_normalizeChars_of_settled (settled : SigmasSettled cs) (h : cs <:+: ds) :
    normalizeChars cs <:+: normalizeChars ds := by
  obtain ⟨x, y, hds⟩ := h
  by_cases hempty : trimChars cs = []
  · rw [normalizeChars, hempty]
    exact List.nil_infix
  obtain ⟨left, right, hleft, hright, hcs⟩ := exists_blanks cs
  obtain ⟨left', right', hleft', hright', hds'⟩ := exists_blanks ds
  obtain ⟨p, q, hp, hq, hcore⟩ : ∃ p q, x ++ left = left' ++ p ∧ right ++ y = q ++ right' ∧
      trimChars ds = p ++ trimChars cs ++ q := by
    refine exists_split_trimmed hempty (fun c => not_isBlank_of_head?_trimChars)
      (fun c => not_isBlank_of_getLast?_trimChars) hleft' hright' ?_
    rw [← hds', ← hds]
    calc x ++ left ++ trimChars cs ++ (right ++ y)
        = x ++ (left ++ trimChars cs ++ right) ++ y := by simp only [List.append_assoc]
      _ = x ++ cs ++ y := by rw [← hcs]
  have hbefore : p.reverse ++ left'.reverse = left.reverse ++ x.reverse := by
    rw [← List.reverse_append, ← List.reverse_append, hp]
  have hpart : lowerBetween p.reverse (trimChars cs) q = normalizeChars cs := by
    calc lowerBetween p.reverse (trimChars cs) q
        = lowerBetween (p.reverse ++ left'.reverse) (trimChars cs) (q ++ right') :=
          (lowerBetween_append_blanks hleft'.reverse hright').symm
      _ = lowerBetween (left.reverse ++ x.reverse) (trimChars cs) (right ++ y) := by
          rw [hbefore, hq]
      _ = normalizeChars cs := by
          rw [lowerBetween_of_settled settled hleft hright hcs, normalizeChars_eq]
  refine ⟨lowerBetween [] p (trimChars cs ++ q),
    lowerBetween ((trimChars cs).reverse ++ p.reverse) q [], ?_⟩
  rw [normalizeChars_eq ds, hcore, lowerBetween_append, lowerBetween_append, ← hpart]
  simp

/-! ## Parts that do not -/

theorem lowerChars_at_sigma (l r : List Char) :
    lowerChars (l ++ 'Σ' :: r) = lowerBetween [] l ['Σ'] ++
      (if endsWord l.reverse r then 'ς' else 'σ') :: lowerBetween ['Σ'] r [] := by
  rw [lowerChars, ← lowerBetween_nil_right, lowerBetween_at_sigma, List.append_nil, List.append_nil]

theorem leadsToCased_letter : leadsToCased ['a'] = true := by decide +kernel

theorem lowerBetween_letter (before after : List Char) :
    lowerBetween before ['a'] after = ['a'] := by
  have hlower : lowerChar 'a' = 'a' := by decide
  rw [lowerBetween, lowerBetween, lowerAt, if_neg (by decide), if_neg (by decide), hlower]
  rfl

theorem not_infix_normalizeChars_of_count (hc : isBlank c = false)
    (h : (lowerChars ds).count c < (lowerChars cs).count c) :
    ¬ normalizeChars cs <:+: normalizeChars ds := by
  intro hinfix
  have hle := hinfix.sublist.count_le c
  rw [count_normalizeChars hc, count_normalizeChars hc] at hle
  omega

/-- A word that ends with a sigma, and the same word with a letter behind it. -/
theorem not_infix_of_open_end {l r : List Char} (hl : leadsToCased l.reverse = true)
    (hr : ¬ Decides r) :
    ¬ normalizeChars (l ++ 'Σ' :: r) <:+: normalizeChars (l ++ 'Σ' :: r ++ ['a']) := by
  apply not_infix_normalizeChars_of_count (c := 'ς') (by decide)
  have hword : endsWord l.reverse r = true := by
    rw [endsWord, hl, leadsToCased_of_not_decides hr]
    rfl
  have hlonger : endsWord l.reverse (r ++ ['a']) = false := by
    rw [endsWord, leadsToCased_append_of_not_decides hr, leadsToCased_letter, Bool.not_true,
      Bool.and_false]
  have hright : lowerBetween ['Σ'] r ['a'] = lowerBetween ['Σ'] r [] :=
    lowerBetween_of_not_mem (not_mem_of_not_decides hr)
  have hlower : lowerChars (l ++ 'Σ' :: r ++ ['a']) =
      lowerBetween [] l ['Σ'] ++ 'σ' :: lowerBetween ['Σ'] r [] ++ ['a'] := by
    rw [lowerChars, ← lowerBetween_nil_right, lowerBetween_append, lowerBetween_letter,
      lowerBetween_at_sigma, List.append_nil, List.append_nil, hlonger, hright]
    rfl
  rw [hlower, lowerChars_at_sigma, hword]
  simp [List.count_append]

/-- A sigma with no letter before it and none behind it, and the same with a letter before it. -/
theorem not_infix_of_open_start {l r : List Char} (hl : ¬ Decides l)
    (hr : leadsToCased r = false) :
    ¬ normalizeChars (l ++ 'Σ' :: r) <:+: normalizeChars (['a'] ++ (l ++ 'Σ' :: r)) := by
  apply not_infix_normalizeChars_of_count (c := 'σ') (by decide)
  have hundecided : ¬ Decides l.reverse := fun h => hl (decides_reverse.1 h)
  have hword : endsWord l.reverse r = false := by
    rw [endsWord, leadsToCased_of_not_decides hundecided]
    rfl
  have hlonger : endsWord (l.reverse ++ ['a']) r = true := by
    rw [endsWord, leadsToCased_append_of_not_decides hundecided, leadsToCased_letter, hr]
    rfl
  have hleft : lowerBetween ['a'] l ['Σ'] = lowerBetween [] l ['Σ'] :=
    lowerBetween_of_not_mem (not_mem_of_not_decides hl)
  have hlower : lowerChars (['a'] ++ (l ++ 'Σ' :: r)) =
      ['a'] ++ (lowerBetween [] l ['Σ'] ++ 'ς' :: lowerBetween ['Σ'] r []) := by
    rw [lowerChars, ← lowerBetween_nil_right, lowerBetween_append, lowerBetween_letter,
      List.append_nil, List.reverse_singleton, lowerBetween_at_sigma, List.append_nil, hlonger,
      hleft]
    rfl
  rw [hlower, lowerChars_at_sigma, hword]
  simp [List.count_append]

/-- **What is found wherever it stands.**  A part of a text is also a part of it when both are
trimmed and in lower case, whatever the text, just if the part settles the form of its sigmas. -/
theorem infix_normalizeChars_iff :
    (∀ ds, cs <:+: ds → normalizeChars cs <:+: normalizeChars ds) ↔ SigmasSettled cs := by
  constructor
  · rintro h l r rfl
    constructor
    · intro hl
      by_contra hr
      exact not_infix_of_open_end hl hr (h _ (List.prefix_append _ ['a']).isInfix)
    · intro hr
      by_contra hl
      exact not_infix_of_open_start hl hr (h _ (List.suffix_append ['a'] _).isInfix)
  · intro settled ds h
    exact infix_normalizeChars_of_settled settled h

/-! ## Texts without letters -/

/-- No lower-case form in the table lies below the letters. -/
theorem le_toNat_of_lowered? {run : LowerRun} {d : Char} (hrun : run ∈ lowerRuns)
    (h : run.lowered? c = some d) : 65 ≤ d.toNat := by
  have hruns : ∀ run ∈ lowerRuns, 65 ≤ (run.first : Int) + run.shift ∧
      ((run.last : Int) + run.shift < 0xd800 ∨
        0xdfff < (run.first : Int) + run.shift ∧ (run.last : Int) + run.shift < 0x110000) := by
    decide +kernel
  obtain ⟨hlow, hvalid⟩ := hruns run hrun
  rw [LowerRun.lowered?, Option.ite_none_right_eq_some] at h
  simp only [Bool.and_eq_true, decide_eq_true_eq, Option.some.injEq] at h
  obtain ⟨⟨⟨hfirst, hlast⟩, -⟩, rfl⟩ := h
  have hchar : (c.toNat + run.shift).toNat.isValidChar := by
    rw [Nat.isValidChar]
    omega
  have htoNat : (Char.ofNat (c.toNat + run.shift).toNat).toNat = (c.toNat + run.shift).toNat := by
    rw [Char.ofNat, dif_pos hchar]
    rfl
  rw [htoNat]
  omega

/-- A character with a lower-case form below the letters is that form. -/
theorem lowerChar_eq_self (h : (lowerChar c).toNat < 65) : lowerChar c = c := by
  rw [lowerChar] at h ⊢
  split at h
  · next hascii =>
    rw [if_pos hascii]
    by_cases hupper : c.val ≥ 'A'.val ∧ c.val ≤ 'Z'.val
    · rw [toNat_toLower hupper] at h
      have := (bounds_of_upper hupper).1
      omega
    · unfold Char.toLower
      exact dif_neg hupper
  · next hascii =>
    rw [if_neg hascii]
    cases hfound : lowerRuns.findSome? (·.lowered? c) with
    | none => rfl
    | some d =>
        obtain ⟨run, hrun, hd⟩ := List.exists_of_findSome?_eq_some hfound
        have hletter := le_toNat_of_lowered? hrun hd
        rw [hfound, Option.getD_some] at h
        omega

theorem lowerAt_eq_self (h : ∀ d ∈ lowerAt before c after, d.toNat < 65) :
    lowerAt before c after = [c] := by
  rw [lowerAt] at h ⊢
  split at h
  · have hsigma := h _ (List.mem_singleton_self _)
    split at hsigma <;> exact absurd hsigma (by decide)
  · next hsigma =>
    split at h
    · exact absurd (h 'i' List.mem_cons_self) (by decide)
    · next hdotted =>
      rw [if_neg hsigma, if_neg hdotted, lowerChar_eq_self (h _ (List.mem_singleton_self _))]

/-- **A text with a lower-case form below the letters is that form.** -/
theorem lowerAfter_eq_self (h : ∀ d ∈ lowerAfter before cs, d.toNat < 65) :
    lowerAfter before cs = cs := by
  induction cs generalizing before with
  | nil => rfl
  | cons c rest ih =>
      rw [lowerAfter, List.forall_mem_append] at h
      rw [lowerAfter, lowerAt_eq_self h.1, ih h.2]
      rfl

theorem lowerChar_of_lt (h : c.toNat < 65) : lowerChar c = c := by
  rw [lowerChar, if_pos (by omega)]
  unfold Char.toLower
  refine dif_neg fun hupper => ?_
  have := (bounds_of_upper hupper).1
  omega

theorem lowerAfter_of_lt (h : ∀ c ∈ cs, c.toNat < 65) : lowerAfter before cs = cs := by
  induction cs generalizing before with
  | nil => rfl
  | cons c rest ih =>
      obtain ⟨hc, hrest⟩ := List.forall_mem_cons.1 h
      have hsigma : c ≠ 'Σ' := by
        rintro rfl
        exact absurd hc (by decide)
      have hdotted : c ≠ 'İ' := by
        rintro rfl
        exact absurd hc (by decide)
      rw [lowerAfter, ih hrest, lowerAt, if_neg hsigma, if_neg hdotted, lowerChar_of_lt hc]
      rfl

/-- **Below the letters, texts that are compared without regard to case are compared as they
are.** -/
theorem lowerChars_eq_iff (h : ∀ c ∈ cs, c.toNat < 65) :
    lowerChars ds = lowerChars cs ↔ ds = cs := by
  refine ⟨fun heq => ?_, congrArg lowerChars⟩
  rw [lowerChars, lowerChars, lowerAfter_of_lt h] at heq
  rw [← heq, lowerAfter_eq_self]
  rwa [heq]

end TeamRouting.Text
