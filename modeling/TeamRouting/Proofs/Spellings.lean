import TeamRouting.Proofs.Templates

/-!
# The ways to write a reference

A template may have blanks in six places: at either end, inside the braces, and on both sides of the
colon.  A text is read as a reference if it is a template with some blanks in these places, and only
then; what stands in each place can be told from the text.

* `Reference.Spelling` — a template with blanks in the six places;
* `Reference.inner?_eq_some_iff`, `Reference.splitColon?_eq_some_iff` — what the steps of reading
  take off, as equations between texts;
* `Reference.cell_injective` — a name between blanks, up to the sign that ends it, stands in a text
  in one way;
* `Reference.Spelling.text_injective` — so a text is spelled in one way at most;
* `Reference.ofText?_spelling`, `Reference.exists_spelling_of_ofText?` — what is spelled is read,
  and what is read was spelled;
* `Reference.ofText?_spellings` — all of it for any text.
-/

namespace TeamRouting

namespace Reference

/-! ## Spellings -/

/-- A text of white space, which may be empty. -/
abbrev Gap := { w : String // Text.Blanks w.toList }

/-- A text that can be the name of a source or a field. -/
abbrev Name := { s : String // Names s }

/-- **A way to write a reference**: two names, and the blanks in the six places of the template. -/
@[ext]
structure Spelling where
  outerLeft : Gap
  sourceLeft : Gap
  source : Name
  sourceRight : Gap
  fieldLeft : Gap
  field : Name
  fieldRight : Gap
  outerRight : Gap

namespace Spelling

/-- The text that is written. -/
def text (sp : Spelling) : String :=
  sp.outerLeft.1 ++ "\x7b" ++ sp.sourceLeft.1 ++ sp.source.1 ++ sp.sourceRight.1 ++ ":" ++
    sp.fieldLeft.1 ++ sp.field.1 ++ sp.fieldRight.1 ++ "\x7d" ++ sp.outerRight.1

/-- The reference that is meant. -/
def reference (sp : Spelling) : Reference := ⟨sp.source.1, sp.field.1⟩

theorem toList_text (sp : Spelling) :
    sp.text.toList = sp.outerLeft.1.toList ++ '\x7b' :: (sp.sourceLeft.1.toList ++
      (sp.source.1.toList ++ (sp.sourceRight.1.toList ++ ':' :: (sp.fieldLeft.1.toList ++
        (sp.field.1.toList ++
          (sp.fieldRight.1.toList ++ '\x7d' :: sp.outerRight.1.toList)))))) := by
  simp [text]

end Spelling

/-! ## Taking a text apart -/

theorem inner?_eq_some_iff {cs inside : List Char} :
    inner? cs = some inside ↔ cs = '\x7b' :: (inside ++ ['\x7d']) := by
  constructor
  · intro h
    unfold inner? at h
    split at h
    · next rest =>
      split at h
      · next rest' hreverse =>
        cases h
        rw [← List.reverse_cons, ← hreverse, List.reverse_reverse]
      · cases h
    · cases h
  · rintro rfl
    exact inner?_braces inside

theorem splitColon?_eq_some_iff {cs before behind : List Char} :
    splitColon? cs = some (before, behind) ↔ cs = before ++ ':' :: behind ∧ ':' ∉ before := by
  constructor
  · intro h
    induction cs generalizing before with
    | nil => cases h
    | cons c cs ih =>
        rw [splitColon?] at h
        split at h
        · next hc =>
          cases h
          exact ⟨by rw [hc]; rfl, List.not_mem_nil⟩
        · next hc =>
          obtain ⟨⟨before', behind'⟩, hrest, hp⟩ := Option.map_eq_some_iff.1 h
          cases hp
          obtain ⟨hcs, hcolon⟩ := ih hrest
          refine ⟨by rw [hcs]; rfl, ?_⟩
          rw [List.mem_cons, not_or]
          exact ⟨Ne.symm hc, hcolon⟩
  · rintro ⟨rfl, hcolon⟩
    exact splitColon?_append behind hcolon

/-! ## Uniqueness -/

/-- The characters of a kind at the beginning of a text, if one of another kind follows them. -/
theorem takeWhile_append_of_head? {p : Char → Bool} {xs ys : List Char} (hxs : ∀ c ∈ xs, p c = true)
    (hys : ∀ c ∈ ys.head?, p c = false) : (xs ++ ys).takeWhile p = xs := by
  rw [List.takeWhile_append_of_pos hxs]
  cases ys with
  | nil => rw [List.takeWhile_nil, List.append_nil]
  | cons c ys =>
      rw [List.takeWhile_cons_of_neg (by rw [hys c rfl]; exact Bool.false_ne_true), List.append_nil]

/-- Two such beginnings of one text are the same. -/
theorem span_injective {p : Char → Bool} {xs xs' ys ys' : List Char} (hxs : ∀ c ∈ xs, p c = true)
    (hxs' : ∀ c ∈ xs', p c = true) (hys : ∀ c ∈ ys.head?, p c = false)
    (hys' : ∀ c ∈ ys'.head?, p c = false) (h : xs ++ ys = xs' ++ ys') : xs = xs' ∧ ys = ys' := by
  have hsame : xs = xs' := by
    rw [← takeWhile_append_of_head? hxs hys, h, takeWhile_append_of_head? hxs' hys']
  rw [hsame] at h
  exact ⟨hsame, List.append_cancel_left h⟩

theorem isNameChar_of_mem {n : Name} {c : Char} (h : c ∈ n.1.toList) : isNameChar c = true :=
  isNameChar_iff.2 (n.2.2 c h)

theorem isBlank_of_mem {g : Gap} {c : Char} (h : c ∈ g.1.toList) : Text.isBlank c = true := g.2 c h

/-- A name begins with a character that is not blank. -/
theorem not_isBlank_of_head?_name {n : Name} {c : Char} {rest : List Char}
    (h : c ∈ (n.1.toList ++ rest).head?) : Text.isBlank c = false := by
  obtain ⟨d, ds, hd⟩ :=
    List.exists_cons_of_ne_nil fun hnil => n.2.1 (String.toList_eq_nil_iff.1 hnil)
  rw [hd] at h
  cases h
  exact isBlank_of_isNameChar (isNameChar_of_mem (n := n) (by rw [hd]; exact List.mem_cons_self))

/-- Behind a name stands a blank or the sign that ends its cell, and neither belongs to a name. -/
theorem not_isNameChar_of_head?_gap {g : Gap} {c sign : Char} {rest : List Char}
    (hsign : isNameChar sign = false) (h : c ∈ (g.1.toList ++ sign :: rest).head?) :
    isNameChar c = false := by
  cases hg : g.1.toList with
  | nil =>
      rw [hg] at h
      cases h
      exact hsign
  | cons d ds =>
      rw [hg] at h
      cases h
      rw [← Bool.not_eq_true]
      intro hname
      have hblank := isBlank_of_mem (g := g) (by rw [hg]; exact List.mem_cons_self)
      rw [isBlank_of_isNameChar hname] at hblank
      cases hblank

/-- **A name between blanks, up to the sign that ends it, stands in a text in one way.** -/
theorem cell_injective {sign : Char} (hblank : Text.isBlank sign = false)
    (hname : isNameChar sign = false) {left left' right right' : Gap} {name name' : Name}
    {rest rest' : List Char}
    (h : left.1.toList ++ (name.1.toList ++ (right.1.toList ++ sign :: rest)) =
      left'.1.toList ++ (name'.1.toList ++ (right'.1.toList ++ sign :: rest'))) :
    left = left' ∧ name = name' ∧ right = right' ∧ rest = rest' := by
  obtain ⟨hleft, h⟩ := span_injective (fun _ => isBlank_of_mem) (fun _ => isBlank_of_mem)
    (fun _ => not_isBlank_of_head?_name) (fun _ => not_isBlank_of_head?_name) h
  obtain ⟨hnames, h⟩ := span_injective (fun _ => isNameChar_of_mem) (fun _ => isNameChar_of_mem)
    (fun _ => not_isNameChar_of_head?_gap hname) (fun _ => not_isNameChar_of_head?_gap hname) h
  have hsign : ∀ {cs : List Char}, ∀ c ∈ (sign :: cs).head?, Text.isBlank c = false := by
    rintro cs c ⟨⟩
    exact hblank
  obtain ⟨hright, h⟩ := span_injective (fun _ => isBlank_of_mem) (fun _ => isBlank_of_mem)
    hsign hsign h
  exact ⟨Subtype.ext (String.toList_inj.1 hleft), Subtype.ext (String.toList_inj.1 hnames),
    Subtype.ext (String.toList_inj.1 hright), List.tail_eq_of_cons_eq h⟩

/-- **A text is spelled in one way at most.** -/
theorem Spelling.text_injective : Function.Injective Spelling.text := by
  intro sp sp' h
  have h := congrArg String.toList h
  rw [toList_text, toList_text] at h
  have hbrace : ∀ {cs : List Char}, ∀ c ∈ ('\x7b' :: cs).head?, Text.isBlank c = false := by
    rintro cs c ⟨⟩
    decide
  obtain ⟨houter, h⟩ := span_injective (fun _ => isBlank_of_mem) (fun _ => isBlank_of_mem)
    hbrace hbrace h
  obtain ⟨hsourceLeft, hsource, hsourceRight, h⟩ :=
    cell_injective (by decide) (by decide) (List.tail_eq_of_cons_eq h)
  obtain ⟨hfieldLeft, hfield, hfieldRight, h⟩ := cell_injective (by decide) (by decide) h
  exact Spelling.ext (Subtype.ext (String.toList_inj.1 houter)) hsourceLeft hsource hsourceRight
    hfieldLeft hfield hfieldRight (Subtype.ext (String.toList_inj.1 h))

/-! ## Reading -/

/-- **What is spelled is read.** -/
theorem ofText?_spelling (sp : Spelling) : ofText? sp.text = some sp.reference := by
  have hsource : isName sp.source.1.toList = true := isName_toList_iff.2 sp.source.2
  have hfield : isName sp.field.1.toList = true := isName_toList_iff.2 sp.field.2
  have htext : sp.text.toList = sp.outerLeft.1.toList ++
      '\x7b' :: ((sp.sourceLeft.1.toList ++ sp.source.1.toList ++ sp.sourceRight.1.toList ++
        ':' :: (sp.fieldLeft.1.toList ++ sp.field.1.toList ++ sp.fieldRight.1.toList)) ++
          ['\x7d']) ++
      sp.outerRight.1.toList := by
    rw [Spelling.toList_text]
    simp
  have hcolon : ':' ∉ sp.sourceLeft.1.toList ++ sp.source.1.toList ++ sp.sourceRight.1.toList := by
    rw [List.mem_append, List.mem_append]
    rintro ((h | h) | h)
    · exact absurd (isBlank_of_mem h) (by decide)
    · exact ne_colon_of_isNameChar (isNameChar_of_mem h) rfl
    · exact absurd (isBlank_of_mem h) (by decide)
  rw [ofText?, ofChars?, htext, Text.trimChars_append_blanks sp.outerLeft.2 sp.outerRight.2,
    trimChars_braces, inner?_braces]
  simp only [Option.bind_eq_bind, Option.bind_some, splitColon?_append _ hcolon,
    Text.trimChars_append_blanks sp.sourceLeft.2 sp.sourceRight.2,
    Text.trimChars_append_blanks sp.fieldLeft.2 sp.fieldRight.2, trimChars_of_isName hsource,
    trimChars_of_isName hfield, hsource, hfield, Bool.and_self, if_true, String.ofList_toList]
  rfl

def Gap.ofChars (w : List Char) (h : Text.Blanks w) : Gap :=
  ⟨String.ofList w, by rwa [String.toList_ofList]⟩

def Name.ofChars (cs : List Char) (h : isName cs = true) : Name :=
  ⟨String.ofList cs, isName_toList_iff.1 (by rwa [String.toList_ofList])⟩

/-- **What is read was spelled.** -/
theorem exists_spelling_of_ofText? {s : String} {r : Reference} (h : ofText? s = some r) :
    ∃ sp : Spelling, sp.text = s ∧ sp.reference = r := by
  simp only [ofText?, ofChars?, Option.bind_eq_bind, Option.bind_eq_some_iff] at h
  obtain ⟨inside, hinside, ⟨before, behind⟩, hsplit, h⟩ := h
  split at h
  · next hnames =>
    cases h
    rw [Bool.and_eq_true] at hnames
    dsimp only at hnames ⊢
    obtain ⟨outerLeft, outerRight, houterLeft, houterRight, hs⟩ := Text.exists_blanks s.toList
    obtain ⟨sourceLeft, sourceRight, hsourceLeft, hsourceRight, hbefore⟩ :=
      Text.exists_blanks before
    obtain ⟨fieldLeft, fieldRight, hfieldLeft, hfieldRight, hbehind⟩ := Text.exists_blanks behind
    rw [inner?_eq_some_iff.1 hinside, (splitColon?_eq_some_iff.1 hsplit).1] at hs
    generalize Text.trimChars before = source at hnames hbefore ⊢
    generalize Text.trimChars behind = field at hnames hbehind ⊢
    refine ⟨⟨.ofChars outerLeft houterLeft, .ofChars sourceLeft hsourceLeft,
      .ofChars source hnames.1, .ofChars sourceRight hsourceRight, .ofChars fieldLeft hfieldLeft,
      .ofChars field hnames.2, .ofChars fieldRight hfieldRight, .ofChars outerRight houterRight⟩,
      String.toList_inj.1 ?_, rfl⟩
    rw [Spelling.toList_text, hs, hbefore, hbehind]
    simp [Gap.ofChars, Name.ofChars]
  · cases h

/-- **The texts that are read as references.**  A text is read if it is a template with blanks in
the six places, and then as the reference that is meant; it is such a template in one way only; and
the template that is written of what was read is read as the same. -/
theorem ofText?_spellings :
    (∀ s r, ofText? s = some r ↔ ∃ sp : Spelling, sp.text = s ∧ sp.reference = r) ∧
      Function.Injective Spelling.text ∧
      ∀ s, ((ofText? s).bind fun r => ofText? r.text) = ofText? s := by
  refine ⟨fun s r => ⟨exists_spelling_of_ofText?, ?_⟩, Spelling.text_injective, fun s => ?_⟩
  · rintro ⟨sp, rfl, rfl⟩
    exact ofText?_spelling sp
  · cases h : ofText? s with
    | none => rfl
    | some r => exact ofText?_text (wellFormed_of_ofText? h)

end Reference

end TeamRouting
