import TeamRouting.Proofs.Acceptance
import TeamRouting.Proofs.Trimming

/-!
# How choices are named

A rule about a select attribute names a choice by its id or by its label.  The text of the rule is
trimmed first.  Then an id must be the same to the letter, while a label is trimmed as well and the
case of its ASCII letters is free.  So each choice is found by its label, or at least some choice is
that goes by the same name.  By its id a choice is found if there are no blanks around the id; if
there are, the id is never met, and only a label can lead back to it.

* `Choice.IsLabelled` — the texts that name a choice by its label;
* `Attribute.LeadsTo` — which choice a text leads to: ids first, then labels, the first one each
  time;
* `Attribute.findChoice?_eq_some_iff` — this is the choice that is found;
* `Attribute.Addresses` — when an id leads back to itself;
* `Query.validate_addresses` — what validation makes of ids and labels;
* `Query.validate_padded_id` — an id with a blank before it, which names nothing.
-/

namespace TeamRouting

/-! ## Labels -/

/-- A text names a choice by its label, up to blanks around both and the case of ASCII letters. -/
def Choice.IsLabelled (c : Choice) (named : String) : Prop :=
  Text.equalsIgnoringCase (Text.trim c.label) (Text.trim named) = true

/-- The label of a choice, in another case and with blanks around it, names the choice. -/
theorem Choice.isLabelled_append {c : Choice} {before label after : String}
    (hbefore : Text.Blanks before.toList) (hafter : Text.Blanks after.toList)
    (h : Text.equalsIgnoringCase c.label label = true) :
    c.IsLabelled (before ++ label ++ after) := by
  have htrim : Text.trim (before ++ label ++ after) = Text.trim label := by
    rw [Text.trim, String.toList_append, String.toList_append,
      Text.trimChars_append_blanks hbefore hafter, Text.trim]
  rw [IsLabelled, htrim]
  exact Text.equalsIgnoringCase_trim h

/-! ## The choice that a text leads to -/

namespace Attribute

variable {a : Attribute} {named : String} {c : Choice}

/-- The choice that a text leads to: the first one that has it as its id or, if no choice has, the
first one that is labelled so. -/
inductive LeadsTo (a : Attribute) (named : String) (c : Choice) : Prop
  | id {before after : List Choice} (choices : a.choices = before ++ c :: after)
      (same : c.id = Text.trim named) (first : ∀ b ∈ before, b.id ≠ Text.trim named)
  | label {before after : List Choice} (choices : a.choices = before ++ c :: after)
      (noId : ∀ b ∈ a.choices, b.id ≠ Text.trim named) (labelled : c.IsLabelled named)
      (first : ∀ b ∈ before, ¬ b.IsLabelled named)

/-- **The choice that is found is the one that the text leads to.** -/
theorem findChoice?_eq_some_iff : a.findChoice? named = some c ↔ a.LeadsTo named c := by
  rw [findChoice?, Option.or_eq_some_iff, List.find?_eq_some_iff_append,
    List.find?_eq_some_iff_append, List.find?_eq_none]
  simp only [decide_eq_true_eq, Bool.not_eq_true', decide_eq_false_iff_not]
  constructor
  · rintro (⟨same, before, after, choices, first⟩ | ⟨noId, labelled, before, after, choices, first⟩)
    · exact .id choices same first
    · refine .label choices noId labelled fun b hb => ?_
      rw [Choice.IsLabelled, first b hb]
      exact Bool.false_ne_true
  · rintro (⟨choices, same, first⟩ | ⟨choices, noId, labelled, first⟩)
    · exact Or.inl ⟨same, _, _, choices, first⟩
    · refine Or.inr ⟨noId, labelled, _, _, choices, fun b hb => ?_⟩
      exact Bool.eq_false_iff.2 (first b hb)

theorem LeadsTo.mem (h : a.LeadsTo named c) : c ∈ a.choices := by
  cases h with
  | id choices _ _ | label choices _ _ _ => rw [choices]; simp

/-- A text leads to a choice that has it as its id or, if none has, to one that is labelled so. -/
theorem LeadsTo.id_or_label (h : a.LeadsTo named c) :
    c.id = Text.trim named ∨ (∀ b ∈ a.choices, b.id ≠ Text.trim named) ∧ c.IsLabelled named := by
  cases h with
  | id _ same _ => exact Or.inl same
  | label _ noId labelled _ => exact Or.inr ⟨noId, labelled⟩

/-- A text with the id or the label of a choice leads somewhere. -/
theorem exists_leadsTo (hc : c ∈ a.choices) (h : c.id = Text.trim named ∨ c.IsLabelled named) :
    ∃ d, a.LeadsTo named d := by
  have offered : a.Offers (.text named) := ⟨c, hc, h⟩
  obtain ⟨d, hd⟩ := Option.isSome_iff_exists.1 (offers_iff_isSome.1 offered)
  exact ⟨d, findChoice?_eq_some_iff.1 hd⟩

/-- An id leads back to itself: it has no blanks around it, or else nothing has its core as an id
and the first choice that is labelled so has this very id. -/
def Addresses (a : Attribute) (id : String) : Prop :=
  Text.trim id = id ∨
    (∀ b ∈ a.choices, b.id ≠ Text.trim id) ∧ ∃ before c after, a.choices = before ++ c :: after ∧
      c.id = id ∧ c.IsLabelled id ∧ ∀ b ∈ before, ¬ b.IsLabelled id

/-- **When an id leads back to itself.** -/
theorem addresses_iff (hc : c ∈ a.choices) :
    a.Addresses c.id ↔ ∃ d, a.LeadsTo c.id d ∧ d.id = c.id := by
  constructor
  · rintro (bare | ⟨noId, before, d, after, choices, same, labelled, first⟩)
    · obtain ⟨d, hd⟩ := exists_leadsTo hc (Or.inl bare.symm)
      refine ⟨d, hd, ?_⟩
      rcases hd.id_or_label with same | ⟨noId, -⟩
      · rw [same, bare]
      · exact absurd bare.symm (noId c hc)
    · exact ⟨d, .label choices noId labelled first, same⟩
  · rintro ⟨d, hd, same⟩
    cases hd with
    | id _ trimmed _ => exact Or.inl (trimmed.symm.trans same)
    | label choices noId labelled first =>
        exact Or.inr ⟨noId, _, d, _, choices, same, labelled, first⟩

end Attribute

/-! ## Validation -/

namespace Query

variable {catalog : Catalog} {a : Attribute} {id : String} {op : Operator}

/-- A single scalar has the shape that any operator on a select attribute wants. -/
theorem flaw?_single_of_hasChoices (select : a.type.hasChoices = true)
    (allowed : op ∈ a.type.operators) (s : Scalar) : flaw? op a (.single s) = none := by
  rw [flaw?_eq_none_iff, Operator.fits_iff_of_ne_number
    (AttributeType.ne_number_of_hasChoices select) (List.contains_iff_mem.2 allowed)]
  exact fun _ => rfl

/-- A single text on a select attribute becomes the id of the choice that it leads to. -/
theorem validate_single_text (defined : catalog.Defines id a) (select : a.type.hasChoices = true)
    (allowed : op ∈ a.type.operators) (takes : op.takesOperand = true) (named : String) :
    (rule ⟨id, op, some (.static (.single (.text named)))⟩).validate catalog =
      match a.findChoice? named with
      | some c => .ok ⟨.rule ⟨id, op, some (.static (.single (.text c.id)))⟩, []⟩
      | none => .error (.unknownOption a.id named) := by
  rw [validate_of_operand defined allowed takes, validateOperand,
    flaw?_single_of_hasChoices select allowed]
  simp only [authoredForm, if_neg (AttributeType.ne_number_of_hasChoices select), select, if_true,
    Literal.mapM, nameChoice, Scalar.asText]
  cases a.findChoice? named <;> rfl

/-- It becomes this id just if it leads to a choice that has it. -/
theorem validate_single_text_eq_ok_iff (defined : catalog.Defines id a)
    (select : a.type.hasChoices = true) (allowed : op ∈ a.type.operators)
    (takes : op.takesOperand = true) {named found : String} :
    (rule ⟨id, op, some (.static (.single (.text named)))⟩).validate catalog =
        .ok ⟨.rule ⟨id, op, some (.static (.single (.text found)))⟩, []⟩ ↔
      ∃ c, a.LeadsTo named c ∧ c.id = found := by
  rw [validate_single_text defined select allowed takes]
  simp only [← Attribute.findChoice?_eq_some_iff]
  cases a.findChoice? named <;> simp

/-- **Ids and labels of choices, validated.**  Let a rule about a select attribute have a single
text as its operand.  If that is the id of a choice, the rule is accepted with this very id just
when the id leads back to itself, and so whenever the id has no blanks around it.  If it is the
label of a choice, in any case and with any blanks around it, the rule is accepted, with the id of a
choice that goes by that text: by its id, or by its label if no choice has the text as its id. -/
theorem validate_addresses (defined : catalog.Defines id a) (select : a.type.hasChoices = true)
    (allowed : op ∈ a.type.operators) (takes : op.takesOperand = true) {c : Choice}
    (offered : c ∈ a.choices) :
    ((rule ⟨id, op, some (.static (.single (.text c.id)))⟩).validate catalog =
        .ok ⟨.rule ⟨id, op, some (.static (.single (.text c.id)))⟩, []⟩ ↔ a.Addresses c.id) ∧
      ∀ named, c.IsLabelled named → ∃ d ∈ a.choices,
        (rule ⟨id, op, some (.static (.single (.text named)))⟩).validate catalog =
          .ok ⟨.rule ⟨id, op, some (.static (.single (.text d.id)))⟩, []⟩ ∧
        (d.id = Text.trim named ∨
          (∀ b ∈ a.choices, b.id ≠ Text.trim named) ∧ d.IsLabelled named) := by
  constructor
  · rw [validate_single_text_eq_ok_iff defined select allowed takes]
    exact (Attribute.addresses_iff offered).symm
  · intro named labelled
    obtain ⟨d, hd⟩ := Attribute.exists_leadsTo offered (Or.inr labelled)
    exact ⟨d, hd.mem,
      (validate_single_text_eq_ok_iff defined select allowed takes).2 ⟨d, hd, rfl⟩, hd.id_or_label⟩

/-- Two choices of one label: it leads to the first of them, and the second keeps its id. -/
theorem validate_addresses_namesakes :
    ∃ (catalog : Catalog) (a : Attribute), catalog = ⟨"team", "org", [a], []⟩ ∧
      a = ⟨"dept", "Department", .multiSelect, [⟨"d1", "Sales"⟩, ⟨"d2", " sales"⟩]⟩ ∧
      (Query.rule ⟨"dept", .allIn, some (.static (.single (.text "d2")))⟩).validate catalog =
        .ok ⟨.rule ⟨"dept", .allIn, some (.static (.single (.text "d2")))⟩, []⟩ ∧
      ∃ c ∈ a.choices,
        (rule ⟨"dept", .allIn, some (.static (.single (.text "\tSALES ")))⟩).validate catalog =
          .ok ⟨.rule ⟨"dept", .allIn, some (.static (.single (.text c.id)))⟩, []⟩ ∧
        (c.id = Text.trim "\tSALES " ∨
          (∀ b ∈ a.choices, b.id ≠ Text.trim "\tSALES ") ∧ c.IsLabelled "\tSALES ") := by
  refine ⟨_, _, rfl, rfl, ?_⟩
  have defined : (⟨"team", "org", [⟨"dept", "Department", .multiSelect,
      [⟨"d1", "Sales"⟩, ⟨"d2", " sales"⟩]⟩], []⟩ : Catalog).Defines "dept"
      ⟨"dept", "Department", .multiSelect, [⟨"d1", "Sales"⟩, ⟨"d2", " sales"⟩]⟩ :=
    Catalog.attribute?_eq_some_iff.1 rfl
  have labelled : (⟨"d2", " sales"⟩ : Choice).IsLabelled ("\t" ++ " SALES" ++ " ") := by
    refine Choice.isLabelled_append ?_ ?_ ?_ <;> decide
  have allowed : Operator.allIn ∈ AttributeType.multiSelect.operators := by decide
  have hboth := validate_addresses defined rfl allowed rfl (c := ⟨"d2", " sales"⟩) (by decide)
  exact ⟨hboth.1.2 (Or.inl (by decide)), hboth.2 _ labelled⟩

/-- **An id with a blank before it names nothing.**  The choice is there, and a rule that gives
its id to the letter is refused. -/
theorem validate_padded_id :
    (Query.rule ⟨"dept", .equals, some (.static (.single (.text " d1")))⟩).validate
      ⟨"team", "org", [⟨"dept", "Department", .singleSelect, [⟨" d1", "Sales"⟩]⟩], []⟩
      = .error (.unknownOption "dept" " d1") := rfl

end Query

end TeamRouting
