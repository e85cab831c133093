import TeamRouting.Proofs.Acceptance
import TeamRouting.Proofs.LowerCase

/-!
# Parts of texts, searched for

A rule can ask whether a value of a member has a given text in it.  Both are trimmed and brought to
lower case first, each by itself.  So a value that has the text in it, character for character, is
found as long as the text has the same lower-case form there as by itself.  That fails at a capital
sigma at the open end of a text: by itself it ends a word, and within a longer word it does not.

* `Query.contains_finds_iff` — the texts that are found wherever they stand;
* `Query.contains_misses_open_sigma` — a text that is not.
-/

namespace TeamRouting

namespace Query

variable {catalog : Catalog} {a : Attribute} {id : String} {value : Literal}
  {s : Scalar}

/-- **What is found wherever it stands.**  A rule about a text attribute that asks for a text within
the values is accepted.  It holds for all members with a value that has the text in it, character
for character, just if the text settles the form of its sigmas: behind each sigma with a cased
letter before it, and before each sigma with none behind it, the text itself has a character that
casing does not ignore. -/
theorem contains_finds_iff (defined : catalog.Defines id a) (text : a.type = .text)
    (single : value.scalars = [s]) :
    ∃ validation, (rule ⟨id, .contains, some (.static value)⟩).validate catalog = .ok validation ∧
      ((∀ (values : MemberValues) (v : String), v ∈ values.get id →
          s.asText.toList <:+: v.toList → ∀ t, (validation.tree.evaluate values t).1 = true) ↔
        Text.SigmasSettled s.asText.toList) := by
  have allowed : Operator.contains ∈ a.type.operators := by
    rw [text]
    decide
  have length : value.scalars.length = 1 := congrArg List.length single
  refine ⟨_, (validate_static_text_eq_ok_iff defined text allowed rfl).2 ⟨fun _ => length, rfl⟩, ?_⟩
  have hholds : ∀ (values : MemberValues) (t : Tally),
      ((rule ⟨id, .contains, some (.static value)⟩).evaluate values t).1 = true ↔
        ∃ v ∈ values.get id, Text.normalize s.asText <:+: Text.normalize v := by
    intro values t
    rw [evaluate_rule_iff_compares rfl rfl, single]
    simp [Operator.Compares]
  simp only [hholds, ← Text.infix_normalizeChars_iff]
  constructor
  · -- a member with a single value, so that nothing else can make the rule hold
    intro h ds hds
    have hvalues := h ((∅ : MemberValues).insert id [String.ofList ds]) (String.ofList ds)
    rw [MemberValues.get_insert_self, String.toList_ofList] at hvalues
    obtain ⟨v, hv, hpart⟩ := hvalues (List.mem_singleton_self _) hds {}
    cases List.mem_singleton.1 hv
    rwa [Text.normalize, Text.normalize, String.toList_ofList] at hpart
  · intro h values v hv hpart t
    exact ⟨v, hv, h v.toList hpart⟩

/-- A text with a sigma between cased letters is found wherever it stands. -/
theorem contains_finds_inner_sigma :
    ∃ validation, (rule ⟨"title", .contains, some (.static (.list [.text "ΠΑΣΟΚ"]))⟩).validate
        ⟨"team", "org", [⟨"title", "Title", .text, []⟩], []⟩ = .ok validation ∧
      ∀ (values : MemberValues) (v : String), v ∈ values.get "title" →
        "ΠΑΣΟΚ".toList <:+: v.toList → ∀ t, (validation.tree.evaluate values t).1 = true := by
  have defined : (⟨"team", "org", [⟨"title", "Title", .text, []⟩], []⟩ : Catalog).Defines "title"
      ⟨"title", "Title", .text, []⟩ := Catalog.attribute?_eq_some_iff.1 rfl
  have single : (Literal.list [.text "ΠΑΣΟΚ"]).scalars = [.text "ΠΑΣΟΚ"] := rfl
  obtain ⟨validation, accepted, hfinds⟩ := contains_finds_iff defined rfl single
  exact ⟨validation, accepted, hfinds.2 (by decide +kernel)⟩

/-- **A text that is missed.**  By itself, `ΟΔΟΣ` ends with a sigma that ends a word.  Within
`ΟΔΟΣΑ` the sigma ends no word, and the text is not found there. -/
theorem contains_misses_open_sigma :
    ∃ r : Rule ResolvedOperand,
      r = ⟨"title", .contains, some (.static (.single (.text "ΟΔΟΣ")))⟩ ∧
      (rule r).validate ⟨"team", "org", [⟨"title", "Title", .text, []⟩], []⟩ = .ok ⟨.rule r, []⟩ ∧
      "ΟΔΟΣ".toList <:+: "ΟΔΟΣΑ".toList ∧
      ((rule r).evaluate ((∅ : MemberValues).insert "title" ["ΟΔΟΣΑ"]) {}).1 = false := by
  refine ⟨_, rfl, rfl, ⟨[], ['Α'], rfl⟩, ?_⟩
  decide +kernel

end Query

end TeamRouting
