import Mathlib.Data.List.Forall2
import Mathlib.Data.List.Nodup
import TeamRouting.Proofs.RoundTrip

/-!
# Objects with the fields of a group

An object is read as a group if it can be, and as a rule otherwise; fields that neither of them
knows are ignored.  So an object that has the fields of both is a rule as soon as something is wrong
with the group, be it a child somewhere below, and then its children are lost.  That is the only way
to lose them: an object is read as the group of its children, or its own fields make up a rule, or
it is not read at all.

* `Json.Names` — the ways to write a name;
* `Query.GroupFields`, `Rule.RuleFields` — what the fields of an object make up;
* `Query.groupCombinator?_eq_some_iff`, `Query.childrenOf?_eq`, `Rule.ofFields?_eq_some_iff`
  — and that this is what is read;
* `Query.ofJson?_group_fields` — an object with the fields of a group;
* `Query.ofJson?_loses_children` — one that is read as a rule all the same.
-/

namespace TeamRouting

/-! ## Fields -/

namespace Json

/-- A name from a fixed set: a text, or the key of a single field without a value. -/
inductive Names : Json → String → Prop
  | text (s : String) : Names (.text s) s
  | key (s : String) : Names (.object [(s, .null)]) s

theorem label?_eq_some_iff {json : Json} {s : String} :
    json.label? = some s ↔ json.Names s := by
  constructor
  · intro h
    unfold label? at h
    split at h
    · cases h
      exact .text s
    · cases h
      exact .key s
    · cases h
  · rintro (_ | _) <;> rfl

variable {fields : List (String × Json)}

theorem occurrences_le_one (unique : (fields.map Prod.fst).Nodup) (name : String) :
    occurrences fields name ≤ 1 := by
  have hcount := List.nodup_iff_count_le_one.1 unique name
  rw [List.count_eq_countP, List.countP_map, List.countP_eq_length_filter] at hcount
  exact hcount

/-- No field is repeated, so an object is a record with any fields. -/
theorem record?_object (unique : (fields.map Prod.fst).Nodup) (names : List String) :
    record? names (.object fields) = some (names.map (field? fields)) := by
  rw [record?, if_pos]
  simp [occurrences_le_one unique]

end Json

/-! ## The fields of a rule -/

/-- What the fields of an object say if they make up a rule. -/
structure Rule.RuleFields (fields : List (String × Json)) (r : Rule Operand) : Prop where
  attributeId : Json.field? fields "attributeId" = some (.text r.attributeId)
  operator : ∃ json, Json.field? fields "operator" = some json ∧ json.Names r.operator.name
  operand : readOperand? (Json.field? fields "value") = some r.operand

theorem Operator.ofName?_eq_some_iff {name : String} {op : Operator} :
    ofName? name = some op ↔ name = op.name := by
  constructor
  · intro h
    simpa [eq_comm] using List.find?_some h
  · rintro rfl
    exact ofName?_name op

theorem Combinator.ofName?_eq_some_iff {name : String} {c : Combinator} :
    ofName? name = some c ↔ name = c.name := by
  constructor
  · intro h
    simpa [eq_comm] using List.find?_some h
  · rintro rfl
    exact ofName?_name c

namespace Rule

variable {fields : List (String × Json)} {r : Rule Operand}

theorem ofParts?_eq_some_iff {attributeId operator : Json} {value : Option Json} :
    ofParts? attributeId operator value = some r ↔ attributeId = .text r.attributeId ∧
      operator.Names r.operator.name ∧ readOperand? value = some r.operand := by
  have htext : ∀ id, Document.text? attributeId = some id ↔ attributeId = .text id := by
    intro id
    cases attributeId <;> simp [Document.text?]
  have hname : ∀ op, (Document.name? operator).bind Operator.ofName? = some op ↔
      operator.Names op.name := by
    intro op
    show operator.label?.bind Operator.ofName? = some op ↔ _
    simp [Option.bind_eq_some_iff, Operator.ofName?_eq_some_iff, Json.label?_eq_some_iff]
  obtain ⟨attributeId', op, operand⟩ := r
  simp only [ofParts?, Option.bind_eq_bind, Option.bind_eq_some_iff, Option.pure_def,
    Option.some.injEq, htext]
  constructor
  · rintro ⟨id, hid, op', hop, operand', hoperand, ⟨⟩⟩
    exact ⟨hid, (hname _).1 (Option.bind_eq_some_iff.2 hop), hoperand⟩
  · rintro ⟨hid, hop, hoperand⟩
    exact ⟨attributeId', hid, op, Option.bind_eq_some_iff.1 ((hname op).2 hop), operand, hoperand,
      rfl⟩

/-- **An object is read as the rule that its fields make up.** -/
theorem ofFields?_eq_some_iff (unique : (fields.map Prod.fst).Nodup) :
    ofFields? fields = some r ↔ r.RuleFields fields := by
  have hfields : ofFields? fields =
      (Json.field? fields "attributeId").bind fun attributeId =>
        (Json.field? fields "operator").bind fun operator =>
          ofParts? attributeId operator (Json.field? fields "value") := by
    rw [ofFields?, Json.record?_object unique]
    simp only [Option.bind_eq_bind, Option.bind_some, List.map_cons, List.map_nil]
    cases Json.field? fields "attributeId" <;> cases Json.field? fields "operator" <;> rfl
  rw [hfields]
  constructor
  · intro h
    obtain ⟨attributeId, hid, h⟩ := Option.bind_eq_some_iff.1 h
    obtain ⟨operator, hop, h⟩ := Option.bind_eq_some_iff.1 h
    obtain ⟨rfl, hname, hoperand⟩ := ofParts?_eq_some_iff.1 h
    exact ⟨hid, ⟨operator, hop, hname⟩, hoperand⟩
  · rintro ⟨hid, ⟨operator, hop, hname⟩, hoperand⟩
    rw [hid, hop, Option.bind_some, Option.bind_some]
    exact ofParts?_eq_some_iff.2 ⟨rfl, hname, hoperand⟩

end Rule

/-! ## The fields of a group -/

namespace Query

variable {fields : List (String × Json)} {items : List Json}

/-- What the fields of an object say if they make up a group: the name of its combinator, and a list
of documents, each of which is read as one of its children. -/
structure GroupFields (fields : List (String × Json)) (c : Combinator)
    (children : List (Query Operand)) : Prop where
  combinator : ∃ json, Json.field? fields "combinator" = some json ∧ json.Names c.name
  rules : ∃ items, Json.field? fields "rules" = some (.list items) ∧
    List.Forall₂ (fun item child => ofJson? item = some child) items children

theorem ofJsonAll?_eq_some_iff {children : List (Query Operand)} :
    ofJsonAll? items = some children ↔
      List.Forall₂ (fun item child => ofJson? item = some child) items children := by
  induction items generalizing children with
  | nil => rw [List.forall₂_nil_left_iff, ofJsonAll?, Option.some.injEq, eq_comm]
  | cons item rest ih =>
      rw [List.forall₂_cons_left_iff, ofJsonAll?]
      constructor
      · intro h
        split at h
        · next child others hchild hothers =>
          cases h
          exact ⟨child, others, hchild, ih.1 hothers, rfl⟩
        · cases h
      · rintro ⟨child, others, hchild, hothers, rfl⟩
        rw [hchild, ih.2 hothers]

/-- Children are read from the field where they stand. -/
theorem childrenOf?_eq (h : Json.field? fields "rules" = some (.list items)) :
    childrenOf? fields = ofJsonAll? items := by
  induction fields with
  | nil => cases h
  | cons field rest ih =>
      obtain ⟨name, value⟩ := field
      by_cases hname : name = "rules"
      · have hvalue : value = .list items := by simpa [Json.field?, hname] using h
        rw [hvalue, childrenOf?, if_pos hname]
      · have hrest : childrenOf? ((name, value) :: rest) = childrenOf? rest := by
          cases value <;> simp [childrenOf?, hname]
        rw [hrest, ih (by simpa [Json.field?, hname] using h)]

theorem groupCombinator?_eq_some_iff (unique : (fields.map Prod.fst).Nodup) {c : Combinator} :
    groupCombinator? fields = some c ↔
      ∃ json, Json.field? fields "combinator" = some json ∧ json.Names c.name := by
  have hname : ∀ json : Json, (Document.name? json).bind Combinator.ofName? = some c ↔
      json.Names c.name := by
    intro json
    show json.label?.bind Combinator.ofName? = some c ↔ _
    simp [Option.bind_eq_some_iff, Combinator.ofName?_eq_some_iff, Json.label?_eq_some_iff]
  rw [groupCombinator?, Json.record?_object unique]
  simp only [Option.bind_eq_bind, Option.bind_some, List.map_cons, List.map_nil]
  cases Json.field? fields "combinator" with
  | none => simp
  | some json => simpa using hname json

/-! ## Objects with the fields of a group -/

/-- **What an object with a list of children is read as**: the group that its fields make up, else
the rule. -/
theorem ofJson?_object_eq_some_iff (unique : (fields.map Prod.fst).Nodup)
    (listed : Json.field? fields "rules" = some (.list items)) {q : Query Operand} :
    ofJson? (.object fields) = some q ↔
      (∃ c children, GroupFields fields c children ∧ q = group c children) ∨
        (¬ ∃ c children, GroupFields fields c children) ∧
          ∃ r, r.RuleFields fields ∧ q = rule r := by
  have hgroup : ∀ c children, GroupFields fields c children ↔
      groupCombinator? fields = some c ∧ childrenOf? fields = some children := by
    intro c children
    rw [groupCombinator?_eq_some_iff unique, childrenOf?_eq listed, ofJsonAll?_eq_some_iff]
    constructor
    · rintro ⟨hc, items', hlisted, hchildren⟩
      cases listed.symm.trans hlisted
      exact ⟨hc, hchildren⟩
    · rintro ⟨hc, hchildren⟩
      exact ⟨hc, items, listed, hchildren⟩
  rw [ofJson?]
  cases hc : groupCombinator? fields with
  | none => simp [hgroup, hc, ← Rule.ofFields?_eq_some_iff unique, eq_comm]
  | some c =>
      cases hchildren : childrenOf? fields with
      | none => simp [hgroup, hchildren, ← Rule.ofFields?_eq_some_iff unique, eq_comm]
      | some children => simp [hgroup, hc, hchildren, eq_comm]

/-- **Reading loses children only to a rule.**  Let an object have a combinator field and a list of
children, and no field twice.  If its combinator has a name and every element of the list is read,
then the object is read as the group of just these children, in order.  If not, it is read as the
rule that its other fields make up, or not at all; and without an attribute or without an operator
it is never read as a rule. -/
theorem ofJson?_group_fields (unique : (fields.map Prod.fst).Nodup) {combinator : Json}
    (named : Json.field? fields "combinator" = some combinator)
    (listed : Json.field? fields "rules" = some (.list items)) :
    (∀ c children, ofJson? (.object fields) = some (group c children) ↔
        combinator.Names c.name ∧
          List.Forall₂ (fun item child => ofJson? item = some child) items children) ∧
      (∀ r, ofJson? (.object fields) = some (rule r) ↔
        r.RuleFields fields ∧ ∀ (c : Combinator) children, combinator.Names c.name →
          ¬ List.Forall₂ (fun item child => ofJson? item = some child) items children) ∧
      (Json.field? fields "attributeId" = none ∨ Json.field? fields "operator" = none →
        ∀ r, ofJson? (.object fields) ≠ some (rule r)) := by
  have hfields : ∀ c children, GroupFields fields c children ↔ combinator.Names c.name ∧
      List.Forall₂ (fun item child => ofJson? item = some child) items children := by
    intro c children
    constructor
    · rintro ⟨⟨combinator', named', hname⟩, items', listed', hchildren⟩
      cases named.symm.trans named'
      cases listed.symm.trans listed'
      exact ⟨hname, hchildren⟩
    · rintro ⟨hname, hchildren⟩
      exact ⟨⟨combinator, named, hname⟩, items, listed, hchildren⟩
  have hgroup : ∀ c children, ofJson? (.object fields) = some (group c children) ↔
      GroupFields fields c children := by
    intro c children
    simp [ofJson?_object_eq_some_iff unique listed]
  have hrule : ∀ r, ofJson? (.object fields) = some (rule r) ↔
      r.RuleFields fields ∧ ∀ c children, ¬ GroupFields fields c children := by
    intro r
    simp [ofJson?_object_eq_some_iff unique listed, and_comm]
  refine ⟨?_, ?_, ?_⟩
  · intro c children
    rw [hgroup, hfields]
  · intro r
    simp only [hrule, hfields, not_and]
  · rintro (absent | absent) r h
    · have present := ((hrule r).1 h).1.attributeId
      cases absent.symm.trans present
    · obtain ⟨_, present, -⟩ := ((hrule r).1 h).1.operator
      cases absent.symm.trans present

/-- Of two children the second has an unknown operator, and no other field saves the object. -/
theorem ofJson?_unknown_operator_below :
    ¬ ∃ r, ofJson? (.object
      [("combinator", .text "OR"),
        ("rules", .list
          [.object [("attributeId", .text "dept"), ("operator", .text "IS_EMPTY")],
            .object [("attributeId", .text "region"), ("operator", .text "SOUNDS_LIKE")]])])
      = some (rule r) := by
  rintro ⟨r, h⟩
  exact (ofJson?_group_fields (by decide) rfl rfl).2.2 (.inl rfl) r h

/-- A single operator that is unknown, and a group with an attribute and an operator of its own
turns into a rule that says nothing of its child. -/
theorem ofJson?_loses_children :
    ofJson? (.object
      [("combinator", .text "AND"),
        ("rules", .list
          [.object [("attributeId", .text "region"), ("operator", .text "SOUNDS_LIKE"),
            ("value", .text "x")]]),
        ("attributeId", .text "dept"), ("operator", .text "IS_EMPTY")]) =
      some (rule ⟨"dept", .isEmpty, none⟩) := by
  rfl

end Query

end TeamRouting
