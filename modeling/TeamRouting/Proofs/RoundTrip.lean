import TeamRouting.Proofs.Numerals
import TeamRouting.Proofs.Templates
import TeamRouting.Proofs.Traversal
import TeamRouting.Query.Codec

/-!
# Trees survive being written and read

Several forms of JSON are read as one kind of thing: an object may be a group or a rule, a number a
whole one or not, a text a literal or a reference.  Which of them is tried first decides what comes
of a document.  This file says for which trees that never goes wrong, and that reading gives no
others.

* `Json.Representable` — values whose numbers are those that a JSON value can hold;
* `Query.Canonical` — trees that come back as they were written;
* `Query.ofJson?_toJson` — what is written from such a tree is read as that very tree;
* `Query.canonical_of_ofJson?` — and every tree that is read is of this kind;
* `Query.read_write_lossless` — both together.
-/

namespace TeamRouting

/-! ## Values that can be held -/

namespace Json

mutual

/-- Whether all numbers of a value are of the kinds that a JSON value can hold: whole numbers of 64
bits, with or without a sign, and finite floats. -/
def Representable : Json → Prop
  | int n => -2 ^ 63 ≤ n ∧ n < 2 ^ 64
  | float x => x.isFinite = true
  | list items => AllRepresentable items
  | object fields => FieldsRepresentable fields
  | _ => True
termination_by structural json => json

/-- Whether all values of a list are so. -/
def AllRepresentable : List Json → Prop
  | [] => True
  | item :: rest => Representable item ∧ AllRepresentable rest
termination_by structural items => items

/-- Whether the values of all fields are so. -/
def FieldsRepresentable : List (String × Json) → Prop
  | [] => True
  | (_, value) :: rest => Representable value ∧ FieldsRepresentable rest
termination_by structural fields => fields

end

theorem allRepresentable_iff {items : List Json} :
    AllRepresentable items ↔ ∀ item ∈ items, item.Representable := by
  induction items with
  | nil => simp [AllRepresentable]
  | cons item rest ih => rw [AllRepresentable, ih, List.forall_mem_cons]

theorem representable_of_field? {fields : List (String × Json)} {name : String} {json : Json}
    (representable : FieldsRepresentable fields) (h : field? fields name = some json) :
    json.Representable := by
  induction fields with
  | nil => cases h
  | cons field rest ih =>
      obtain ⟨name', value⟩ := field
      rw [FieldsRepresentable] at representable
      by_cases hname : name' = name
      · have hvalue : field? ((name', value) :: rest) name = some value := by
          simp [field?, hname]
        rw [hvalue] at h
        cases h
        exact representable.1
      · have hrest : field? ((name', value) :: rest) name = field? rest name := by
          simp [field?, hname]
        rw [hrest] at h
        exact ih representable.2 h

end Json

/-! ## Canonical trees -/

/-- A scalar that is a float is a finite one. -/
def Scalar.Finite (s : Scalar) : Prop := ∀ x, s = .number x → x.isFinite = true

/-- An operand that is read as it is written: its scalars are finite, a literal is no lone text that
is a template, and a reference consists of names. -/
inductive Operand.Canonical : Operand → Prop
  | literal {value : Literal} (finite : ∀ s ∈ value.scalars, s.Finite)
      (plain : ∀ s, value = .single (.text s) → Reference.ofText? s = none) :
      Canonical (.literal value)
  | dynamic {r : Reference} (names : r.WellFormed) : Canonical (.dynamic r)

/-- A rule whose operand, if it has one, is read as it is written. -/
def Rule.Canonical (r : Rule Operand) : Prop :=
  ∀ operand, r.operand = some operand → operand.Canonical

/-- **A tree that is read as it is written**: each of its rules is. -/
def Query.Canonical (q : Query Operand) : Prop := ∀ r ∈ q.rules, r.Canonical

/-! ## Scalars -/

namespace Scalar

/-- Whole numbers are read as such, floats as floats and texts as texts. -/
theorem ofJson?_toJson (s : Scalar) : ofJson? s.toJson = some s := by
  cases s with
  | integer n =>
      rw [toJson, ofJson?, if_pos (Text.fitsInt64_toInt n), Int64.ofInt_toInt]
  | number x => rfl
  | text s => rfl

theorem representable_toJson {s : Scalar} (h : s.Finite) : s.toJson.Representable := by
  cases s with
  | integer n =>
      have hlow := n.le_toInt
      have hhigh := n.toInt_lt
      rw [toJson, Json.Representable]
      omega
  | number x => exact h x rfl
  | text s => trivial

theorem isFinite_ofInt {n : Int} (h : n.natAbs < 2 ^ 64) : (Decimal.ofInt n).isFinite = true := by
  unfold Decimal.ofInt
  split
  · exact (Decimal.bounded_neg_toFloat h).isFinite
  · exact (Decimal.bounded_toFloat h).isFinite

/-- A scalar that is read is finite: a whole number that becomes a float is far from the
infinities. -/
theorem finite_of_ofJson? {json : Json} {s : Scalar} (representable : json.Representable)
    (h : ofJson? json = some s) : s.Finite := by
  rintro x rfl
  cases json with
  | int n =>
      rw [Json.Representable] at representable
      simp only [ofJson?, Option.some.injEq] at h
      split at h
      · cases h
      · cases h
        exact isFinite_ofInt (by omega)
  | float y =>
      cases h
      exact representable
  | text s => cases h
  | _ => cases h

end Scalar

/-! ## Literals and operands -/

/-- What a list of readings gives was read from the list. -/
theorem exists_of_mem_of_mapM {α β : Type} {f : α → Option β} :
    ∀ {xs : List α} {ys : List β}, xs.mapM f = some ys → ∀ y ∈ ys, ∃ x ∈ xs, f x = some y
  | [], ys, h, y, hy => by
      cases h
      cases hy
  | x :: xs, ys, h, y, hy => by
      simp only [List.mapM_cons, Option.bind_eq_bind, Option.bind_eq_some_iff, Option.pure_def,
        Option.some.injEq] at h
      obtain ⟨y', hx, ys', hxs, rfl⟩ := h
      rcases List.mem_cons.1 hy with rfl | hy
      · exact ⟨x, List.mem_cons_self, hx⟩
      · obtain ⟨x', hx', hfx'⟩ := exists_of_mem_of_mapM hxs y hy
        exact ⟨x', List.mem_cons_of_mem _ hx', hfx'⟩

namespace Literal

/-- A scalar is not written as a list. -/
theorem ofJson?_of_scalar (s : Scalar) :
    ofJson? s.toJson = (Scalar.ofJson? s.toJson).map single := by
  cases s <;> rfl

theorem ofJson?_toJson (value : Literal) : ofJson? value.toJson = some value := by
  cases value with
  | single s => rw [toJson, ofJson?_of_scalar, Scalar.ofJson?_toJson, Option.map_some]
  | list ss =>
      have hss : (ss.map Scalar.toJson).mapM Scalar.ofJson? = some ss := by
        have hread : Scalar.ofJson? ∘ Scalar.toJson = pure := funext Scalar.ofJson?_toJson
        rw [List.mapM_map, hread, List.mapM_pure, List.map_id']
        rfl
      rw [toJson, ofJson?, hss, Option.map_some]

theorem representable_toJson {value : Literal} (h : ∀ s ∈ value.scalars, s.Finite) :
    value.toJson.Representable := by
  cases value with
  | single s => exact Scalar.representable_toJson (h s List.mem_cons_self)
  | list ss =>
      rw [toJson, Json.Representable, Json.allRepresentable_iff]
      intro item hitem
      obtain ⟨s, hs, rfl⟩ := List.mem_map.1 hitem
      exact Scalar.representable_toJson (h s hs)

theorem finite_of_ofJson? {json : Json} {value : Literal} (representable : json.Representable)
    (h : ofJson? json = some value) : ∀ s ∈ value.scalars, s.Finite := by
  unfold ofJson? at h
  split at h
  · next items =>
    obtain ⟨ss, hss, rfl⟩ := Option.map_eq_some_iff.1 h
    rw [Json.Representable, Json.allRepresentable_iff] at representable
    intro s hs
    obtain ⟨item, hitem, hread⟩ := exists_of_mem_of_mapM hss s hs
    exact Scalar.finite_of_ofJson? (representable item hitem) hread
  · obtain ⟨s, hread, rfl⟩ := Option.map_eq_some_iff.1 h
    intro s' hs'
    cases List.mem_singleton.1 hs'
    exact Scalar.finite_of_ofJson? representable hread

end Literal

namespace Operand

theorem ofLiteral_of_plain {value : Literal}
    (plain : ∀ s, value = .single (.text s) → Reference.ofText? s = none) :
    ofLiteral value = literal value := by
  unfold ofLiteral
  split
  · next s => rw [plain s rfl, Option.map_none, Option.getD_none]
  · rfl

theorem ofLiteral_template {r : Reference} (names : r.WellFormed) :
    ofLiteral (.single (.text r.text)) = dynamic r := by
  rw [ofLiteral, Reference.ofText?_text names, Option.map_some, Option.getD_some]

/-- **One operand**, written and read. -/
theorem ofJson?_toJson {operand : Operand} (h : operand.Canonical) :
    ofJson? operand.toJson = some operand := by
  rw [ofJson?, toJson, Literal.ofJson?_toJson, Option.map_some]
  cases h with
  | literal finite plain => rw [toLiteral, ofLiteral_of_plain plain]
  | dynamic names => rw [toLiteral, ofLiteral_template names]

theorem representable_toJson {operand : Operand} (h : operand.Canonical) :
    operand.toJson.Representable := by
  cases h with
  | literal finite plain => exact Literal.representable_toJson finite
  | dynamic names => trivial

/-- **One operand**, read: a lone text is a reference if it is a template, so that no template is
left among the literals. -/
theorem canonical_of_ofJson? {json : Json} {operand : Operand}
    (representable : json.Representable) (h : ofJson? json = some operand) : operand.Canonical := by
  obtain ⟨value, hread, rfl⟩ := Option.map_eq_some_iff.1 h
  have finite := Literal.finite_of_ofJson? representable hread
  unfold ofLiteral
  split
  · next s =>
    cases htemplate : Reference.ofText? s with
    | none =>
        refine .literal finite ?_
        rintro s' ⟨⟩
        exact htemplate
    | some r => exact .dynamic (Reference.wellFormed_of_ofText? htemplate)
  · next hlone => exact .literal finite fun s hs => absurd hs (hlone s)

end Operand

/-! ## Rules -/

theorem Operator.ofName?_name (op : Operator) : ofName? op.name = some op := by
  cases op <;> decide

theorem Combinator.ofName?_name (c : Combinator) : ofName? c.name = some c := by
  cases c <;> decide

namespace Rule

/-- An operand that is written is not `null`. -/
theorem readOperand?_toJson {operand : Operand} (h : operand.Canonical) :
    readOperand? (some operand.toJson) = some (some operand) := by
  have hread := Operand.ofJson?_toJson h
  unfold readOperand?
  split
  · next hnone => cases hnone
  · next hnull =>
    rw [Option.some.inj hnull] at hread
    cases hread
  · next json hjson =>
    rw [← Option.some.inj hjson, hread, Option.map_some]

/-- The fields of a rule are found where they were put, -/
theorem ofFields?_fields {attributeId operator : Json} {value : Option Json} :
    ofFields? ([("attributeId", attributeId), ("operator", operator)] ++
        (value.map fun v => ("value", v)).toList) = ofParts? attributeId operator value := by
  cases value <;> rfl

/-- and none of them makes the rule a group. -/
theorem groupCombinator?_fields {attributeId operator : Json} {value : Option Json} :
    groupCombinator? ([("attributeId", attributeId), ("operator", operator)] ++
        (value.map fun v => ("value", v)).toList) = none := by
  cases value <;> rfl

theorem ofParts?_toJson {r : Rule Operand} (h : r.Canonical) :
    ofParts? (.text r.attributeId) (.text r.operator.name) (r.operand.map Operand.toJson)
      = some r := by
  have hop : (Document.name? (Json.text r.operator.name)).bind Operator.ofName?
      = some r.operator := Operator.ofName?_name r.operator
  have hoperand : readOperand? (r.operand.map Operand.toJson) = some r.operand := by
    cases ho : r.operand with
    | none => rfl
    | some operand => exact readOperand?_toJson (h operand ho)
  rw [ofParts?, hop, hoperand]
  rfl

/-- **One rule**, written and read. -/
theorem ofJson?_toJson {r : Rule Operand} (h : r.Canonical) :
    Query.ofJson? (r.toJson Operand.toJson) = some (.rule r) := by
  have hfields : (r.operand.map fun o => ("value", o.toJson))
      = (r.operand.map Operand.toJson).map fun v => ("value", v) := by
    rw [Option.map_map]
    rfl
  rw [Rule.toJson, hfields, Query.ofJson?, groupCombinator?_fields, ofFields?_fields,
    ofParts?_toJson h]
  rfl

theorem representable_toJson {r : Rule Operand} (h : r.Canonical) :
    (r.toJson Operand.toJson).Representable := by
  obtain ⟨attributeId, op, operand⟩ := r
  cases operand with
  | none => exact ⟨trivial, trivial, trivial⟩
  | some operand =>
      exact ⟨trivial, trivial, Operand.representable_toJson (h operand rfl), trivial⟩

theorem canonical_of_ofParts? {attributeId operator : Json} {value : Option Json}
    {r : Rule Operand} (representable : ∀ json, value = some json → json.Representable)
    (h : ofParts? attributeId operator value = some r) : r.Canonical := by
  simp only [ofParts?, Option.bind_eq_bind, Option.bind_eq_some_iff, Option.pure_def,
    Option.some.injEq] at h
  obtain ⟨id, -, op, -, operand, hread, rfl⟩ := h
  rintro operand' hoperand
  cases value with
  | none =>
      cases hread
      cases hoperand
  | some json =>
      unfold readOperand? at hread
      split at hread
      · cases hread
        cases hoperand
      · cases hread
        cases hoperand
      · next json' hjson =>
        cases hjson
        obtain ⟨operand'', hread', rfl⟩ := Option.map_eq_some_iff.1 hread
        cases hoperand
        exact Operand.canonical_of_ofJson? (representable json rfl) hread'

theorem canonical_of_ofFields? {fields : List (String × Json)} {r : Rule Operand}
    (representable : Json.FieldsRepresentable fields) (h : ofFields? fields = some r) :
    r.Canonical := by
  simp only [ofFields?, Option.bind_eq_bind, Option.bind_eq_some_iff] at h
  obtain ⟨parts, hrecord, h⟩ := h
  have hparts : parts = ["attributeId", "operator", "value"].map (Json.field? fields) := by
    change Json.record? _ _ = _ at hrecord
    unfold Json.record? at hrecord
    dsimp only at hrecord
    split at hrecord
    · exact (Option.some.inj hrecord).symm
    · cases hrecord
  split at h
  · next attributeId operator value =>
    have hvalue : value = Json.field? fields "value" := by
      simp only [List.map_cons, List.map_nil, List.cons.injEq] at hparts
      exact hparts.2.2.1
    refine canonical_of_ofParts? (fun json hjson => ?_) h
    exact Json.representable_of_field? representable (hvalue.symm.trans hjson)
  · cases h

end Rule

/-! ## Trees -/

namespace Query

/-- The fields of a group are found where they were put. -/
theorem ofJson?_group (c : Combinator) (items : List Json) :
    ofJson? (.object [("combinator", .text c.name), ("rules", .list items)])
      = (ofJsonAll? items).map (group c) := by
  have hc : groupCombinator? [("combinator", .text c.name), ("rules", .list items)] = some c := by
    cases c <;> rfl
  have hchildren : childrenOf? [("combinator", .text c.name), ("rules", .list items)]
      = ofJsonAll? items := rfl
  rw [ofJson?, hc, hchildren]
  cases ofJsonAll? items <;> rfl

mutual

/-- **A canonical tree is read as it was written.** -/
theorem ofJson?_toJson : ∀ q : Query Operand, q.Canonical →
    ofJson? (q.toJson Operand.toJson) = some q
  | .group c qs, h => by
      rw [toJson, ofJson?_group, ofJsonAll?_toJsonAll qs h, Option.map_some]
  | .rule r, h => Rule.ofJson?_toJson (h r (List.mem_singleton_self r))

theorem ofJsonAll?_toJsonAll : ∀ qs : List (Query Operand), (∀ r ∈ rulesOfAll qs, r.Canonical) →
    ofJsonAll? (toJsonAll Operand.toJson qs) = some qs
  | [], _ => rfl
  | q :: qs, h => by
      have hq := ofJson?_toJson q fun r hr => h r (List.mem_append_left _ hr)
      have hqs := ofJsonAll?_toJsonAll qs fun r hr => h r (List.mem_append_right _ hr)
      rw [toJsonAll, ofJsonAll?, hq, hqs]

end

mutual

theorem representable_toJson : ∀ q : Query Operand, q.Canonical →
    (q.toJson Operand.toJson).Representable
  | .group _ qs, h => ⟨trivial, representable_toJsonAll qs h, trivial⟩
  | .rule r, h => Rule.representable_toJson (h r (List.mem_singleton_self r))

theorem representable_toJsonAll : ∀ qs : List (Query Operand),
    (∀ r ∈ rulesOfAll qs, r.Canonical) → Json.AllRepresentable (toJsonAll Operand.toJson qs)
  | [], _ => trivial
  | q :: qs, h =>
      ⟨representable_toJson q fun r hr => h r (List.mem_append_left _ hr),
        representable_toJsonAll qs fun r hr => h r (List.mem_append_right _ hr)⟩

end

/-- An object is read as a group or as a rule. -/
theorem ofJson?_object_cases {fields : List (String × Json)} {q : Query Operand}
    (h : ofJson? (.object fields) = some q) :
    (∃ c qs, childrenOf? fields = some qs ∧ q = group c qs) ∨
      ∃ r, Rule.ofFields? fields = some r ∧ q = rule r := by
  rw [ofJson?] at h
  split at h
  · next c qs _ hqs =>
    cases h
    exact Or.inl ⟨c, qs, hqs, rfl⟩
  · obtain ⟨r, hread, rfl⟩ := Option.map_eq_some_iff.1 h
    exact Or.inr ⟨r, hread, rfl⟩

/-- A list is read as a rule. -/
theorem ofJson?_list_cases {items : List Json} {q : Query Operand}
    (h : ofJson? (.list items) = some q) :
    ∃ attributeId operator value r, items = [attributeId, operator, value] ∧
      Rule.ofParts? attributeId operator (some value) = some r ∧ q = rule r := by
  unfold ofJson? at h
  split at h
  · next hobject => cases hobject
  · next attributeId operator value hlist =>
    cases hlist
    obtain ⟨r, hread, rfl⟩ := Option.map_eq_some_iff.1 h
    exact ⟨attributeId, operator, value, r, rfl, hread, rfl⟩
  · cases h

theorem canonical_rule {r : Rule Operand} (h : r.Canonical) : (rule r).Canonical := by
  intro r' hr'
  cases List.mem_singleton.1 hr'
  exact h

mutual

/-- **Every tree that is read is canonical**, whatever it was read from. -/
theorem canonical_of_ofJson? : ∀ (json : Json) {q : Query Operand}, json.Representable →
    ofJson? json = some q → q.Canonical
  | .object fields, q, representable, h => by
      rcases ofJson?_object_cases h with ⟨c, qs, hqs, rfl⟩ | ⟨r, hr, rfl⟩
      · exact canonical_of_childrenOf? fields representable hqs
      · exact canonical_rule (Rule.canonical_of_ofFields? representable hr)
  | .list items, q, representable, h => by
      obtain ⟨attributeId, operator, value, r, rfl, hr, rfl⟩ := ofJson?_list_cases h
      rw [Json.Representable, Json.allRepresentable_iff] at representable
      refine canonical_rule (Rule.canonical_of_ofParts? (fun json hjson => ?_) hr)
      cases hjson
      exact representable value (by simp)
  | .null, _, _, h | .bool _, _, _, h | .int _, _, _, h | .float _, _, _, h | .text _, _, _, h
  | .illegible, _, _, h => by cases h
termination_by structural json => json

theorem canonical_of_childrenOf? : ∀ (fields : List (String × Json)) {qs : List (Query Operand)},
    Json.FieldsRepresentable fields → childrenOf? fields = some qs →
      ∀ r ∈ rulesOfAll qs, r.Canonical
  | [], qs, _, h => by
      cases h
      exact fun r hr => absurd hr List.not_mem_nil
  | (name, .list items) :: rest, qs, representable, h => by
      rw [childrenOf?] at h
      split at h
      · exact canonical_of_ofJsonAll? items representable.1 h
      · exact canonical_of_childrenOf? rest representable.2 h
  | (name, .null) :: rest, qs, representable, h | (name, .bool _) :: rest, qs, representable, h
  | (name, .int _) :: rest, qs, representable, h | (name, .float _) :: rest, qs, representable, h
  | (name, .text _) :: rest, qs, representable, h
  | (name, .object _) :: rest, qs, representable, h
  | (name, .illegible) :: rest, qs, representable, h => by
      unfold childrenOf? at h
      split at h
      · cases h
      · exact canonical_of_childrenOf? rest representable.2 h
termination_by structural fields => fields

theorem canonical_of_ofJsonAll? : ∀ (jsons : List Json) {qs : List (Query Operand)},
    Json.AllRepresentable jsons → ofJsonAll? jsons = some qs →
      ∀ r ∈ rulesOfAll qs, r.Canonical
  | [], qs, _, h => by
      cases h
      exact fun r hr => absurd hr List.not_mem_nil
  | json :: rest, qs, representable, h => by
      rw [ofJsonAll?] at h
      split at h
      · next query queries hquery hqueries =>
        cases h
        have hq := canonical_of_ofJson? json representable.1 hquery
        have hqs := canonical_of_ofJsonAll? rest representable.2 hqueries
        intro r hr
        exact (List.mem_append.1 hr).elim (hq r) (hqs r)
      · cases h
termination_by structural jsons => jsons

end

/-- **Writing and reading lose nothing.**  A canonical tree is written as a JSON value that can be
held, and read from it as that very tree.  And whatever JSON value a tree is read from, it is
canonical, so that it is read once more as itself from what it is written as. -/
theorem read_write_lossless :
    (∀ q : Query Operand, q.Canonical →
        (q.toJson Operand.toJson).Representable ∧ ofJson? (q.toJson Operand.toJson) = some q) ∧
      ∀ (json : Json) (q : Query Operand), json.Representable → ofJson? json = some q →
        q.Canonical ∧ ofJson? (q.toJson Operand.toJson) = some q := by
  refine ⟨fun q canonical => ?_, fun json q representable hread => ?_⟩
  · exact ⟨representable_toJson q canonical, ofJson?_toJson q canonical⟩
  · have canonical := canonical_of_ofJson? json representable hread
    exact ⟨canonical, ofJson?_toJson q canonical⟩

/-- A tree with a list that has a template, a whole number and a fraction in it, with a reference,
with a rule without operand and with an empty group; and a document in which the children of a group
come first, a rule is a list and a template has blanks. -/
theorem read_write_mixed : ∃ (q q' : Query Operand) (json : Json),
    q = group .or [group .and [],
      rule ⟨"region", .anyIn,
        some (.literal (.list [.text "\x7bfield:x\x7d", .integer 3, .number 2.5]))⟩,
      rule ⟨"size", .equals, some (.dynamic ⟨"field", "size"⟩)⟩,
      rule ⟨"size", .isEmpty, none⟩] ∧
    json = .object [("rules", .list [.list [.text "size", .text "EQUALS",
      .text " \x7b field : size \x7d "]]), ("combinator", .text "OR")] ∧
    q.Canonical ∧ ofJson? (q.toJson Operand.toJson) = some q ∧
    json.Representable ∧ ofJson? json = some q' ∧ ofJson? (q'.toJson Operand.toJson) = some q' := by
  refine ⟨_, group .or [rule ⟨"size", .equals, some (.dynamic ⟨"field", "size"⟩)⟩], _, rfl, rfl, ?_⟩
  have canonical : (group .or [group .and [],
      rule ⟨"region", .anyIn,
        some (.literal (.list [.text "\x7bfield:x\x7d", .integer 3, .number 2.5]))⟩,
      rule ⟨"size", .equals, some (.dynamic ⟨"field", "size"⟩)⟩,
      rule ⟨"size", .isEmpty, none⟩]).Canonical := by
    intro r hr
    simp only [rules, rulesOfAll, List.append_nil, List.nil_append, List.mem_append,
      List.mem_singleton] at hr
    rcases hr with rfl | rfl | rfl
    · rintro operand ⟨⟩
      refine .literal (fun s hs x hx => ?_) (fun s hs => by cases hs)
      simp only [Literal.scalars, List.mem_cons, List.not_mem_nil, or_false] at hs
      rcases hs with rfl | rfl | rfl <;> cases hx
      rfl
    · rintro operand ⟨⟩
      exact .dynamic ⟨Reference.isName_toList_iff.1 (by decide),
        Reference.isName_toList_iff.1 (by decide)⟩
    · rintro operand ⟨⟩
  have representable : (Json.object [("rules", .list [.list [.text "size", .text "EQUALS",
      .text " \x7b field : size \x7d "]]), ("combinator", .text "OR")]).Representable := by
    simp [Json.Representable, Json.FieldsRepresentable, Json.AllRepresentable]
  exact ⟨canonical, (read_write_lossless.1 _ canonical).2, representable, rfl,
    (read_write_lossless.2 _ _ representable rfl).2⟩

end Query

end TeamRouting
