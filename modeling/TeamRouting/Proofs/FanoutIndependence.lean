import TeamRouting.Proofs.Partition

/-!
# Neither the workers nor the order of the members show

Two runs over the same members, listed in any order and divided among the workers in any way, give
the same answer down to its last part: the matched ids, the warnings and their order, the phases,
and the explanation with its count of rules and both match lists (`Engine.run_eq_of_perm`).

The reason is that everything an answer is made of comes from surveys, and a survey is a sum over
the members (`Engine.survey_of_never`), which their order leaves alone.
-/

namespace TeamRouting

theorem Catalog.memberIds_eq_of_perm {catalog catalog' : Catalog}
    (h : catalog.members.Perm catalog'.members) : catalog.memberIds = catalog'.memberIds := by
  ext id
  rw [memberIds, memberIds, NameSet.mem_ofList, NameSet.mem_ofList]
  exact (h.map Member.id).mem_iff

namespace Engine

variable {engine engine' : Engine} {catalog catalog' : Catalog}

/-- Engines of one strategy find the same in the same members, whatever was evaluated before. -/
theorem survey_eq_of_perm (strategy : engine.strategy = engine'.strategy)
    (members : catalog.members.Perm catalog'.members) (earlier earlier' : Nat) :
    engine.survey .never earlier catalog = engine'.survey .never earlier' catalog' := by
  funext plan
  rw [survey_of_never, survey_of_never, strategy, Strategy.surveyEach_perm _ _ members]

theorem fallbackSurvey_eq_of_perm (strategy : engine.strategy = engine'.strategy)
    (members : catalog.members.Perm catalog'.members) (first : Survey) (spare : Option Plan) :
    engine.fallbackSurvey .never catalog first spare
      = engine'.fallbackSurvey .never catalog' first spare := by
  rw [fallbackSurvey, fallbackSurvey,
    survey_eq_of_perm strategy members first.evaluations first.evaluations]

/-- The outcome is put together from the two surveys and the plans alone. -/
theorem conclude_eq_of_perm (strategy : engine.strategy = engine'.strategy)
    (members : catalog.members.Perm catalog'.members) (explained : Bool) (plan : Plan)
    (spare : Option Plan) :
    engine.conclude .never catalog explained plan spare
      = engine'.conclude .never catalog' explained plan spare := by
  have hfirst : engine.survey .never 0 catalog plan = engine'.survey .never 0 catalog' plan := by
    rw [survey_eq_of_perm strategy members 0 0]
  have hsecond : ∀ first, engine.fallbackSurvey .never catalog first spare
      = engine'.fallbackSurvey .never catalog' first spare :=
    fun first => fallbackSurvey_eq_of_perm strategy members first spare
  simp only [conclude, hfirst, hsecond, strategy]

/-- Preparing a tree looks at the sources and the attributes, not at the members. -/
theorem prepare_eq_of_attributes (sources : engine.sources = engine'.sources)
    (attributes : catalog.attributes = catalog'.attributes) (bindings : Bindings)
    (query : Query Operand) :
    engine.prepare catalog bindings query = engine'.prepare catalog' bindings query := by
  have hrule : validateRule catalog = validateRule catalog' := by
    funext r
    rw [validateRule, validateRule, Catalog.attribute?, Catalog.attribute?, attributes]
  have hvalidate : Query.validate catalog = Query.validate catalog' := by
    funext tree
    rw [Query.validate, Query.validate, hrule]
  rw [prepare, prepare, sources, hvalidate]

theorem prepare?_eq_of_attributes (sources : engine.sources = engine'.sources)
    (attributes : catalog.attributes = catalog'.attributes) (bindings : Bindings)
    (query : Option (Query Operand)) :
    engine.prepare? catalog bindings query = engine'.prepare? catalog' bindings query := by
  cases query with
  | none => rfl
  | some query => rw [prepare?, prepare?, prepare_eq_of_attributes sources attributes]

/-- Runs agree when the engines decide and resolve alike and the catalogs differ at most in the
order of their members. -/
theorem run_eq_of_same (strategy : engine.strategy = engine'.strategy)
    (sources : engine.sources = engine'.sources)
    (attributes : catalog.attributes = catalog'.attributes)
    (members : catalog.members.Perm catalog'.members) (input : MatchInput) :
    engine.run catalog input .never = engine'.run catalog' input .never := by
  have hids : catalog.memberIds = catalog'.memberIds := Catalog.memberIds_eq_of_perm members
  have hprepare : ∀ query, engine.prepare catalog input.bindings query
      = engine'.prepare catalog' input.bindings query :=
    prepare_eq_of_attributes sources attributes input.bindings
  have hprepare? : ∀ query, engine.prepare? catalog input.bindings query
      = engine'.prepare? catalog' input.bindings query :=
    prepare?_eq_of_attributes sources attributes input.bindings
  have hconclude : ∀ plan spare, engine.conclude .never catalog input.explain plan spare
      = engine'.conclude .never catalog' input.explain plan spare :=
    conclude_eq_of_perm strategy members input.explain
  simp only [run, Outcome.everybody, hids, hprepare, hprepare?, hconclude]

/-- **The fan-out is unobservable.**  Take any order of the members, any two pairs of limits for
the workers, zeros and limits beyond the number of members included, and any input: the two runs
fail with the same fault or give equal outcomes. -/
theorem run_eq_of_perm (engine : Engine) (catalog : Catalog) (members : List Member)
    (reordered : members.Perm catalog.members) (workers least workers' least' : Nat)
    (input : MatchInput) :
    (engine.withFanout workers least).run { catalog with members := members } input .never
      = (engine.withFanout workers' least').run catalog input .never := by
  have strategy : (engine.withFanout workers least).strategy
      = (engine.withFanout workers' least').strategy := rfl
  have sources : (engine.withFanout workers least).sources
      = (engine.withFanout workers' least').sources := rfl
  have attributes : ({ catalog with members := members } : Catalog).attributes
      = catalog.attributes := rfl
  exact run_eq_of_same strategy sources attributes reordered input

/-- Three members, two of them with one id, gone through backwards under limits of zero and
forwards by more workers than there are members. -/
theorem run_backwards_with_duplicates :
    [⟨"b", ∅⟩, ⟨"a", .ofList [("size", ["1"])]⟩, ⟨"a", ∅⟩].Perm
        (⟨"team", "org", [⟨"size", "Size", .number, []⟩],
          [⟨"a", ∅⟩, ⟨"a", .ofList [("size", ["1"])]⟩, ⟨"b", ∅⟩]⟩ : Catalog).members ∧
      (({} : Engine).withFanout 0 0).run
          ⟨"team", "org", [⟨"size", "Size", .number, []⟩],
            [⟨"b", ∅⟩, ⟨"a", .ofList [("size", ["1"])]⟩, ⟨"a", ∅⟩]⟩
          { primary := some (.rule ⟨"size", .isNotEmpty, none⟩), explain := true } .never
        = (({} : Engine).withFanout 7 1).run
          ⟨"team", "org", [⟨"size", "Size", .number, []⟩],
            [⟨"a", ∅⟩, ⟨"a", .ofList [("size", ["1"])]⟩, ⟨"b", ∅⟩]⟩
          { primary := some (.rule ⟨"size", .isNotEmpty, none⟩), explain := true } .never := by
  have reordered : [⟨"b", ∅⟩, ⟨"a", .ofList [("size", ["1"])]⟩, ⟨"a", ∅⟩].Perm
      (⟨"team", "org", [⟨"size", "Size", .number, []⟩],
        [⟨"a", ∅⟩, ⟨"a", .ofList [("size", ["1"])]⟩, ⟨"b", ∅⟩]⟩ : Catalog).members := by decide
  exact ⟨reordered, run_eq_of_perm _ _ _ reordered 0 0 7 1 _⟩

end Engine

end TeamRouting
