import TeamRouting.Proofs.MissingAnswers
import TeamRouting.Service

/-!
# Every team is served from its own catalog

A service works through registrations of catalogs and requests for members in the order in which
they come.  What a request is answered depends on one registration only, the last one with the very
ids that the request asks for; whatever the other teams and organizations register, and whatever has
been registered and replaced before, it neither helps nor harms.

* `Call`, `Service.session` — sequences of registrations and requests;
* `Call.latest?` — the catalog that was registered last for a team;
* `Store.Remembers` — the invariant: a store has, for each team, the catalog registered last;
* `Service.Answers` — the answers that are due, given that catalog;
* `Service.session_isolates_teams` — and each request of a session is given one of these.
-/

namespace TeamRouting

/-! ## Sessions -/

/-- What is asked of a service over a store. -/
inductive Call where
  | register (catalog : Catalog)
  | find (request : Request) (signal : Signal)

namespace Call

/-- The catalog that a call registers for a team, if it does. -/
def registered? (teamId orgId : String) : Call → Option Catalog
  | register catalog =>
    if catalog.teamId = teamId ∧ catalog.orgId = orgId then some catalog else none
  | find _ _ => none

/-- **The catalog that was registered last** for a team, by exactly its ids. -/
def latest? (teamId orgId : String) (calls : List Call) : Option Catalog :=
  (calls.filterMap (registered? teamId orgId)).getLast?

variable {teamId orgId : String} {catalog : Catalog}

/-- What is registered for a team has its ids. -/
theorem ids_of_registered? {call : Call} (h : call.registered? teamId orgId = some catalog) :
    catalog.teamId = teamId ∧ catalog.orgId = orgId := by
  cases call with
  | register catalog' =>
      rw [registered?, Option.ite_none_right_eq_some] at h
      obtain ⟨ids, hcatalog⟩ := h
      cases hcatalog
      exact ids
  | find request signal => cases h

theorem ids_of_latest? {calls : List Call} (h : latest? teamId orgId calls = some catalog) :
    catalog.teamId = teamId ∧ catalog.orgId = orgId := by
  obtain ⟨call, -, hcall⟩ := List.mem_filterMap.1 (List.mem_of_getLast? h)
  exact ids_of_registered? hcall

/-- One more call counts if it registers something for the team. -/
theorem latest?_concat (calls : List Call) (call : Call) :
    latest? teamId orgId (calls ++ [call])
      = (call.registered? teamId orgId).or (latest? teamId orgId calls) := by
  cases h : call.registered? teamId orgId with
  | none => simp [latest?, h]
  | some catalog => simp [latest?, h]

end Call

namespace Service

/-- Does what a call asks for; requests are answered. -/
def perform (service : Service) (store : Store) :
    Call → Store × Option (Except Failure Outcome)
  | .register catalog => (store.register catalog, none)
  | .find request signal => (store, some (service.find store.source request signal))

/-- What a sequence of calls is answered, call by call. -/
def session (service : Service) : Store → List Call → List (Option (Except Failure Outcome))
  | _, [] => []
  | store, call :: calls =>
    let (store', answer) := service.perform store call
    answer :: service.session store' calls

end Service

/-! ## What a store remembers -/

/-- **The invariant of a store**: for each team it has the catalog that was registered last. -/
def Store.Remembers (store : Store) (calls : List Call) : Prop :=
  ∀ teamId orgId, store.find? teamId orgId = Call.latest? teamId orgId calls

namespace Store

variable {store : Store} {calls : List Call}

theorem remembers_nothing : ({} : Store).Remembers [] := fun _ _ => rfl

/-- A registration counts for its own team and no other. -/
theorem find?_register (catalog : Catalog) (teamId orgId : String) :
    (store.register catalog).find? teamId orgId
      = ((Call.register catalog).registered? teamId orgId).or (store.find? teamId orgId) := by
  by_cases own : catalog.teamId = teamId ∧ catalog.orgId = orgId
  · obtain ⟨rfl, rfl⟩ := own
    rw [find?, register, Dictionary.find?_insert_self, Call.registered?, if_pos ⟨rfl, rfl⟩,
      Option.some_or]
  · have hkey : (teamId, orgId) ≠ (catalog.teamId, catalog.orgId) := by
      intro h
      obtain ⟨hteam, horg⟩ := Prod.mk.inj h
      exact own ⟨hteam.symm, horg.symm⟩
    rw [find?, register, Dictionary.find?_insert_of_ne _ _ hkey, Call.registered?, if_neg own,
      Option.none_or, find?]

/-- **One step**: what a store remembers grows by each call. -/
theorem Remembers.perform (remembers : store.Remembers calls) (service : Service) (call : Call) :
    (service.perform store call).1.Remembers (calls ++ [call]) := by
  intro teamId orgId
  rw [Call.latest?_concat, ← remembers teamId orgId]
  cases call with
  | register catalog => exact find?_register catalog teamId orgId
  | find request signal => rfl

end Store

namespace Service

variable {service : Service} {request : Request} {signal : Signal}

/-- **A whole session**: a request in it is answered out of a store that remembers the calls
before. -/
theorem exists_store_of_session (after : List Call) :
    ∀ (before : List Call) {history : List Call} {store : Store}, store.Remembers history →
      ∃ store' : Store, store'.Remembers (history ++ before) ∧
        (service.session store (before ++ .find request signal :: after))[before.length]?
          = some (some (service.find store'.source request signal))
  | [], history, store, remembers => by
      refine ⟨store, ?_, rfl⟩
      rw [List.append_nil]
      exact remembers
  | call :: before, history, store, remembers => by
      obtain ⟨store', remembers', answer⟩ :=
        exists_store_of_session after before (remembers.perform service call)
      rw [List.append_assoc, List.singleton_append] at remembers'
      exact ⟨store', remembers', answer⟩

/-! ## Where an answer comes from -/

/-- Only what the source says about the team matters. -/
theorem find_congr {source source' : Source}
    (h : source request.teamId request.orgId = source' request.teamId request.orgId) :
    service.find source request signal = service.find source' request signal := by
  rw [find, find, fetch, fetch, h]

/-- The catalog of a source is used if it is the one that was asked for. -/
theorem find_of_catalog {source : Source} {catalog : Catalog}
    (h : source request.teamId request.orgId = .catalog catalog)
    (own : catalog.teamId = request.teamId ∧ catalog.orgId = request.orgId) :
    service.find source request signal =
      ((service.engine.run catalog (service.input request) signal).mapError
        Failure.misconfigured).map withFetch := by
  have hfetch : service.fetch source request.teamId request.orgId = .ok catalog := by
    rw [fetch, h]
    exact if_pos own
  simp only [find, hfetch]
  cases service.engine.run catalog (service.input request) signal <;> rfl

/-- A source that says why it has no catalog is quoted, under the ids that were asked for. -/
theorem find_of_failure {source : Source} {failure : Failure}
    (h : source request.teamId request.orgId = .failure failure)
    (other : ∀ teamId orgId reason, failure ≠ .dataUnavailable teamId orgId reason) :
    service.find source request signal
      = .error (.dataUnavailable request.teamId request.orgId failure.message) := by
  rw [find, fetch, h]
  cases failure with
  | dataUnavailable teamId orgId reason => exact absurd rfl (other teamId orgId reason)
  | _ => rfl

theorem find_of_unavailable {source : Source} {teamId orgId reason : String}
    (h : source request.teamId request.orgId
      = .failure (.dataUnavailable teamId orgId reason)) :
    service.find source request signal = .error (.dataUnavailable teamId orgId reason) := by
  rw [find, fetch, h]

/-- **Nobody is found in a foreign catalog**, whatever the source. -/
theorem exists_catalog_of_find {source : Source} {outcome : Outcome}
    (h : service.find source request signal = .ok outcome) :
    ∃ catalog, source request.teamId request.orgId = .catalog catalog ∧
      catalog.teamId = request.teamId ∧ catalog.orgId = request.orgId := by
  cases hsource : source request.teamId request.orgId with
  | catalog catalog =>
      by_cases own : catalog.teamId = request.teamId ∧ catalog.orgId = request.orgId
      · exact ⟨catalog, rfl, own⟩
      · rw [find, fetch, hsource] at h
        simp only [if_neg own] at h
        cases h
  | failure failure =>
      rw [find, fetch, hsource] at h
      cases failure <;> cases h
  | nothing =>
      rw [find, fetch, hsource] at h
      cases h

end Service

/-! ## Who is matched -/

namespace Engine

variable {engine : Engine} {catalog : Catalog} {input : MatchInput} {o : Outcome}

/-- Every answer of the protocol reports members of the catalog only. -/
theorem Answer.hasMember (answer : engine.Answer catalog input (.ok o)) :
    ∀ id ∈ o.matched, catalog.HasMember id := by
  have of_matches : ∀ {tree : Query ResolvedOperand} {id : String},
      engine.Matches catalog tree id → catalog.HasMember id :=
    fun ⟨m, hm, hid, _⟩ => ⟨m, hm, hid⟩
  intro id hid
  cases answer with
  | everybody _ report => exact (report.matched id).1 hid
  | primaryAlone _ _ _ _ report => exact of_matches ((report.matched id).1 hid)
  | primaryMatches _ _ _ _ _ _ report => exact of_matches ((report.matched id).1 hid)
  | fallbackMatches _ _ _ _ _ _ report => exact of_matches ((report.matched id).1 hid)

/-- **A run matches members of its catalog only**, whether or not it is called off. -/
theorem hasMember_of_run {signal : Signal} (h : engine.run catalog input signal = .ok o) :
    ∀ id ∈ o.matched, catalog.HasMember id := by
  by_cases nothing : input.DecidesNothing
  · obtain ⟨o', report, hrun⟩ := @run_of_nothing engine catalog input nothing
    have hsame := hrun input.bindings input.fallback signal
    cases h.symm.trans hsame
    exact fun id => (report.matched id).1
  · rw [MatchInput.DecidesNothing] at nothing
    push Not at nothing
    obtain ⟨primary, given, rules⟩ := nothing
    obtain ⟨plan, spare, prepared, sparePrepared, rfl⟩ := (run_eq_ok_iff given rules).1 h
    cases canceled : (engine.conclude signal catalog input.explain plan spare).canceled with
    | true =>
        rw [conclude_matched_of_canceled canceled]
        exact fun id hid => absurd hid NameSet.not_mem_empty
    | false =>
        have answer := answer_of_primary given rules (prepares_of_prepare_ok prepared)
        rw [sparePrepared] at answer
        rw [conclude_of_finished canceled]
        exact answer.hasMember

end Engine

/-! ## Sessions keep teams apart -/

namespace Service

variable {service : Service} {request : Request} {signal : Signal}

/-- **The answers that are due** to a request, given the catalog that was registered last for its
team, if any was.  A run is given both trees of the request and its bindings, if it has any; whether
to explain is for the request to say, and where it does not, for the service. -/
inductive Answers (service : Service) (request : Request) (signal : Signal) :
    Option Catalog → Except Failure Outcome → Prop
  /-- Nothing was registered for the team. -/
  | unregistered : Answers service request signal none
      (.error (.dataUnavailable request.teamId request.orgId "no catalog registered"))
  /-- A tree does not suit the catalog of the team. -/
  | misconfigured {catalog : Catalog} {fault : Misconfiguration}
      (own : catalog.teamId = request.teamId ∧ catalog.orgId = request.orgId)
      (run : service.engine.run catalog
        { primary := request.primary
          fallback := request.fallback
          bindings := request.bindings.getD {}
          explain := request.explain.getD service.explainByDefault } signal = .error fault) :
      Answers service request signal (some catalog) (.error (.misconfigured fault))
  /-- The outcome of a run over the catalog of the team, among whose members all who matched are;
  the phase of fetching is added to those of the run. -/
  | outcome {catalog : Catalog} {o : Outcome}
      (own : catalog.teamId = request.teamId ∧ catalog.orgId = request.orgId)
      (run : service.engine.run catalog
        { primary := request.primary
          fallback := request.fallback
          bindings := request.bindings.getD {}
          explain := request.explain.getD service.explainByDefault } signal = .ok o)
      (members : ∀ id ∈ o.matched, catalog.HasMember id) :
      Answers service request signal (some catalog)
        (.ok { o with timings := o.timings.insert "fetch" none })

/-- A store that remembers all registrations leads to the answer that is due. -/
theorem answers_of_remembers {store : Store} {calls : List Call}
    (remembers : store.Remembers calls) :
    service.Answers request signal (Call.latest? request.teamId request.orgId calls)
      (service.find store.source request signal) := by
  have hfind := remembers request.teamId request.orgId
  cases hlatest : Call.latest? request.teamId request.orgId calls with
  | none =>
      rw [hlatest] at hfind
      have hsource : store.source request.teamId request.orgId
          = .failure (.dataUnavailable request.teamId request.orgId "no catalog registered") := by
        rw [Store.source, hfind]
      rw [find_of_unavailable hsource]
      exact .unregistered
  | some catalog =>
      rw [hlatest] at hfind
      have hsource : store.source request.teamId request.orgId = .catalog catalog := by
        rw [Store.source, hfind]
      have own := Call.ids_of_latest? hlatest
      rw [find_of_catalog hsource own]
      cases hrun : service.engine.run catalog (service.input request) signal with
      | error fault => exact .misconfigured own hrun
      | ok o => exact .outcome own hrun (Engine.hasMember_of_run hrun)

/-- No answer that is due is about a catalog of another team. -/
theorem Answers.ne_foreign {latest : Option Catalog} {answer : Except Failure Outcome}
    (answers : service.Answers request signal latest answer) (teamId orgId a b : String) :
    answer
      ≠ .error (.dataUnavailable teamId orgId s!"catalog returned for team {a} (org {b})") := by
  intro h
  cases answers with
  | unregistered =>
      have hforeign : (s!"catalog returned for team {a} (org {b})").toList.head? = some 'c' := by
        repeat apply head?_toList_append
        decide
      have hown : "no catalog registered".toList.head? = some 'n' := by decide
      obtain ⟨-, -, hreason⟩ := Failure.dataUnavailable.inj (Except.error.inj h)
      exact text_ne_of_head? hown hforeign (by decide) hreason
  | misconfigured _ _ => cases h
  | outcome _ _ _ => cases h

/-- **A service keeps teams apart.**  In every session, whatever comes before and after, a request
is answered from the catalog that was registered last with its own two ids, or told that there is
none; it is never answered that another team's catalog came back.  Sessions that differ in what they
register for other teams only give the same answer.  And whatever the source is, an outcome needs a
catalog with both ids of the request, and a failure to have one comes out as unavailable data. -/
theorem session_isolates_teams (service : Service) :
    (∀ (request : Request) (signal : Signal) (before after : List Call), ∃ answer,
      (service.session {} (before ++ .find request signal :: after))[before.length]?
          = some (some answer) ∧
        service.Answers request signal (Call.latest? request.teamId request.orgId before) answer ∧
        (∀ teamId orgId a b : String, answer
          ≠ .error (.dataUnavailable teamId orgId s!"catalog returned for team {a} (org {b})")) ∧
        ∀ before' after', before'.filterMap (Call.registered? request.teamId request.orgId)
            = before.filterMap (Call.registered? request.teamId request.orgId) →
          (service.session {} (before' ++ .find request signal :: after'))[before'.length]?
            = some (some answer)) ∧
    ∀ (source : Source) (request : Request) (signal : Signal),
      (∀ outcome, service.find source request signal = .ok outcome →
        ∃ catalog, source request.teamId request.orgId = .catalog catalog ∧
          catalog.teamId = request.teamId ∧ catalog.orgId = request.orgId) ∧
      (∀ failure, source request.teamId request.orgId = .failure failure →
        (∀ teamId orgId reason, failure ≠ .dataUnavailable teamId orgId reason) →
          service.find source request signal
            = .error (.dataUnavailable request.teamId request.orgId failure.message)) ∧
      ∀ teamId orgId reason,
        source request.teamId request.orgId = .failure (.dataUnavailable teamId orgId reason) →
          service.find source request signal = .error (.dataUnavailable teamId orgId reason) := by
  refine ⟨fun request signal before after => ?_, fun source request signal => ⟨?_, ?_, ?_⟩⟩
  · have hsession : ∀ before after : List Call, ∃ store : Store, store.Remembers before ∧
        (service.session {} (before ++ .find request signal :: after))[before.length]?
          = some (some (service.find store.source request signal)) :=
      fun before after => exists_store_of_session after before Store.remembers_nothing
    obtain ⟨store, remembers, hanswer⟩ := hsession before after
    have answers : service.Answers request signal _ _ := answers_of_remembers remembers
    refine ⟨_, hanswer, answers, answers.ne_foreign, fun before' after' same => ?_⟩
    obtain ⟨store', remembers', hanswer'⟩ := hsession before' after'
    have hsame : store'.find? request.teamId request.orgId
        = store.find? request.teamId request.orgId := by
      rw [remembers', remembers, Call.latest?, same, Call.latest?]
    have hsource : store'.source request.teamId request.orgId
        = store.source request.teamId request.orgId := by
      rw [Store.source, Store.source, hsame]
    rw [hanswer', find_congr hsource]
  · exact fun outcome => exists_catalog_of_find
  · exact fun failure => find_of_failure
  · exact fun teamId orgId reason => find_of_unavailable

/-- Two organizations with a team of the same name, one of which registers twice: whoever asks for
its team is answered from its second catalog, whatever the other one has registered.  And a source
that cannot be reached is a source without data for the team. -/
theorem session_of_namesakes :
    ∃ (service : Service) (first rival second : Catalog) (request : Request) (o : Outcome),
      first = ⟨"team", "org", [], [⟨"ann", ⟨[]⟩⟩]⟩ ∧
      rival = ⟨"team", "rival", [], [⟨"bob", ⟨[]⟩⟩]⟩ ∧
      second = ⟨"team", "org", [], [⟨"cy", ⟨[]⟩⟩]⟩ ∧
      request = ⟨"team", "org", none, none, none, none⟩ ∧
      (service.session {} ([.register first, .register rival, .register second] ++
          .find request .never :: []))[3]? = some (some (.ok o)) ∧
      o.matched.toList = ["cy"] ∧
      (service.session {} ([.register first, .register second] ++
          .find request .never :: []))[2]? = some (some (.ok o)) ∧
      service.find (fun _ _ => .failure (.io "connection reset")) request .never
        = .error (.dataUnavailable "team" "org" "connection reset") := by
  let service : Service := ⟨{}, 1000, false⟩
  let first : Catalog := ⟨"team", "org", [], [⟨"ann", ⟨[]⟩⟩]⟩
  let rival : Catalog := ⟨"team", "rival", [], [⟨"bob", ⟨[]⟩⟩]⟩
  let second : Catalog := ⟨"team", "org", [], [⟨"cy", ⟨[]⟩⟩]⟩
  let request : Request := ⟨"team", "org", none, none, none, none⟩
  obtain ⟨o, hrun, hmatched⟩ : ∃ o : Outcome,
      (service.session {} ([.register first, .register rival, .register second] ++
          .find request .never :: []))[3]? = some (some (.ok o)) ∧
        o.matched.toList = ["cy"] := ⟨_, rfl, rfl⟩
  obtain ⟨teams, sources⟩ := session_isolates_teams service
  obtain ⟨answer, hanswer, -, -, others⟩ :=
    teams request .never [.register first, .register rival, .register second] []
  have ho : answer = .ok o := Option.some.inj (Option.some.inj (hanswer.symm.trans hrun))
  rw [ho] at others
  have hrivals := others [.register first, .register second] [] rfl
  have hsource := (sources (fun _ _ => .failure (.io "connection reset")) request .never).2.1
    (.io "connection reset") rfl (by simp)
  exact ⟨service, first, rival, second, request, o, rfl, rfl, rfl, rfl, hrun, hmatched, hrivals,
    hsource⟩

end Service

end TeamRouting
