import StreamDispatch.Proofs.Submission.Collaborators
import StreamDispatch.Proofs.System.Event
import StreamDispatch.Proofs.Topics.Compare

/-!
# The topic check gates startup

A registration may ask for its topics to be compared with what it expects before anything is
started. The comparison is of use only if it cannot be got around: each topic has to be asked
for, nothing may be created before all answers are there, and every difference has to be
reported.

What is asked cannot be told from the outcome, so the collaborators are made to write it down:
`StreamDispatch.Collaborators.traced` does what they do and adds each call to a list. Submitting
cannot see the list, so that its outcome is the same with it and without it
(`StreamDispatch.Collaborators.submit_traced`), and the list shows what was asked
(`StreamDispatch.Collaborators.asked`) and for whom sessions were to be created
(`StreamDispatch.Collaborators.created`).

Topics are asked for in only two ways: all of them are answered, or the questions end with the
first one that is not (`StreamDispatch.Asks`). All the rest follows from that.

## Main statements

* `StreamDispatch.Collaborators.checkTopics_asks`: what the check asks, and what it makes of the
  answers.
* `StreamDispatch.Collaborators.startup_gated`: whoever the collaborators are, a registration is
  started only if all its topics are as expected; otherwise all differences are reported, or the
  question that failed is, and no session is created.
-/

namespace StreamDispatch

/-! ### Questions and answers -/

/-- A question about a topic, and what was answered. -/
structure Inquiry where
  topic : String
  answer : Except Error (Option TopicDescription)
  deriving DecidableEq

/-- A call of a collaborator. -/
inductive Call
  | asked (inquiry : Inquiry)
  /-- A session was to be created for a client. -/
  | created (client : String)
  deriving DecidableEq

namespace Call

/-- The question of a call. -/
def inquiry? : Call → Option Inquiry
  | .asked inquiry => some inquiry
  | .created _ => none

/-- The client of a call. -/
def client? : Call → Option String
  | .asked _ => none
  | .created client => some client

end Call

/-- Each topic was asked for in turn, and these were the answers. -/
def answered (topics : List TopicExpectation) (actuals : List (Option TopicDescription)) :
    List Inquiry :=
  (topics.zip actuals).map fun p => ⟨p.1.topicName, .ok p.2⟩

/-- All differences between expectations and live topics, in the order of the expectations. -/
def differences (topics : List TopicExpectation) (actuals : List (Option TopicDescription)) :
    List TopicMismatch :=
  (topics.zip actuals).flatMap fun p => p.1.compare p.2

theorem mem_differences {topics : List TopicExpectation}
    {actuals : List (Option TopicDescription)} {m : TopicMismatch} :
    m ∈ differences topics actuals ↔ ∃ p ∈ topics.zip actuals, p.1.Differs p.2 m := by
  simp only [differences, List.mem_flatMap, TopicExpectation.mem_compare]

/-- There are no differences exactly if all topics are as expected. -/
theorem differences_eq_nil_iff {topics : List TopicExpectation}
    {actuals : List (Option TopicDescription)} :
    differences topics actuals = [] ↔ ∀ p ∈ topics.zip actuals, p.1.satisfiedBy p.2 := by
  simp only [List.eq_nil_iff_forall_not_mem, mem_differences, TopicExpectation.satisfiedBy_iff]
  constructor
  · intro h p hp m hm
    exact h m ⟨p, hp, hm⟩
  · rintro h m ⟨p, hp, hm⟩
    exact h p hp m hm

theorem answer_of_mem_answered {topics : List TopicExpectation}
    {actuals : List (Option TopicDescription)} {q : Inquiry} (h : q ∈ answered topics actuals) :
    ∃ actual, q.answer = .ok actual := by
  obtain ⟨p, -, rfl⟩ := List.mem_map.mp h
  exact ⟨p.2, rfl⟩

/-- A question that failed is not among those that were answered. -/
theorem not_mem_answered {topics : List TopicExpectation}
    {actuals : List (Option TopicDescription)} {q : Inquiry} {error : Error}
    (h : q.answer = .error error) : q ∉ answered topics actuals := by
  intro hq
  obtain ⟨actual, hactual⟩ := answer_of_mem_answered hq
  cases hactual.symm.trans h

/-- If there are no differences, then each topic was asked for and is as expected. -/
theorem forall₂_answered {topics : List TopicExpectation}
    {actuals : List (Option TopicDescription)} (hlength : actuals.length = topics.length)
    (hnil : differences topics actuals = []) :
    List.Forall₂ (fun t q => ∃ actual, q = ⟨t.topicName, .ok actual⟩ ∧ t.satisfiedBy actual)
      topics (answered topics actuals) := by
  induction topics generalizing actuals with
  | nil => exact .nil
  | cons t rest ih =>
    cases actuals with
    | nil => cases hlength
    | cons actual actuals =>
      rw [differences, List.zip_cons_cons, List.flatMap_cons, List.append_eq_nil_iff] at hnil
      have hactual := TopicExpectation.compare_eq_nil_iff.mp hnil.1
      exact .cons ⟨actual, rfl, hactual⟩ (ih (Nat.succ.inj hlength) hnil.2)

/-- **How topics are asked for**: each of them in turn, and what came out. Either all questions
were answered, or the last one was not and the later topics were not asked for. -/
inductive Asks (topics : List TopicExpectation) :
    List Inquiry → Except Error (List (Option TopicDescription)) → Prop
  | answered (actuals : List (Option TopicDescription))
      (length : actuals.length = topics.length) :
      Asks topics (answered topics actuals) (.ok actuals)
  | refused {t : TopicExpectation} {later : List TopicExpectation} {error : Error}
      (done : List TopicExpectation) (actuals : List (Option TopicDescription))
      (split : topics = done ++ t :: later) (length : actuals.length = done.length) :
      Asks topics (answered done actuals ++ [⟨t.topicName, .error error⟩]) (.error error)

/-- One more topic was asked for before, and the question was answered. -/
theorem Asks.cons {topics : List TopicExpectation} {inquiries : List Inquiry}
    {outcome : Except Error (List (Option TopicDescription))} (h : Asks topics inquiries outcome)
    (t : TopicExpectation) (actual : Option TopicDescription) :
    Asks (t :: topics) (⟨t.topicName, .ok actual⟩ :: inquiries) (outcome.map (actual :: ·)) := by
  cases h with
  | answered actuals hlength =>
    exact .answered (actual :: actuals) (by rw [List.length_cons, hlength]; rfl)
  | refused done actuals hsplit hlength =>
    have hsplit' : t :: topics = (t :: done) ++ _ := congrArg (t :: ·) hsplit
    exact .refused (t :: done) (actual :: actuals) hsplit' (by rw [List.length_cons, hlength]; rfl)

namespace Collaborators

variable {σ D H : Type} (c : Collaborators σ)

/-! ### Writing down the calls -/

/-- The same collaborators, who write down each call. -/
def traced : Collaborators (σ × List Call) where
  describe topic s :=
    ((c.describe topic s.1).1, (c.describe topic s.1).2,
      s.2 ++ [.asked ⟨topic, (c.describe topic s.1).1⟩])
  create config client s :=
    ((c.create config client s.1).1, (c.create config client s.1).2, s.2 ++ [.created client])

theorem traced_describe (topic : String) (s : σ × List Call) :
    c.traced.describe topic s =
      ((c.describe topic s.1).1, (c.describe topic s.1).2,
        s.2 ++ [.asked ⟨topic, (c.describe topic s.1).1⟩]) := rfl

theorem traced_create (config : ConsumerConfig) (client : String) (s : σ × List Call) :
    c.traced.create config client s =
      ((c.create config client s.1).1, (c.create config client s.1).2,
        s.2 ++ [.created client]) := rfl

/-- Comparing topics asks for them in turn, and adds up the differences. -/
theorem compareFrom_traced (topics : List TopicExpectation) (check : Broker.TopicCheck) (s : σ)
    (calls : List Call) :
    ∃ inquiries outcome, Asks topics inquiries outcome ∧
      c.traced.compareFrom check topics (s, calls) =
        ((c.compareFrom check topics s).1, (c.compareFrom check topics s).2,
          calls ++ inquiries.map .asked) ∧
      (c.compareFrom check topics s).1 = outcome.map fun actuals =>
        ⟨check.checked + actuals.length, check.mismatches ++ differences topics actuals⟩ := by
  induction topics generalizing check s calls with
  | nil =>
    refine ⟨_, _, .answered [] rfl, ?_, ?_⟩
    · simp [compareFrom, answered]
    · simp [compareFrom, differences, Except.map]
  | cons t rest ih =>
    rw [compareFrom, compareFrom, traced_describe]
    cases hdescribe : c.describe t.topicName s with
    | mk answer s' =>
      cases answer with
      | error error => exact ⟨_, _, .refused [] [] rfl rfl, rfl, rfl⟩
      | ok actual =>
        obtain ⟨inquiries, outcome, hasks, htraced, hresult⟩ :=
          ih ⟨check.checked + 1, check.mismatches ++ t.compare actual⟩ s'
            (calls ++ [.asked ⟨t.topicName, .ok actual⟩])
        refine ⟨_, _, hasks.cons t actual, ?_, ?_⟩
        · refine htraced.trans ?_
          rw [List.append_assoc]
          rfl
        · refine hresult.trans ?_
          cases outcome with
          | error error => rfl
          | ok actuals =>
            simp only [Except.map, differences, List.zip_cons_cons, List.flatMap_cons,
              List.length_cons, List.append_assoc, Nat.add_assoc, Nat.add_comm 1]

theorem createSessions_traced (config : ConsumerConfig) (count first : Nat) (s : σ)
    (calls : List Call) :
    ∃ clients : List String, c.traced.createSessions config count first (s, calls) =
      ((c.createSessions config count first s).1, (c.createSessions config count first s).2,
        calls ++ clients.map .created) := by
  induction count generalizing first s calls with
  | zero => exact ⟨[], by simp [createSessions]⟩
  | succ count ih =>
    rw [createSessions, createSessions, traced_create]
    cases hcreate : c.create config (config.clientId first) s with
    | mk answer s' =>
      cases answer with
      | error error => exact ⟨[config.clientId first], rfl⟩
      | ok session =>
        obtain ⟨clients, hclients⟩ := ih (first + 1) s' (calls ++ [.created (config.clientId first)])
        refine ⟨config.clientId first :: clients, ?_⟩
        simp only [hclients]
        cases c.createSessions config count (first + 1) s' with
        | mk answer s'' => cases answer <;> simp

/-! ### What is asked and created -/

variable (sys : System) (r : Registration D H) (s : σ)

/-- A check that is not asked for asks nothing. -/
theorem checkTopics_of_off {r : Registration D H} (h : r.checksTopics = false) (s : σ) :
    c.checkTopics r s = (.ok (), s) := by
  rw [checkTopics, h]
  rfl

/-- **What the check asks, and what it makes of the answers.** -/
theorem checkTopics_asks {r : Registration D H} (h : r.checksTopics = true) (s : σ)
    (calls : List Call) :
    ∃ inquiries outcome, Asks r.topics inquiries outcome ∧
      c.traced.checkTopics r (s, calls) =
        ((c.checkTopics r s).1, (c.checkTopics r s).2, calls ++ inquiries.map .asked) ∧
      (c.checkTopics r s).1 = outcome.bind fun actuals =>
        Broker.TopicCheck.result ⟨actuals.length, differences r.topics actuals⟩ := by
  obtain ⟨inquiries, outcome, hasks, htraced, hresult⟩ :=
    c.compareFrom_traced r.topics ⟨0, []⟩ s calls
  refine ⟨inquiries, outcome, hasks, ?_⟩
  rw [checkTopics, checkTopics, h, htraced]
  cases hcompare : c.compareFrom ⟨0, []⟩ r.topics s with
  | mk answer s' =>
    rw [hcompare] at hresult
    obtain rfl : answer = _ := hresult
    cases outcome with
    | error error => exact ⟨rfl, rfl⟩
    | ok actuals =>
      refine ⟨rfl, ?_⟩
      simp [Except.map, Except.bind]

/-- The check cannot see that its calls are written down. -/
theorem checkTopics_traced (calls : List Call) :
    ∃ later, c.traced.checkTopics r (s, calls) =
      ((c.checkTopics r s).1, (c.checkTopics r s).2, calls ++ later) := by
  cases h : r.checksTopics with
  | false =>
    refine ⟨[], ?_⟩
    rw [checkTopics_of_off _ h, checkTopics_of_off _ h, List.append_nil]
  | true =>
    obtain ⟨inquiries, _, -, htraced, -⟩ := c.checkTopics_asks h s calls
    exact ⟨_, htraced⟩

/-- The calls of submitting a registration, in order. -/
def calls : List Call := (c.traced.submit sys r (s, [])).kept.2

/-- What is asked about topics when a registration is submitted. -/
def asked : List Inquiry := (c.calls sys r s).filterMap Call.inquiry?

/-- The clients for whom sessions are to be created when a registration is submitted. -/
def created : List String := (c.calls sys r s).filterMap Call.client?

/-- **Submitting cannot see that its calls are written down.** -/
theorem submit_traced :
    c.traced.submit sys r (s, []) =
      ⟨(c.submit sys r s).answer, (c.submit sys r s).system, (c.submit sys r s).kept,
        c.calls sys r s⟩ := by
  have hkept : ∃ later, c.traced.submit sys r (s, []) =
      ⟨(c.submit sys r s).answer, (c.submit sys r s).system, (c.submit sys r s).kept, later⟩ := by
    obtain ⟨later, hcheck⟩ := c.checkTopics_traced r s []
    rw [submit, submit]
    split
    · exact ⟨_, rfl⟩
    split
    · exact ⟨_, rfl⟩
    split
    · exact ⟨_, rfl⟩
    next listener consumer _ =>
      rw [hcheck]
      cases c.checkTopics r s with
      | mk verdict s₁ =>
        cases verdict with
        | error error => exact ⟨_, rfl⟩
        | ok _ =>
          obtain ⟨clients, hcreate⟩ :=
            c.createSessions_traced consumer listener.maxInstances 0 s₁ ([] ++ later)
          simp only [hcreate]
          cases c.createSessions consumer listener.maxInstances 0 s₁ with
          | mk answer s₂ => cases answer <;> exact ⟨_, rfl⟩
  obtain ⟨later, hlater⟩ := hkept
  rw [calls, hlater]

/-- **How the topic check and what comes after it go together**: the answer, the questions and
the clients for whom sessions were to be created. -/
inductive Gated (sys : System) (e : Engine) (r : Registration D H) :
    Option (Except SubmitError Listener) → List Inquiry → List String → Prop
  /-- Its name is not free, or its configurations cannot be resolved. -/
  | unprepared {error : SubmitError}
      (unfit : ¬ (sys.Frees e r.name ∧ ∃ configs, e.resolve r = .ok configs)) :
      Gated sys e r (some (.error error)) [] []
  /-- The topics are not to be compared. -/
  | unchecked {answer : Option (Except SubmitError Listener)} {clients : List String}
      (off : r.checksTopics = false) : Gated sys e r answer [] clients
  /-- A question failed. -/
  | failed {inquiries : List Inquiry} {error : Error} (on : r.checksTopics = true)
      (asks : Asks r.topics inquiries (.error error)) :
      Gated sys e r (some (.error (.error error))) inquiries []
  /-- There are differences. -/
  | mismatched {actuals : List (Option TopicDescription)} (on : r.checksTopics = true)
      (length : actuals.length = r.topics.length) (unequal : differences r.topics actuals ≠ []) :
      Gated sys e r (some (.error (.error (.topicMismatch (differences r.topics actuals)))))
        (answered r.topics actuals) []
  /-- All topics are as expected. -/
  | passed {actuals : List (Option TopicDescription)}
      {answer : Option (Except SubmitError Listener)} {clients : List String}
      (on : r.checksTopics = true) (length : actuals.length = r.topics.length)
      (equal : differences r.topics actuals = []) :
      Gated sys e r answer (answered r.topics actuals) clients

theorem inquiries_of_calls (inquiries : List Inquiry) (clients : List String) :
    (inquiries.map Call.asked ++ clients.map Call.created).filterMap Call.inquiry? =
      inquiries := by
  rw [List.filterMap_append, List.filterMap_map, List.filterMap_map]
  simp [Function.comp_def, Call.inquiry?]

theorem clients_of_calls (inquiries : List Inquiry) (clients : List String) :
    (inquiries.map Call.asked ++ clients.map Call.created).filterMap Call.client? = clients := by
  rw [List.filterMap_append, List.filterMap_map, List.filterMap_map]
  simp [Function.comp_def, Call.client?]

/-- A check that passes was not asked for, or all topics were asked for and are as expected. -/
theorem checkTopics_passes {r : Registration D H} {s : σ} {verdict : Unit} {s' : σ × List Call}
    (h : c.traced.checkTopics r (s, []) = (.ok verdict, s')) :
    (r.checksTopics = false ∧ s'.2 = []) ∨
      (r.checksTopics = true ∧ ∃ actuals, actuals.length = r.topics.length ∧
        differences r.topics actuals = [] ∧ s'.2 = (answered r.topics actuals).map .asked) := by
  cases hcheck : r.checksTopics with
  | false =>
    rw [checkTopics_of_off _ hcheck] at h
    cases h
    exact .inl ⟨rfl, rfl⟩
  | true =>
    obtain ⟨inquiries, outcome, hasks, htraced, hresult⟩ := c.checkTopics_asks hcheck s []
    rw [htraced, hresult] at h
    obtain ⟨hverdict, rfl⟩ := Prod.mk.inj h
    cases hasks with
    | refused => cases hverdict
    | answered actuals hlength =>
      refine .inr ⟨rfl, actuals, hlength, ?_, rfl⟩
      rw [Except.bind, Broker.TopicCheck.result] at hverdict
      split at hverdict
      next hempty => exact List.isEmpty_iff.mp hempty
      next => cases hverdict

/-- A check that does not pass was asked for, and either a question failed or all topics were
asked for and there are differences. -/
theorem checkTopics_refuses {r : Registration D H} {s : σ} {error : Error} {s' : σ × List Call}
    (h : c.traced.checkTopics r (s, []) = (.error error, s')) :
    r.checksTopics = true ∧ ∃ inquiries : List Inquiry, s'.2 = inquiries.map .asked ∧
      (Asks r.topics inquiries (.error error) ∨
        ∃ actuals, actuals.length = r.topics.length ∧ differences r.topics actuals ≠ [] ∧
          inquiries = answered r.topics actuals ∧
          error = .topicMismatch (differences r.topics actuals)) := by
  cases hcheck : r.checksTopics with
  | false =>
    rw [checkTopics_of_off _ hcheck] at h
    cases h
  | true =>
    obtain ⟨inquiries, outcome, hasks, htraced, hresult⟩ := c.checkTopics_asks hcheck s []
    rw [htraced, hresult] at h
    obtain ⟨hverdict, rfl⟩ := Prod.mk.inj h
    refine ⟨rfl, inquiries, rfl, ?_⟩
    cases outcome with
    | error =>
      cases hverdict
      exact .inl hasks
    | ok actuals =>
      cases hasks with
      | answered _ hlength =>
        rw [Except.bind, Broker.TopicCheck.result] at hverdict
        split at hverdict
        · cases hverdict
        next hsome =>
          cases hverdict
          exact .inr ⟨actuals, hlength, fun hnil => hsome (List.isEmpty_iff.mpr hnil), rfl, rfl⟩

/-- After a check that passes anything may come of the sessions. -/
theorem Gated.of_passes {sys : System} {e : Engine} {r : Registration D H} {s : σ}
    {verdict : Unit} {s' : σ × List Call}
    (h : c.traced.checkTopics r (s, []) = (.ok verdict, s')) (clients : List String)
    (answer : Option (Except SubmitError Listener)) :
    Gated sys e r answer ((s'.2 ++ clients.map Call.created).filterMap Call.inquiry?)
      ((s'.2 ++ clients.map Call.created).filterMap Call.client?) := by
  rcases c.checkTopics_passes h with ⟨hoff, hcalls⟩ | ⟨hon, actuals, hlength, hnil, hcalls⟩
  · rw [hcalls, ← List.map_nil (f := Call.asked), inquiries_of_calls]
    exact .unchecked hoff
  · rw [hcalls, inquiries_of_calls]
    exact .passed hon hlength hnil

/-- **Submitting obeys the check**, whoever describes the topics and creates the sessions. -/
theorem gated {sys : System} {e : Engine} (he : sys.engine = some e) (r : Registration D H)
    (s : σ) : Gated sys e r (c.submit sys r s).answer (c.asked sys r s) (c.created sys r s) := by
  have hanswer : (c.submit sys r s).answer = (c.traced.submit sys r (s, [])).answer := by
    rw [c.submit_traced]
  rw [hanswer, asked, created, calls]
  have h := c.traced.submits he r (s, [])
  generalize c.traced.submit sys r (s, []) = out at h
  cases h with
  | duplicate found active =>
    refine .unprepared ?_
    rintro ⟨hfrees, -⟩
    rw [hfrees _ found] at active
    cases active
  | unresolved cleared unresolved =>
    refine .unprepared ?_
    rintro ⟨-, configs, hresolved⟩
    rw [hresolved] at unresolved
    cases unresolved
  | rejected cleared resolved refused =>
    obtain ⟨hon, inquiries, hcalls, hcause⟩ := c.checkTopics_refuses refused
    have hasked := inquiries_of_calls inquiries []
    have hcreated := clients_of_calls inquiries []
    rw [List.map_nil, List.append_nil] at hasked hcreated
    simp only [hcalls, hasked, hcreated]
    rcases hcause with hasks | ⟨actuals, hlength, hsome, rfl, rfl⟩
    · exact .failed hon hasks
    · exact .mismatched hon hlength hsome
  | @uncreated _ listener consumer _ s₁ _ cleared resolved passed refused =>
    obtain ⟨clients, hcreate⟩ := c.createSessions_traced consumer listener.maxInstances 0 s₁.1 s₁.2
    rw [hcreate] at refused
    obtain ⟨-, rfl⟩ := Prod.mk.inj refused
    exact .of_passes c passed clients _
  | @launched _ listener consumer _ s₁ _ cleared resolved passed created =>
    obtain ⟨clients, hcreate⟩ := c.createSessions_traced consumer listener.maxInstances 0 s₁.1 s₁.2
    rw [hcreate] at created
    obtain ⟨-, rfl⟩ := Prod.mk.inj created
    exact .of_passes c passed clients _

/-- A check that is not asked for asks nothing. -/
theorem asked_of_off {r : Registration D H} (hoff : r.checksTopics = false) (s : σ) :
    c.asked sys r s = [] := by
  cases he : sys.engine with
  | none =>
    rw [asked, calls, submit, he]
    rfl
  | some e =>
    have h := c.gated he r s
    generalize (c.submit sys r s).answer = answer, c.asked sys r s = asked,
      c.created sys r s = created at h ⊢
    cases h with
    | unprepared => rfl
    | unchecked => rfl
    | failed hon => exact absurd (hoff.symm.trans hon) Bool.false_ne_true
    | mismatched hon => exact absurd (hoff.symm.trans hon) Bool.false_ne_true
    | passed hon => exact absurd (hoff.symm.trans hon) Bool.false_ne_true

namespace Gated

variable {sys : System} {e : Engine} {r : Registration D H}
  {answer : Option (Except SubmitError Listener)} {asked : List Inquiry} {created : List String}

/-- A registration is taken only if each of its topics was asked for and is as expected. -/
theorem started {l : Listener} (h : Gated sys e r (some (.ok l)) asked created)
    (hon : r.checksTopics = true) :
    List.Forall₂ (fun t q => ∃ actual, q = ⟨t.topicName, .ok actual⟩ ∧ t.satisfiedBy actual)
      r.topics asked := by
  cases h with
  | unchecked hoff => exact absurd (hoff.symm.trans hon) Bool.false_ne_true
  | passed _ hlength hnil => exact forall₂_answered hlength hnil

/-- If no question fails, then all topics are asked for, and all differences are reported. -/
theorem of_answered (h : Gated sys e r answer asked created) (hon : r.checksTopics = true)
    (hfit : sys.Frees e r.name ∧ ∃ configs, e.resolve r = .ok configs)
    (hall : ∀ q ∈ asked, ∃ actual, q.answer = .ok actual) :
    ∃ actuals, actuals.length = r.topics.length ∧ asked = answered r.topics actuals ∧
      ((∃ p ∈ r.topics.zip actuals, ¬ p.1.satisfiedBy p.2) →
        answer = some (.error (.error (.topicMismatch (differences r.topics actuals)))) ∧
        created = []) := by
  cases h with
  | unprepared hunfit => exact absurd hfit hunfit
  | unchecked hoff => exact absurd (hoff.symm.trans hon) Bool.false_ne_true
  | failed _ hasks =>
    cases hasks with
    | refused done actuals _ _ =>
      obtain ⟨actual, hactual⟩ := hall _ (List.mem_append_right _ (List.mem_singleton.mpr rfl))
      cases hactual
  | @mismatched actuals _ hlength _ => exact ⟨actuals, hlength, rfl, fun _ => ⟨rfl, rfl⟩⟩
  | @passed actuals _ _ _ hlength hnil =>
    refine ⟨actuals, hlength, rfl, ?_⟩
    rintro ⟨p, hp, hunsatisfied⟩
    exact absurd (differences_eq_nil_iff.mp hnil p hp) hunsatisfied

/-- A question that fails is the last one, and it is the answer. -/
theorem of_failed (h : Gated sys e r answer asked created) {q : Inquiry} (hq : q ∈ asked)
    {error : Error} (herror : q.answer = .error error) :
    answer = some (.error (.error error)) ∧ created = [] ∧
      ∃ done t later actuals, r.topics = done ++ t :: later ∧ actuals.length = done.length ∧
        asked = answered done actuals ++ [⟨t.topicName, .error error⟩] := by
  cases h with
  | unprepared => exact absurd hq List.not_mem_nil
  | unchecked => exact absurd hq List.not_mem_nil
  | mismatched => exact absurd hq (not_mem_answered herror)
  | passed => exact absurd hq (not_mem_answered herror)
  | failed _ hasks =>
    cases hasks with
    | @refused t later _ done actuals hsplit hlength =>
      have hlast := (List.mem_append.mp hq).resolve_left (not_mem_answered herror)
      obtain rfl := List.mem_singleton.mp hlast
      cases herror
      exact ⟨rfl, rfl, done, t, later, actuals, hsplit, hlength, rfl⟩

end Gated

/-- **The topic check gates startup.** Throughout every history, and whatever the broker holds, a
system submits with its broker for a collaborator. For any collaborators, if the check is not
asked for, no topic is asked for. If it is, a registration is taken only if each of its topics
was asked for once, in order, and is as expected. If its name is free and its configurations can
be resolved, there are two more things. If all questions are answered, then all topics were asked
for; if some topic is not as expected, the answer lists all differences, and no session is
created. If a question fails, then that is the answer, no later topic was asked for, and no
session is created. -/
theorem startup_gated :
    (∀ (events : List (Event D H)) (b : Broker),
      let live := { (History.of events).system with broker := b }
      let out := inMemory.submit live r b
      live.submit r = (out.answer, { out.system with broker := out.kept })) ∧
    c.traced.submit sys r (s, []) =
      ⟨(c.submit sys r s).answer, (c.submit sys r s).system, (c.submit sys r s).kept,
        c.calls sys r s⟩ ∧
    (r.checksTopics = false → c.asked sys r s = []) ∧
    (r.checksTopics = true → ∀ l, (c.submit sys r s).answer = some (.ok l) →
      List.Forall₂ (fun t q => ∃ actual, q = ⟨t.topicName, .ok actual⟩ ∧ t.satisfiedBy actual)
        r.topics (c.asked sys r s)) ∧
    (r.checksTopics = true → ∀ e configs, sys.engine = some e → sys.Frees e r.name →
      e.resolve r = .ok configs →
      ((∀ q ∈ c.asked sys r s, ∃ actual, q.answer = .ok actual) →
        ∃ actuals, actuals.length = r.topics.length ∧
          c.asked sys r s = answered r.topics actuals ∧
          ((∃ p ∈ r.topics.zip actuals, ¬ p.1.satisfiedBy p.2) →
            (c.submit sys r s).answer =
              some (.error (.error (.topicMismatch (differences r.topics actuals)))) ∧
            (∀ m, m ∈ differences r.topics actuals ↔
              ∃ p ∈ r.topics.zip actuals, p.1.Differs p.2 m) ∧
            c.created sys r s = [])) ∧
      ∀ q ∈ c.asked sys r s, ∀ error, q.answer = .error error →
        (c.submit sys r s).answer = some (.error (.error error)) ∧
        c.created sys r s = [] ∧
        ∃ done t later actuals, r.topics = done ++ t :: later ∧ actuals.length = done.length ∧
          c.asked sys r s = answered done actuals ++ [⟨t.topicName, .error error⟩]) := by
  refine ⟨fun events b => ?_, c.submit_traced sys r s, fun hoff => ?_, fun hon l hl => ?_,
    fun hon e configs he hfrees hresolved => ⟨fun hall => ?_, fun q hq error herror => ?_⟩⟩
  · intro live out
    have hsettled : ∀ w ∈ live.workers, w.Settled := (History.sound events).settled
    exact submit_eq hsettled r
  · exact c.asked_of_off sys hoff s
  · cases he : sys.engine with
    | none =>
      rw [submit, he] at hl
      cases hl
    | some e =>
      have h := c.gated he r s
      rw [hl] at h
      exact h.started hon
  · obtain ⟨actuals, hlength, hasked, hmismatch⟩ :=
      (c.gated he r s).of_answered hon ⟨hfrees, configs, hresolved⟩ hall
    refine ⟨actuals, hlength, hasked, fun hunsatisfied => ?_⟩
    obtain ⟨hanswer, hcreated⟩ := hmismatch hunsatisfied
    exact ⟨hanswer, fun m => mem_differences, hcreated⟩
  · exact (c.gated he r s).of_failed hq herror

/-! ### A topic of another shape -/

/-- Two topics are expected, one of them with three partitions. -/
def strictReader : Registration Unit Unit :=
  { History.orderReader "first" with
    topics := [⟨"orders", some 3, none, ∅⟩, .named "payments"]
    checksTopics := true }

/-- The orders have two partitions, and there are no payments. -/
def twoPartitions : System :=
  { System.empty with broker := Broker.empty.createTopic "orders" ⟨2, 1, ∅⟩ }

/-- The check of the strict reader finds both differences, and nothing is created. -/
theorem startup_gated_strictReader :
    strictReader.checksTopics = true ∧ twoPartitions.engine = some .empty ∧
    twoPartitions.Frees .empty strictReader.name ∧
    (∃ configs, Engine.empty.resolve strictReader = .ok configs) ∧
    (∀ q ∈ inMemory.asked twoPartitions strictReader twoPartitions.broker,
      ∃ actual, q.answer = .ok actual) ∧
    (inMemory.submit twoPartitions strictReader twoPartitions.broker).answer =
      some (.error (.error (.topicMismatch
        [.partitionCount "orders" 3 2, .missingTopic "payments"]))) ∧
    inMemory.created twoPartitions strictReader twoPartitions.broker = [] := by
  have hasked : inMemory.asked twoPartitions strictReader twoPartitions.broker =
      answered strictReader.topics [some ⟨2, 1, ∅⟩, none] := by decide +kernel
  have hanswered : ∀ q ∈ inMemory.asked twoPartitions strictReader twoPartitions.broker,
      ∃ actual, q.answer = .ok actual := by
    rw [hasked]
    exact fun q hq => answer_of_mem_answered hq
  have hfrees : twoPartitions.Frees .empty strictReader.name := fun l hl => by cases hl
  have hresolved : ∃ configs, Engine.empty.resolve strictReader = .ok configs := ⟨_, rfl⟩
  obtain ⟨configs, hconfigs⟩ := hresolved
  obtain ⟨-, -, -, -, hgate⟩ := inMemory.startup_gated twoPartitions strictReader
    twoPartitions.broker
  obtain ⟨actuals, hlength, hactuals, hmismatch⟩ :=
    (hgate rfl .empty configs rfl hfrees hconfigs).1 hanswered
  obtain ⟨a, b, rfl⟩ := List.length_eq_two.mp hlength
  cases hasked.symm.trans hactuals
  have hmissing : ¬ (TopicExpectation.named "payments").satisfiedBy none := by
    rintro ⟨d, hd, -⟩
    cases hd
  obtain ⟨hanswer, -, hcreated⟩ :=
    hmismatch ⟨(.named "payments", none), by decide +kernel, hmissing⟩
  exact ⟨rfl, rfl, hfrees, ⟨configs, hconfigs⟩, hanswered, hanswer, hcreated⟩

end Collaborators

end StreamDispatch
