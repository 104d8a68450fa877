import StreamDispatch.Proofs.Delivery.Faithful

/-!
# A poll is its fetches

A poll runs to its end by itself, with the actions of others given beforehand
(`StreamDispatch.Stand.poll`). What comes of it comes of a list of requests: fetches that find
nothing, with time and the requests of others in between, one last fetch, and the requests of
others that are left (`StreamDispatch.Stand.Polls`). The poll returns what the last fetch
returns. So whatever holds of all lists of requests holds when there are polls among them,
and all that a session is handed by a poll it is handed by one fetch.

While a poll waits, its session is taken out of the stand, and it is put back at the end. The
requests of others do not notice (`StreamDispatch.Stand.apply_put`).

## Main definitions

* `StreamDispatch.Stand.Polls`: requests that amount to a poll.

## Main statements

* `StreamDispatch.Stand.poll_requests`: every poll amounts to requests.
* `StreamDispatch.Stand.poll_alone`: a poll while nobody else does anything.
-/

namespace StreamDispatch

namespace Stand

variable {st st' : Stand} {label : String} {s : Session} {room : Nat}
  {result : Except BrokerFault (List RawRecord)} {requests : List Request}

/-! ### A session that is taken out -/

theorem drop_put (st : Stand) (s : Session) {other : String} (h : label ≠ other) :
    ((st.put label s).drop other).2 = (st.drop other).2.put label s := by
  have hsessions := session_put st label other s
  rw [if_neg (Ne.symm h)] at hsessions
  cases hs : st.sessions.get? other with
  | none => rw [drop_of_none (hsessions.trans hs), drop_of_none hs]
  | some u =>
    rw [drop_eq (hsessions.trans hs), drop_eq hs]
    exact congrArg (Stand.mk st.now (u.leave st.broker).2) (Dict.erase_insert _ h s)

/-- A session that is taken out is put back where it was. -/
theorem put_erase (hs : st.sessions.get? label = some s) :
    Stand.put { st with sessions := st.sessions.erase label } label s = st :=
  congrArg (Stand.mk st.now st.broker) (Dict.insert_erase _ hs)

/-- **Requests about others do not notice** whether a session is there. -/
theorem apply_put (request : Request) (h : request.label? ≠ some label) :
    (st.put label s).apply request = (st.apply request).put label s := by
  cases request with
  | wait _ => rfl
  | createTopic _ _ => rfl
  | produce tp record =>
    rw [apply, apply, show (st.put label s).broker = st.broker from rfl]
    split <;> rfl
  | describe _ => rfl
  | setFaults _ => rfl
  | openSession other client config =>
    have hne : label ≠ other := fun heq => h (congrArg some heq.symm)
    rw [apply, apply, openSession, openSession, show (st.put label s).broker = st.broker from rfl]
    split
    next => rfl
    next u b _ =>
      rw [show { st.put label s with broker := b } = Stand.put { st with broker := b } label s
        from rfl, drop_put _ s hne]
      exact congrArg (Stand.mk _ _) (Dict.insert_comm _ hne s u)
  | ask other request =>
    have hne : label ≠ other := fun heq => h (congrArg some heq.symm)
    have hsessions := session_put st label other s
    rw [if_neg (Ne.symm hne)] at hsessions
    cases hs : st.sessions.get? other with
    | none => rw [apply_ask_of_none (hsessions.trans hs), apply_ask_of_none hs]
    | some u =>
      rw [apply_ask (hsessions.trans hs), apply_ask hs]
      exact congrArg (Stand.mk _ _) (Dict.insert_comm _ hne s _)
  | drop other =>
    have hne : label ≠ other := fun heq => h (congrArg some heq.symm)
    exact drop_put st s hne

/-! ### What amounts to a poll -/

/-- **Requests that amount to a poll**, with what it returns. -/
inductive Polls (label : String) (room : Nat) :
    Stand → List Request → Except BrokerFault (List RawRecord) → Prop
  /-- The poll returns what a fetch returns. -/
  | returns {st : Stand} {s : Session} {others : List Request}
      (hs : st.sessions.get? label = some s)
      (hothers : ∀ request ∈ others, request.label? ≠ some label) :
      Polls label room st (.ask label (.fetch room) :: others)
        ((s.fetch room st.broker).map (·.1))
  /-- Nothing is found, and the poll goes on. -/
  | goesOn {st : Stand} {requests : List Request} {result : Except BrokerFault (List RawRecord)}
      (hnothing : st.fetched? label room = some [])
      (hrest : Polls label room (st.apply (.ask label (.fetch room))) requests result) :
      Polls label room st (.ask label (.fetch room) :: requests) result
  /-- Time passes, or others do something. -/
  | aside {st : Stand} {request : Request} {requests : List Request}
      {result : Except BrokerFault (List RawRecord)} (hother : request.label? ≠ some label)
      (hrest : Polls label room (st.apply request) requests result) :
      Polls label room st (request :: requests) result

theorem handed_of_others (h : ∀ request ∈ requests, request.label? ≠ some label) (st : Stand) :
    handed label st requests = [] := by
  induction requests generalizing st with
  | nil => rfl
  | cons request rest ih =>
    rw [handed, returned_of_ne (h request List.mem_cons_self),
      ih fun other hother => h other (List.mem_cons_of_mem _ hother)]
    rfl

/-- **All that is handed to a session by a poll** is what the poll returns. -/
theorem Polls.handed_eq (h : Polls label room st requests result) :
    handed label st requests = result.toOption.getD [] := by
  induction h with
  | @returns st s others hs hothers =>
    rw [handed, handed_of_others hothers, List.append_nil, returned, if_pos rfl, fetched?, hs,
      Option.bind_some]
    cases s.fetch room st.broker <;> rfl
  | goesOn hnothing _ ih =>
    rw [handed, ih, returned, if_pos rfl, hnothing]
    rfl
  | aside hother _ ih =>
    rw [handed, ih, returned_of_ne hother]
    rfl

/-! ### Every poll amounts to requests -/

/-- A request of somebody else, after a delay. -/
def doing (other : Nat × Request) : Action Unit := (other.1, fun st => ((), st.apply other.2))

/-- What is left of a poll amounts to requests. -/
def EndsPoll (label : String) (room : Nat) (st : Stand) (s : Session)
    (out : PollReport Unit × Stand) : Prop :=
  ∃ requests, out.2 = requests.foldl apply (st.put label s) ∧
    Polls label room (st.put label s) requests out.1.result

variable {out : PollReport Unit × Stand} {others : List (Nat × Request)}

theorem EndsPoll.aside (request : Request) (hother : request.label? ≠ some label)
    (h : EndsPoll label room (st.apply request) s out) : EndsPoll label room st s out := by
  obtain ⟨requests, hout, hpolls⟩ := h
  rw [← apply_put request hother] at hout hpolls
  exact ⟨request :: requests, hout, .aside hother hpolls⟩

theorem EndsPoll.wait (millis : Nat)
    (h : EndsPoll label room { st with now := st.now + millis } s out) :
    EndsPoll label room st s out :=
  .aside (.wait millis) (Option.some_ne_none label).symm h

/-- What is carried out after the poll are requests of others. -/
theorem carryOut_doing (hothers : ∀ other ∈ others, other.2.label? ≠ some label) (st : Stand)
    (s : Session) :
    ∃ requests : List Request, (∀ request ∈ requests, request.label? ≠ some label) ∧
      (carryOut (others.map doing) st).2.put label s = requests.foldl apply (st.put label s) := by
  induction others generalizing st with
  | nil => exact ⟨[], fun _ h => absurd h List.not_mem_nil, rfl⟩
  | cons other rest ih =>
    have hother := hothers other List.mem_cons_self
    obtain ⟨requests, hrequests, hout⟩ :=
      ih (fun o ho => hothers o (List.mem_cons_of_mem _ ho))
        ({ st with now := st.now + other.1 }.apply other.2)
    refine ⟨.wait other.1 :: other.2 :: requests, ?_, ?_⟩
    · rintro request (_ | ⟨_, _ | ⟨_, hrequest⟩⟩)
      · exact (Option.some_ne_none label).symm
      · exact hother
      · exact hrequests request hrequest
    · rw [List.foldl_cons, List.foldl_cons,
        apply_put (.wait other.1) (Option.some_ne_none label).symm, apply_put other.2 hother]
      exact hout

/-- A fetch of a poll is a request. It ends the poll, or nothing is found before the deadline. -/
theorem attempt_cases (label : String) (s : Session) (room deadline : Nat) (st : Stand) :
    ∃ s' st', (st.put label s).apply (.ask label (.fetch room)) = st'.put label s' ∧
      (attempt s room deadline st = (.inl ((s.fetch room st.broker).map (·.1)), s', st') ∨
        attempt s room deadline st = (.inr (), s', st') ∧ st.now < deadline ∧
          (st.put label s).fetched? label room = some []) := by
  have hs : (st.put label s).sessions.get? label = some s := by rw [session_put, if_pos rfl]
  rw [attempt]
  cases hfetch : s.fetch room st.broker with
  | error fault =>
    refine ⟨s, st, ?_, .inl rfl⟩
    rw [apply_ask hs, SessionRequest.apply, show (st.put label s).broker = st.broker from rfl,
      hfetch]
    exact congrArg (Stand.mk _ _) (Dict.insert_insert _ _ _ _)
  | ok fetched =>
    obtain ⟨records, s', b'⟩ := fetched
    refine ⟨s', { st with broker := b' }, ?_, ?_⟩
    · rw [apply_fetch hs hfetch]
      exact congrArg (Stand.mk _ _) (Dict.insert_insert _ _ _ _)
    · cases hgoes : records.isEmpty && decide (st.now < deadline) with
      | false => exact .inl (if_neg (by rw [hgoes]; decide))
      | true =>
        refine .inr ⟨if_pos hgoes, ?_⟩
        rw [Bool.and_eq_true, List.isEmpty_iff, decide_eq_true_eq] at hgoes
        rw [fetched?_eq_some.mpr ⟨s, s', b', hs, hfetch⟩, hgoes.1]
        exact ⟨hgoes.2, rfl⟩

/-- After a fetch the poll is done, and only others go on, or the poll goes on. -/
theorem endsPoll_attempt {deadline : Nat}
    {done : Except BrokerFault (List RawRecord) → Session → Stand → PollReport Unit × Stand}
    {next : Session → Stand → PollReport Unit × Stand}
    (hresult : ∀ result s' st', (done result s' st').1.result = result)
    (hdone : ∀ result s' st', ∃ requests : List Request,
      (∀ request ∈ requests, request.label? ≠ some label) ∧
        (done result s' st').2 = requests.foldl apply (st'.put label s'))
    (hnext : ∀ s' st', st.now < deadline → EndsPoll label room st' s' (next s' st')) :
    EndsPoll label room st s
      (match attempt s room deadline st with
      | (.inl result, s, st) => done result s st
      | (.inr _, s, st) => next s st) := by
  obtain ⟨s', st', happly, hends | ⟨hgoes, hearly, hnothing⟩⟩ :=
    attempt_cases label s room deadline st
  · rw [hends]
    obtain ⟨requests, hrequests, hout⟩ := hdone ((s.fetch room st.broker).map (·.1)) s' st'
    refine ⟨.ask label (.fetch room) :: requests, ?_, ?_⟩
    · rw [List.foldl_cons, happly, ← hout]
    · rw [hresult]
      exact .returns (by rw [session_put, if_pos rfl]) hrequests
  · rw [hgoes]
    obtain ⟨requests, hout, hpolls⟩ := hnext s' st' hearly
    rw [← happly] at hout hpolls
    exact ⟨.ask label (.fetch room) :: requests, hout, .goesOn hnothing hpolls⟩

/-- **However long a poll waits**, it amounts to requests. -/
theorem endsPoll_waitFrom (hothers : ∀ other ∈ others, other.2.label? ≠ some label)
    (start deadline seen : Nat) (st : Stand) (s : Session) :
    EndsPoll label room st s
      (waitFrom label start room deadline seen s (others.map doing) st) := by
  -- At the deadline the poll returns, whatever it finds.
  have hlast : ∀ (rest : List (Nat × Request)) (st : Stand) (s : Session)
      (next : Session → Stand → PollReport Unit × Stand),
      (∀ other ∈ rest, other.2.label? ≠ some label) →
      EndsPoll label room st s
        (match attempt s room deadline { st with now := max st.now deadline } with
        | (.inl result, s, st) => pollDone label start s result (rest.map doing) st
        | (.inr _, s, st) => next s st) := by
    intro rest st s next hrest
    refine .wait (deadline - st.now) ?_
    rw [show st.now + (deadline - st.now) = max st.now deadline by omega]
    exact endsPoll_attempt (fun _ _ _ => rfl) (fun _ s' st' => carryOut_doing hrest st' s')
      fun _ _ hearly => absurd hearly (Nat.not_lt.mpr (Nat.le_max_right _ _))
  induction others generalizing st s seen with
  | nil =>
    rw [List.map_nil, waitFrom]
    exact hlast [] st s _ hothers
  | cons other rest ih =>
    have hother := hothers other List.mem_cons_self
    have hrest : ∀ o ∈ rest, o.2.label? ≠ some label :=
      fun o ho => hothers o (List.mem_cons_of_mem other ho)
    rw [List.map_cons, doing, waitFrom]
    split
    next =>
      exact hlast ((st.now + other.1 - deadline, other.2) :: rest) st s _ fun o ho => by
        rcases List.mem_cons.mp ho with rfl | ho
        · exact hother
        · exact hrest o ho
    next =>
      -- What is reported of the others does not matter here.
      refine .wait other.1 (.aside other.2 hother ?_)
      simp only
      split
      next => exact ih hrest _ _ _
      next =>
        exact endsPoll_attempt (fun _ _ _ => rfl) (fun _ s' st' => carryOut_doing hrest st' s')
          fun s' st' _ => ih hrest _ st' s'

theorem endsPoll_poll (hs : st.sessions.get? label = some s) (timeout room : Nat)
    (hothers : ∀ other ∈ others, other.2.label? ≠ some label) :
    ∃ out, st.poll label timeout room (others.map doing) = some out ∧
      EndsPoll label room { st with sessions := st.sessions.erase label } s out := by
  refine ⟨_, (congrArg (Option.map _) hs).trans rfl, ?_⟩
  exact endsPoll_attempt (fun _ _ _ => rfl) (fun _ s' st' => carryOut_doing hothers st' s')
    fun s' st' _ => endsPoll_waitFrom hothers _ _ _ st' s'

/-- **Every poll amounts to requests**, whatever others do while it waits. All that it hands to
the session is what it returns. -/
theorem poll_requests (before : List Request) (hs : (of before).sessions.get? label = some s)
    (timeout room : Nat) (hothers : ∀ other ∈ others, other.2.label? ≠ some label) :
    ∃ report requests,
      (of before).poll label timeout room (others.map doing) =
        some (report, of (before ++ requests)) ∧
      Polls label room (of before) requests report.result ∧
      handed label (of before) requests = report.result.toOption.getD [] := by
  obtain ⟨⟨report, after⟩, hpoll, requests, hafter, hpolls⟩ :=
    endsPoll_poll hs timeout room hothers
  rw [put_erase hs] at hafter hpolls
  rw [← of_append] at hafter
  exact ⟨report, requests, by rw [← hafter, hpoll], hpolls, hpolls.handed_eq⟩

/-- **A poll while nobody else does anything** is one fetch, or two with the time until the
deadline between them. -/
theorem poll_alone {α : Type} (hs : st.sessions.get? label = some s) (timeout room : Nat) :
    ∃ requests, (∃ report : PollReport α,
        st.poll label timeout room [] = some (report, requests.foldl apply st)) ∧
      (requests = [.ask label (.fetch room)] ∨
        ∃ millis, requests =
          [.ask label (.fetch room), .wait millis, .ask label (.fetch room)]) := by
  obtain ⟨s₁, st₁, hfirst, hends⟩ := attempt_cases label s room (st.now + timeout)
    { st with sessions := st.sessions.erase label }
  rw [put_erase hs] at hfirst
  rcases hends with hends | ⟨hgoes, -, -⟩
  · refine ⟨[.ask label (.fetch room)], ?_, .inl rfl⟩
    rw [poll, hs, Option.map_some, List.foldl_cons, List.foldl_nil, hfirst]
    simp only [hends]
    exact ⟨_, rfl⟩
  · -- The fetch at the deadline ends the poll, whatever it finds.
    obtain ⟨s₂, st₂, hlast, hends⟩ := attempt_cases label s₁ room (st.now + timeout)
      { st₁ with now := max st₁.now (st.now + timeout) }
    have hwait : (st₁.put label s₁).apply (.wait (st.now + timeout - st₁.now)) =
        Stand.put { st₁ with now := max st₁.now (st.now + timeout) } label s₁ := by
      rw [show max st₁.now (st.now + timeout) = st₁.now + (st.now + timeout - st₁.now) by omega]
      rfl
    refine ⟨[.ask label (.fetch room), .wait (st.now + timeout - st₁.now),
      .ask label (.fetch room)], ?_, .inr ⟨_, rfl⟩⟩
    rw [poll, hs, Option.map_some, List.foldl_cons, hfirst, List.foldl_cons, hwait,
      List.foldl_cons, List.foldl_nil, hlast]
    simp only [hgoes, waitFrom]
    rcases hends with h | ⟨h, -⟩ <;> simp only [h] <;> exact ⟨_, rfl⟩

end Stand

end StreamDispatch
