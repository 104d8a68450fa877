import StreamDispatch.Proofs.Delivery.Polls
import StreamDispatch.Proofs.Session.Collected

/-!
# Nothing that fits is left behind

Whatever was asked for before, a fetch returns as many records as there are for the session, up
to the size of a batch (`StreamDispatch.Stand.takes_all_that_fits`). The one thing that has to
be known of the session is that no partition is assigned to it twice, and that is a fact about
the dealing of its group.

A poll returns what its last fetch returns (`StreamDispatch.Stand.Polls.last`). So an empty
batch says that there was nothing to be had at that fetch, which may be long before the poll's
time is up.

## Main statements

* `StreamDispatch.Stand.Enrolled.nodup_sync`: a session takes over different partitions.
* `StreamDispatch.Stand.takes_all_that_fits`: what a fetch takes, and what an empty poll says.
-/

namespace StreamDispatch

namespace Stand

variable {st : Stand} {label : String} {s : Session} {room : Nat}

/-- **A session that fetches takes over different partitions.** -/
theorem Enrolled.nodup_sync (h : st.Enrolled) (hs : st.sessions.get? label = some s)
    {records : List RawRecord} {s' : Session} {b' : Broker}
    (hfetch : s.fetch room st.broker = .ok (records, s', b')) :
    (s.sync st.broker).assigned.Nodup := by
  obtain ⟨-, -, -, -, hshare⟩ := Session.regroups_fetch (h.attached label s hs) hfetch
  obtain ⟨-, hassigned, -⟩ := Session.fetch_collects hfetch
  rw [← hassigned, hshare]
  exact Group.share_nodup (h.current s.group) s.member

/-- **A poll returns what its last fetch returns.** After it there are only requests of others. -/
theorem Polls.last {requests : List Request} {result : Except BrokerFault (List RawRecord)}
    (h : Polls label room st requests result) :
    ∃ earlier later u, requests = earlier ++ .ask label (.fetch room) :: later ∧
      (∀ request ∈ later, request.label? ≠ some label) ∧
      (earlier.foldl apply st).sessions.get? label = some u ∧
      result = (u.fetch room (earlier.foldl apply st).broker).map (·.1) := by
  induction h with
  | @returns st s others hs hothers => exact ⟨[], others, s, rfl, hothers, hs, rfl⟩
  | goesOn _ _ ih =>
    obtain ⟨earlier, later, u, rfl, hlater, hu, hresult⟩ := ih
    exact ⟨.ask label (.fetch room) :: earlier, later, u, rfl, hlater, hu, hresult⟩
  | @aside st request requests result _ _ ih =>
    obtain ⟨earlier, later, u, rfl, hlater, hu, hresult⟩ := ih
    exact ⟨request :: earlier, later, u, rfl, hlater, hu, hresult⟩

/-- **A fetch leaves nothing behind that fits.** There is a session, whatever was asked for
before.

* If it has joined, no requests are made to fail, and it is nowhere below offset zero, then a
  fetch returns all records that are still to be delivered to it, or as many as fit. The records
  of each partition lie next to each other, and the position in each partition moves by the
  number of its records.
* A poll returns what its last fetch returns, however long it takes and whatever others do
  meanwhile. If there was room for a record and the poll returns none, then at its last fetch
  none was still to be delivered in any partition of the session. -/
theorem takes_all_that_fits (before : List Request)
    (hs : (of before).sessions.get? label = some s) (room : Nat) :
    (s.subscribed = true → (of before).broker.faults.poll = false →
      (s.sync (of before).broker).FromZero →
      ∃ records s' b', s.fetch room (of before).broker = .ok (records, s', b') ∧
        records.length = min room ((s.sync (of before).broker).backlog (of before).broker) ∧
        InRuns records ∧
        ∀ tp ∈ (s.sync (of before).broker).assigned, ∃ p,
          (s.sync (of before).broker).positions.get? tp = some p ∧
          s'.positions.get? tp = some (p + records.countP fun r => r.topicPartition = tp)) ∧
    ∀ timeout (others : List (Nat × Request)),
      (∀ other ∈ others, other.2.label? ≠ some label) →
      ∃ report earlier later u,
        (of before).poll label timeout room (others.map doing) =
          some (report, of (before ++ (earlier ++ .ask label (.fetch room) :: later))) ∧
        (∀ request ∈ later, request.label? ≠ some label) ∧
        (of (before ++ earlier)).sessions.get? label = some u ∧
        report.result = (u.fetch room (of (before ++ earlier)).broker).map (·.1) ∧
        (report.result = .ok [] → 1 ≤ room → (u.sync (of (before ++ earlier)).broker).FromZero →
          ∀ tp ∈ (u.sync (of (before ++ earlier)).broker).assigned,
            undelivered (of (before ++ earlier)).broker
              (u.sync (of (before ++ earlier)).broker).positions tp = 0) := by
  refine ⟨fun hjoined hfaults hnonneg => ?_, fun timeout others hothers => ?_⟩
  · obtain ⟨records, s', b', hfetch⟩ := Session.fetch_accepted hjoined hfaults room
    obtain ⟨hlength, hruns, hmoves⟩ :=
      Session.fetch_accounts hfetch ((enrolled before).nodup_sync hs hfetch) hnonneg
    refine ⟨records, s', b', hfetch, hlength, hruns, fun tp htp => ?_⟩
    have htidy := ((enrolled before).attached label s hs).tidy.sync (of before).broker
    obtain ⟨p, hp⟩ := (htidy.positions tp).mp htp
    exact ⟨p, hp, hmoves tp p hp⟩
  · obtain ⟨report, requests, hpoll, hpolls, -⟩ := poll_requests before hs timeout room hothers
    obtain ⟨earlier, later, u, rfl, hlater, hu, hresult⟩ := hpolls.last
    rw [← of_append] at hu hresult
    refine ⟨report, earlier, later, u, hpoll, hlater, hu, hresult, ?_⟩
    intro hempty hroom hnonneg tp htp
    rw [hempty] at hresult
    cases hfetch : u.fetch room (of (before ++ earlier)).broker with
    | error fault =>
      rw [hfetch] at hresult
      cases hresult
    | ok out =>
      obtain ⟨records, u', b'⟩ := out
      rw [hfetch] at hresult
      obtain rfl : [] = records := Except.ok.inj hresult
      exact Session.nothing_left_of_fetch hfetch hroom
        ((enrolled (before ++ earlier)).nodup_sync hu hfetch) hnonneg htp

/-- A session has joined, and three records wait for it in two partitions. -/
def stocked : List Request :=
  [.createTopic "orders" ⟨2, 1, ∅⟩, .openSession "reader" "reader" .default,
    .ask "reader" (.subscribe ["orders"]), .produce ⟨"orders", 0⟩ ⟨none, some [1], 0, []⟩,
    .produce ⟨"orders", 0⟩ ⟨none, some [2], 0, []⟩,
    .produce ⟨"orders", 1⟩ ⟨none, some [3], 0, []⟩]

/-- The session has read all of them. -/
def drained : List Request := stocked ++ [.ask "reader" (.fetch 2), .ask "reader" (.fetch 2)]

/-- Another record comes after twenty milliseconds. -/
def late : List (Nat × Request) := [(20, .produce ⟨"orders", 0⟩ ⟨none, some [4], 0, []⟩)]

/-- A fetch returns two of the three records, which is as many as fit. A poll for ten
milliseconds that begins when all are read returns none, since the next one is too late. -/
theorem takes_all_that_fits_stocked :
    (∃ s records s' b', (of stocked).sessions.get? "reader" = some s ∧
      s.fetch 2 (of stocked).broker = .ok (records, s', b') ∧ records.length = 2 ∧
      InRuns records) ∧
    ∃ report earlier later u,
      (of drained).poll "reader" 10 2 (late.map doing) =
        some (report, of (drained ++ (earlier ++ .ask "reader" (.fetch 2) :: later))) ∧
      report.result.toOption = some [] ∧
      (of (drained ++ earlier)).sessions.get? "reader" = some u ∧
      ((u.sync (of (drained ++ earlier)).broker).FromZero →
        ∀ tp ∈ (u.sync (of (drained ++ earlier)).broker).assigned,
          undelivered (of (drained ++ earlier)).broker
            (u.sync (of (drained ++ earlier)).broker).positions tp = 0) := by
  constructor
  · obtain ⟨s, hs, hready⟩ := Option.map_eq_some_iff.mp
      (show ((of stocked).sessions.get? "reader").map (fun s =>
        (s.subscribed, decide (s.sync (of stocked).broker).FromZero,
          (s.sync (of stocked).broker).backlog (of stocked).broker)) = some (true, true, 3) by
        decide +kernel)
    obtain ⟨hjoined, hnonneg, hbacklog⟩ := by simpa using hready
    obtain ⟨records, s', b', hfetch, hlength, hruns, -⟩ :=
      (takes_all_that_fits stocked hs 2).1 hjoined (by decide +kernel) hnonneg
    rw [hbacklog] at hlength
    exact ⟨s, records, s', b', hs, hfetch, hlength, hruns⟩
  · obtain ⟨s, hs⟩ : ∃ s, (of drained).sessions.get? "reader" = some s :=
      Option.isSome_iff_exists.mp (by decide +kernel)
    have hnothing : ((of drained).poll "reader" 10 2 (late.map doing)).map
        (·.1.result.toOption) = some (some []) := by decide +kernel
    obtain ⟨report, earlier, later, u, hpoll, -, hu, -, hread⟩ :=
      (takes_all_that_fits drained hs 2).2 10 late (by decide)
    rw [hpoll] at hnothing
    have hresult : report.result.toOption = some [] := Option.some.inj hnothing
    refine ⟨report, earlier, later, u, hpoll, hresult, hu, hread ?_ (by decide)⟩
    cases hreport : report.result with
    | ok records =>
      rw [hreport] at hresult
      exact congrArg Except.ok (Option.some.inj hresult)
    | error fault =>
      rw [hreport] at hresult
      cases hresult

end Stand

end StreamDispatch
