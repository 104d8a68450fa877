import StreamDispatch.Proofs.Delivery.Polls
import StreamDispatch.Proofs.Stand.Writes

/-!
# The log of commits explains the progress

The broker keeps two records of what was committed: the *progress* of each group, which is the
offset of each partition, and one *log* of commits, in which the entries of all groups follow one
another. They are not written at the same places.

| what goes on | progress of the group | log |
|---|---|---|
| a commit is asked for and accepted | each partition is where the list has it last | every entry, in order |
| a session that commits by itself fetches, leaves, or is dropped | what it has stored | nothing |
| anything else | nothing | nothing |

The second row is the one to be careful about. A session publishes in the middle of other things,
so whether it stays silent has to be seen for each of them; that is done once, for all sessions
(`StreamDispatch.Session.WritesStored`). A session that does not commit by itself stores offsets
like any other, but nobody ever looks at them. So in a group without sessions of the other kind
only the first row is left, and then the log and the progress go together: each partition is where
its last entry in the log has it (`StreamDispatch.Stand.progress_explained`).

## Main definitions

* `StreamDispatch.Broker.lastLogged?`: the last entry for a partition of a group.
* `StreamDispatch.Stand.Commits`: a request is a commit that is accepted.
* `StreamDispatch.Stand.Explicit`: no session of a group commits by itself.

## Main statements

* `StreamDispatch.Stand.writesStored_apply`: what is written without a commit.
* `StreamDispatch.Broker.Explained.apply`: a request leaves the progress explained.
-/

namespace StreamDispatch

namespace Broker

variable {name : String} {b b' b'' : Broker}

/-! ### The last entry for a partition -/

/-- The last entry in the log for a partition of a group. -/
def lastLogged? (b : Broker) (name : String) (tp : TopicPartition) : Option CommitEntry :=
  ((b.entriesOf name).filter fun entry => entry.offset.partition = tp).getLast?

theorem lastLogged?_eq_none_iff {tp : TopicPartition} :
    b.lastLogged? name tp = none ↔
      ∀ entry ∈ b.commitLog, entry.group = name → entry.offset.partition ≠ tp := by
  rw [lastLogged?, List.getLast?_eq_none_iff, entriesOf, List.filter_filter,
    List.filter_eq_nil_iff]
  simp only [Bool.and_eq_true, decide_eq_true_eq, not_and']

/-- **The log explains the progress of a group**: each partition is where its last entry has it,
and without an entry it is nowhere. -/
def Explained (b : Broker) (name : String) : Prop :=
  ∀ tp, b.committed name tp = (b.lastLogged? name tp).map fun entry => entry.offset.offset

theorem explained_empty (name : String) : empty.Explained name := fun _ => rfl

/-- The last entry for a partition is what the offsets of the group's entries come to there. -/
theorem offset_lastLogged? (b : Broker) (name : String) (tp : TopicPartition) :
    ((b.lastLogged? name tp).map fun entry => entry.offset.offset) =
      lastOffset? ((b.entriesOf name).map (·.offset)) tp := by
  rw [lastOffset?, List.filter_map, List.getLast?_map, Option.map_map]
  rfl

/-- **Offsets that are written into the log** count at each partition that they have an entry
for, and at the others the entries before them. -/
theorem offset_lastLogged?_append {client : String} {mode : CommitMode}
    {offsets : List CommitOffset}
    (h : b'.commitLog = b.commitLog ++ offsets.map fun o => ⟨name, client, o, mode⟩)
    (tp : TopicPartition) :
    ((b'.lastLogged? name tp).map fun entry => entry.offset.offset) =
      (lastOffset? offsets tp).or
        ((b.lastLogged? name tp).map fun entry => entry.offset.offset) := by
  have hown :
      (offsets.map fun o => CommitEntry.mk name client o mode).map (·.offset) = offsets := by
    rw [List.map_map]
    exact List.map_id offsets
  rw [offset_lastLogged?, offset_lastLogged?, entriesOf_logged h, List.map_append,
    lastOffset?_append, hown]

/-! ### Nothing is committed -/

/-- Neither the log nor the progress of any group is written. -/
structure Unwritten (b b' : Broker) : Prop where
  commitLog : b'.commitLog = b.commitLog
  committed : ∀ name tp, b'.committed name tp = b.committed name tp

theorem Unwritten.refl (b : Broker) : b.Unwritten b := ⟨rfl, fun _ _ => rfl⟩

/-- **Nothing is committed for a group**: it has the same progress, and the same entries in the
log. -/
structure SameProgress (name : String) (b b' : Broker) : Prop where
  committed : ∀ tp, b'.committed name tp = b.committed name tp
  entries : b'.entriesOf name = b.entriesOf name

theorem SameProgress.refl (name : String) (b : Broker) : SameProgress name b b :=
  ⟨fun _ => rfl, rfl⟩

theorem SameProgress.trans (h : SameProgress name b b') (h' : SameProgress name b' b'') :
    SameProgress name b b'' :=
  ⟨fun tp => (h'.committed tp).trans (h.committed tp), h'.entries.trans h.entries⟩

/-- What is done for another group. -/
theorem SameBut.sameProgress {other : String} (h : SameBut other b b') (hne : name ≠ other) :
    SameProgress name b b' :=
  ⟨h.committed hne, h.entries name hne⟩

theorem Explained.of_sameProgress (h : b.Explained name) (hsame : SameProgress name b b') :
    b'.Explained name := by
  intro tp
  rw [hsame.committed, h tp, lastLogged?, lastLogged?, hsame.entries]

end Broker

/-! ### What a session writes by itself -/

namespace Session

variable {s s' : Session} {b b' : Broker}

/-- **A session writes nothing but what it has stored**: nothing into the log, and into the
progress of its group at most offsets that it has stored, if it commits by itself. -/
structure WritesStored (s : Session) (b b' : Broker) : Prop where
  commitLog : b'.commitLog = b.commitLog
  committed : ∀ name tp, b'.committed name tp = b.committed name tp ∨
    s.group = name ∧ s.autoCommit = true ∧
      ∃ c, s.stored.get? tp = some c ∧ b'.committed name tp = some c

theorem WritesStored.refl (s : Session) (b : Broker) : s.WritesStored b b :=
  ⟨rfl, fun _ _ => .inl rfl⟩

/-- Only the group of the session matters, since it writes in no other. -/
theorem WritesStored.of_group (hlog : b'.commitLog = b.commitLog)
    (hbut : Broker.SameBut s.group b b')
    (hgroup : ∀ tp, b'.committed s.group tp = b.committed s.group tp ∨
      s.autoCommit = true ∧
        ∃ c, s.stored.get? tp = some c ∧ b'.committed s.group tp = some c) :
    s.WritesStored b b' where
  commitLog := hlog
  committed name tp := by
    by_cases hname : s.group = name
    · subst hname
      exact (hgroup tp).imp_right fun h => ⟨rfl, h⟩
    · exact .inl (hbut.committed (Ne.symm hname) tp)

/-- It is enough to look at a later state of the session, in which nothing more is stored. -/
theorem WritesStored.of_same (h : s'.WritesStored b b') (hsame : s.Same s')
    (hstored : ∀ tp c, s'.stored.get? tp = some c → s.stored.get? tp = some c) :
    s.WritesStored b b' where
  commitLog := h.commitLog
  committed name tp := by
    rcases h.committed name tp with heq | ⟨hgroup, hauto, c, hc, hafter⟩
    · exact .inl heq
    · exact .inr ⟨hsame.group ▸ hgroup, hsame.autoCommit ▸ hauto, c, hstored tp c hc, hafter⟩

theorem commitLog_publish (s : Session) (b : Broker) :
    (s.publish b).2.commitLog = b.commitLog := by
  rw [publish, commitStored]
  split
  · split <;> rfl
  · rfl

theorem writesStored_publish (s : Session) (b : Broker) :
    s.WritesStored b (s.publish b).2 := by
  refine .of_group (commitLog_publish s b) (sameBut_publish s b) fun tp => ?_
  cases hauto : s.autoCommit with
  | false =>
    refine .inl ?_
    rw [publish, hauto]
    rfl
  | true => exact (committed_publish s b tp).imp_right fun h => ⟨rfl, h⟩

/-- Taking over an assignment adds no stored offset. -/
theorem stored_of_sync {tp : TopicPartition} {c : Int}
    (h : (s.sync b).stored.get? tp = some c) : s.stored.get? tp = some c := by
  rcases sync_cases s b with heq | ⟨g, -, -, -, hstored⟩
  · rwa [heq] at h
  · rw [hstored, Dict.get?_filter_keys, Option.ite_none_right_eq_some] at h
    exact h.2

theorem writesStored_fetch {room : Nat} {records : List RawRecord}
    (h : s.fetch room b = .ok (records, s', b')) : s.WritesStored b b' := by
  obtain ⟨_, _, -, rfl, -⟩ := fetch_ok h
  exact (writesStored_publish (s.sync b) b).of_same (same_sync s b) fun _ _ => stored_of_sync

theorem commitLog_leave (s : Session) (b : Broker) : (s.leave b).2.commitLog = b.commitLog := by
  rw [leave]
  split
  · rfl
  · rw [← commitLog_publish s b]
    dsimp only
    split <;> rfl

theorem writesStored_leave (s : Session) (b : Broker) : s.WritesStored b (s.leave b).2 := by
  refine .of_group (commitLog_leave s b) (sameBut_leave s b) fun tp => ?_
  rw [committed_leave]
  split
  · rcases (writesStored_publish s b).committed s.group tp with heq | ⟨-, hwritten⟩
    · exact .inl heq
    · exact .inr hwritten
  · exact .inl rfl

end Session

/-- **Whatever a session is asked for**, unless it is a commit that is accepted. -/
theorem SessionRequest.writesStored_apply {own : SessionRequest} {s : Session} {b : Broker}
    (h : ∀ offsets mode, own = .commit offsets mode → own.answer s b ≠ .done) :
    s.WritesStored b (own.apply s b).2 := by
  cases own with
  | subscribe topics =>
    exact .of_group rfl (s.sameBut_subscribe topics b) fun tp =>
      .inl (s.committed_subscribe topics b tp)
  | fetch room =>
    rw [apply]
    split
    next hfetch => exact Session.writesStored_fetch hfetch
    next => exact .refl s b
  | commit offsets mode =>
    have hrefused := h offsets mode rfl
    rw [answer] at hrefused
    rw [apply]
    split
    next hcommit =>
      rw [hcommit] at hrefused
      exact absurd rfl hrefused
    next => exact .refl s b
  | store offsets => exact .refl s b
  | close => exact s.writesStored_leave b

/-! ### What is written without a commit -/

theorem Broker.commitLog_createTopic (b : Broker) (topic : String)
    (description : TopicDescription) :
    (b.createTopic topic description).commitLog = b.commitLog := by
  rw [createTopic]
  split <;> rfl

namespace Stand

variable {st : Stand} {label name : String} {s : Session} {request : Request}

/-- **A request is a commit that is accepted**, asked for by a session. -/
def Commits (st : Stand) (request : Request) (s : Session) (offsets : List CommitOffset)
    (mode : CommitMode) : Prop :=
  ∃ label, request = .ask label (.commit offsets mode) ∧ st.sessions.get? label = some s ∧
    st.answer request = .done

/-- Who is dropped writes what it has stored. -/
theorem writesStored_drop (st : Stand) (label : String) :
    Broker.Unwritten st.broker (st.drop label).2.broker ∨
      ∃ s, st.sessions.get? label = some s ∧
        s.WritesStored st.broker (st.drop label).2.broker := by
  cases hs : st.sessions.get? label with
  | none =>
    rw [drop_of_none hs]
    exact .inl (.refl _)
  | some s =>
    rw [drop_eq hs]
    exact .inr ⟨s, rfl, s.writesStored_leave st.broker⟩

/-- **Without a commit** nothing is written, but for what the session that the request is about
has stored. -/
theorem writesStored_apply (h : ∀ s offsets mode, ¬st.Commits request s offsets mode) :
    Broker.Unwritten st.broker (st.apply request).broker ∨
      ∃ label s, request.label? = some label ∧ st.sessions.get? label = some s ∧
        s.WritesStored st.broker (st.apply request).broker := by
  cases request with
  | wait _ => exact .inl (.refl _)
  | createTopic topic description =>
    exact .inl ⟨st.broker.commitLog_createTopic topic description,
      st.broker.committed_createTopic topic description⟩
  | produce tp record =>
    rw [apply]
    split
    next hproduce =>
      refine .inl ⟨Broker.commitLog_produce hproduce, fun name tp => ?_⟩
      rw [Broker.committed, Broker.group, Broker.groups_produce hproduce]
      rfl
    next => exact .inl (.refl _)
  | describe topic =>
    rw [apply, Broker.describe]
    split <;> exact .inl ⟨rfl, fun _ _ => rfl⟩
  | setFaults _ => exact .inl ⟨rfl, fun _ _ => rfl⟩
  | openSession label client config =>
    rw [apply]
    rcases openSession_cases st label client config with heq | ⟨new, b, hcreate, heq⟩
    · rw [heq]
      exact .inl (.refl _)
    · -- One member more is counted, and whoever had the label leaves.
      obtain ⟨-, rfl⟩ := Session.create_ok hcreate
      rw [heq]
      rcases writesStored_drop
          { st with broker := { st.broker with nextMember := st.broker.nextMember + 1 } } label with
        hnothing | ⟨s, hs, hstored⟩
      · exact .inl ⟨hnothing.commitLog, hnothing.committed⟩
      · exact .inr ⟨label, s, rfl, hs, hstored.commitLog, hstored.committed⟩
  | ask label own =>
    cases hs : st.sessions.get? label with
    | none =>
      rw [apply_ask_of_none hs]
      exact .inl (.refl _)
    | some s =>
      refine .inr ⟨label, s, rfl, hs, ?_⟩
      rw [apply_ask hs]
      refine SessionRequest.writesStored_apply fun offsets mode hown hdone => ?_
      subst hown
      exact h s offsets mode ⟨label, rfl, hs, (answer_ask hs _).trans hdone⟩
  | drop label =>
    rcases writesStored_drop st label with hnothing | ⟨s, hs, hstored⟩
    · exact .inl hnothing
    · exact .inr ⟨label, s, rfl, hs, hstored⟩

theorem commitLog_of_not_commits (h : ∀ s offsets mode, ¬st.Commits request s offsets mode) :
    (st.apply request).broker.commitLog = st.broker.commitLog := by
  rcases writesStored_apply h with hnothing | ⟨_, _, -, -, hstored⟩
  · exact hnothing.commitLog
  · exact hstored.commitLog

/-- **The log is written by commits that are accepted, and by nothing else**, whether or not
sessions commit by themselves. -/
theorem commitLog_apply (st : Stand) (request : Request) :
    (st.apply request).broker.commitLog = st.broker.commitLog ∨
      ∃ s offsets mode, st.Commits request s offsets mode ∧
        (st.apply request).broker.commitLog =
          st.broker.commitLog ++ offsets.map fun o => ⟨s.group, s.client, o, mode⟩ := by
  by_cases hcommits : ∃ s offsets mode, st.Commits request s offsets mode
  · obtain ⟨s, offsets, mode, label, rfl, hs, hdone⟩ := hcommits
    exact .inr ⟨s, offsets, mode, ⟨label, rfl, hs, hdone⟩, (committed_of_done hs hdone).commitLog⟩
  · simp only [not_exists] at hcommits
    exact .inl (commitLog_of_not_commits hcommits)

/-! ### Groups that commit explicitly only -/

/-- No session of a group commits by itself. -/
def Explicit (st : Stand) (name : String) : Prop :=
  ∀ label s, st.sessions.get? label = some s → s.group = name → s.autoCommit = false

instance (st : Stand) (name : String) : Decidable (st.Explicit name) :=
  decidable_of_iff (∀ e ∈ st.sessions.entries, e.2.group = name → e.2.autoCommit = false)
    ⟨fun h label s hs => h (label, s) (st.sessions.mem_entries_iff.mpr hs),
      fun h e he => h e.1 e.2 (st.sessions.mem_entries_iff.mp he)⟩

/-- What is asked of a session does not change how it commits. -/
theorem Explicit.ask (h : st.Explicit name) (label : String) (own : SessionRequest) :
    (st.apply (.ask label own)).Explicit name := by
  cases hs : st.sessions.get? label with
  | none => rwa [apply_ask_of_none hs]
  | some s =>
    intro other s' hs' hgroup
    rw [apply_ask hs, session_put] at hs'
    split at hs'
    · obtain rfl := Option.some.inj hs'
      have hsame := own.same_apply s st.broker
      exact hsame.autoCommit.trans (h label s hs (hsame.group.symm.trans hgroup))
    · exact h other s' hs' hgroup

/-- **A request changes nothing for such a group, unless one of its sessions commits.** -/
theorem Explicit.sameProgress_apply (h : st.Explicit name)
    (hnone : ∀ s offsets mode, s.group = name → ¬st.Commits request s offsets mode) :
    Broker.SameProgress name st.broker (st.apply request).broker := by
  by_cases hcommits : ∃ s offsets mode, st.Commits request s offsets mode
  · -- A session of another group commits.
    obtain ⟨s, offsets, mode, label, rfl, hs, hdone⟩ := hcommits
    refine (committed_of_done hs hdone).others.sameProgress fun hname => ?_
    exact hnone s offsets mode hname.symm ⟨label, rfl, hs, hdone⟩
  · simp only [not_exists] at hcommits
    constructor
    · intro tp
      rcases writesStored_apply hcommits with hnothing | ⟨label, s, -, hs, hstored⟩
      · exact hnothing.committed name tp
      · -- Whoever publishes is not of the group, since nobody in it does.
        rcases hstored.committed name tp with hsame | ⟨hgroup, hauto, -⟩
        · exact hsame
        · exact absurd ((h label s hs hgroup).symm.trans hauto) Bool.false_ne_true
    · rw [Broker.entriesOf, commitLog_of_not_commits hcommits, Broker.entriesOf]

end Stand

/-- **A request leaves the progress explained** in a group that commits explicitly only. -/
theorem Broker.Explained.apply {st : Stand} {name : String} (h : st.broker.Explained name)
    (hexplicit : st.Explicit name) (request : Request) :
    (st.apply request).broker.Explained name := by
  by_cases hcommits : ∃ s offsets mode, s.group = name ∧ st.Commits request s offsets mode
  · obtain ⟨s, offsets, mode, rfl, label, rfl, hs, hdone⟩ := hcommits
    have hafter := Stand.committed_of_done hs hdone
    intro tp
    rw [hafter.committed, offset_lastLogged?_append hafter.commitLog, h tp]
  · simp only [not_exists, not_and] at hcommits
    exact h.of_sameProgress (hexplicit.sameProgress_apply hcommits)

namespace Stand

variable {name : String} {requests : List Request}

/-- **After any requests** the progress is explained. -/
theorem explained_of (hexplicit : ∀ before, before <+: requests → (of before).Explicit name) :
    (of requests).broker.Explained name := by
  induction requests using List.reverseRecOn with
  | nil => exact Broker.explained_empty name
  | append_singleton requests request ih =>
    have hbefore := List.prefix_append requests [request]
    rw [of_concat]
    exact (ih fun before h => hexplicit before (h.trans hbefore)).apply
      (hexplicit requests hbefore) request

/-- A poll while nobody else does anything commits nothing for such a group. -/
theorem Explicit.sameProgress_poll {st : Stand} {label : String} {s : Session}
    (h : st.Explicit name) (hs : st.sessions.get? label = some s) (timeout room : Nat) :
    ∃ (report : PollReport Unit) (after : Stand),
      st.poll label timeout room [] = some (report, after) ∧
        Broker.SameProgress name st.broker after.broker := by
  have hfetch : ∀ st : Stand, st.Explicit name →
      Broker.SameProgress name st.broker (st.apply (.ask label (.fetch room))).broker := by
    intro st h
    refine h.sameProgress_apply ?_
    rintro s offsets mode - ⟨_, hcommit, -⟩
    cases hcommit
  obtain ⟨requests, ⟨report, hpoll⟩, rfl | ⟨millis, rfl⟩⟩ := poll_alone hs timeout room
  · exact ⟨report, _, hpoll, hfetch st h⟩
  · -- While the poll waits nothing happens, and then it fetches again.
    have hlater : ((st.apply (.ask label (.fetch room))).apply (.wait millis)).Explicit name :=
      h.ask label (.fetch room)
    exact ⟨report, _, hpoll, (hfetch st h).trans (hfetch _ hlater)⟩

/-- **The log of commits explains the progress.** Take any requests, and a group in which no
session ever commits by itself.

* At each partition the group is where its last entry for it in the log has it, and it is nowhere
  exactly if there is no such entry.
* As long as none of its sessions makes a commit that is accepted, the group has the same progress
  and the same entries: whoever joins, leaves, is closed or dropped, however the group is dealt
  out anew, whatever is fetched, stored or refused, and whatever other groups do. So it has after
  a whole poll.
* At any stand, and whether or not a session commits by itself, the log is written by commits that
  are asked for and accepted, and by nothing else. -/
theorem progress_explained
    (hexplicit : ∀ before, before <+: requests → (of before).Explicit name) :
    (∀ tp, (of requests).broker.committed name tp =
        ((of requests).broker.lastLogged? name tp).map fun entry => entry.offset.offset) ∧
    (∀ tp, (of requests).broker.committed name tp = none ↔
      ∀ entry ∈ (of requests).broker.commitLog,
        entry.group = name → entry.offset.partition ≠ tp) ∧
    (∀ before request, before ++ [request] <+: requests →
      (∀ s offsets mode, s.group = name → ¬(of before).Commits request s offsets mode) →
        Broker.SameProgress name (of before).broker (of (before ++ [request])).broker) ∧
    (∀ label timeout room, ((of requests).sessions.get? label).isSome →
      ∃ (report : PollReport Unit) (after : Stand),
        (of requests).poll label timeout room [] = some (report, after) ∧
          Broker.SameProgress name (of requests).broker after.broker) ∧
    ∀ (st : Stand) request, (st.apply request).broker.commitLog = st.broker.commitLog ∨
      ∃ s offsets mode, st.Commits request s offsets mode ∧
        (st.apply request).broker.commitLog =
          st.broker.commitLog ++ offsets.map fun o => ⟨s.group, s.client, o, mode⟩ := by
  have hexplained := explained_of hexplicit
  refine ⟨hexplained, fun tp => ?_, fun before request hprefix hnone => ?_,
    fun label timeout room hsome => ?_, commitLog_apply⟩
  · rw [hexplained tp, Option.map_eq_none_iff, Broker.lastLogged?_eq_none_iff]
  · rw [of_concat]
    have hbefore := (List.prefix_append before [request]).trans hprefix
    exact (hexplicit before hbefore).sameProgress_apply hnone
  · obtain ⟨s, hs⟩ := Option.isSome_iff_exists.mp hsome
    exact (hexplicit requests (List.prefix_refl _)).sameProgress_poll hs timeout room

/-- Two groups read one topic. A session of the one commits by itself, and explicitly as well. The
other one is refused a session of that kind. -/
def bothKinds : List Request :=
  [.createTopic "orders" ⟨2, 1, ∅⟩,
    .openSession "asks" "asks" ⟨"shop", "asks", .afterBatch, ∅⟩,
    .openSession "stores" "stores" ⟨"audit", "stores", .auto, ∅⟩,
    .setFaults ⟨false, false, false, true⟩,
    .openSession "second" "second" ⟨"shop", "second", .auto, ∅⟩,
    .setFaults .none,
    .ask "asks" (.subscribe ["orders"]),
    .ask "stores" (.subscribe ["orders"]),
    .ask "asks" (.fetch 1),
    .ask "stores" (.fetch 1),
    .ask "asks" (.commit [⟨⟨"orders", 0⟩, 1⟩] .sync),
    .ask "stores" (.commit [⟨⟨"orders", 1⟩, 5⟩] .sync),
    .ask "asks" (.commit [⟨⟨"orders", 0⟩, 2⟩] .async),
    .ask "asks" (.store [⟨⟨"orders", 0⟩, 7⟩]),
    .ask "stores" (.store [⟨⟨"orders", 0⟩, 7⟩]),
    .setFaults ⟨false, true, false, false⟩,
    .ask "asks" (.commit [⟨⟨"orders", 0⟩, 9⟩] .sync),
    .ask "asks" .close,
    .drop "stores"]

/-- The log explains where the first group is, which has never published what it stored. It does
not explain where the second one is. -/
theorem progress_explained_bothKinds :
    (∀ before, before <+: bothKinds → (of before).Explicit "shop") ∧
      (of bothKinds).broker.lastLogged? "shop" ⟨"orders", 0⟩ =
        some ⟨"shop", "asks", ⟨⟨"orders", 0⟩, 2⟩, .async⟩ ∧
      (of bothKinds).broker.committed "shop" ⟨"orders", 0⟩ = some 2 ∧
      (of bothKinds).broker.committed "shop" ⟨"orders", 1⟩ = none ∧
      (of bothKinds).broker.lastLogged? "audit" ⟨"orders", 0⟩ = none ∧
      (of bothKinds).broker.committed "audit" ⟨"orders", 0⟩ = some 7 := by
  have hexplicit : ∀ before, before <+: bothKinds → (of before).Explicit "shop" := by
    have hinits : ∀ before ∈ bothKinds.inits, (of before).Explicit "shop" := by decide +kernel
    exact fun before h => hinits before (List.mem_inits _ _ |>.mpr h)
  obtain ⟨hlast, hnone, -⟩ := progress_explained hexplicit
  have hentry : (of bothKinds).broker.lastLogged? "shop" ⟨"orders", 0⟩ =
      some ⟨"shop", "asks", ⟨⟨"orders", 0⟩, 2⟩, .async⟩ := by decide +kernel
  refine ⟨hexplicit, hentry, ?_, (hnone _).mpr ?_, by decide +kernel, by decide +kernel⟩
  · rw [hlast, hentry]
    rfl
  · decide +kernel

end Stand

end StreamDispatch
