import StreamDispatch.Proofs.Delivery.Faithful
import StreamDispatch.Proofs.Session.Collected

/-!
# No partition is starved

A fetch begins with another partition each time, and the one that it begins with gets a record
if there is one. So a partition that waits for its turn is at the front after fewer fetches than
there are partitions, and a record of it is handed out then, if not before. Other partitions
may fill all batches until then.

The number of fetches that come first (`StreamDispatch.Stand.Waits`, `turns`) goes down by one
with each fetch, also with one that finds nothing, and with nothing else. Where the session was
in the round of its former partitions does not matter: the place is taken modulo the number of
the present ones, and whatever it is, every partition is ahead of it by less than a round
(`StreamDispatch.Stand.exists_turns`).

## Main definitions

* `StreamDispatch.Stand.fetches`, `StreamDispatch.Stand.fetchCount`: the fetches of a session.
* `StreamDispatch.Stand.Waits`: a record waits until it is its partition's turn.

## Main statements

* `StreamDispatch.Session.turn_of_fetch`: what a fetch does for a partition.
* `StreamDispatch.Stand.Waits.apply`: a record that waits is handed out, or goes on waiting.
* `StreamDispatch.Stand.not_starved`: as many fetches as there are partitions are enough.
-/

namespace StreamDispatch

variable {room : Nat} {tps : List TopicPartition} {tp : TopicPartition} {position : Int}

/-- **What a fetch does for a partition** in which a record waits: it hands out the record, or
leaves the position where it is; and the latter only if it is another partition's turn. -/
theorem Session.turn_of_fetch {b b' : Broker} {s s' : Session} {records : List RawRecord}
    {log : List StoredRecord} (h : s.fetch room b = .ok (records, s', b')) (hroom : 1 ≤ room)
    (htps : s'.assigned = tps) (htp : tp ∈ tps)
    (hposition : (s.sync b).positions.get? tp = some position) (hnonneg : 0 ≤ position)
    (hlog : b.log? tp = some log) (hmore : position < log.length) :
    (∃ r ∈ records, r.topicPartition = tp ∧ r.offset = position) ∨
      s'.positions.get? tp = some position ∧ s'.nextStart = (s.nextStart + 1) % tps.length ∧
        tps[s.nextStart % tps.length]? ≠ some tp := by
  obtain ⟨-, hassigned, hplace⟩ := fetch_collects h
  obtain ⟨positions, nextStart, hs', -, hreads⟩ := fetch_ok h
  obtain ⟨n, hafter, hoffsets⟩ := hreads.run tp position hposition
  have hsame : (s.sync b).assigned = tps := hassigned.symm.trans htps
  cases n with
  | zero =>
    have hfetched : s'.positions.get? tp = some position := by
      rw [hs']
      simpa using hafter
    have hnext : s'.nextStart = (s.nextStart + 1) % tps.length := by
      rw [hplace, hsame, if_neg (by simpa using List.ne_nil_of_mem htp)]
    by_cases hturn : tps[s.nextStart % tps.length]? = some tp
    · exact .inl (first_of_fetch h hroom (hsame ▸ hturn) hposition hnonneg hlog hmore)
    · exact .inr ⟨hfetched, hnext, hturn⟩
  | succ n =>
    have hfirst : position ∈ offsetsIn tp records := by
      rw [hoffsets, offsetsFrom_succ]
      exact List.mem_cons_self
    obtain ⟨r, hr, hoffset⟩ := List.mem_map.mp hfirst
    obtain ⟨hr, htp⟩ := List.mem_filter.mp hr
    exact .inl ⟨r, hr, of_decide_eq_true htp, hoffset⟩

namespace Stand

variable {st : Stand} {label : String} {s : Session}

/-! ### Fetches -/

/-- Whether a request is a fetch by the session of a label, and not refused. -/
def fetches (st : Stand) (label : String) : Request → Bool
  | .ask asked (.fetch room) => asked = label && (st.fetched? label room).isSome
  | _ => false

/-- How many fetches by the session of a label are among some requests. -/
def fetchCount (label : String) : Stand → List Request → Nat
  | _, [] => 0
  | st, request :: rest =>
    (st.fetches label request).toNat + fetchCount label (st.apply request) rest

theorem fetches_fetch {s' : Session} {b' : Broker} {records : List RawRecord}
    (hs : st.sessions.get? label = some s)
    (hfetch : s.fetch room st.broker = .ok (records, s', b')) :
    st.fetches label (.ask label (.fetch room)) = true := by
  rw [fetches, fetched?_eq_some.mpr ⟨s, s', b', hs, hfetch⟩, decide_eq_true rfl]
  rfl

theorem returned_fetch {s' : Session} {b' : Broker} {records : List RawRecord}
    (hs : st.sessions.get? label = some s)
    (hfetch : s.fetch room st.broker = .ok (records, s', b')) :
    st.returned label (.ask label (.fetch room)) = records := by
  rw [returned, if_pos rfl, fetched?_eq_some.mpr ⟨s, s', b', hs, hfetch⟩, Option.getD_some]

/-- **A session that has partitions after a request** has made a fetch, or it still has the same
partitions and is where it was. -/
theorem session_cases (hs : st.sessions.get? label = some s) (request : Request) {s' : Session}
    (hs' : (st.apply request).sessions.get? label = some s') (hheld : s'.assigned ≠ []) :
    (∃ room records b', request = .ask label (.fetch room) ∧
      s.fetch room st.broker = .ok (records, s', b')) ∨
    st.fetches label request = false ∧ s'.assigned = s.assigned ∧ s'.positions = s.positions ∧
      s'.nextStart = s.nextStart := by
  by_cases hlabel : request.label? = some label
  swap
  · rw [session_apply st hlabel, hs] at hs'
    obtain rfl := Option.some.inj hs'
    refine .inr ⟨?_, rfl, rfl, rfl⟩
    cases request with
    | ask other asked =>
      have hother : other ≠ label := fun heq => hlabel (congrArg some heq)
      cases asked with
      | fetch room => rw [fetches, decide_eq_false hother, Bool.false_and]
      | _ => rfl
    | _ => rfl
  cases request with
  | openSession other client config =>
    obtain rfl : other = label := Option.some.inj hlabel
    rcases openSession_cases st other client config with heq | ⟨u, b, hcreate, heq⟩
    · rw [Stand.apply, heq, hs] at hs'
      obtain rfl := Option.some.inj hs'
      exact .inr ⟨rfl, rfl, rfl, rfl⟩
    · -- A new session has no partitions yet.
      rw [Stand.apply, heq, session_put, if_pos rfl] at hs'
      obtain rfl := Option.some.inj hs'
      obtain ⟨rfl, -⟩ := Session.create_ok hcreate
      exact absurd rfl hheld
  | drop other =>
    obtain rfl : other = label := Option.some.inj hlabel
    rw [Stand.apply, session_drop, if_pos rfl] at hs'
    cases hs'
  | ask other asked =>
    obtain rfl : other = label := Option.some.inj hlabel
    rw [apply_ask hs, session_put, if_pos rfl] at hs'
    obtain rfl := Option.some.inj hs'
    cases asked with
    | subscribe topics => exact .inr ⟨rfl, rfl, rfl, rfl⟩
    | fetch room =>
      cases hfetch : s.fetch room st.broker with
      | ok out =>
        obtain ⟨records, u, b'⟩ := out
        refine .inl ⟨room, records, b', rfl, ?_⟩
        rw [SessionRequest.apply, hfetch]
      | error fault =>
        have hstill : (SessionRequest.apply (.fetch room) s st.broker).1 = s := by
          rw [SessionRequest.apply, hfetch]
        rw [hstill, fetches, fetched?, hs, Option.bind_some, hfetch]
        exact .inr ⟨Bool.and_false _, rfl, rfl, rfl⟩
    | commit offsets mode =>
      have hstill : (SessionRequest.apply (.commit offsets mode) s st.broker).1 = s := by
        rw [SessionRequest.apply]
        split <;> rfl
      rw [hstill]
      exact .inr ⟨rfl, rfl, rfl, rfl⟩
    | store offsets =>
      obtain ⟨stored, heq, -⟩ := s.store_eq offsets
      rw [SessionRequest.apply, heq]
      exact .inr ⟨rfl, rfl, rfl, rfl⟩
    | close =>
      rcases s.leave_cases st.broker with ⟨-, heq⟩ | ⟨-, -, hassigned, -, -⟩
      · rw [SessionRequest.apply, heq]
        exact .inr ⟨rfl, rfl, rfl, rfl⟩
      · rw [SessionRequest.apply] at hheld
        exact absurd hassigned hheld
  | _ => cases hlabel

/-! ### Waiting for a turn -/

/-- A record waits in a partition of a session that has some partitions, and after as many
fetches it is the partition's turn. -/
structure Waits (st : Stand) (label : String) (tps : List TopicPartition) (tp : TopicPartition)
    (position : Int) (turns : Nat) : Prop where
  session : ∃ s, st.sessions.get? label = some s ∧ s.assigned = tps ∧
    s.positions.get? tp = some position ∧
    tps[(s.nextStart + turns) % tps.length]? = some tp
  log : ∃ log, st.broker.log? tp = some log ∧ position < log.length

/-- Whatever the place in the round is, each partition is ahead of it by less than a round. -/
theorem exists_turns (h : tp ∈ tps) (start : Nat) :
    ∃ turns < tps.length, tps[(start + turns) % tps.length]? = some tp := by
  obtain ⟨i, hi, htp⟩ := List.getElem_of_mem h
  have hpos : 0 < tps.length := Nat.zero_lt_of_lt hi
  have hstart : start % tps.length < tps.length := Nat.mod_lt start hpos
  have hround : start % tps.length + (i + tps.length - start % tps.length) = i + tps.length := by
    omega
  refine ⟨(i + tps.length - start % tps.length) % tps.length, Nat.mod_lt _ hpos, ?_⟩
  rw [Nat.add_mod_mod, Nat.add_mod, Nat.add_mod_mod, hround, Nat.add_mod_right,
    Nat.mod_eq_of_lt hi, List.getElem?_eq_getElem hi, htp]

/-- What is in a log stays there. -/
theorem log_of_apply {log : List StoredRecord} (h : st.broker.log? tp = some log)
    (hmore : position < log.length) (request : Request) :
    ∃ log', (st.apply request).broker.log? tp = some log' ∧ position < log'.length := by
  rcases log?_apply st request tp with heq | ⟨hnone, -⟩ | ⟨log', record, b', -, hlog', -, heq⟩
  · exact ⟨log, heq.trans h, hmore⟩
  · cases hnone.symm.trans h
  · obtain rfl := Option.some.inj (h.symm.trans hlog')
    refine ⟨log ++ [record], heq, ?_⟩
    rw [List.length_append]
    omega

/-- **A fetch** hands out a record that waits, or it was not yet its partition's turn. -/
theorem waits_of_fetch {s' : Session} {b' : Broker} {records : List RawRecord}
    {log : List StoredRecord} {turns : Nat} (hs : st.sessions.get? label = some s)
    (hfetch : s.fetch room st.broker = .ok (records, s', b')) (hroom : 1 ≤ room)
    (htps : s'.assigned = tps) (htp : tp ∈ tps)
    (hposition : (s.sync st.broker).positions.get? tp = some position) (hnonneg : 0 ≤ position)
    (hlog : st.broker.log? tp = some log) (hmore : position < log.length)
    (hturn : tps[(s.nextStart + turns) % tps.length]? = some tp) :
    (∃ r ∈ records, r.topicPartition = tp ∧ r.offset = position) ∨
      ∃ left, turns = 1 + left ∧
        (st.apply (.ask label (.fetch room))).Waits label tps tp position left := by
  obtain hrecord | ⟨hafter, hplace, hother⟩ :=
    Session.turn_of_fetch hfetch hroom htps htp hposition hnonneg hlog hmore
  · exact .inl hrecord
  · cases turns with
    | zero => exact absurd hturn hother
    | succ left =>
      have hs' : (st.apply (.ask label (.fetch room))).sessions.get? label = some s' := by
        rw [apply_fetch hs hfetch, session_put, if_pos rfl]
      refine .inr ⟨left, Nat.add_comm left 1, ⟨s', hs', htps, hafter, ?_⟩,
        log_of_apply hlog hmore _⟩
      rw [hplace, Nat.mod_add_mod, Nat.add_assoc, Nat.add_comm 1]
      exact hturn

/-- **A record that waits** is handed out by a request, or goes on waiting; and after each fetch
for one turn less. -/
theorem Waits.apply {turns : Nat} (h : st.Waits label tps tp position turns)
    (henrolled : st.Enrolled) (htp : tp ∈ tps) (hnonneg : 0 ≤ position) (request : Request)
    (hroom : ∀ room, request = .ask label (.fetch room) → 1 ≤ room)
    (hkept : ∃ s', (st.apply request).sessions.get? label = some s' ∧ s'.assigned = tps) :
    (∃ r ∈ st.returned label request, r.topicPartition = tp ∧ r.offset = position) ∨
      ∃ left, turns = (st.fetches label request).toNat + left ∧
        (st.apply request).Waits label tps tp position left := by
  obtain ⟨s, hs, hassigned, hposition, hturn⟩ := h.session
  obtain ⟨log, hlog, hmore⟩ := h.log
  obtain ⟨s', hs', htps⟩ := hkept
  obtain ⟨room, records, b', rfl, hfetch⟩ | ⟨hfetches, hsame, hpositions, hplace⟩ :=
    session_cases hs request hs' (htps ▸ List.ne_nil_of_mem htp)
  · -- The partition is kept, and so is the position in it.
    have hsync : (s.sync st.broker).positions.get? tp = some position := by
      rw [Session.positions_sync (henrolled.attached label s hs).tidy,
        ← (Session.fetch_collects hfetch).2.1, htps, if_pos htp, hposition, Option.getD_some]
    rw [returned_fetch hs hfetch, fetches_fetch hs hfetch]
    exact waits_of_fetch hs hfetch (hroom room rfl) htps htp hsync hnonneg hlog hmore hturn
  · refine .inr ⟨turns, ?_, ⟨s', hs', htps, hpositions ▸ hposition, hplace ▸ hturn⟩,
      log_of_apply hlog hmore request⟩
    rw [hfetches]
    exact (Nat.zero_add turns).symm

/-- **Once there are more fetches than turns**, the record is handed out. -/
theorem Waits.run {requests more : List Request} {turns : Nat}
    (h : (of requests).Waits label tps tp position turns) (htp : tp ∈ tps)
    (hnonneg : 0 ≤ position) (hrooms : ∀ room, .ask label (.fetch room) ∈ more → 1 ≤ room)
    (hkept : ∀ part, part <+: more →
      ∃ s, (of (requests ++ part)).sessions.get? label = some s ∧ s.assigned = tps)
    (hcount : turns < fetchCount label (of requests) more) :
    ∃ r ∈ handed label (of requests) more, r.topicPartition = tp ∧ r.offset = position := by
  induction more generalizing requests turns with
  | nil => exact absurd hcount (Nat.not_lt_zero _)
  | cons request rest ih =>
    have hfirst := hkept [request] ⟨rest, rfl⟩
    rw [of_concat] at hfirst
    rw [handed]
    obtain ⟨r, hr, hrecord⟩ | ⟨left, rfl, hwaits⟩ :=
      h.apply (enrolled requests) htp hnonneg request
        (fun room heq => hrooms room (heq ▸ List.mem_cons_self)) hfirst
    · exact ⟨r, List.mem_append_left _ hr, hrecord⟩
    · rw [fetchCount] at hcount
      rw [← of_concat] at hwaits hcount ⊢
      obtain ⟨r, hr, hrecord⟩ := ih hwaits
        (fun room hroom => hrooms room (List.mem_cons_of_mem _ hroom))
        (fun part hpart => by
          rw [List.append_assoc]
          exact hkept _ (List.cons_prefix_cons.mpr ⟨rfl, hpart⟩))
        (by omega)
      exact ⟨r, List.mem_append_right _ hr, hrecord⟩

/-- **No partition is starved.** The session of a label has some partitions from a fetch on, and
through further requests, by itself and by others. Each of its fetches has room for a record, and
not counting those that are refused there are as many of them as there are partitions.

Then it is handed a record of each of these partitions in which one was left to be delivered at
the first fetch, namely the next one in line. This is so whatever its place in the round was,
and whatever comes in addition meanwhile. -/
theorem not_starved (before more : List Request)
    (hs : (of before).sessions.get? label = some s)
    (hrooms : ∀ size, .ask label (.fetch size) ∈ Request.ask label (.fetch room) :: more → 1 ≤ size)
    (hkept : ∀ part, part <+: more →
      ∃ u, (of (before ++ .ask label (.fetch room) :: part)).sessions.get? label = some u ∧
        u.assigned = tps)
    (hcount : tps.length ≤ fetchCount label (of before) (.ask label (.fetch room) :: more))
    (htp : tp ∈ tps)
    (hposition : (s.sync (of before).broker).positions.get? tp = some position)
    (hnonneg : 0 ≤ position)
    (hwaiting : undelivered (of before).broker (s.sync (of before).broker).positions tp ≠ 0) :
    ∃ r ∈ handed label (of before) (.ask label (.fetch room) :: more),
      r.topicPartition = tp ∧ r.offset = position := by
  obtain ⟨log, hlog, hmore⟩ := log_of_undelivered hposition hnonneg hwaiting
  obtain ⟨turns, hturns, hturn⟩ := exists_turns htp s.nextStart
  obtain ⟨s', hs', htps⟩ := hkept [] List.nil_prefix
  rw [of_concat] at hs'
  obtain ⟨room', records, b', heq, hfetch⟩ | ⟨hfetches, hsame, hpositions, hplace⟩ :=
    session_cases hs _ hs' (htps ▸ List.ne_nil_of_mem htp)
  · cases heq
    rw [fetchCount, fetches_fetch hs hfetch, Bool.toNat_true] at hcount
    rw [handed, returned_fetch hs hfetch]
    obtain ⟨r, hr, hrecord⟩ | ⟨left, rfl, hwaits⟩ :=
      waits_of_fetch hs hfetch (hrooms room List.mem_cons_self) htps htp hposition hnonneg hlog
        hmore hturn
    · exact ⟨r, List.mem_append_left _ hr, hrecord⟩
    · rw [← of_concat] at hwaits hcount ⊢
      obtain ⟨r, hr, hrecord⟩ := hwaits.run htp hnonneg
        (fun size hsize => hrooms size (List.mem_cons_of_mem _ hsize))
        (fun part hpart => by
          rw [List.append_assoc]
          exact hkept part hpart)
        (by omega)
      exact ⟨r, List.mem_append_right _ hr, hrecord⟩
  · -- The fetch was refused, and the session had the partitions before.
    have hassigned : s.assigned = tps := hsame.symm.trans htps
    have hsync := Session.positions_sync ((enrolled before).attached label s hs).tidy
      (of before).broker tp
    obtain ⟨p, hp⟩ :=
      (((enrolled before).attached label s hs).tidy.positions tp).mp (hassigned ▸ htp)
    rw [hposition, hp, Option.getD_some] at hsync
    split at hsync
    next =>
      obtain rfl := Option.some.inj hsync
      refine Waits.run ⟨⟨s, hs, hassigned, hp, hturn⟩, log, hlog, hmore⟩ htp hnonneg hrooms
        (fun part hpart => ?_) (Nat.lt_of_lt_of_le hturns hcount)
      rcases List.prefix_cons_iff.mp hpart with rfl | ⟨part', rfl, hpart'⟩
      · exact ⟨s, by rw [List.append_nil, hs], hassigned⟩
      · exact hkept part' hpart'
    next => cases hsync

/-- A session has gone round three partitions for a while, when another one takes one of them.
There are many records in the first partition that is left to it, and one in the second. -/
def crowded : List Request :=
  [.createTopic "orders" ⟨3, 1, ∅⟩, .openSession "reader" "reader" .default,
    .ask "reader" (.subscribe ["orders"]), .ask "reader" (.fetch 1), .ask "reader" (.fetch 1),
    .openSession "other" "other" .default, .ask "other" (.subscribe ["orders"]),
    .produce ⟨"orders", 0⟩ ⟨none, some [1], 0, []⟩, .produce ⟨"orders", 0⟩ ⟨none, some [2], 0, []⟩,
    .produce ⟨"orders", 2⟩ ⟨none, some [3], 0, []⟩]

/-- More records come into the first partition, and the session fetches again. -/
def crowding : List Request :=
  [.produce ⟨"orders", 0⟩ ⟨none, some [4], 0, []⟩, .ask "reader" (.fetch 1)]

/-- With two fetches of one record the session is handed the one in the second partition. -/
theorem not_starved_crowded :
    fetchCount "reader" (of crowded) (.ask "reader" (.fetch 1) :: crowding) = 2 ∧
    ∃ r ∈ handed "reader" (of crowded) (.ask "reader" (.fetch 1) :: crowding),
      r.topicPartition = ⟨"orders", 2⟩ ∧ r.offset = 0 := by
  have hcount : fetchCount "reader" (of crowded) (.ask "reader" (.fetch 1) :: crowding) = 2 := by
    decide +kernel
  obtain ⟨s, hs, hplace⟩ := Option.map_eq_some_iff.mp
    (show ((of crowded).sessions.get? "reader").map (fun s =>
      ((s.sync (of crowded).broker).positions.get? ⟨"orders", 2⟩,
        undelivered (of crowded).broker (s.sync (of crowded).broker).positions ⟨"orders", 2⟩)) =
        some (some 0, 1) by decide +kernel)
  obtain ⟨hposition, hwaiting⟩ := Prod.mk.inj hplace
  have hkept : ∀ part, part <+: crowding →
      ∃ u, (of (crowded ++ .ask "reader" (.fetch 1) :: part)).sessions.get? "reader" = some u ∧
        u.assigned = [⟨"orders", 0⟩, ⟨"orders", 2⟩] := by
    have hparts : ∀ part ∈ crowding.inits,
        ((of (crowded ++ .ask "reader" (.fetch 1) :: part)).sessions.get? "reader").map
          (·.assigned) = some [⟨"orders", 0⟩, ⟨"orders", 2⟩] := by
      decide +kernel
    exact fun part hpart =>
      Option.map_eq_some_iff.mp (hparts part (List.mem_inits _ _ |>.mpr hpart))
  refine ⟨hcount, not_starved crowded crowding hs (fun size hsize => ?_) hkept
    (Nat.le_of_eq hcount.symm) (by decide) hposition (Int.le_refl 0) (by rw [hwaiting]; decide)⟩
  simp only [crowding, List.mem_cons, Request.ask.injEq, SessionRequest.fetch.injEq, true_and,
    reduceCtorEq, List.not_mem_nil, or_false, false_or] at hsize
  omega

end Stand

end StreamDispatch
