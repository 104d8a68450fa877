import StreamDispatch.Proofs.Stand.Membership

/-!
# What a session keeps

A session keeps three collections: its partitions, its positions in them, and the offsets that are
stored for the next commit. Taking over an assignment and leaving change all three together. The
other operations change one and leave the others as they are: a fetch moves positions, storing adds
offsets, and publishing takes them away. Meanwhile the group's assignment changes whenever others
join or leave and whenever topics are created, and the session learns of it only with its next
fetch.

What is to be shown is that the three collections agree after all of this
(`StreamDispatch.Session.Consistent`). That positions and stored offsets fit the partitions is a
matter of each operation alone, at whatever broker (`StreamDispatch.SessionRequest.tidy_apply`).
That each partition is there once is not: it holds because what a session takes over is a share of a
current dealing, in which nothing is dealt twice.

## Main statements

* `StreamDispatch.Session.Regroups.once`: whatever a session does, it has each partition once.
* `StreamDispatch.Stand.consistent`: what a session keeps agrees, whatever was asked for.
-/

namespace StreamDispatch

namespace Session

variable {s s' : Session} {b b' : Broker}

/-- **What a session keeps agrees**: it has a position in each of its partitions and in no other,
each partition is there once, offsets are stored in its partitions only, and whoever is not in the
group has nothing. -/
structure Consistent (s : Session) : Prop where
  positions : ∀ tp, (∃ p, s.positions.get? tp = some p) ↔ tp ∈ s.assigned
  once : s.assigned.Nodup
  stored : ∀ tp c, s.stored.get? tp = some c → tp ∈ s.assigned
  away : s.subscribed = false → s.assigned = [] ∧ s.positions = ∅ ∧ s.stored = ∅

/-- Without partitions there are neither positions nor stored offsets. -/
theorem Tidy.eq_empty (h : s.Tidy) (hnone : s.assigned = []) :
    s.positions = ∅ ∧ s.stored = ∅ := by
  constructor <;> refine Dict.ext_get? fun tp => Option.eq_none_iff_forall_ne_some.mpr fun v hv => ?_
  · have hmem := (h.positions tp).mpr ⟨v, hv⟩
    rw [hnone] at hmem
    cases hmem
  · have hmem := h.stored tp v hv
    rw [hnone] at hmem
    cases hmem

theorem Tidy.consistent (h : s.Tidy) (honce : s.assigned.Nodup)
    (haway : s.subscribed = false → s.assigned = []) : s.Consistent where
  positions tp := (h.positions tp).symm
  once := honce
  stored := h.stored
  away hout := ⟨haway hout, h.eq_empty (haway hout)⟩

/-- **Each partition is there once** after whatever a session does, since it keeps what it had, has
nothing, or takes over its share of a current dealing. -/
theorem Regroups.once (h : s.Regroups b s' b') (hcurrent : b.Current)
    (honce : s.assigned.Nodup) : s'.assigned.Nodup := by
  rcases h with ⟨-, -, ⟨-, hkept⟩ | ⟨-, -, hshare⟩⟩ | ⟨topics, rfl, -⟩ | ⟨-, -, hnone, -, -, -, -⟩
  · rwa [hkept]
  · rw [hshare]
    exact Group.share_nodup (hcurrent s.group) s.member
  · exact honce
  · rw [hnone]
    exact .nil

end Session

namespace Stand

variable {st : Stand} {label : String} {s' : Session}

/-- **Where a session comes from**: it was there before and did nothing, it did what was asked of
it, or it was created. -/
theorem origin_cases {request : Request}
    (hs' : (st.apply request).sessions.get? label = some s') :
    st.sessions.get? label = some s' ∨
      (∃ s own, st.sessions.get? label = some s ∧ s' = (SessionRequest.apply own s st.broker).1) ∨
        ∃ b config client b', Session.create b config client = .ok (s', b') := by
  by_cases hlabel : request.label? = some label
  swap
  · rw [session_apply st hlabel] at hs'
    exact .inl hs'
  rcases request with _ | _ | _ | _ | _ | ⟨other, client, config⟩ | ⟨other, own⟩ | other <;>
    cases hlabel
  · rw [apply] at hs'
    rcases openSession_cases st label client config with heq | ⟨s, b, hcreate, heq⟩
    · rw [heq] at hs'
      exact .inl hs'
    · rw [heq, session_put, if_pos rfl] at hs'
      cases hs'
      exact .inr (.inr ⟨_, _, _, _, hcreate⟩)
  · rcases hs : st.sessions.get? label with _ | s
    · rw [apply_ask_of_none hs, hs] at hs'
      cases hs'
    · rw [apply_ask hs, session_put, if_pos rfl] at hs'
      cases hs'
      exact .inr (.inl ⟨s, own, rfl, rfl⟩)
  · rw [apply, session_drop, if_pos rfl] at hs'
    cases hs'

/-- Each session has each of its partitions once. -/
theorem assigned_nodup (requests : List Request) :
    ∀ label s, (of requests).sessions.get? label = some s → s.assigned.Nodup := by
  induction requests using List.reverseRecOn with
  | nil => exact nofun
  | append_singleton requests request ih =>
    intro label s' hs'
    rw [of_concat] at hs'
    rcases origin_cases hs' with hs | ⟨s, own, hs, rfl⟩ | ⟨b, config, client, b', hcreate⟩
    · exact ih label s' hs
    · have henrolled := enrolled requests
      exact (own.regroups (henrolled.attached label s hs)).once henrolled.current (ih label s hs)
    · obtain ⟨rfl, -⟩ := Session.create_ok hcreate
      exact .nil

/-- **What a session keeps agrees, whatever was asked for**: of the session itself, of others in its
group, and of the broker. -/
theorem consistent (requests : List Request) :
    ∀ label s, (of requests).sessions.get? label = some s → s.Consistent := by
  intro label s hs
  have hattached := (enrolled requests).attached label s hs
  exact hattached.tidy.consistent (assigned_nodup requests label s hs) hattached.away

end Stand

end StreamDispatch
