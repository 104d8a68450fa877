import StreamDispatch.Proofs.Stand.Alike

/-!
# Groups are isolated

Groups share one broker, its topics, its log of commits and the counter that numbers the
members, and still no group can tell whether others are there. If all requests by sessions of
other groups are left out, then every request that remains is answered as it was, and the
group's progress, its members, what each of its sessions holds, and its part of the log of
commits are as they were (`StreamDispatch.Stand.isolated`).

The two runs are compared step by step. They are alike to the group at the beginning, a request
that is left out leaves them alike, and so does one that is not
(`StreamDispatch.Stand.Alike.run`). Only the numbers of the members differ, and they keep their
order, which is all that a dealing looks at. The times of records may differ as well, for they
are read off a clock.

## Main statements

* `StreamDispatch.Stand.isolated`: without the requests of other groups nothing changes for a
  group.
-/

namespace StreamDispatch

namespace Stand

variable {groupOf : String → String} {name : String} {ν : ℕ ↪o ℕ} {st st' : Stand}

/-- **All requests at one stand, and at the other one those that concern the group.** The
requests that are made at both are answered the same, and the stands are alike in the end. -/
theorem Alike.run (h : st.Alike groupOf name ν st') (hst : st.Enrolled)
    (hgrouped : st'.Grouped groupOf) {requests alone : List Request}
    (hkeeps : ∀ request ∈ requests, request.Keeps groupOf)
    (halone : alone.map Request.undated =
      (requests.filter fun request => request.concerns groupOf name).map Request.undated) :
    ((st.transcript alone).map fun entry => entry.2.undated) =
        ((st'.transcript requests).filter fun entry => entry.1.concerns groupOf name).map
          (fun entry => entry.2.undated) ∧
      ∃ ν', (alone.foldl Stand.apply st).Alike groupOf name ν'
        (requests.foldl Stand.apply st') := by
  induction requests generalizing st st' ν alone with
  | nil =>
    obtain rfl := List.map_eq_nil_iff.mp halone
    exact ⟨rfl, ν, h⟩
  | cons request rest ih =>
    have hrest : ∀ request ∈ rest, request.Keeps groupOf := fun r hr =>
      hkeeps r (List.mem_cons_of_mem _ hr)
    have hgrouped' := hgrouped.apply (hkeeps request List.mem_cons_self)
    cases hconcerns : request.concerns groupOf name with
    | false =>
      -- The request is made at the second stand only.
      have hother : ¬request.concerns groupOf name = true := ne_true_of_eq_false hconcerns
      rw [List.filter_cons_of_neg hother] at halone
      obtain ⟨ν', hafter⟩ := h.aside hst hgrouped hconcerns
      rw [transcript, List.filter_cons, if_neg hother]
      exact ih hafter hst hgrouped' hrest halone
    | true =>
      rw [List.filter_cons_of_pos hconcerns, List.map_cons] at halone
      obtain ⟨request', alone', rfl, hsame, halone'⟩ := List.map_eq_cons_iff.mp halone
      obtain ⟨hafter, hanswer⟩ := h.apply hgrouped hsame hconcerns
      obtain ⟨hanswers, hend⟩ := ih hafter (hst.apply request') hgrouped' hrest halone'
      rw [transcript, transcript, List.filter_cons, if_pos hconcerns, List.map_cons,
        List.map_cons, hanswers, hanswer]
      exact ⟨rfl, hend⟩

/-- **No group can tell whether others are there.** Let each label stand for sessions of one
group, and take any requests and, of these, those that are not made by sessions of other groups,
at whatever times. Then the requests that remain are answered the same, apart from the times of
records, and in the end the group has the same progress, the same number of members, the same
partitions in each of its sessions, and the same commits in the log. -/
theorem isolated (groupOf : String → String) (name : String) {requests alone : List Request}
    (hkeeps : ∀ request ∈ requests, request.Keeps groupOf)
    (halone : alone.map Request.undated =
      (requests.filter fun request => request.concerns groupOf name).map Request.undated) :
    ((empty.transcript alone).map fun entry => entry.2.undated) =
        ((empty.transcript requests).filter fun entry => entry.1.concerns groupOf name).map
          (fun entry => entry.2.undated) ∧
      ((of alone).broker.group name).committed = ((of requests).broker.group name).committed ∧
      (of alone).broker.memberCount name = (of requests).broker.memberCount name ∧
      (∀ label, groupOf label = name →
        ((of alone).sessions.get? label).map Session.assigned =
          ((of requests).sessions.get? label).map Session.assigned) ∧
      (of alone).broker.entriesOf name = (of requests).broker.entriesOf name := by
  obtain ⟨hanswers, ν, hend⟩ :=
    (Alike.empty groupOf name).run enrolled_empty (grouped_empty groupOf) hkeeps halone
  refine ⟨hanswers, hend.broker.committed.symm, hend.broker.memberCount.symm,
    fun label hlabel => ?_, hend.broker.entries.symm⟩
  rw [of, of, hend.sessions label hlabel, Option.map_map]
  rfl

/-! ### Two groups -/

/-- The session `ours` is in one group, and all others are in another one. -/
def teamOf (label : String) : String := if label = "ours" then "us" else "them"

/-- A session of another group is there first, and both groups read one topic. -/
def twoTeams : List Request :=
  [.createTopic "orders" ⟨2, 1, ∅⟩,
    .openSession "theirs" "theirs" ⟨"them", "theirs", .afterBatch, ∅⟩,
    .ask "theirs" (.subscribe ["orders"]),
    .openSession "ours" "ours" ⟨"us", "ours", .afterBatch, ∅⟩,
    .ask "ours" (.subscribe ["orders"]),
    .produce ⟨"orders", 1⟩ ⟨none, none, 5, []⟩,
    .ask "theirs" (.fetch 10),
    .ask "theirs" (.commit [⟨⟨"orders", 1⟩, 1⟩] .sync),
    .ask "ours" (.fetch 10),
    .ask "ours" (.commit [⟨⟨"orders", 0⟩, 0⟩] .sync)]

/-- The same without the other group, some time later. -/
def oneTeam : List Request :=
  [.createTopic "orders" ⟨2, 1, ∅⟩,
    .openSession "ours" "ours" ⟨"us", "ours", .afterBatch, ∅⟩,
    .ask "ours" (.subscribe ["orders"]),
    .produce ⟨"orders", 1⟩ ⟨none, none, 7, []⟩,
    .ask "ours" (.fetch 10),
    .ask "ours" (.commit [⟨⟨"orders", 0⟩, 0⟩] .sync)]

/-- The session has another number without the other group, and that is all: it is answered the
same, and its group is where it was. -/
theorem isolated_twoTeams :
    ((of oneTeam).sessions.get? "ours").map Session.member = some 0 ∧
      ((of twoTeams).sessions.get? "ours").map Session.member = some 1 ∧
      ((empty.transcript oneTeam).map fun entry => entry.2.undated) =
        ((empty.transcript twoTeams).filter fun entry => entry.1.concerns teamOf "us").map
          (fun entry => entry.2.undated) ∧
      ((of oneTeam).broker.group "us").committed = ((of twoTeams).broker.group "us").committed ∧
      ((of oneTeam).sessions.get? "ours").map Session.assigned =
        ((of twoTeams).sessions.get? "ours").map Session.assigned := by
  have hkeeps : ∀ request ∈ twoTeams, request.Keeps teamOf := by
    simp [twoTeams, Request.Keeps, teamOf]
  obtain ⟨hanswers, hcommitted, -, hassigned, -⟩ := isolated teamOf "us" hkeeps
    (show oneTeam.map Request.undated = _ from rfl)
  exact ⟨by decide +kernel, by decide +kernel, hanswers, hcommitted, hassigned "ours" rfl⟩

end Stand

end StreamDispatch
