import StreamDispatch.Proofs.Worker.Marks

/-!
# The books of a worker

A worker counts at eight places what it receives, resolves, fails at and commits, and there are
five ways out of the loops around them. The counters agree with each other all the same, and with
what the worker was told (`StreamDispatch.Booked`):

* every call of the handler that has come back was timed, and it was accepted or failed;
* every failure was answered by the policy with another attempt, a skipped record or a stop, but
  for the one that the policy is being asked about;
* as long as the worker goes on, every record that it received is processed, skipped or at hand,
  and it has committed as often as its strategy says;
* a worker that has come to its end by itself, without a commit being refused, leaves records
  behind exactly if it *stops short*: the policy told it to stop, or to try a record again when
  it was to stop anyway (`StreamDispatch.StopsShort`).

## Main definitions

* `StreamDispatch.returns`, `StreamDispatch.exceptions`, `StreamDispatch.lastDecision?`,
  `StreamDispatch.StopsShort`: what a worker was told.
* `StreamDispatch.Booked`: the books.

## Main statements

* `StreamDispatch.Booked.step`: every line of the machine keeps the books.
-/

namespace StreamDispatch

/-! ### Reading what was heard -/

namespace Heard

/-- Whether a call of the handler has come back. -/
def isReturn : Heard → Bool
  | .returned _ => true
  | _ => false

/-- Whether a call of the handler has come back and failed. -/
def isException : Heard → Bool
  | .returned result => result.failure?.isSome
  | _ => false

/-- What the policy has decided. -/
def decision? : Heard → Option Decision
  | .decided d _ => some d
  | _ => none

/-- Whether a record was to be tried again, and is not since the worker is to stop. -/
def isInterruption : Heard → Bool
  | .decided (.retry _) stopping => stopping
  | .cutShort => true
  | _ => false

end Heard

/-- How many calls of the handler have come back. -/
def returns (heard : List Heard) : Nat := heard.countP Heard.isReturn

/-- How many calls of the handler have come back and failed. -/
def exceptions (heard : List Heard) : Nat := heard.countP Heard.isException

/-- The last decision of the policy. -/
def lastDecision? (heard : List Heard) : Option Decision :=
  (heard.filterMap Heard.decision?).getLast?

/-- A worker stops short of a record: the last decision was to stop, or to try the record again,
and this was interrupted. -/
def StopsShort (heard : List Heard) : Prop :=
  lastDecision? heard = some .stop ∨
    (∃ backoff, lastDecision? heard = some (.retry backoff)) ∧
      heard.getLast?.any Heard.isInterruption = true

section Heard

variable (heard : List Heard) (h : Heard)

theorem returns_concat : returns (heard ++ [h]) = returns heard + h.isReturn.toNat := by
  rw [returns, List.countP_append, List.countP_singleton]
  cases h.isReturn <;> rfl

theorem exceptions_concat :
    exceptions (heard ++ [h]) = exceptions heard + h.isException.toNat := by
  rw [exceptions, List.countP_append, List.countP_singleton]
  cases h.isException <;> rfl

theorem lastDecision?_concat :
    lastDecision? (heard ++ [h]) = h.decision?.or (lastDecision? heard) := by
  rw [lastDecision?, List.filterMap_append, List.getLast?_append, lastDecision?]
  cases hd : h.decision? <;> simp [hd]

theorem stopsShort_concat :
    StopsShort (heard ++ [h]) ↔
      h.decision?.or (lastDecision? heard) = some .stop ∨
        (∃ backoff, h.decision?.or (lastDecision? heard) = some (.retry backoff)) ∧
          h.isInterruption = true := by
  rw [StopsShort, lastDecision?_concat, List.getLast?_concat, Option.any_some]

end Heard

/-- Nothing that a worker has heard keeps it from going on. -/
structure GoesOn (heard : List Heard) : Prop where
  unbroken : Heard.brokenOff ∉ heard
  unstopped : ¬StopsShort heard

theorem goesOn_nil : GoesOn [] := ⟨List.not_mem_nil, by simp [StopsShort, lastDecision?]⟩

theorem GoesOn.not_stop {heard : List Heard} (h : GoesOn heard) :
    lastDecision? heard ≠ some .stop := fun hstop => h.unstopped (.inl hstop)

theorem GoesOn.concat {heard : List Heard} (h : GoesOn heard) {x : Heard} (hx : x ≠ .brokenOff)
    (hstop : x.decision? ≠ some .stop) (hgoes : x.isInterruption = false) :
    GoesOn (heard ++ [x]) where
  unbroken hmem := by
    rcases List.mem_append.mp hmem with hmem | hmem
    · exact h.unbroken hmem
    · exact hx (List.mem_singleton.mp hmem).symm
  unstopped := by
    rw [stopsShort_concat, hgoes]
    rintro (hlast | ⟨-, hfalse⟩)
    · rcases Option.or_eq_some_iff.mp hlast with hlast | ⟨-, hlast⟩
      · exact hstop hlast
      · exact h.not_stop hlast
    · cases hfalse

/-! ### The books -/

/-- How many records are at hand of a worker that goes on. -/
def Post.atHand? : Post → Option Nat
  | .polling => some 0
  | .working n _ => some n
  | _ => none

/-- **Calls and failures** are counted as they were heard; `deciding` tells whether the policy is
being asked about one more failure. -/
structure Tallied (m : WorkerMetrics) (deciding : Bool) (heard : List Heard) : Prop where
  returned : m.latency.count = returns heard
  answered : returns heard = m.processed + exceptions heard
  failed : Heard.brokenOff ∉ heard → m.failures =
    m.retries + m.skipped + deciding.toNat + (decide (lastDecision? heard = some .stop)).toNat

/-- How many commits there are to be while so many records are at hand. -/
def CommitStrategy.HasCommitted : CommitStrategy → WorkerMetrics → Nat → Prop
  | .afterRecord, m, _ => m.commits = m.processed + m.skipped
  | .afterBatch, m, n => m.batches = m.commits + if n = 0 then 0 else 1
  | .auto, m, _ => m.commits = 0

/-- **Records and commits** of a worker that goes on, with so many records at hand. -/
structure Ongoing (strategy : CommitStrategy) (m : WorkerMetrics) (atHand : Nat)
    (heard : List Heard) : Prop where
  received : m.received = m.processed + m.skipped + atHand
  committed : strategy.HasCommitted m atHand
  goesOn : GoesOn heard

/-- **The books of a worker**: its counters, where it is, what it has heard, and whether all of
its commits were accepted. -/
structure Booked (strategy : CommitStrategy) (m : WorkerMetrics) (post : Post)
    (heard : List Heard) (accepted : Prop) : Prop extends Tallied m post.isDeciding heard where
  ongoing : ∀ n, post.atHand? = some n → Ongoing strategy m n heard
  /-- Whoever waits has been told to try again. -/
  waiting : ∀ n, post = .working n .waiting →
    ∃ backoff, lastDecision? heard = some (.retry backoff)
  left : post = .leaving → accepted → m.processed + m.skipped ≤ m.received ∧
    (m.processed + m.skipped < m.received ↔ StopsShort heard)

theorem booked_new (strategy : CommitStrategy) (accepted : Prop) :
    Booked strategy .empty .polling [] accepted where
  returned := rfl
  answered := rfl
  failed _ := rfl
  ongoing n hn := by
    cases hn
    exact ⟨rfl, by cases strategy <;> rfl, goesOn_nil⟩
  waiting _ := nofun
  left := nofun

variable {strategy : CommitStrategy} {m : WorkerMetrics} {post : Post} {heard : List Heard}
  {accepted accepted' : Prop} {marks : List Mark} {n : Nat}

theorem Booked.mono (h : Booked strategy m post heard accepted)
    (haccepted : accepted' → accepted) : Booked strategy m post heard accepted' :=
  { h with left := fun hpost h' => h.left hpost (haccepted h') }

/-- How many commits there were matters to neither calls nor failures. -/
theorem Tallied.commits {deciding : Bool} (h : Tallied m deciding heard) (commits : Nat) :
    Tallied { m with commits := commits } deciding heard := ⟨h.returned, h.answered, h.failed⟩

/-! ### Calls and failures -/

namespace Tallied

theorem attemptFailed (h : Tallied m false heard) : Tallied m.attemptFailed true heard where
  returned := h.returned
  answered := h.answered
  failed hbroken := by
    have hfailed := h.failed hbroken
    simp only [Bool.toNat_false, Bool.toNat_true] at hfailed ⊢
    show m.failures + 1 = m.retries + m.skipped + 1 + _
    omega

/-- A call has come back, and the worker knows how it came out. -/
theorem called (h : Tallied m false heard) (millis : Float) (result : HandlerResult)
    (m' : WorkerMetrics) (hlatency : m'.latency = m.latency.push millis)
    (hprocessed : m'.processed = m.processed + (!result.failure?.isSome).toNat)
    (hfailures : m'.failures = m.failures) (hretries : m'.retries = m.retries)
    (hskipped : m'.skipped = m.skipped) : Tallied m' false (heard ++ [.returned result]) where
  returned := by
    rw [hlatency, RunningStats.count_push, h.returned, returns_concat]
    rfl
  answered := by
    rw [returns_concat, exceptions_concat, hprocessed, h.answered, Heard.isReturn,
      Heard.isException]
    cases result.failure?.isSome with
    | false => exact Nat.add_right_comm _ _ _
    | true => exact Nat.add_assoc _ _ _
  failed hbroken := by
    have hlast : lastDecision? (heard ++ [.returned result]) = lastDecision? heard :=
      lastDecision?_concat heard _
    rw [hfailures, hretries, hskipped, hlast]
    exact h.failed fun hmem => hbroken (List.mem_append_left _ hmem)

/-- The policy has decided, and the decision is counted or it is to stop. -/
theorem decided (h : Tallied m true heard) (hgoing : lastDecision? heard ≠ some .stop)
    (d : Decision) (stopping : Bool) (m' : WorkerMetrics) (hlatency : m'.latency = m.latency)
    (hprocessed : m'.processed = m.processed) (hfailures : m'.failures = m.failures)
    (hcounted : m'.retries + m'.skipped + (decide (d = .stop)).toNat = m.retries + m.skipped + 1) :
    Tallied m' false (heard ++ [.decided d stopping]) where
  returned := by
    rw [hlatency, h.returned, returns_concat]
    rfl
  answered := by
    rw [returns_concat, exceptions_concat, hprocessed, h.answered]
    rfl
  failed hbroken := by
    have hfailed := h.failed fun hmem => hbroken (List.mem_append_left _ hmem)
    have hlast : lastDecision? (heard ++ [.decided d stopping]) = some d :=
      lastDecision?_concat heard _
    rw [decide_eq_false hgoing] at hfailed
    simp only [hlast, Option.some.injEq, Bool.toNat_false, Bool.toNat_true] at hfailed ⊢
    omega

/-- The policy wants another attempt. -/
theorem retried (h : Tallied m true heard) (hgoing : lastDecision? heard ≠ some .stop)
    (backoff : Span) (stopping : Bool) :
    Tallied m.retryDecided false (heard ++ [.decided (.retry backoff) stopping]) := by
  refine h.decided hgoing _ stopping m.retryDecided rfl rfl rfl ?_
  show m.retries + 1 + m.skipped + 0 = m.retries + m.skipped + 1
  omega

/-- Nothing comes of a wait that is cut short. -/
theorem cutShort (h : Tallied m false heard) : Tallied m false (heard ++ [.cutShort]) where
  returned := by
    rw [h.returned, returns_concat]
    rfl
  answered := by
    rw [returns_concat, exceptions_concat, h.answered]
    rfl
  failed hbroken := by
    have hlast : lastDecision? (heard ++ [.cutShort]) = lastDecision? heard :=
      lastDecision?_concat heard _
    rw [hlast]
    exact h.failed fun hmem => hbroken (List.mem_append_left _ hmem)

/-- Of a decoder or a policy that never returns nothing is said. -/
theorem brokenOff {deciding : Bool} (h : Tallied m deciding heard) :
    Tallied m false (heard ++ [.brokenOff]) where
  returned := by
    rw [h.returned, returns_concat]
    rfl
  answered := by
    rw [returns_concat, exceptions_concat, h.answered]
    rfl
  failed hbroken := absurd (List.mem_append_right _ List.mem_cons_self) hbroken

end Tallied

/-! ### One line of the machine -/

/-- A worker that is lost owes nothing but the tally. -/
theorem booked_lost (h : Tallied m false heard) : Booked strategy m .lost heard accepted :=
  { h with
    ongoing := nofun
    waiting := nofun
    left := nofun }

/-- A worker with records at hand. -/
theorem booked_working {trial : Trial}
    (htallied : Tallied m (Post.working n trial).isDeciding heard)
    (hongoing : Ongoing strategy m n heard)
    (hwaiting : trial = .waiting → ∃ backoff, lastDecision? heard = some (.retry backoff)) :
    Booked strategy m (.working n trial) heard accepted :=
  { htallied with
    ongoing := fun k hk => by cases hk; exact hongoing
    waiting := fun k hk => hwaiting (by cases hk; rfl)
    left := nofun }

/-- What the strategy asks for is a matter of resolved records, batches and commits. -/
theorem CommitStrategy.HasCommitted.congr {m' : WorkerMetrics} (h : strategy.HasCommitted m n)
    (hresolved : m'.processed + m'.skipped = m.processed + m.skipped)
    (hcommits : m'.commits = m.commits) (hbatches : m'.batches = m.batches) :
    strategy.HasCommitted m' n := by
  cases strategy with
  | auto => exact hcommits.trans h
  | afterRecord => exact (hcommits.trans h).trans hresolved.symm
  | afterBatch =>
    show m'.batches = m'.commits + _
    rw [hbatches, hcommits]
    exact h

/-- What the strategy asks for once one more record is resolved. -/
theorem CommitStrategy.HasCommitted.resolve {m' : WorkerMetrics} (offsets : Nat)
    (h : strategy.HasCommitted m (n + 1))
    (hresolved : m'.processed + m'.skipped = m.processed + m.skipped + 1)
    (hcommits : m'.commits = m.commits) (hbatches : m'.batches = m.batches) :
    strategy.HasCommitted
      (Mark.countAll (if strategy.commitsWithRest n then [.committed offsets] else []) m') n := by
  cases strategy with
  | auto => exact hcommits.trans h
  | afterRecord =>
    have h : m.commits = m.processed + m.skipped := h
    show m'.commits + 1 = m'.processed + m'.skipped
    omega
  | afterBatch =>
    have h : m.batches = m.commits + 1 := h
    cases n with
    | zero =>
      show m'.batches = m'.commits + 1 + 0
      omega
    | succ n =>
      show m'.batches = m'.commits + 1
      omega

/-- **A record is resolved**, and the worker goes on, or its commit is refused. -/
theorem Booked.of_resolves {m' : WorkerMetrics} (h : Resolves strategy n marks post)
    (hbefore : strategy.HasCommitted m (n + 1))
    (hresolved : m'.processed + m'.skipped = m.processed + m.skipped + 1)
    (hcommits : m'.commits = m.commits) (hbatches : m'.batches = m.batches)
    (htallied : Tallied m' false heard) (hreceived : m'.received = m'.processed + m'.skipped + n)
    (hgoesOn : GoesOn heard)
    (haccepted : accepted → ∀ mark ∈ marks, mark.isRefused = false) :
    Booked strategy (Mark.countAll marks m') post heard accepted := by
  obtain ⟨commits, hcount⟩ := Mark.countAll_of_commits h.commits m'
  rcases h with ⟨offsets⟩ | ⟨offsets, -⟩
  · have hcommitted := hbefore.resolve offsets hresolved hcommits hbatches
    rw [hcount] at hcommitted ⊢
    have hongoing : Ongoing strategy { m' with commits := commits } n heard :=
      ⟨hreceived, hcommitted, hgoesOn⟩
    cases n with
    | zero =>
      exact
        { htallied.commits commits with
          ongoing := fun k hk => by cases hk; exact hongoing
          waiting := nofun
          left := nofun }
    | succ n => exact booked_working (htallied.commits commits) hongoing nofun
  · rw [hcount]
    have hrefused : ¬accepted := fun h => by cases haccepted h _ List.mem_cons_self
    exact
      { htallied.commits commits with
        ongoing := nofun
        waiting := nofun
        left := fun _ h => absurd h hrefused }

/-- **A worker gives up** with records at hand. -/
theorem Booked.of_givesUp (h : GivesUp marks) (htallied : Tallied m false heard)
    (hreceived : m.processed + m.skipped < m.received) (hshort : StopsShort heard) :
    Booked strategy (Mark.countAll marks m) .leaving heard accepted := by
  obtain ⟨commits, hcount⟩ := Mark.countAll_of_commits h.commits m
  rw [hcount]
  exact
    { htallied.commits commits with
      ongoing := nofun
      waiting := nofun
      left := fun _ _ => ⟨Nat.le_of_lt hreceived, iff_of_true hreceived hshort⟩ }

/-- **Every line of the machine keeps the books.** -/
theorem Booked.step {post' : Post} {heard? : Option Heard}
    (hb : Booked strategy m post heard accepted) (hn : Notes strategy post heard? marks post')
    (haccepted : accepted' → accepted ∧ ∀ mark ∈ marks, mark.isRefused = false) :
    Booked strategy (Mark.countAll marks m) post' (heard ++ heard?.toList) accepted' := by
  cases hn with
  | quiet _ hlife =>
    rw [Mark.countAll_of_life hlife, Option.toList_none, List.append_nil]
    exact hb.mono fun h => (haccepted h).1
  | batch rest =>
    obtain ⟨hreceived, hcommitted, hgoesOn⟩ := hb.ongoing 0 rfl
    rw [Option.toList_none, List.append_nil]
    refine booked_working ⟨hb.returned, hb.answered, hb.failed⟩ ⟨?_, ?_, hgoesOn⟩ nofun
    · show m.received + (rest + 1) = m.processed + m.skipped + (rest + 1)
      omega
    · cases strategy with
      | auto => exact hcommitted
      | afterRecord => exact hcommitted
      | afterBatch => exact congrArg (· + 1) hcommitted
  | undecodable n =>
    obtain ⟨hreceived, hcommitted, hgoesOn⟩ := hb.ongoing n rfl
    rw [Option.toList_none, List.append_nil]
    exact booked_working hb.toTallied.attemptFailed
      ⟨hreceived, hcommitted.congr rfl rfl rfl, hgoesOn⟩ nofun
  | callFails n millis hfailure =>
    obtain ⟨hreceived, hcommitted, hgoesOn⟩ := hb.ongoing n rfl
    have hcalled := hb.toTallied.called millis _ (m.observe millis) rfl
      (by rw [hfailure]; rfl) rfl rfl rfl
    exact booked_working hcalled.attemptFailed
      ⟨hreceived, hcommitted.congr rfl rfl rfl, hgoesOn.concat nofun nofun rfl⟩ nofun
  | @accepts rest millis topic marks _ hresolves =>
    have hongoing := hb.ongoing (rest + 1) rfl
    have hreceived := hongoing.received
    have hcalled := hb.toTallied.called millis .accepted
      (m.observe millis).recordProcessed rfl rfl rfl rfl rfl
    rw [Mark.countAll_cons, Mark.countAll_cons]
    refine .of_resolves hresolves hongoing.committed ?_ rfl rfl hcalled ?_
      (hongoing.goesOn.concat nofun nofun rfl) fun h mark hmem => (haccepted h).2 mark ?_
    · exact Nat.add_right_comm _ _ _
    · show m.received = m.processed + 1 + m.skipped + rest
      omega
    · exact List.mem_cons_of_mem _ (List.mem_cons_of_mem _ hmem)
  | @skips rest topic stopping marks _ hresolves =>
    have hongoing := hb.ongoing (rest + 1) rfl
    have hreceived := hongoing.received
    have hdecided := hb.toTallied.decided hongoing.goesOn.not_stop .proceed stopping
      m.recordSkipped rfl rfl rfl rfl
    rw [Mark.countAll_cons]
    refine .of_resolves hresolves hongoing.committed rfl rfl rfl hdecided ?_
      (hongoing.goesOn.concat nofun nofun rfl)
      fun h mark hmem => (haccepted h).2 mark (List.mem_cons_of_mem _ hmem)
    show m.received = m.processed + (m.skipped + 1) + rest
    omega
  | stops rest topic stopping hgivesUp =>
    have hongoing := hb.ongoing (rest + 1) rfl
    have hreceived := hongoing.received
    have hdecided := hb.toTallied.decided hongoing.goesOn.not_stop .stop stopping m rfl rfl rfl rfl
    rw [Mark.countAll_cons]
    refine .of_givesUp hgivesUp hdecided ?_ ((stopsShort_concat _ _).mpr (.inl rfl))
    show m.processed + m.skipped < m.received
    omega
  | retries n backoff =>
    obtain ⟨hreceived, hcommitted, hgoesOn⟩ := hb.ongoing n rfl
    exact booked_working (hb.toTallied.retried hgoesOn.not_stop backoff false)
      ⟨hreceived, hcommitted.congr rfl rfl rfl, hgoesOn.concat nofun nofun rfl⟩
      fun _ => ⟨backoff, lastDecision?_concat heard _⟩
  | interrupted rest backoff hgivesUp =>
    have hongoing := hb.ongoing (rest + 1) rfl
    have hreceived := hongoing.received
    have hretried := hb.toTallied.retried hongoing.goesOn.not_stop backoff true
    rw [Mark.countAll_cons]
    refine .of_givesUp hgivesUp hretried ?_
      ((stopsShort_concat _ _).mpr (.inr ⟨⟨backoff, rfl⟩, rfl⟩))
    show m.processed + m.skipped < m.received
    omega
  | again n =>
    rw [Option.toList_none, List.append_nil]
    exact booked_working hb.toTallied (hb.ongoing n rfl) nofun
  | cutShort rest hgivesUp =>
    have hreceived := (hb.ongoing (rest + 1) rfl).received
    obtain ⟨backoff, hretry⟩ := hb.waiting (rest + 1) rfl
    refine .of_givesUp hgivesUp hb.toTallied.cutShort ?_
      ((stopsShort_concat _ _).mpr (.inr ⟨⟨backoff, hretry⟩, rfl⟩))
    omega
  | stopsPolling =>
    obtain ⟨hreceived, -, hgoesOn⟩ := hb.ongoing 0 rfl
    rw [Option.toList_none, List.append_nil]
    exact
      { hb.toTallied with
        ongoing := nofun
        waiting := nofun
        left := fun _ _ => ⟨Nat.le_of_eq hreceived.symm,
          iff_of_false (Nat.not_lt_of_le (Nat.le_of_eq hreceived)) hgoesOn.unstopped⟩ }
  | breaksOff n trial hlife =>
    rw [Mark.countAll_of_life hlife]
    exact booked_lost hb.toTallied.brokenOff
  | cutOff hpost hlife =>
    have htallied := hb.toTallied
    rw [hpost] at htallied
    rw [Mark.countAll_of_life hlife, Option.toList_none, List.append_nil]
    exact booked_lost htallied

end StreamDispatch
