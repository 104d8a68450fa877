import StreamDispatch.Proofs.Lifecycle.Listing
import StreamDispatch.Proofs.System.Gone

/-!
# What an engine has taken

An engine lists registrations in the order in which they were submitted. A registration that
is submitted again goes to the end of the list, since the one before is cleared away. To say
so, each listener is given the time at which it was taken: the number of the event that
submitted it (`StreamDispatch.History.TakenAt`).

What is not listed any more is over. So of all workers that were started since an engine was
new, each belongs to one of its listeners or has a final phase.

## Main statements

* `StreamDispatch.History.inSubmissionOrder`: listeners are listed as they were submitted.
* `StreamDispatch.History.listed_or_terminal`: workers are listed or have a final phase.
-/

namespace StreamDispatch

namespace History

variable {D H : Type}

/-! ### Order -/

/-- **A listener was taken at a certain time**: a registration of its name was submitted then,
and the listener became the last one on the list. -/
structure TakenAt (events : List (Event D H)) (l : Listener) (time : Nat) : Prop where
  submitted : ∃ r : Registration D H, events[time]? = some (.submit r) ∧ r.name = l.name
  listed : ∃ e, (of (events.take (time + 1))).system.engine = some e ∧
    e.listeners.getLast? = some l

/-- It is taken before the present. -/
theorem TakenAt.lt {events : List (Event D H)} {l : Listener} {time : Nat}
    (h : TakenAt events l time) : time < events.length := by
  obtain ⟨r, hr, -⟩ := h.submitted
  exact (List.getElem?_eq_some_iff.mp hr).1

/-- What happens later does not change when it was taken. -/
theorem TakenAt.concat {events : List (Event D H)} {l : Listener} {time : Nat}
    (h : TakenAt events l time) (ev : Event D H) : TakenAt (events ++ [ev]) l time where
  submitted := by
    rw [List.getElem?_append_left h.lt]
    exact h.submitted
  listed := by
    rw [List.take_append_of_le_length (Nat.succ_le_of_lt h.lt)]
    exact h.listed

/-- **Listeners in the order in which they were taken.** -/
def InSubmissionOrder (events : List (Event D H)) (listeners : List Listener) : Prop :=
  ∃ taken : List (Listener × Nat), taken.map (·.1) = listeners ∧
    (taken.map (·.2)).Pairwise (· < ·) ∧ ∀ p ∈ taken, TakenAt events p.1 p.2

namespace InSubmissionOrder

variable {events : List (Event D H)} {listeners kept : List Listener}

theorem concat (h : InSubmissionOrder events listeners) (ev : Event D H) :
    InSubmissionOrder (events ++ [ev]) listeners := by
  obtain ⟨taken, hmap, horder, htaken⟩ := h
  exact ⟨taken, hmap, horder, fun p hp => (htaken p hp).concat ev⟩

/-- Clearing away listeners keeps the others in order. -/
theorem sublist (h : InSubmissionOrder events listeners) (hsub : kept.Sublist listeners) :
    InSubmissionOrder events kept := by
  obtain ⟨taken, rfl, horder, htaken⟩ := h
  obtain ⟨taken', hsub', rfl⟩ := List.sublist_map_iff.mp hsub
  exact ⟨taken', rfl, horder.sublist (hsub'.map _), fun p hp => htaken p (hsub'.subset hp)⟩

/-- A listener that is taken now comes last. -/
theorem append (h : InSubmissionOrder events listeners) {ev : Event D H} {l : Listener}
    (htakes : TakenAt (events ++ [ev]) l events.length) :
    InSubmissionOrder (events ++ [ev]) (listeners ++ [l]) := by
  obtain ⟨taken, rfl, horder, htaken⟩ := h
  refine ⟨taken ++ [(l, events.length)], List.map_append, ?_, fun p hp => ?_⟩
  · rw [List.map_append, List.pairwise_append]
    refine ⟨horder, List.pairwise_singleton _ _, fun time htime now hnow => ?_⟩
    obtain ⟨p, hp, rfl⟩ := List.mem_map.mp htime
    rw [List.mem_singleton.mp hnow]
    exact (htaken p hp).lt
  · rcases List.mem_append.mp hp with hp | hp
    · exact (htaken p hp).concat ev
    · rw [List.mem_singleton.mp hp]
      exact htakes

end InSubmissionOrder

/-- **Listeners are listed in the order in which they were submitted.** -/
theorem inSubmissionOrder (events : List (Event D H)) {e : Engine}
    (he : (of events).system.engine = some e) : InSubmissionOrder events e.listeners := by
  induction events using List.reverseRecOn generalizing e with
  | nil =>
    cases he
    exact ⟨[], rfl, .nil, fun p hp => absurd hp List.not_mem_nil⟩
  | append_singleton events ev ih =>
    rw [system_concat] at he
    cases System.relists (sound events).settled ev with
    | renewed hfresh _ =>
      rw [hfresh e he]
      exact ⟨[], rfl, .nil, fun p hp => absurd hp List.not_mem_nil⟩
    | same hbefore hafter hlisteners _ =>
      obtain rfl := Option.some.inj (hafter.symm.trans he)
      rw [hlisteners]
      exact (ih hbefore).concat ev
    | cleared hbefore _ hafter _ =>
      obtain rfl := Option.some.inj (hafter.symm.trans he)
      exact ((ih hbefore).sublist List.eraseP_sublist).concat ev
    | @listed e₀ e' r l hev hbefore _ hafter hlisteners hname _ _ _ =>
      have htakes : TakenAt (events ++ [ev]) l events.length := by
        refine ⟨⟨r, ?_, hname.symm⟩, e', ?_, ?_⟩
        · rw [List.getElem?_append_right (Nat.le_refl _), Nat.sub_self, hev]
          rfl
        · rw [List.take_of_length_le (by simp), system_concat]
          exact hafter
        · rw [hlisteners, List.getLast?_concat]
      have hkept : InSubmissionOrder events (e₀.without r.name).listeners :=
        (ih hbefore).sublist List.eraseP_sublist
      obtain rfl := Option.some.inj (hafter.symm.trans he)
      rw [hlisteners]
      exact hkept.append htakes

/-! ### Responsibility -/

/-- **Whoever was started since is listed or has a final phase**, as long as the engine is not
given up. -/
theorem listed_or_terminal {before own : List (Event D H)} {e₀ : Engine}
    (hbefore : (of before).system.engine = some e₀) (hown : ∀ ev ∈ own, ev.replacesEngine = false) :
    ∃ e, (of (before ++ own)).system.engine = some e ∧
      ∀ (place : Nat) (w : Worker), (of before).system.workers.length ≤ place →
        (of (before ++ own)).system.workers[place]? = some w →
        (∃ l ∈ e.listeners, place ∈ l.workers) ∨ w.phase.isTerminal = true := by
  induction own using List.reverseRecOn with
  | nil =>
    rw [List.append_nil]
    refine ⟨e₀, hbefore, fun place w hle hw => ?_⟩
    have hlt := (List.getElem?_eq_some_iff.mp hw).1
    omega
  | append_singleton own ev ih =>
    have hregular := sound (before ++ own)
    have hlisted := listed (before ++ own)
    obtain ⟨e, he, hlisted_or⟩ := ih fun ev hev => hown ev (List.mem_append_left _ hev)
    have hev := hown ev (List.mem_append_right _ (List.mem_singleton.mpr rfl))
    obtain ⟨e', he', hstays⟩ := hlisted.stays hregular.settled hev he
    rw [← List.append_assoc, system_concat]
    refine ⟨e', he', fun place w' hle hw' => ?_⟩
    by_cases hnew : (of (before ++ own)).system.workers.length ≤ place
    · have hlt := (List.getElem?_eq_some_iff.mp hw').1
      exact .inl (System.listed_of_new hregular.settled hev he he' hnew hlt)
    · obtain ⟨w, hw⟩ : ∃ w, (of (before ++ own)).system.workers[place]? = some w :=
        ⟨_, List.getElem?_eq_getElem (by omega)⟩
      obtain ⟨v, hv, hlater⟩ := System.later_apply hregular ev hw
      obtain rfl : v = w' := Option.some.inj (hv.symm.trans hw')
      rcases hlisted_or place w hle hw with ⟨l, hl, hplace⟩ | hphase
      · rcases hstays l hl with hl' | hover
        · exact .inl ⟨l, hl', hplace⟩
        · obtain ⟨u, hu, hphase⟩ := hover place hplace
          obtain rfl : u = w := Option.some.inj (hu.symm.trans hw)
          exact .inr (hlater.isTerminal hphase)
      · exact .inr (hlater.isTerminal hphase)

end History

end StreamDispatch
