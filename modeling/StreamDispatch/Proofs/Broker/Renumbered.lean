import Mathlib.Order.Hom.Basic
import StreamDispatch.Proofs.Broker.Groups

/-!
# Members under other numbers

Members are told apart by the numbers that the broker gives out, and one counter serves all
groups. So what number a member gets depends on who else was there. Nothing else does:
partitions are dealt out to the members in order of their numbers, and for that only the order
counts. If all members of a group get other numbers in the same order, then each of them has
the partitions that it had (`StreamDispatch.Group.assignmentOf_renumber`).

Numbers that keep their order are an order embedding `ν : ℕ ↪o ℕ`. Renumbering commutes with
all that is done to a group.

## Main definitions

* `StreamDispatch.skip`: numbers as before, up to one that is left out.
* `StreamDispatch.Dict.renumber`, `StreamDispatch.Group.renumber`.

## Main statements

* `StreamDispatch.Group.assignmentOf_renumber`: a dealing depends on the numbers of the
  members through their order only.
* `StreamDispatch.Group.rebalance_renumber`: so does a rebalance.
-/

namespace StreamDispatch

/-! ### Numbers -/

/-- Numbers that leave out one: from `m` on each is one higher. -/
def skip (ν : ℕ ↪o ℕ) (m : Nat) : ℕ ↪o ℕ :=
  OrderEmbedding.ofStrictMono (fun k => if k < m then ν k else ν k + 1) fun k k' h => by
    have hlt : ν k < ν k' := ν.strictMono h
    dsimp only
    split <;> split <;> omega

theorem skip_of_lt (ν : ℕ ↪o ℕ) {m k : Nat} (h : k < m) : skip ν m k = ν k := if_pos h

theorem skip_of_le (ν : ℕ ↪o ℕ) {m k : Nat} (h : m ≤ k) : skip ν m k = ν k + 1 :=
  if_neg (Nat.not_lt.mpr h)

/-! ### Dictionaries of members -/

namespace Dict

variable {α : Type} (ν : ℕ ↪o ℕ)

theorem compare_renumber (k k' : Nat) : compare (ν k) (ν k') = compare k k' := by
  rw [← cmp_eq_compare, ← cmp_eq_compare]
  exact ν.strictMono.cmp_map_eq k k'

/-- The same entries under other numbers. -/
def renumber (d : Dict Nat α) : Dict Nat α :=
  ⟨d.entries.map fun e => (ν e.1, e.2), by
    have h := d.sorted
    unfold SortedEntries at h ⊢
    exact List.pairwise_map.mpr (h.imp fun hlt => (compare_renumber ν _ _).trans hlt)⟩

@[simp] theorem keys_renumber (d : Dict Nat α) : (d.renumber ν).keys = d.keys.map ν := by
  simp [keys, renumber]

@[simp] theorem values_renumber (d : Dict Nat α) : (d.renumber ν).values = d.values := by
  simp [values, renumber]

@[simp] theorem size_renumber (d : Dict Nat α) : (d.renumber ν).size = d.size :=
  List.length_map _

@[simp] theorem get?_renumber (d : Dict Nat α) (k : Nat) :
    (d.renumber ν).get? (ν k) = d.get? k := by
  obtain ⟨entries, hsorted⟩ := d
  change lookup (ν k) (entries.map fun e => (ν e.1, e.2)) = lookup k entries
  clear hsorted
  induction entries with
  | nil => rfl
  | cons head rest ih =>
    rw [List.map_cons, lookup, lookup, ih]
    simp only [ν.eq_iff_eq]

@[simp] theorem contains_renumber (d : Dict Nat α) (k : Nat) :
    (d.renumber ν).contains (ν k) = d.contains k := by
  rw [contains, get?_renumber, contains]

@[simp] theorem getD_renumber (d : Dict Nat α) (k : Nat) (fallback : α) :
    (d.renumber ν).getD (ν k) fallback = d.getD k fallback := by
  rw [getD, get?_renumber, getD]

theorem renumber_insert (d : Dict Nat α) (k : Nat) (v : α) :
    (d.insert k v).renumber ν = (d.renumber ν).insert (ν k) v := by
  obtain ⟨entries, hsorted⟩ := d
  simp only [renumber, insert, mk.injEq]
  clear hsorted
  induction entries with
  | nil => rfl
  | cons head rest ih =>
    simp only [List.map_cons, insertEntry, compare_renumber]
    cases compare k head.1 with
    | lt => rfl
    | eq => rfl
    | gt => exact congrArg _ ih

theorem renumber_filter (d : Dict Nat α) {p q : Nat → α → Bool} (h : ∀ k v, q (ν k) v = p k v) :
    (d.filter p).renumber ν = (d.renumber ν).filter q := by
  simp only [renumber, filter, mk.injEq, List.filter_map]
  refine congrArg _ (List.filter_congr fun e _ => ?_)
  exact (h e.1 e.2).symm

theorem renumber_erase (d : Dict Nat α) (k : Nat) :
    (d.erase k).renumber ν = (d.renumber ν).erase (ν k) :=
  renumber_filter ν d fun k' _ => by simp only [ne_eq, ν.eq_iff_eq]

/-- Only the numbers that are in use matter. -/
theorem renumber_congr {ν ν' : ℕ ↪o ℕ} {d : Dict Nat α}
    (h : ∀ k v, d.get? k = some v → ν' k = ν k) : d.renumber ν' = d.renumber ν := by
  simp only [renumber, mk.injEq]
  refine List.map_congr_left fun e he => ?_
  rw [h e.1 e.2 (d.mem_entries_iff.mp he)]

end Dict

/-! ### Groups -/

namespace Group

variable (ν : ℕ ↪o ℕ)

/-- A group with its members under other numbers. -/
def renumber (g : Group) : Group :=
  { g with
    members := g.members.renumber ν
    assignment := g.assignment.renumber ν }

@[simp] theorem generation_renumber (g : Group) : (g.renumber ν).generation = g.generation := rfl

@[simp] theorem committed_renumber (g : Group) : (g.renumber ν).committed = g.committed := rfl

@[simp] theorem members_renumber (g : Group) :
    (g.renumber ν).members = g.members.renumber ν := rfl

theorem reads_renumber (g : Group) (topic : String) :
    (g.renumber ν).reads topic = g.reads topic := by
  rw [reads, members_renumber, Dict.values_renumber, reads]

/-! ### The dealing -/

theorem subscribedTopics_renumber (members : Dict Nat (List String)) :
    subscribedTopics (members.renumber ν) = subscribedTopics members := by
  rw [subscribedTopics, Dict.values_renumber, subscribedTopics]

theorem subscribers_renumber (members : Dict Nat (List String)) (topic : String) :
    subscribers (members.renumber ν) topic = (subscribers members topic).map ν := by
  rw [subscribers, subscribers, ← Dict.keys_renumber, Dict.renumber_filter ν members]
  exact fun _ _ => rfl

/-- What is dealt to the same owners under other numbers. -/
theorem deal_renumber (topic : String) (count : Nat) (owners : List Nat) :
    deal topic count (owners.map ν) =
      (deal topic count owners).map fun share => (ν share.1, share.2) := by
  rw [deal, deal, List.map_filterMap, List.length_map]
  refine List.filterMap_congr fun p _ => ?_
  rw [List.getElem?_map, Option.map_map, Option.map_map]
  rfl

theorem shares_renumber (partitionsOf : String → Option Nat) (members : Dict Nat (List String)) :
    shares partitionsOf (members.renumber ν) =
      (shares partitionsOf members).map fun share => (ν share.1, share.2) := by
  rw [shares, shares, subscribedTopics_renumber, List.map_flatMap]
  refine List.flatMap_congr fun topic _ => ?_
  cases partitionsOf topic with
  | none => rfl
  | some count =>
    simp only [subscribers_renumber]
    exact deal_renumber ν topic count _

theorem foldl_addShare_renumber (shares : List (Nat × TopicPartition))
    (assignment : Dict Nat (List TopicPartition)) :
    (shares.map fun share => (ν share.1, share.2)).foldl addShare (assignment.renumber ν) =
      (shares.foldl addShare assignment).renumber ν := by
  induction shares generalizing assignment with
  | nil => rfl
  | cons share rest ih =>
    rw [List.map_cons, List.foldl_cons, List.foldl_cons, ← ih]
    rw [addShare, addShare, Dict.renumber_insert, Dict.getD_renumber]

/-- **A dealing depends on the numbers of the members through their order only**: members under
other numbers in the same order get the same partitions. -/
theorem assignmentOf_renumber (partitionsOf : String → Option Nat)
    (members : Dict Nat (List String)) :
    assignmentOf partitionsOf (members.renumber ν) =
      (assignmentOf partitionsOf members).renumber ν := by
  rw [assignmentOf, shares_renumber, assignmentOf]
  exact foldl_addShare_renumber ν _ ∅

theorem rebalance_renumber (partitionsOf : String → Option Nat) (g : Group) :
    (g.renumber ν).rebalance partitionsOf = (g.rebalance partitionsOf).renumber ν := by
  rw [rebalance, members_renumber, assignmentOf_renumber]
  rfl

/-- A member joins under its new number. -/
theorem rebalance_insert_renumber (partitionsOf : String → Option Nat) (g : Group) (m : Nat)
    (topics : List String) :
    Group.rebalance partitionsOf
        { g.renumber ν with members := (g.renumber ν).members.insert (ν m) topics } =
      (Group.rebalance partitionsOf
        { g with members := g.members.insert m topics }).renumber ν := by
  rw [← rebalance_renumber, members_renumber, ← Dict.renumber_insert]
  rfl

/-- A member leaves under its new number. -/
theorem rebalance_erase_renumber (partitionsOf : String → Option Nat) (g : Group) (m : Nat) :
    Group.rebalance partitionsOf
        { g.renumber ν with members := (g.renumber ν).members.erase (ν m) } =
      (Group.rebalance partitionsOf { g with members := g.members.erase m }).renumber ν := by
  rw [← rebalance_renumber, members_renumber, ← Dict.renumber_erase]
  rfl

/-- In a group whose dealing is current, the numbers of the members are all that are in use. -/
theorem renumber_congr {ν ν' : ℕ ↪o ℕ} {g : Group} {partitionsOf : String → Option Nat}
    (hcurrent : g.assignment = assignmentOf partitionsOf g.members)
    (h : ∀ m topics, g.members.get? m = some topics → ν' m = ν m) :
    g.renumber ν' = g.renumber ν := by
  have hmembers : g.members.renumber ν' = g.members.renumber ν := Dict.renumber_congr h
  have hassignment : g.assignment.renumber ν' = g.assignment.renumber ν := by
    rw [hcurrent, ← assignmentOf_renumber, hmembers, assignmentOf_renumber]
  rw [renumber, renumber, hmembers, hassignment]

end Group

end StreamDispatch
