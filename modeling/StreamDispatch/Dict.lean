/-!
# Finite maps in key order

A `Dict κ α` is a finite map held as the list of its entries in strictly ascending
key order. The order is part of the type, so two dictionaries with the same entries
are *equal*, whatever the order in which the entries were written, and a walk over
the entries always meets them in ascending order. Settings, committed offsets and
group members are all held this way: their order is shown in reports, and
equality of two settings must not depend on how they were put together.

## Main statements

* `Dict.get?_insert`: what a written dictionary holds at each key.
* `Dict.get?_erase`: an erased key is gone and no other is touched.
* `Dict.mem_entries_iff`: the entries of a dictionary are its lookups.
* `Dict.ext_get?`: a dictionary is determined by its lookups.
* `Dict.get?_filter_keys`, `Dict.get?_map`, `Dict.get?_insertAll`: lookups after a whole pass.
-/

namespace StreamDispatch

/-- The entries of a dictionary are sorted when their keys strictly ascend. -/
def SortedEntries {κ α : Type} [Ord κ] (entries : List (κ × α)) : Prop :=
  entries.Pairwise fun a b => compare a.1 b.1 = .lt

/-- A finite map from `κ` to `α`, held as its entries in ascending key order. -/
structure Dict (κ α : Type) [Ord κ] where
  /-- The entries, keys ascending. -/
  entries : List (κ × α)
  /-- The keys strictly ascend. -/
  sorted : SortedEntries entries

namespace Dict

variable {κ α β : Type} [Ord κ]

instance [DecidableEq κ] [DecidableEq α] : DecidableEq (Dict κ α) := fun a b =>
  if h : a.entries = b.entries then
    .isTrue (by cases a; cases b; simp_all)
  else
    .isFalse (fun he => h (congrArg entries he))

/-- The dictionary without entries. -/
def empty : Dict κ α := ⟨[], .nil⟩

instance : EmptyCollection (Dict κ α) := ⟨empty⟩

instance : Inhabited (Dict κ α) := ⟨empty⟩

/-- The keys, ascending. -/
def keys (d : Dict κ α) : List κ := d.entries.map (·.1)

/-- The values, in the order of their keys. -/
def values (d : Dict κ α) : List α := d.entries.map (·.2)

/-- The number of entries. -/
def size (d : Dict κ α) : Nat := d.entries.length

/-- Whether there is no entry. -/
def isEmpty (d : Dict κ α) : Bool := d.entries.isEmpty

section Lookup

variable [DecidableEq κ]

/-- The value of the first entry with key `k` in a list of entries. -/
def lookup (k : κ) : List (κ × α) → Option α
  | [] => none
  | (k', v) :: rest => if k = k' then some v else lookup k rest

/-- The value at `k`, if there is one. -/
def get? (d : Dict κ α) (k : κ) : Option α := lookup k d.entries

theorem get?_eq_none_of_isEmpty {d : Dict κ α} (h : d.isEmpty = true) (k : κ) :
    d.get? k = none := by
  rw [get?, List.isEmpty_iff.mp h]
  rfl

/-- Whether there is an entry at `k`. -/
def contains (d : Dict κ α) (k : κ) : Bool := (d.get? k).isSome

/-- The value at `k`, or `fallback` when there is none. -/
def getD (d : Dict κ α) (k : κ) (fallback : α) : α := (d.get? k).getD fallback

end Lookup

/-! ### Writing an entry -/

/-- Writes an entry into sorted entries: an entry of the same key is replaced. -/
def insertEntry (k : κ) (v : α) : List (κ × α) → List (κ × α)
  | [] => [(k, v)]
  | (k', v') :: rest =>
    match compare k k' with
    | .lt => (k, v) :: (k', v') :: rest
    | .eq => (k, v) :: rest
    | .gt => (k', v') :: insertEntry k v rest

theorem mem_insertEntry {k : κ} {v : α} {e : κ × α} {l : List (κ × α)} :
    e ∈ insertEntry k v l → e = (k, v) ∨ e ∈ l := by
  induction l with
  | nil => simp [insertEntry]
  | cons head tail ih =>
    rw [insertEntry]
    split <;> simp only [List.mem_cons] <;> grind

section Laws

variable [Std.TransOrd κ] [Std.LawfulEqOrd κ]

theorem insertEntry_sorted (k : κ) (v : α) {l : List (κ × α)} (h : SortedEntries l) :
    SortedEntries (insertEntry k v l) := by
  induction l with
  | nil => exact List.pairwise_singleton _ _
  | cons head tail ih =>
    obtain ⟨k', v'⟩ := head
    obtain ⟨hhead, htail⟩ := List.pairwise_cons.mp h
    rw [insertEntry]
    split
    next hlt =>
      refine List.pairwise_cons.mpr ⟨fun e he => ?_, h⟩
      rcases List.mem_cons.mp he with rfl | he
      · exact hlt
      · exact Std.TransCmp.lt_trans hlt (hhead e he)
    next heq =>
      have hk : k = k' := Std.LawfulEqCmp.eq_of_compare heq
      subst hk
      exact List.pairwise_cons.mpr ⟨hhead, htail⟩
    next hgt =>
      refine List.pairwise_cons.mpr ⟨fun e he => ?_, ih htail⟩
      rcases mem_insertEntry he with rfl | he
      · exact Std.OrientedCmp.lt_of_gt hgt
      · exact hhead e he

/-- The dictionary with `v` at `k`, whatever was there before. -/
def insert (d : Dict κ α) (k : κ) (v : α) : Dict κ α :=
  ⟨insertEntry k v d.entries, insertEntry_sorted k v d.sorted⟩

theorem isEmpty_insert (d : Dict κ α) (k : κ) (v : α) : (d.insert k v).isEmpty = false := by
  obtain ⟨entries, _⟩ := d
  cases entries with
  | nil => rfl
  | cons head tail =>
    simp only [isEmpty, insert, insertEntry]
    split <;> rfl

/-- Keeps the entries that satisfy `p`. -/
def filter (d : Dict κ α) (p : κ → α → Bool) : Dict κ α :=
  ⟨d.entries.filter fun e => p e.1 e.2, d.sorted.filter _⟩

/-- The dictionary without an entry at `k`. -/
def erase [DecidableEq κ] (d : Dict κ α) (k : κ) : Dict κ α :=
  d.filter fun k' _ => decide (k' ≠ k)

/-- Writes `v` at `k` unless there is an entry already. -/
def insertIfAbsent [DecidableEq κ] (d : Dict κ α) (k : κ) (v : α) : Dict κ α :=
  if d.contains k then d else d.insert k v

/-- Applies `f` to every value. -/
def map (f : κ → α → β) (d : Dict κ α) : Dict κ β :=
  ⟨d.entries.map fun e => (e.1, f e.1 e.2), by
    have h := d.sorted
    unfold SortedEntries at h ⊢
    exact List.pairwise_map.mpr h⟩

/-- The dictionary of a list of entries; of two entries with one key the later counts. -/
def ofList (l : List (κ × α)) : Dict κ α :=
  l.foldl (fun d e => d.insert e.1 e.2) empty

/-- Writes every entry of `l`, in order. -/
def insertAll (d : Dict κ α) (l : List (κ × α)) : Dict κ α :=
  l.foldl (fun d e => d.insert e.1 e.2) d

/-! ### Lookups after writing -/

variable [DecidableEq κ]

omit [Std.TransOrd κ] in
theorem lookup_insertEntry (k q : κ) (v : α) (l : List (κ × α)) :
    lookup q (insertEntry k v l) = if q = k then some v else lookup q l := by
  induction l with
  | nil => rfl
  | cons head tail ih =>
    obtain ⟨k', v'⟩ := head
    rw [insertEntry]
    split
    next => rfl
    next heq =>
      have hk : k = k' := Std.LawfulEqCmp.eq_of_compare heq
      subst hk
      by_cases hq : q = k <;> simp [lookup, hq]
    next hgt =>
      have hk : k ≠ k' := fun he => by
        subst he
        exact absurd ((Std.ReflCmp.compare_self).symm.trans hgt) (by decide)
      by_cases hq : q = k'
      · subst hq
        simp [lookup, Ne.symm hk]
      · simp [lookup, hq, ih]

/-- **What a written dictionary holds**: the new value at its key, and the old one
everywhere else. -/
theorem get?_insert (d : Dict κ α) (k q : κ) (v : α) :
    (d.insert k v).get? q = if q = k then some v else d.get? q :=
  lookup_insertEntry k q v d.entries

@[simp] theorem get?_insert_self (d : Dict κ α) (k : κ) (v : α) :
    (d.insert k v).get? k = some v := by
  rw [get?_insert, if_pos rfl]

theorem get?_insert_of_ne (d : Dict κ α) {k q : κ} (h : q ≠ k) (v : α) :
    (d.insert k v).get? q = d.get? q := by
  rw [get?_insert, if_neg h]

omit [Std.TransOrd κ] [Std.LawfulEqOrd κ] in
@[simp] theorem get?_empty (q : κ) : (empty : Dict κ α).get? q = none := rfl

omit [Ord κ] [Std.TransOrd κ] [Std.LawfulEqOrd κ] in
theorem lookup_filter_ne (k q : κ) (l : List (κ × α)) :
    lookup q (l.filter fun e => decide (e.1 ≠ k)) = if q = k then none else lookup q l := by
  induction l with
  | nil => simp [lookup]
  | cons head tail ih =>
    obtain ⟨k', v'⟩ := head
    by_cases hk : k' = k
    · subst hk
      rw [List.filter_cons_of_neg (by simp), ih]
      by_cases hq : q = k' <;> simp [lookup, hq]
    · rw [List.filter_cons_of_pos (by simpa using hk), lookup, ih]
      by_cases hq : q = k'
      · subst hq
        simp [lookup, hk]
      · simp [lookup, hq]

omit [Std.TransOrd κ] [Std.LawfulEqOrd κ] in
/-- **What an erased dictionary holds**: nothing at the erased key, and the old value
everywhere else. -/
theorem get?_erase (d : Dict κ α) (k q : κ) :
    (d.erase k).get? q = if q = k then none else d.get? q :=
  lookup_filter_ne k q d.entries

/-! ### A dictionary is its lookups -/

omit [Std.TransOrd κ] in
theorem lookup_eq_some_of_mem {l : List (κ × α)} (h : SortedEntries l) {k : κ} {v : α}
    (hmem : (k, v) ∈ l) : lookup k l = some v := by
  induction l with
  | nil => exact absurd hmem List.not_mem_nil
  | cons head tail ih =>
    obtain ⟨k', v'⟩ := head
    obtain ⟨hhead, htail⟩ := List.pairwise_cons.mp h
    rcases List.mem_cons.mp hmem with he | hmem
    · cases he
      simp [lookup]
    · have hne : k ≠ k' := fun he => by
        have := hhead _ hmem
        simp [he, Std.ReflCmp.compare_self] at this
      simp [lookup, hne, ih htail hmem]

omit [Ord κ] [Std.TransOrd κ] [Std.LawfulEqOrd κ] in
theorem mem_of_lookup_eq_some {l : List (κ × α)} {k : κ} {v : α}
    (h : lookup k l = some v) : (k, v) ∈ l := by
  induction l with
  | nil => simp [lookup] at h
  | cons head tail ih =>
    obtain ⟨k', v'⟩ := head
    by_cases hk : k = k'
    · subst hk
      simp [lookup] at h
      simp [h]
    · rw [lookup, if_neg hk] at h
      exact List.mem_cons_of_mem _ (ih h)

omit [Std.TransOrd κ] in
/-- The entries of a dictionary are its lookups. -/
theorem mem_entries_iff (d : Dict κ α) {k : κ} {v : α} :
    (k, v) ∈ d.entries ↔ d.get? k = some v :=
  ⟨lookup_eq_some_of_mem d.sorted, mem_of_lookup_eq_some⟩

omit [Std.TransOrd κ] in
theorem isEmpty_of_get?_eq_none {d : Dict κ α} (h : ∀ k, d.get? k = none) : d.isEmpty = true := by
  refine List.isEmpty_iff.mpr (List.eq_nil_iff_forall_not_mem.mpr fun e he => ?_)
  have hsome := d.mem_entries_iff.mp he
  rw [h] at hsome
  cases hsome

omit [Std.TransOrd κ] in
theorem mem_keys_iff (d : Dict κ α) {k : κ} : k ∈ d.keys ↔ ∃ v, d.get? k = some v := by
  constructor
  · intro h
    obtain ⟨⟨q, v⟩, hmem, rfl⟩ := List.mem_map.mp h
    exact ⟨v, d.mem_entries_iff.mp hmem⟩
  · rintro ⟨v, hv⟩
    exact List.mem_map.mpr ⟨(k, v), d.mem_entries_iff.mpr hv, rfl⟩

omit [Std.TransOrd κ] [DecidableEq κ] in
/-- Each key is there once. -/
theorem nodup_keys (d : Dict κ α) : d.keys.Nodup := by
  refine List.pairwise_map.mpr (d.sorted.imp fun {a b} hlt heq => ?_)
  simp [heq, Std.ReflCmp.compare_self] at hlt

omit [Std.TransOrd κ] [DecidableEq κ] in
theorem nodup_entries (d : Dict κ α) : d.entries.Nodup :=
  (List.pairwise_map.mp d.nodup_keys).imp fun hne heq => hne (congrArg Prod.fst heq)

/-- **Two dictionaries that hold the same at each key are equal**, since both have their
entries in order. -/
theorem ext_get? {d d' : Dict κ α} (h : ∀ k, d.get? k = d'.get? k) : d = d' := by
  have hmem : ∀ e, e ∈ d.entries ↔ e ∈ d'.entries := fun e => by
    rw [d.mem_entries_iff, d'.mem_entries_iff, h]
  have hperm := (List.perm_ext_iff_of_nodup d.nodup_entries d'.nodup_entries).mpr hmem
  have hentries : d.entries = d'.entries := by
    refine hperm.eq_of_pairwise (fun a b _ _ hab hba => ?_) d.sorted d'.sorted
    have habsurd := Std.TransCmp.lt_trans hab hba
    simp [Std.ReflCmp.compare_self] at habsurd
  cases d
  cases d'
  cases hentries
  rfl

/-- Entries at different keys can be written in any order. -/
theorem insert_comm (d : Dict κ α) {k k' : κ} (h : k ≠ k') (v v' : α) :
    (d.insert k v).insert k' v' = (d.insert k' v').insert k v := by
  refine ext_get? fun q => ?_
  simp only [get?_insert]
  by_cases hq : q = k'
  · rw [if_pos hq, if_neg (hq ▸ Ne.symm h), if_pos hq]
  · rw [if_neg hq, if_neg hq]

/-- Of two entries at one key the later one counts. -/
theorem insert_insert (d : Dict κ α) (k : κ) (v v' : α) :
    (d.insert k v).insert k v' = d.insert k v' := by
  refine ext_get? fun q => ?_
  simp only [get?_insert]
  split <;> rfl

/-- Entries at different keys can be written and erased in any order. -/
theorem erase_insert (d : Dict κ α) {k k' : κ} (h : k ≠ k') (v : α) :
    (d.insert k v).erase k' = (d.erase k').insert k v := by
  refine ext_get? fun q => ?_
  simp only [get?_insert, get?_erase]
  by_cases hq : q = k'
  · rw [if_pos hq, if_neg (hq ▸ Ne.symm h), if_pos hq]
  · rw [if_neg hq, if_neg hq]

/-- An entry that is there already can be written again. -/
theorem insert_eq_self (d : Dict κ α) {k : κ} {v : α} (h : d.get? k = some v) :
    d.insert k v = d := by
  refine ext_get? fun q => ?_
  rw [get?_insert]
  split
  next hq => rw [hq, h]
  next => rfl

/-- An entry that is erased and written again is there as before. -/
theorem insert_erase (d : Dict κ α) {k : κ} {v : α} (h : d.get? k = some v) :
    (d.erase k).insert k v = d := by
  refine ext_get? fun q => ?_
  rw [get?_insert, get?_erase]
  by_cases hq : q = k
  · rw [if_pos hq, hq, h]
  · rw [if_neg hq, if_neg hq]

omit [Std.TransOrd κ] [Std.LawfulEqOrd κ] in
/-- A dictionary of at most one entry has one key at most. -/
theorem eq_of_size_le_one (d : Dict κ α) (h : d.size ≤ 1) {k k' : κ} {v v' : α}
    (hk : d.get? k = some v) (hk' : d.get? k' = some v') : k = k' := by
  obtain ⟨entries, hsorted⟩ := d
  match entries, hsorted, h, hk, hk' with
  | [], _, _, hk, _ => simp [get?, lookup] at hk
  | [(q, a)], _, _, hk, hk' =>
    rw [get?, lookup, lookup, Option.ite_none_right_eq_some] at hk hk'
    exact hk.1.trans hk'.1.symm
  | _ :: _ :: _, _, h, _, _ => simp [size] at h

/-! ### Lookups after whole passes -/

omit [Std.TransOrd κ] in
/-- What is left after a filter by keys. -/
theorem get?_filter_keys (d : Dict κ α) (p : κ → Bool) (q : κ) :
    (d.filter fun k _ => p k).get? q = if p q then d.get? q else none := by
  ext v
  rw [← mem_entries_iff, Option.ite_none_right_eq_some, ← mem_entries_iff, and_comm]
  exact List.mem_filter

omit [Std.TransOrd κ] [Std.LawfulEqOrd κ] in
theorem get?_map (d : Dict κ α) (f : κ → α → β) (q : κ) :
    (d.map f).get? q = (d.get? q).map (f q) := by
  obtain ⟨entries, hsorted⟩ := d
  change lookup q (entries.map fun e => (e.1, f e.1 e.2)) = (lookup q entries).map (f q)
  clear hsorted
  induction entries with
  | nil => rfl
  | cons head tail ih =>
    obtain ⟨k, v⟩ := head
    by_cases hq : q = k
    · subst hq
      simp [lookup]
    · simp [lookup, hq, ih]

theorem get?_insertIfAbsent (d : Dict κ α) (k q : κ) (v : α) :
    (d.insertIfAbsent k v).get? q = if q = k then some ((d.get? k).getD v) else d.get? q := by
  rw [insertIfAbsent, contains]
  cases hk : d.get? k with
  | none => simp [get?_insert]
  | some a =>
    by_cases hq : q = k
    · simp [hq, hk]
    · simp [hq]

/-- What a dictionary holds after a list of keys was written where it held nothing. -/
theorem get?_foldl_insertIfAbsent (f : κ → α) (l : List κ) (d : Dict κ α) (q : κ) :
    (l.foldl (fun d k => d.insertIfAbsent k (f k)) d).get? q =
      if q ∈ l then some ((d.get? q).getD (f q)) else d.get? q := by
  induction l generalizing d with
  | nil => simp
  | cons k l ih =>
    rw [List.foldl_cons, ih, get?_insertIfAbsent]
    by_cases hq : q = k
    · subst hq
      simp
    · simp [hq]

omit [Std.TransOrd κ] in
theorem lookup_tail_eq_none {k : κ} {v : α} {l : List (κ × α)}
    (h : SortedEntries ((k, v) :: l)) : lookup k l = none := by
  refine Option.eq_none_iff_forall_ne_some.mpr fun a ha => ?_
  have hlt := (List.pairwise_cons.mp h).1 _ (mem_of_lookup_eq_some ha)
  simp [Std.ReflCmp.compare_self] at hlt

/-- **Writing one dictionary into another**: the entries of the written one count. -/
theorem get?_insertAll (d m : Dict κ α) (q : κ) :
    (d.insertAll m.entries).get? q = (m.get? q).or (d.get? q) := by
  obtain ⟨entries, hsorted⟩ := m
  change (entries.foldl (fun d e => d.insert e.1 e.2) d).get? q = (lookup q entries).or _
  induction entries generalizing d with
  | nil => rfl
  | cons head tail ih =>
    obtain ⟨k, v⟩ := head
    rw [List.foldl_cons, ih _ (List.pairwise_cons.mp hsorted).2, get?_insert]
    by_cases hq : q = k
    · subst hq
      simp [lookup, lookup_tail_eq_none hsorted]
    · simp [lookup, hq]

/-- **Writing a list of entries**: at each key the last entry for it counts, and where there is
none nothing changes. -/
theorem get?_insertAll_list (d : Dict κ α) (l : List (κ × α)) (q : κ) :
    (d.insertAll l).get? q =
      ((l.filter fun e => e.1 = q).getLast?.map (·.2)).or (d.get? q) := by
  induction l generalizing d with
  | nil => rfl
  | cons head tail ih =>
    obtain ⟨k, v⟩ := head
    have hstep : (d.insertAll ((k, v) :: tail)).get? q = ((d.insert k v).insertAll tail).get? q := rfl
    rw [hstep, ih, get?_insert]
    by_cases hq : q = k
    · subst hq
      rw [if_pos rfl, List.filter_cons_of_pos (by simp), List.getLast?_cons]
      cases (tail.filter fun e => e.1 = q).getLast? <;> rfl
    · rw [if_neg hq, List.filter_cons_of_neg (by simpa using Ne.symm hq)]

/-- What a dictionary holds after the entries of another one were written where it held
nothing. -/
theorem get?_foldl_insertIfAbsent_entries (d m : Dict κ α) (q : κ) :
    (m.entries.foldl (fun d e => d.insertIfAbsent e.1 e.2) d).get? q =
      (d.get? q).or (m.get? q) := by
  obtain ⟨entries, hsorted⟩ := m
  change (entries.foldl _ d).get? q = (d.get? q).or (lookup q entries)
  clear hsorted
  induction entries generalizing d with
  | nil => simp [lookup]
  | cons head tail ih =>
    obtain ⟨k, v⟩ := head
    rw [List.foldl_cons, ih, get?_insertIfAbsent]
    by_cases hq : q = k
    · subst hq
      cases d.get? q <;> simp [lookup]
    · simp [lookup, hq]

end Laws

end Dict

end StreamDispatch
