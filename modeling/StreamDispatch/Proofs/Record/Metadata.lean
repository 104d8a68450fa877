import Mathlib.Data.List.Forall2
import Mathlib.Data.List.Induction
import StreamDispatch.Context

/-!
# The metadata of a record is a lookup in its headers

Metadata are collected field by field: the headers of a record are *compared* with the name of a
field, and what is found is kept under the *lower-case form* of that name. Asking for a value goes
the other way, from the lower-case form of a name to what is kept there. Neither the comparing nor
the lowering says by itself which names are the same. That is said here first, on characters: two
characters are one letter if they are equal, or the two cases of one of the letters `A` to `Z`
(`StreamDispatch.SameLetter`), and names match letter by letter (`StreamDispatch.Matches`). Letters
of other alphabets match themselves alone.

What is kept at a key then does not depend on which of the matching fields put it there, nor on how
often or in which order they did (`StreamDispatch.get?_metadataOf`), since a field that comes later
puts in what is there already.

## Main definitions

* `StreamDispatch.Matches`: two names are the same but for the case of ASCII letters.
* `StreamDispatch.RawRecord.valuesNamed`: the values of all headers that match a name, as texts.

## Main statements

* `StreamDispatch.matches_iff_foldName`: names match exactly if they have one lower-case form.
* `StreamDispatch.DispatchContext.metadata_lookup`: the metadata of a context, at each key, and what
  asking for a value comes to.
-/

namespace StreamDispatch

/-! ### Names that match -/

/-- A capital letter of ASCII. -/
def IsCapital (c : Char) : Prop := 0x41 ≤ c.toNat ∧ c.toNat ≤ 0x5A

/-- Two characters are one letter: they are equal, or the two cases of an ASCII letter. -/
inductive SameLetter : Char → Char → Prop
  | refl (c : Char) : SameLetter c c
  | lower {c d : Char} (capital : IsCapital c) (small : d.toNat = c.toNat + 0x20) : SameLetter c d
  | upper {c d : Char} (capital : IsCapital d) (small : c.toNat = d.toNat + 0x20) : SameLetter c d

/-- **Two names match**: they agree letter by letter, but for the case of ASCII letters. -/
def Matches (a b : String) : Prop := List.Forall₂ SameLetter a.toList b.toList

theorem toNat_toLower_of_capital {c : Char} (h : IsCapital c) :
    c.toLower.toNat = c.toNat + 0x20 := by
  have hval : c.toLower.val = c.val + 32 := congrArg Char.val (dif_pos h)
  have hhigh : c.val.toNat ≤ 0x5A := h.2
  show c.toLower.val.toNat = c.val.toNat + 0x20
  rw [hval, UInt32.toNat_add]
  have h32 : (32 : UInt32).toNat = 32 := rfl
  omega

theorem toLower_of_not_capital {c : Char} (h : ¬ IsCapital c) : c.toLower = c :=
  toLower_of_not_upper h

/-- A capital letter and the small one have one lower-case form. -/
theorem toLower_eq_of_capital {c d : Char} (hc : IsCapital c) (hd : d.toNat = c.toNat + 0x20) :
    c.toLower = d.toLower := by
  have hsmall : ¬ IsCapital d := by
    rintro ⟨-, hhigh⟩
    have := hc.1
    omega
  rw [toLower_of_not_capital hsmall, ← Char.toNat_inj, toNat_toLower_of_capital hc, hd]

/-- Characters are one letter exactly if they have one lower-case form. -/
theorem sameLetter_iff_toLower {c d : Char} : SameLetter c d ↔ c.toLower = d.toLower := by
  constructor
  · rintro (_ | ⟨hcapital, hsmall⟩ | ⟨hcapital, hsmall⟩)
    · rfl
    · exact toLower_eq_of_capital hcapital hsmall
    · exact (toLower_eq_of_capital hcapital hsmall).symm
  · intro h
    by_cases hc : IsCapital c <;> by_cases hd : IsCapital d
    · have hsame : c.toNat + 0x20 = d.toNat + 0x20 := by
        rw [← toNat_toLower_of_capital hc, ← toNat_toLower_of_capital hd, h]
      obtain rfl : c = d := Char.toNat_inj.mp (Nat.add_right_cancel hsame)
      exact .refl c
    · rw [toLower_of_not_capital hd] at h
      exact .lower hc (h ▸ toNat_toLower_of_capital hc)
    · rw [toLower_of_not_capital hc] at h
      exact .upper hd (h ▸ toNat_toLower_of_capital hd)
    · rw [toLower_of_not_capital hc, toLower_of_not_capital hd] at h
      exact h ▸ .refl c

/-- **Names match exactly if they have one lower-case form.** -/
theorem matches_iff_foldName {a b : String} : Matches a b ↔ foldName a = foldName b := by
  have hletters : SameLetter = fun c d => c.toLower = d.toLower :=
    funext fun c => funext fun d => propext sameLetter_iff_toLower
  rw [Matches, hletters, foldName, foldName, String.ofList_inj, ← List.forall₂_eq_eq_eq,
    List.forall₂_map_left_iff, List.forall₂_map_right_iff]

/-- Comparing two names decides whether they match. -/
theorem matches_iff_sameName {a b : String} : Matches a b ↔ sameName a b = true :=
  matches_iff_foldName.trans sameName_iff.symm

instance : DecidableRel Matches := fun _ _ => decidable_of_iff _ matches_iff_sameName.symm

/-! ### What is kept at a key -/

/-- The values of the headers that match a name, in order and read as texts. -/
def RawRecord.valuesNamed (record : RawRecord) (name : String) : List String :=
  record.headers.filterMap fun h => if Matches h.name name then h.value.map Utf8.decodeLossy else none

theorem RawRecord.valuesNamed_eq (record : RawRecord) (name : String) :
    record.valuesNamed name = (record.headerValues name).map Utf8.decodeLossy := by
  rw [valuesNamed, headerValues, List.map_filterMap, List.filterMap_filter]
  refine List.filterMap_congr fun h _ => ?_
  simp only [matches_iff_sameName]

theorem RawRecord.valuesNamed_congr (record : RawRecord) {name name' : String}
    (h : foldName name = foldName name') : record.valuesNamed name = record.valuesNamed name' := by
  refine List.filterMap_congr fun header _ => ?_
  simp only [matches_iff_foldName, h]

/-- One more field puts the values that match it under its lower-case form, if there are any. -/
theorem metadataOf_concat (record : RawRecord) (fields : List String) (field : String) :
    metadataOf record (fields ++ [field]) =
      if record.valuesNamed field = [] then metadataOf record fields
      else (metadataOf record fields).insert (foldName field) (record.valuesNamed field) := by
  simp only [metadataOf, List.foldl_append, List.foldl_cons, List.foldl_nil,
    record.valuesNamed_eq field, List.isEmpty_iff]

/-- **What is kept at a key** are the values of all headers that match it, provided that there are
any and that the key is the lower-case form of some field. -/
theorem get?_metadataOf (record : RawRecord) (fields : List String) (key : String) :
    (metadataOf record fields).get? key =
      if (∃ field ∈ fields, foldName field = key) ∧ record.valuesNamed key ≠ [] then
        some (record.valuesNamed key)
      else none := by
  induction fields using List.reverseRecOn with
  | nil => exact (if_neg fun h => by simpa using h.1).symm
  | append_singleton fields field ih =>
    rw [metadataOf_concat]
    by_cases hkey : foldName field = key
    · -- The field is one for this key, and has the same values as the key itself.
      have hvalues : record.valuesNamed field = record.valuesNamed key :=
        record.valuesNamed_congr (by rw [← hkey, foldName_foldName])
      have hsome : ∃ f ∈ fields ++ [field], foldName f = key := ⟨field, by simp, hkey⟩
      rw [hvalues, hkey]
      split
      next hnone => rw [ih, if_neg (fun h => h.2 hnone), if_neg (fun h => h.2 hnone)]
      next hvalues => rw [Dict.get?_insert_self, if_pos ⟨hsome, hvalues⟩]
    · have hsame : (∃ f ∈ fields ++ [field], foldName f = key) ↔ ∃ f ∈ fields, foldName f = key := by
        simp only [List.mem_append, List.mem_singleton, or_and_right, exists_or, exists_eq_left,
          hkey, or_false]
      rw [if_congr (and_congr_left' hsame) rfl rfl, ← ih]
      split
      · rfl
      · rw [Dict.get?_insert_of_ne _ (Ne.symm hkey)]

/-- A key is the lower-case form of some field exactly if it is in lower case and matches one. -/
theorem exists_foldName_iff {fields : List String} {key : String} :
    (∃ field ∈ fields, foldName field = key) ↔
      foldName key = key ∧ ∃ field ∈ fields, Matches field key := by
  constructor
  · rintro ⟨field, hfield, rfl⟩
    exact ⟨foldName_foldName field, field, hfield,
      matches_iff_foldName.mpr (foldName_foldName field).symm⟩
  · rintro ⟨hkey, field, hfield, hmatches⟩
    exact ⟨field, hfield, (matches_iff_foldName.mp hmatches).trans hkey⟩

/-- **Which fields there are does not matter**, as long as the same names match them. -/
theorem metadataOf_congr (record : RawRecord) {fields fields' : List String}
    (hsome : ∀ field ∈ fields, ∃ field' ∈ fields', Matches field field')
    (hsome' : ∀ field' ∈ fields', ∃ field ∈ fields, Matches field' field) :
    metadataOf record fields' = metadataOf record fields := by
  simp only [matches_iff_foldName] at hsome hsome'
  have hkeys : ∀ key, (∃ field ∈ fields', foldName field = key) ↔
      ∃ field ∈ fields, foldName field = key := by
    intro key
    constructor
    · rintro ⟨field', hfield', rfl⟩
      obtain ⟨field, hfield, hsame⟩ := hsome' field' hfield'
      exact ⟨field, hfield, hsame.symm⟩
    · rintro ⟨field, hfield, rfl⟩
      obtain ⟨field', hfield', hsame⟩ := hsome field hfield
      exact ⟨field', hfield', hsame.symm⟩
  exact Dict.ext_get? fun key => by simp only [get?_metadataOf, hkeys]

namespace DispatchContext

variable {registration : String} {worker attempt : Nat} {record : RawRecord}
  {fields : List String}

/-- Asking for the value of a name gives the first value that a matching header has. -/
theorem metadataValue_ofRecord (name : String) :
    (ofRecord registration worker attempt record fields).metadataValue name =
      if ∃ field ∈ fields, Matches field name then (record.valuesNamed name).head? else none := by
  have hfield : (∃ field ∈ fields, foldName field = foldName name) ↔
      ∃ field ∈ fields, Matches field name := by
    simp only [matches_iff_foldName]
  have hvalues : record.valuesNamed (foldName name) = record.valuesNamed name :=
    record.valuesNamed_congr (foldName_foldName name)
  rw [metadataValue, ofRecord, get?_metadataOf, hvalues, if_congr (and_congr_left' hfield) rfl rfl]
  by_cases hmatch : ∃ field ∈ fields, Matches field name
  · rw [if_pos hmatch]
    cases hhead : record.valuesNamed name <;> simp [hmatch]
  · rw [if_neg hmatch, if_neg (fun h => hmatch h.1), Option.bind_none]

/-- Keys are in lower case, and have the values of the headers that match them. -/
theorem get?_metadata_eq_some_iff {key : String} {values : List String} :
    (ofRecord registration worker attempt record fields).metadata.get? key = some values ↔
      foldName key = key ∧ (∃ field ∈ fields, Matches field key) ∧ values ≠ [] ∧
        values = record.valuesNamed key := by
  rw [ofRecord, get?_metadataOf]
  constructor
  · intro h
    split at h
    next hkept =>
      obtain rfl := Option.some.inj h
      obtain ⟨hkey, hmatch⟩ := exists_foldName_iff.mp hkept.1
      exact ⟨hkey, hmatch, hkept.2, rfl⟩
    next => cases h
  · rintro ⟨hkey, hmatch, hvalues, rfl⟩
    exact if_pos ⟨exists_foldName_iff.mpr ⟨hkey, hmatch⟩, hvalues⟩

/-- **Metadata are a lookup in the headers, in which the case of ASCII letters does not count.**
At a key there are the values of all headers that match it, in order, and there are keys only in
lower case, for fields that some header with a value matches. Asking for the value of a name gives
the first value of the headers that match the name, if some field matches it, and nothing if none
does. And of two lists of fields in which the same names match, both give the same metadata: fields
may be permuted, repeated and written in any case. -/
theorem metadata_lookup (registration : String) (worker attempt : Nat) (record : RawRecord)
    (fields : List String) :
    (∀ name, (ofRecord registration worker attempt record fields).metadataValue name =
        if ∃ field ∈ fields, Matches field name then (record.valuesNamed name).head? else none) ∧
      (∀ key values,
        (ofRecord registration worker attempt record fields).metadata.get? key = some values ↔
          foldName key = key ∧ (∃ field ∈ fields, Matches field key) ∧ values ≠ [] ∧
            values = record.valuesNamed key) ∧
      ∀ fields' : List String,
        (∀ field ∈ fields, ∃ field' ∈ fields', Matches field field') →
        (∀ field' ∈ fields', ∃ field ∈ fields, Matches field' field) →
        ofRecord registration worker attempt record fields' =
          ofRecord registration worker attempt record fields := by
  refine ⟨metadataValue_ofRecord, fun key values => get?_metadata_eq_some_iff,
    fun fields' hsome hsome' => ?_⟩
  rw [ofRecord, ofRecord, metadataOf_congr record hsome hsome']

/-- A record of a business process, with a header that has no value and one in another case. -/
def processRecord : RawRecord where
  topic := "orders"
  partition := 0
  offset := 7
  key := none
  payload := none
  timestamp := none
  headers := [⟨"business-process-id", none⟩, ⟨"Business-Process-Id", some (Utf8.encode "bp-1")⟩,
    ⟨"ignored", some (Utf8.encode "x")⟩, ⟨"BUSINESS-process-id", some [0xFF]⟩]

theorem metadata_lookup_process :
    (ofRecord "orders" 0 1 processRecord ["business-process-id", "tenant-id"]).metadataValue
        "BUSINESS-PROCESS-ID" = some "bp-1" ∧
      ofRecord "orders" 0 1 processRecord ["Tenant-ID", "business-process-id", "tenant-ID",
          "Business-Process-ID"] =
        ofRecord "orders" 0 1 processRecord ["business-process-id", "tenant-id"] := by
  obtain ⟨hvalue, -, hsame⟩ :=
    metadata_lookup "orders" 0 1 processRecord ["business-process-id", "tenant-id"]
  refine ⟨(hvalue _).trans ?_, hsame _ (by decide) (by decide)⟩
  rw [if_pos (by decide)]
  decide +kernel

end DispatchContext

end StreamDispatch
