import KeyManagement.Store.Keyed
import Mathlib.Data.List.Induction
import Mathlib.Data.List.Nodup
import Mathlib.Data.List.Perm.Subperm

/-! # Lookups in keyed collections

What a collection holds is what its lookups find, and a value filed under a new key is
one more entry. A scan finds all values whose keys have the prefix.
-/

namespace KeyManagement.Keyed

variable {α : Type} {m : Keyed α} {k : String} {v : α}

theorem lookup_of_mem {entries : List (String × α)}
    (ha : entries.Pairwise fun a b => a.1 < b.1) (h : (k, v) ∈ entries) :
    entries.lookup k = some v := by
  induction entries with
  | nil => simp at h
  | cons e rest ih =>
    obtain ⟨he, hr⟩ := List.pairwise_cons.mp ha
    rw [lookup_cons_eq]
    rcases List.mem_cons.mp h with rfl | h
    · simp
    · have hne : k ≠ e.1 := fun hk => String.lt_irrefl _ (hk ▸ he _ h)
      rw [if_neg hne, ih hr h]

theorem mem_entries_iff : (k, v) ∈ m.entries ↔ m.find? k = some v := by
  constructor
  · exact lookup_of_mem m.ascending
  · intro h
    obtain ⟨front, back, he, -⟩ := List.lookup_eq_some_iff.mp h
    simp [he]

theorem mem_values_iff : v ∈ m.values ↔ ∃ k, m.find? k = some v := by
  simp [values, mem_entries_iff]

/-- The texts under which values are filed. -/
def names (m : Keyed α) : List String := m.entries.map (·.1)

theorem mem_names_iff : k ∈ m.names ↔ ∃ v, m.find? k = some v := by
  simp [names, mem_entries_iff]

theorem pairwise_entries_ne (m : Keyed α) : m.entries.Pairwise fun a b => a.1 ≠ b.1 := by
  refine m.ascending.imp ?_
  rintro a b hlt he
  exact String.lt_irrefl _ (he ▸ hlt)

theorem nodup_names (m : Keyed α) : m.names.Nodup := List.pairwise_map.mpr m.pairwise_entries_ne

theorem ext_find? {m' : Keyed α} (h : ∀ k, m.find? k = m'.find? k) : m = m' := by
  have hmem : ∀ e, e ∈ m.entries ↔ e ∈ m'.entries := by
    rintro ⟨k, v⟩
    rw [mem_entries_iff, mem_entries_iff, h]
  have hperm : m.entries.Perm m'.entries :=
    (List.perm_ext_iff_of_nodup (List.Nodup.of_map _ m.nodup_names)
      (List.Nodup.of_map _ m'.nodup_names)).mpr hmem
  refine ext (hperm.eq_of_pairwise (fun a b _ _ hab hba => ?_) m.ascending m'.ascending)
  exact absurd (String.lt_trans hab hba) (String.lt_irrefl _)

theorem find?_ofList_iff {entries : List (String × α)}
    (h : entries.Pairwise fun a b => a.1 ≠ b.1) :
    (ofList entries).find? k = some v ↔ (k, v) ∈ entries := by
  induction entries using List.reverseRecOn with
  | nil => simp [ofList]
  | append_singleton entries e ih =>
    obtain ⟨hentries, -, he⟩ := List.pairwise_append.mp h
    have hinsert : ofList (entries ++ [e]) = (ofList entries).insert e.1 e.2 := by
      simp [ofList]
    rw [hinsert, find?_insert, List.mem_append, List.mem_singleton]
    split
    · next hk =>
      constructor
      · rintro ⟨⟩
        exact .inr (Prod.ext hk rfl)
      · rintro (hmem | rfl)
        · exact absurd hk (he _ hmem e (List.mem_singleton_self e))
        · rfl
    · next hk =>
      rw [ih hentries]
      constructor
      · exact .inl
      · rintro (hmem | rfl)
        · exact hmem
        · exact absurd rfl hk

theorem ofList_of_perm {entries : List (String × α)} (h : m.entries.Perm entries) :
    ofList entries = m := by
  have hne : entries.Pairwise fun a b => a.1 ≠ b.1 :=
    (h.pairwise_iff fun hab => hab.symm).mp m.pairwise_entries_ne
  refine ext_find? fun k => Option.ext fun v => ?_
  rw [find?_ofList_iff hne, ← h.mem_iff, mem_entries_iff]

theorem length_values_le {m' : Keyed α}
    (h : ∀ k v, m.find? k = some v → ∃ v', m'.find? k = some v') :
    m.values.length ≤ m'.values.length := by
  have hs : m.names ⊆ m'.names := by
    intro k hk
    obtain ⟨v, hv⟩ := mem_names_iff.mp hk
    exact mem_names_iff.mpr (h k v hv)
  have hl := (List.subperm_of_subset m.nodup_names hs).length_le
  simpa only [names, values, List.length_map] using hl

theorem find?_insert_cases {k' : String} {u : α} (h : (m.insert k v).find? k' = some u) :
    k' = k ∧ u = v ∨ m.find? k' = some u := by
  rw [find?_insert] at h
  split at h
  · next he => exact .inl ⟨he, (Option.some.inj h).symm⟩
  · exact .inr h

theorem contains_eq_false_iff : m.contains k = false ↔ m.find? k = none := by
  simp [contains]

theorem perm_insertEntry {entries : List (String × α)} (h : entries.lookup k = none) :
    (insertEntry k v entries).Perm ((k, v) :: entries) := by
  induction entries with
  | nil => exact .refl _
  | cons e rest ih =>
    rw [lookup_cons_eq] at h
    unfold insertEntry
    split
    · exact .refl _
    · split at h
      · contradiction
      · next hne =>
        rw [if_neg hne]
        exact ((ih h).cons e).trans (.swap _ _ _)

theorem perm_values_insert (h : m.find? k = none) :
    (m.insert k v).values.Perm (v :: m.values) :=
  List.Perm.map _ (perm_insertEntry h)

theorem find?_modify (f : α → α) (k' : String) :
    (m.modify k f).find? k' = if k' = k then (m.find? k).map f else m.find? k' := by
  unfold modify
  split
  · next h =>
    split
    · next hk => simp [hk, h]
    · rfl
  · next value h =>
    rw [find?_insert, h]
    rfl

section Scan

theorem not_lt_of_isPrefix {p a : List Char} (h : p <+: a) : ¬ a < p :=
  List.not_lt.mpr h.le

theorem isPrefix_of_lt {p a b : List Char} (hp : ¬ a < p) (hab : a < b) (hb : p <+: b) :
    p <+: a := by
  induction p generalizing a b with
  | nil => exact List.nil_prefix
  | cons c p ih =>
    obtain ⟨t, rfl⟩ := hb
    cases a with
    | nil => exact absurd (List.nil_lt_cons c p) hp
    | cons d a =>
      rw [List.cons_lt_cons_iff, not_or] at hp
      rw [List.cons_append, List.cons_lt_cons_iff] at hab
      rcases hab with hd | ⟨rfl, hab⟩
      · exact absurd hd hp.1
      · have hp : ¬ a < p := fun h => hp.2 ⟨rfl, h⟩
        exact (List.prefix_cons_inj d).mpr (ih hp hab (List.prefix_append p t))

section Runs

variable {β : Type} {l : List β} {p : β → Bool}

theorem takeWhile_eq_filter (h : l.Pairwise fun a b => p b → p a) : l.takeWhile p = l.filter p := by
  induction l with
  | nil => rfl
  | cons a l ih =>
    obtain ⟨ha, hl⟩ := List.pairwise_cons.mp h
    by_cases hp : p a
    · rw [List.takeWhile_cons_of_pos hp, List.filter_cons_of_pos hp, ih hl]
    · rw [List.takeWhile_cons_of_neg hp, List.filter_cons_of_neg hp, eq_comm,
        List.filter_eq_nil_iff]
      exact fun b hb => mt (ha b hb) hp

theorem dropWhile_eq_filter (h : l.Pairwise fun a b => p b → p a) :
    l.dropWhile p = l.filter (! p ·) := by
  induction l with
  | nil => rfl
  | cons a l ih =>
    obtain ⟨ha, hl⟩ := List.pairwise_cons.mp h
    by_cases hp : p a
    · rw [List.dropWhile_cons_of_pos hp, List.filter_cons_of_neg (by simp [hp]), ih hl]
    · rw [List.dropWhile_cons_of_neg hp, eq_comm, List.filter_eq_self]
      intro b hb
      rcases List.mem_cons.mp hb with rfl | hb
      · simp [hp]
      · simp [mt (ha b hb) hp]

end Runs

variable {start : String}

/-- On ascending keys a scan finds all that has the prefix. -/
theorem scan_eq_filter (m : Keyed α) (start : String) :
    m.scan start =
      (m.entries.filter fun e => start.toList.isPrefixOf e.1.toList).map (·.2) := by
  have hbefore : m.entries.Pairwise fun a b => decide (b.1 < start) → decide (a.1 < start) := by
    refine m.ascending.imp fun hab hb => ?_
    exact decide_eq_true (String.lt_trans hab (of_decide_eq_true hb))
  have hbegun : (m.entries.filter fun e => !decide (e.1 < start)).Pairwise fun a b =>
      start.toList.isPrefixOf b.1.toList → start.toList.isPrefixOf a.1.toList := by
    refine List.pairwise_filter.mpr (m.ascending.imp fun hab ha hb hp => ?_)
    rw [List.isPrefixOf_iff_prefix] at hp ⊢
    rw [Bool.not_eq_true', decide_eq_false_iff_not] at ha
    exact isPrefix_of_lt ha hab hp
  rw [scan, dropWhile_eq_filter hbefore, takeWhile_eq_filter hbegun, List.filter_filter]
  refine congrArg _ (List.filter_congr fun e _ => ?_)
  by_cases hp : start.toList.isPrefixOf e.1.toList
  · have hs : ¬ e.1 < start := not_lt_of_isPrefix (List.isPrefixOf_iff_prefix.mp hp)
    simp [hp, hs]
  · simp [hp]

theorem mem_scan_iff : v ∈ m.scan start ↔
    ∃ k, m.find? k = some v ∧ start.toList <+: k.toList := by
  simp [scan_eq_filter, ← mem_entries_iff]

theorem scan_sublist (m : Keyed α) (start : String) : (m.scan start).Sublist m.values :=
  scan_eq_filter m start ▸ List.filter_sublist.map _

theorem ascending_values {name : α → String} (h : ∀ k v, m.find? k = some v → name v = k) :
    m.values.Pairwise fun a b => name a < name b := by
  refine List.pairwise_map.mpr (m.ascending.imp_of_mem ?_)
  rintro ⟨k, v⟩ ⟨k', v'⟩ hm hm' hlt
  rw [h k v (mem_entries_iff.mp hm), h k' v' (mem_entries_iff.mp hm')]
  exact hlt

end Scan

section Map

variable {β : Type} (f : α → β)

/-- The same texts, with other values. -/
def map (m : Keyed α) : Keyed β where
  entries := m.entries.map fun e => (e.1, f e.2)
  ascending := List.pairwise_map.mpr m.ascending

@[simp] theorem map_empty : (empty : Keyed α).map f = empty := rfl

theorem lookup_map (entries : List (String × α)) :
    (entries.map fun e => (e.1, f e.2)).lookup k = (entries.lookup k).map f := by
  induction entries with
  | nil => rfl
  | cons e rest ih =>
    simp only [List.map_cons, lookup_cons_eq, ih]
    split
    · rfl
    · rfl

@[simp] theorem find?_map : (m.map f).find? k = (m.find? k).map f := lookup_map f m.entries

@[simp] theorem contains_map : (m.map f).contains k = m.contains k := by
  simp [contains]

theorem map_insertEntry (entries : List (String × α)) :
    (insertEntry k v entries).map (fun e => (e.1, f e.2)) =
      insertEntry k (f v) (entries.map fun e => (e.1, f e.2)) := by
  induction entries with
  | nil => rfl
  | cons e rest ih =>
    unfold insertEntry
    simp only [List.map_cons]
    split
    · rfl
    · split
      · rfl
      · rw [List.map_cons, ih]

@[simp] theorem map_insert : (m.insert k v).map f = (m.map f).insert k (f v) :=
  ext (map_insertEntry f m.entries)

theorem values_map : (m.map f).values = m.values.map f := by
  simp [values, map]

theorem scan_map (start : String) : (m.map f).scan start = (m.scan start).map f := by
  simp [scan_eq_filter, map, List.filter_map, Function.comp_def]

end Map

end KeyManagement.Keyed
