import Mathlib
import ObjectStore.SortedMap

/-!
# Maps made entry by entry

Entries with pairwise distinct keys can be inserted in any order (`get?_ofList`), and a map is made
of its own entries (`ofList_entries`).  A loop that inserts an entry where the key is new, and fails
otherwise, gets through all of them (`foldlM_insert`).
-/

namespace ObjectStore.SortedMap

variable {κ ν : Type} [LT κ] [DecidableLT κ] [LE κ] [Std.LawfulOrderLT κ] [Std.IsLinearOrder κ]
  [DecidableEq κ]

/-- What is found after entries with distinct keys were inserted. -/
theorem get?_foldl_insert (m : SortedMap κ ν) {l : List (κ × ν)} (hl : (l.map Prod.fst).Nodup)
    {k : κ} {v : ν} :
    (l.foldl (fun m e => m.insert e.1 e.2) m).get? k = some v ↔
      (k, v) ∈ l ∨ k ∉ l.map Prod.fst ∧ m.get? k = some v := by
  induction l generalizing m with
  | nil => simp
  | cons e l ih =>
    rw [List.map_cons, List.nodup_cons] at hl
    obtain ⟨hfresh, hl⟩ := hl
    rw [List.foldl_cons, ih (m.insert e.1 e.2) hl, get?_insert]
    by_cases hk : k = e.1
    · subst hk
      have hother : (e.1, v) ∉ l := fun h => hfresh (List.mem_map.2 ⟨_, h, rfl⟩)
      have hhead : (e.1, v) = e ↔ e.2 = v := by
        rw [Prod.ext_iff]
        exact ⟨fun h => h.2.symm, fun h => ⟨rfl, h.symm⟩⟩
      simp [hother, hfresh, hhead]
    · have hhead : (k, v) ≠ e := fun h => hk (congrArg Prod.fst h)
      simp [hk, hhead]

/-- **A map made of entries with distinct keys** holds these entries, in whatever order they came.
-/
theorem get?_ofList {l : List (κ × ν)} (hl : (l.map Prod.fst).Nodup) {k : κ} {v : ν} :
    (ofList l).get? k = some v ↔ (k, v) ∈ l := by
  rw [ofList, get?_foldl_insert ∅ hl]
  simp

/-- Two maps that are made of entries with distinct keys are the same if the entries are, in whatever
order they came. -/
theorem ofList_eq_ofList_iff {l l' : List (κ × ν)} (hl : (l.map Prod.fst).Nodup)
    (hl' : (l'.map Prod.fst).Nodup) : ofList l = ofList l' ↔ ∀ e, e ∈ l ↔ e ∈ l' := by
  constructor
  · rintro h ⟨k, v⟩
    rw [← get?_ofList hl, h, get?_ofList hl']
  · intro h
    refine ext_get? fun k => Option.ext fun v => ?_
    rw [get?_ofList hl, h, get?_ofList hl']

omit [DecidableLT κ] [DecidableEq κ] in
/-- No key of a map stands twice. -/
theorem nodup_keys (m : SortedMap κ ν) : (m.entries.map Prod.fst).Nodup := by
  refine List.pairwise_map.2 (m.ascending.imp ?_)
  intro a b hab heq
  rw [heq] at hab
  exact lt_irrefl b.1 hab

/-- A map is made of its entries. -/
theorem ofList_entries (m : SortedMap κ ν) : ofList m.entries = m := by
  refine ext_get? fun k => Option.ext fun v => ?_
  rw [get?_ofList m.nodup_keys, mem_entries_iff]

omit [DecidableEq κ] in
/-- The keys of a map are those of its entries. -/
theorem contains_iff_mem_entries {m : SortedMap κ ν} {k : κ} :
    m.contains k = true ↔ k ∈ m.entries.map Prod.fst := by
  rw [contains, Option.isSome_iff_exists, List.mem_map]
  constructor
  · rintro ⟨v, hv⟩
    exact ⟨(k, v), mem_entries_iff.2 hv, rfl⟩
  · rintro ⟨e, he, rfl⟩
    exact ⟨e.2, mem_entries_iff.1 he⟩

/-- The entries that are left when a key is taken out. -/
theorem entries_erase (m : SortedMap κ ν) (k : κ) :
    (m.erase k).entries = m.entries.filter fun e => e.1 ≠ k := by
  have hsorted : (m.entries.filter fun e => e.1 ≠ k).Pairwise (·.1 < ·.1) := m.ascending.filter _
  refine entries_eq_of_lookup (m.erase k).ascending hsorted fun k' => Option.ext fun v => ?_
  rw [← mem_iff_lookup hsorted, List.mem_filter, mem_entries_iff]
  show (m.erase k).get? k' = some v ↔ _
  rw [get?_erase]
  by_cases h : k' = k
  · simp [h]
  · simp [h]

omit [DecidableEq κ] in
/-- The entries of a map are what it was made of, in another order. -/
theorem entries_perm {m : SortedMap κ ν} {l : List (κ × ν)} (hl : (l.map Prod.fst).Nodup)
    (hm : ∀ k v, m.get? k = some v ↔ (k, v) ∈ l) : m.entries.Perm l := by
  refine (List.perm_ext_iff_of_nodup m.nodup_keys.of_map hl.of_map).2 ?_
  rintro ⟨k, v⟩
  rw [mem_entries_iff, hm]

omit [DecidableEq κ] in
/-- A value is replaced by a later one. -/
theorem insert_insert_self (m : SortedMap κ ν) (k : κ) (v w : ν) :
    (m.insert k v).insert k w = m.insert k w := by
  classical
  refine ext_get? fun k' => ?_
  simp only [get?_insert]
  split <;> rfl

omit [DecidableEq κ] in
/-- Values under different keys are inserted in any order. -/
theorem insert_comm (m : SortedMap κ ν) {k k' : κ} (h : k' ≠ k) (v w : ν) :
    (m.insert k v).insert k' w = (m.insert k' w).insert k v := by
  classical
  refine ext_get? fun l => ?_
  simp only [get?_insert]
  by_cases hl : l = k'
  · simp [hl, h]
  · simp [hl]

/-- **A loop that inserts new keys** inserts entries with distinct keys.  `wrap` is what the loop
keeps the map in. -/
theorem foldlM_insert {ε σ : Type} (wrap : SortedMap κ ν → σ) {f : σ → κ × ν → Except ε σ}
    (hf : ∀ m e, m.get? e.1 = none → f (wrap m) e = .ok (wrap (m.insert e.1 e.2)))
    {l : List (κ × ν)} (hl : (l.map Prod.fst).Nodup) (m : SortedMap κ ν)
    (hm : ∀ e ∈ l, m.get? e.1 = none) :
    l.foldlM f (wrap m) = .ok (wrap (l.foldl (fun m e => m.insert e.1 e.2) m)) := by
  induction l generalizing m with
  | nil => rfl
  | cons e l ih =>
    rw [List.map_cons, List.nodup_cons] at hl
    obtain ⟨hfresh, hl⟩ := hl
    have hnext : ∀ e' ∈ l, (m.insert e.1 e.2).get? e'.1 = none := by
      intro e' he'
      have hne : e'.1 ≠ e.1 := fun h => hfresh (h ▸ List.mem_map_of_mem he')
      rw [get?_insert, if_neg hne]
      exact hm e' (List.mem_cons_of_mem e he')
    rw [List.foldlM_cons, hf m e (hm e List.mem_cons_self)]
    exact ih hl (m.insert e.1 e.2) hnext

/-! ## Changed values -/

variable {μ : Type}

omit [DecidableEq κ] in
/-- Changing every value changes what is found. -/
theorem get?_mapValues (f : ν → μ) (m : SortedMap κ ν) (k : κ) :
    (m.mapValues f).get? k = (m.get? k).map f := by
  refine Option.ext fun w => ?_
  rw [← mem_entries_iff, mapValues, List.mem_map]
  constructor
  · rintro ⟨e, he, heq⟩
    obtain ⟨rfl, rfl⟩ := Prod.mk.inj heq
    rw [mem_entries_iff.1 he]
    rfl
  · intro h
    obtain ⟨v, hv, rfl⟩ := Option.map_eq_some_iff.1 h
    exact ⟨(k, v), mem_entries_iff.2 hv, rfl⟩

theorem mapValues_insert (f : ν → μ) (m : SortedMap κ ν) (k : κ) (v : ν) :
    (m.insert k v).mapValues f = (m.mapValues f).insert k (f v) := by
  refine ext_get? fun k' => ?_
  rw [get?_mapValues, get?_insert, get?_insert, get?_mapValues]
  split <;> rfl

theorem mapValues_erase (f : ν → μ) (m : SortedMap κ ν) (k : κ) :
    (m.erase k).mapValues f = (m.mapValues f).erase k := by
  refine ext_get? fun k' => ?_
  rw [get?_mapValues, get?_erase, get?_erase, get?_mapValues]
  split <;> rfl

omit [DecidableLT κ] [LE κ] [Std.LawfulOrderLT κ] [Std.IsLinearOrder κ] [DecidableEq κ] in
/-- The values are changed one by one, in their order. -/
theorem values_mapValues (f : ν → μ) (m : SortedMap κ ν) :
    (m.mapValues f).values = m.values.map f := by
  rw [values, values, mapValues, List.map_map, List.map_map]
  rfl

omit [DecidableLT κ] [LE κ] [Std.LawfulOrderLT κ] [Std.IsLinearOrder κ] [DecidableEq κ] in
/-- No entry is added or lost. -/
theorem size_mapValues (f : ν → μ) (m : SortedMap κ ν) : (m.mapValues f).size = m.size :=
  List.length_map _

end ObjectStore.SortedMap
