/-!
# Finite maps in key order

`SortedMap κ ν` is a finite map kept as its list of entries with strictly ascending keys.  Two maps
with the same look-ups are therefore the same value (`SortedMap.ext_get?`), and listing a map lists
it by key.

Main statements: `get?_insert` and `get?_erase` say what an update does to a look-up,
`mem_entries_iff` ties the entries to the look-up, and `ext_get?` is extensionality.
-/

namespace ObjectStore

/-- A finite map as its entries, keys strictly ascending. -/
structure SortedMap (κ ν : Type) [LT κ] where
  /-- The entries by ascending key. -/
  entries : List (κ × ν)
  /-- No key stands twice, and the keys ascend. -/
  ascending : entries.Pairwise (·.1 < ·.1)
  deriving DecidableEq

namespace SortedMap

variable {κ ν : Type} [LT κ]

/-! ## Entry lists -/

variable [DecidableLT κ]

/-- The value beside key `k`. -/
def lookup (k : κ) : List (κ × ν) → Option ν
  | [] => none
  | (k', v) :: rest => if k < k' then none else if k' < k then lookup k rest else some v

/-- Puts `v` beside key `k`, in place of what stood there. -/
def place (k : κ) (v : ν) : List (κ × ν) → List (κ × ν)
  | [] => [(k, v)]
  | (k', v') :: rest =>
    if k < k' then (k, v) :: (k', v') :: rest
    else if k' < k then (k', v') :: place k v rest
    else (k, v) :: rest

/-- Takes key `k` out. -/
def drop (k : κ) : List (κ × ν) → List (κ × ν)
  | [] => []
  | (k', v') :: rest =>
    if k < k' then (k', v') :: rest
    else if k' < k then (k', v') :: drop k rest
    else rest

/-- An entry after `place k v` is the new one or an old one. -/
theorem mem_of_mem_place {k : κ} {v : ν} {e : κ × ν} {l : List (κ × ν)}
    (h : e ∈ place k v l) : e = (k, v) ∨ e ∈ l := by
  induction l with
  | nil => simpa [place] using h
  | cons hd tl ih =>
    obtain ⟨k', v'⟩ := hd
    simp only [place] at h
    split at h
    · simpa using h
    · split at h
      · rcases List.mem_cons.1 h with h | h
        · exact Or.inr (by simp [h])
        · rcases ih h with h | h
          · exact Or.inl h
          · exact Or.inr (by simp [h])
      · rcases List.mem_cons.1 h with h | h
        · exact Or.inl h
        · exact Or.inr (by simp [h])

/-- `drop` only takes entries away. -/
theorem drop_sublist (k : κ) (l : List (κ × ν)) : (drop k l).Sublist l := by
  induction l with
  | nil => exact List.Sublist.slnil
  | cons hd tl ih =>
    obtain ⟨k', v'⟩ := hd
    simp only [drop]
    split
    · exact List.Sublist.refl _
    · split
      · exact ih.cons_cons _
      · exact List.sublist_cons_self _ _

theorem lookup_eq_none_of_lt {k : κ} {l : List (κ × ν)} (h : ∀ e ∈ l, k < e.1) :
    lookup k l = none := by
  cases l with
  | nil => rfl
  | cons hd tl => simp [lookup, h hd (by simp)]

variable [LE κ] [Std.LawfulOrderLT κ]

omit [DecidableLT κ] in
/-- No key is below itself. -/
theorem lt_irrefl [Std.IsPreorder κ] (k : κ) : ¬ k < k := Std.lt_irrefl

variable [Std.IsLinearOrder κ]

omit [DecidableLT κ] in
/-- Of two keys neither of which is below the other, each is the other. -/
theorem eq_of_not_lt {a b : κ} (h₁ : ¬ a < b) (h₂ : ¬ b < a) : a = b :=
  Std.le_antisymm (Std.not_lt.1 h₂) (Std.not_lt.1 h₁)

/-- `place` keeps the keys ascending. -/
theorem place_ascending (k : κ) (v : ν) {l : List (κ × ν)} (h : l.Pairwise (·.1 < ·.1)) :
    (place k v l).Pairwise (·.1 < ·.1) := by
  induction l with
  | nil => simp [place]
  | cons hd tl ih =>
    obtain ⟨k', v'⟩ := hd
    have htl := List.pairwise_cons.1 h
    simp only [place]
    split
    · rename_i hlt
      refine List.pairwise_cons.2 ⟨fun e he => ?_, h⟩
      rcases List.mem_cons.1 he with rfl | he
      · exact hlt
      · exact Std.lt_trans hlt (htl.1 e he)
    · split
      · rename_i hgt
        refine List.pairwise_cons.2 ⟨fun e he => ?_, ih htl.2⟩
        rcases mem_of_mem_place he with rfl | he
        · exact hgt
        · exact htl.1 e he
      · rename_i h₁ h₂
        have hk : k = k' := eq_of_not_lt h₁ h₂
        subst hk
        exact List.pairwise_cons.2 ⟨fun e he => htl.1 e he, htl.2⟩

/-! ## The map -/

/-- The map without entries. -/
def empty : SortedMap κ ν := ⟨[], List.Pairwise.nil⟩

instance : EmptyCollection (SortedMap κ ν) := ⟨empty⟩

instance : Inhabited (SortedMap κ ν) := ⟨empty⟩

/-- The value stored under `k`. -/
def get? (m : SortedMap κ ν) (k : κ) : Option ν := lookup k m.entries

/-- Whether a value is stored under `k`. -/
def contains (m : SortedMap κ ν) (k : κ) : Bool := (m.get? k).isSome

/-- Stores `v` under `k`, in place of what was there. -/
def insert (m : SortedMap κ ν) (k : κ) (v : ν) : SortedMap κ ν :=
  ⟨place k v m.entries, place_ascending k v m.ascending⟩

/-- Takes `k` out of the map. -/
def erase (m : SortedMap κ ν) (k : κ) : SortedMap κ ν :=
  ⟨drop k m.entries, m.ascending.sublist (drop_sublist k m.entries)⟩

omit [DecidableLT κ] [LE κ] [Std.LawfulOrderLT κ] [Std.IsLinearOrder κ] in
/-- Changing values keeps the keys ascending. -/
theorem map_ascending {μ : Type} (f : ν → μ) {l : List (κ × ν)} (h : l.Pairwise (·.1 < ·.1)) :
    (l.map fun e => (e.1, f e.2)).Pairwise (·.1 < ·.1) :=
  List.pairwise_map.2 h

/-- Changes every value. -/
def mapValues {μ : Type} (f : ν → μ) (m : SortedMap κ ν) : SortedMap κ μ :=
  ⟨m.entries.map fun e => (e.1, f e.2), map_ascending f m.ascending⟩

/-- The number of entries. -/
def size (m : SortedMap κ ν) : Nat := m.entries.length

/-- The keys, ascending. -/
def keys (m : SortedMap κ ν) : List κ := m.entries.map (·.1)

/-- The values, by ascending key. -/
def values (m : SortedMap κ ν) : List ν := m.entries.map (·.2)

/-- The map with the given entries; of two entries with one key the later counts. -/
def ofList (l : List (κ × ν)) : SortedMap κ ν := l.foldl (fun m e => m.insert e.1 e.2) ∅

/-! ## Look-up after an update -/

theorem lookup_place [DecidableEq κ] (k k' : κ) (v : ν) (l : List (κ × ν)) :
    lookup k' (place k v l) = if k' = k then some v else lookup k' l := by
  induction l with
  | nil =>
    by_cases h : k' = k
    · subst h; simp [place, lookup, lt_irrefl]
    · simp only [place, lookup, h, if_false]
      split
      · rfl
      · split
        · rfl
        · rename_i h₁ h₂; exact absurd (eq_of_not_lt h₁ h₂) h
  | cons hd tl ih =>
    obtain ⟨a, b⟩ := hd
    simp only [place]
    by_cases h : k' = k
    · subst h
      simp only [if_true]
      split
      · simp [lookup, lt_irrefl]
      · split
        · simp [lookup, *]
        · simp [lookup, lt_irrefl]
    · simp only [h, if_false] at ih ⊢
      -- the entry is placed in front of the first one, behind it or in its stead
      split
      · rename_i hlt
        simp only [lookup]
        by_cases h₁ : k' < k
        · simp [h₁, Std.lt_trans h₁ hlt]
        · have h₂ : k < k' := by
            rcases Classical.em (k < k') with h₂ | h₂
            · exact h₂
            · exact absurd (eq_of_not_lt h₁ h₂) h
          simp [h₁, h₂]
      · split
        · simp only [lookup, ih]
        · rename_i h₁ h₂
          have hk : k = a := eq_of_not_lt h₁ h₂
          subst hk
          simp only [lookup]
          split
          · rfl
          · split
            · rfl
            · rename_i h₃ h₄; exact absurd (eq_of_not_lt h₃ h₄) h

theorem lookup_drop [DecidableEq κ] (k k' : κ) {l : List (κ × ν)} (hl : l.Pairwise (·.1 < ·.1)) :
    lookup k' (drop k l) = if k' = k then none else lookup k' l := by
  induction l with
  | nil => simp [drop, lookup]
  | cons hd tl ih =>
    obtain ⟨a, b⟩ := hd
    have htl := List.pairwise_cons.1 hl
    have ih := ih htl.2
    simp only [drop]
    by_cases h : k' = k
    · subst h
      simp only [if_true] at ih ⊢
      split
      · rename_i hlt; simp [lookup, hlt]
      · split
        · simp [lookup, *]
        · rename_i h₁ h₂
          have hk : k' = a := eq_of_not_lt h₁ h₂
          subst hk
          exact lookup_eq_none_of_lt htl.1
    · simp only [h, if_false] at ih ⊢
      split
      · rfl
      · split
        · simp only [lookup, ih]
        · rename_i h₁ h₂
          have hk : k = a := eq_of_not_lt h₁ h₂
          subst hk
          simp only [lookup]
          split
          · rename_i hlt
            exact lookup_eq_none_of_lt fun e he => Std.lt_trans hlt (htl.1 e he)
          · split
            · rfl
            · rename_i h₃ h₄; exact absurd (eq_of_not_lt h₃ h₄) h

theorem mem_iff_lookup {k : κ} {v : ν} {l : List (κ × ν)} (hl : l.Pairwise (·.1 < ·.1)) :
    (k, v) ∈ l ↔ lookup k l = some v := by
  induction l with
  | nil => simp [lookup]
  | cons hd tl ih =>
    obtain ⟨a, b⟩ := hd
    have htl := List.pairwise_cons.1 hl
    have ih := ih htl.2
    have hbelow : k < a → (k, v) ∉ tl := fun h he => lt_irrefl k (Std.lt_trans h (htl.1 _ he))
    simp only [lookup, List.mem_cons, Prod.mk.injEq]
    split
    · rename_i hlt
      constructor
      · rintro (⟨rfl, rfl⟩ | he)
        · exact absurd hlt (lt_irrefl k)
        · exact absurd he (hbelow hlt)
      · intro h; cases h
    · split
      · rename_i hgt
        constructor
        · rintro (⟨rfl, rfl⟩ | he)
          · exact absurd hgt (lt_irrefl k)
          · exact ih.1 he
        · exact fun h => Or.inr (ih.2 h)
      · rename_i h₁ h₂
        have hk : k = a := eq_of_not_lt h₁ h₂
        subst hk
        constructor
        · rintro (⟨_, rfl⟩ | he)
          · rfl
          · exact absurd (htl.1 _ he) (lt_irrefl k)
        · intro h; exact Or.inl ⟨rfl, (Option.some.inj h).symm⟩

omit [LE κ] [Std.LawfulOrderLT κ] [Std.IsLinearOrder κ] in
@[simp] theorem get?_empty (k : κ) : (∅ : SortedMap κ ν).get? k = none := rfl

theorem get?_insert [DecidableEq κ] (m : SortedMap κ ν) (k k' : κ) (v : ν) :
    (m.insert k v).get? k' = if k' = k then some v else m.get? k' :=
  lookup_place k k' v m.entries

@[simp] theorem get?_insert_self [DecidableEq κ] (m : SortedMap κ ν) (k : κ) (v : ν) :
    (m.insert k v).get? k = some v := by simp [get?_insert]

theorem get?_erase [DecidableEq κ] (m : SortedMap κ ν) (k k' : κ) :
    (m.erase k).get? k' = if k' = k then none else m.get? k' :=
  lookup_drop k k' m.ascending

/-- The entries are the pairs that a look-up finds. -/
theorem mem_entries_iff {m : SortedMap κ ν} {k : κ} {v : ν} :
    (k, v) ∈ m.entries ↔ m.get? k = some v :=
  mem_iff_lookup m.ascending

/-! ## Extensionality -/

theorem entries_eq_of_lookup {l l' : List (κ × ν)} (h : l.Pairwise (·.1 < ·.1))
    (h' : l'.Pairwise (·.1 < ·.1)) (hk : ∀ k, lookup k l = lookup k l') : l = l' := by
  induction l generalizing l' with
  | nil =>
    cases l' with
    | nil => rfl
    | cons hd tl => simpa [lookup, lt_irrefl] using hk hd.1
  | cons hd tl ih =>
    obtain ⟨a, b⟩ := hd
    have htl := List.pairwise_cons.1 h
    cases l' with
    | nil => simpa [lookup, lt_irrefl] using hk a
    | cons hd' tl' =>
      obtain ⟨a', b'⟩ := hd'
      have htl' := List.pairwise_cons.1 h'
      -- of two different first keys the smaller one is found in one of the lists only
      have ha : a = a' := by
        apply eq_of_not_lt
        · intro hlt
          have := hk a
          simp [lookup, lt_irrefl, hlt] at this
        · intro hlt
          have := hk a'
          simp [lookup, lt_irrefl, hlt] at this
      subst ha
      have hb : b = b' := by simpa [lookup, lt_irrefl] using hk a
      subst hb
      congr 1
      refine ih htl.2 htl'.2 fun k => ?_
      by_cases hka : k = a
      · subst hka
        rw [lookup_eq_none_of_lt htl.1, lookup_eq_none_of_lt htl'.1]
      · have := hk k
        simp only [lookup] at this
        split at this
        · rename_i hlt
          rw [lookup_eq_none_of_lt fun e he => Std.lt_trans hlt (htl.1 e he),
            lookup_eq_none_of_lt fun e he => Std.lt_trans hlt (htl'.1 e he)]
        · split at this
          · exact this
          · rename_i h₁ h₂; exact absurd (eq_of_not_lt h₁ h₂) hka

/-- Two maps with the same look-ups are one. -/
theorem ext_get? {m m' : SortedMap κ ν} (h : ∀ k, m.get? k = m'.get? k) : m = m' := by
  obtain ⟨l, hl⟩ := m
  obtain ⟨l', hl'⟩ := m'
  have : l = l' := entries_eq_of_lookup hl hl' h
  subst this
  rfl

end SortedMap

end ObjectStore
