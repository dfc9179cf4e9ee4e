import Mathlib
import ObjectStore.Text.Utf8

/-!
# UTF-8 read back

What writing a character produces is read as that character (`decodeChar?_encode`), so no character
is a beginning of another one's bytes.  Therefore a text that is cut anywhere is read up to the last
character that is complete, and what is left is less than a character (`decodePrefix_of_append`),
which is what a reader in chunks needs.
-/

namespace ObjectStore.Utf8

/-! ## One character -/

/-- The first byte of a character tells its width, and its bytes tell its code point. -/
theorem utf8EncodeChar_spec (c : Char) :
    ∃ b tail, String.utf8EncodeChar c = b :: tail ∧ width b = tail.length + 1 ∧
      codePoint (b :: tail) = c.toNat := by
  have hvalid : c.toNat < 0x110000 := by
    rcases c.valid with h | h
    · exact lt_trans h (by norm_num)
    · exact h.2
  have hval : c.val.toNat = c.toNat := rfl
  simp only [String.utf8EncodeChar, hval]
  -- one case for every width
  split
  · refine ⟨_, _, rfl, ?_, ?_⟩
    · simp only [width, UInt8.lt_iff_toNat_lt, UInt8.toNat_ofNat', UInt8.reduceToNat,
        List.length_nil]
      split <;> omega
    · simp only [codePoint, UInt8.toNat_ofNat']
      omega
  · split
    · refine ⟨_, _, rfl, ?_, ?_⟩
      · simp only [width, UInt8.lt_iff_toNat_lt, UInt8.toNat_ofNat', UInt8.reduceToNat,
          List.length_cons, List.length_nil]
        split <;> [omega; split <;> omega]
      · simp only [codePoint, low, UInt8.toNat_ofNat']
        omega
    · split
      · refine ⟨_, _, rfl, ?_, ?_⟩
        · simp only [width, UInt8.lt_iff_toNat_lt, UInt8.toNat_ofNat', UInt8.reduceToNat,
            List.length_cons, List.length_nil]
          split <;> [omega; split <;> [omega; split <;> omega]]
        · simp only [codePoint, low, UInt8.toNat_ofNat']
          omega
      · refine ⟨_, _, rfl, ?_, ?_⟩
        · simp only [width, UInt8.lt_iff_toNat_lt, UInt8.toNat_ofNat', UInt8.reduceToNat,
            List.length_cons, List.length_nil]
          split <;> [omega; split <;> [omega; split <;> omega]]
        · simp only [codePoint, low, UInt8.toNat_ofNat']
          omega

/-- **A written character is read back**, whatever follows it. -/
theorem decodeChar?_encode (c : Char) (rest : Bytes) :
    decodeChar? (String.utf8EncodeChar c ++ rest) = some (c, rest) := by
  obtain ⟨b, tail, hc, hwidth, hpoint⟩ := utf8EncodeChar_spec c
  have htake : (b :: (tail ++ rest)).take (width b) = b :: tail := by
    rw [hwidth, List.take_succ_cons, List.take_left]
  have hdrop : (b :: (tail ++ rest)).drop (width b) = rest := by
    rw [hwidth, List.drop_succ_cons, List.drop_left]
  rw [hc, List.cons_append, decodeChar?]
  simp only [htake, hdrop, hpoint, Char.ofNat_toNat, hc, if_true]

/-- A zero byte stands for the zero character only. -/
theorem eq_zero_of_mem_utf8EncodeChar {c : Char} (h : 0 ∈ String.utf8EncodeChar c) :
    c = '\x00' := by
  have hval : c.val.toNat = c.toNat := rfl
  have hvalid : c.toNat < 0x110000 := by
    rcases c.valid with h | h
    · exact lt_trans h (by norm_num)
    · exact h.2
  have hzero : ∀ n : Nat, (0 : UInt8) = UInt8.ofNat n → n % 256 = 0 := by
    intro n hn
    rw [← UInt8.toNat_ofNat', ← hn]
    rfl
  have hpoint : c.toNat = 0 := by
    simp only [String.utf8EncodeChar, hval] at h
    -- the bytes of a longer form are never zero
    split at h
    · have := hzero _ (List.mem_singleton.1 h)
      omega
    · split at h
      · simp only [List.mem_cons, List.not_mem_nil, or_false] at h
        rcases h with h | h <;>
        · have := hzero _ h
          omega
      · split at h
        · simp only [List.mem_cons, List.not_mem_nil, or_false] at h
          rcases h with h | h | h <;>
          · have := hzero _ h
            omega
        · simp only [List.mem_cons, List.not_mem_nil, or_false] at h
          rcases h with h | h | h | h <;>
          · have := hzero _ h
            omega
  rw [← Char.ofNat_toNat c, hpoint]

/-- A character takes one to four bytes. -/
theorem length_utf8EncodeChar_le (c : Char) : (String.utf8EncodeChar c).length ≤ 4 := by
  rw [String.length_utf8EncodeChar]
  exact c.utf8Size_le_four

/-- The bytes of a character without the last of them are no character. -/
theorem decodeChar?_of_append {p q : Bytes} {c : Char} (h : p ++ q = String.utf8EncodeChar c)
    (hq : q ≠ []) : decodeChar? p = none := by
  cases hp : decodeChar? p with
  | none => rfl
  | some r =>
    obtain ⟨c', rest⟩ := r
    have hsplit : String.utf8EncodeChar c' ++ (rest ++ q) = String.utf8EncodeChar c := by
      rw [← h, decodeChar?_eq_some hp, List.append_assoc]
    have hboth : some (c', rest ++ q) = some (c, []) := by
      rw [← decodeChar?_encode c', hsplit, ← decodeChar?_encode c, List.append_nil]
    have hrest : rest ++ q = [] := (Prod.mk.inj (Option.some.inj hboth)).2
    exact absurd (List.append_eq_nil_iff.1 hrest).2 hq

/-! ## Texts -/

@[simp] theorem encode_cons (c : Char) (cs : List Char) :
    encode (c :: cs) = String.utf8EncodeChar c ++ encode cs := rfl

/-- Reading as much as possible goes on after a character. -/
theorem decodePrefix_encode_append (c : Char) (bs : Bytes) :
    decodePrefix (String.utf8EncodeChar c ++ bs)
      = (c :: (decodePrefix bs).1, (decodePrefix bs).2) := by
  rw [decodePrefix]
  split
  · rename_i h
    rw [decodeChar?_encode] at h
    cases h
  · rename_i c' rest h
    rw [decodeChar?_encode] at h
    cases h
    rfl

/-- Reading as much as possible stops where there is no character. -/
theorem decodePrefix_of_none {bs : Bytes} (h : decodeChar? bs = none) :
    decodePrefix bs = ([], bs) := by
  rw [decodePrefix]
  split
  · rfl
  · rename_i h'
    rw [h] at h'
    cases h'

/-- **A text that is cut anywhere** is read up to the last complete character, and less than a
character is left. -/
theorem decodePrefix_of_append {p q : Bytes} {cs : List Char} (h : p ++ q = encode cs) :
    ∃ read unread, cs = read ++ unread ∧ (decodePrefix p).1 = read ∧
      (decodePrefix p).2 ++ q = encode unread ∧ (decodePrefix p).2.length ≤ 3 ∧
      decodeChar? (decodePrefix p).2 = none := by
  induction cs generalizing p with
  | nil =>
    obtain ⟨rfl, rfl⟩ := List.append_eq_nil_iff.1 h
    rw [decodePrefix_of_none rfl]
    exact ⟨[], [], rfl, rfl, rfl, Nat.zero_le 3, rfl⟩
  | cons c cs ih =>
    rw [encode_cons] at h
    rcases List.append_eq_append_iff.1 h with ⟨tail, hc, hq⟩ | ⟨p', rfl, hp'⟩
    · -- the cut is within the character or right behind it
      by_cases htail : tail = []
      · subst htail
        rw [List.append_nil] at hc
        rw [List.nil_append] at hq
        subst hq
        rw [← hc, ← List.append_nil (String.utf8EncodeChar c), decodePrefix_encode_append,
          decodePrefix_of_none rfl]
        exact ⟨[c], cs, rfl, rfl, rfl, Nat.zero_le 3, rfl⟩
      · have hnone := decodeChar?_of_append hc.symm htail
        rw [decodePrefix_of_none hnone]
        refine ⟨[], c :: cs, rfl, rfl, h, ?_, hnone⟩
        have hfour := length_utf8EncodeChar_le c
        have hpos := List.length_pos_iff.2 htail
        rw [hc, List.length_append] at hfour
        show p.length ≤ 3
        omega
    · obtain ⟨read, unread, hcs, hread, hrest, hlength, hnone⟩ := ih hp'.symm
      rw [decodePrefix_encode_append]
      refine ⟨c :: read, unread, ?_, ?_, hrest, hlength, hnone⟩
      · rw [hcs, List.cons_append]
      · rw [← hread]

/-- A written text is read back whole. -/
theorem decodePrefix_encode (cs : List Char) : decodePrefix (encode cs) = (cs, []) := by
  induction cs with
  | nil => exact decodePrefix_of_none rfl
  | cons c cs ih => rw [encode_cons, decodePrefix_encode_append, ih]

/-- **A written text is read back.** -/
theorem decode?_encode (cs : List Char) : decode? (encode cs) = some cs := by
  rw [decode?, decodePrefix_encode]

/-- Only the empty text has no character at its front. -/
theorem eq_nil_of_decodeChar?_encode {cs : List Char} (h : decodeChar? (encode cs) = none) :
    cs = [] := by
  cases cs with
  | nil => rfl
  | cons c cs =>
    rw [encode_cons, decodeChar?_encode] at h
    cases h

end ObjectStore.Utf8
