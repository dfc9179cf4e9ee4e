import Mathlib
import ObjectStore.Proofs.Cbor.Nesting

/-!
# The shortest spellings

`Head.write` spells every head in the fewest bytes, and a number in the narrowest binary format
(`Head.write_shortest`).  A head and what follows it are not always the shortest spelling of an item:
an integer whose head takes nine bytes takes seven or eight behind tag 2 or 3 if five or six bytes are
enough for it (`IntegerSaving`), and a text or byte string whose head takes nine bytes takes eight
besides its content if it stands in two segments and one of them is short (`StrSaving`).  Nothing
else is shorter.

Main statements: `Head.write_shortest`, `IntegerSaving.length_le`, `StrSaving.length_le`.
-/

namespace ObjectStore.Cbor

open Head

/-! ## Heads -/

section Heads

variable {bs : Bytes} {major n : Nat}

theorem length_argument (major n : Nat) :
    (argument major n).length =
      if n < 24 then 1
      else if n < 256 then 2
      else if n < 0x10000 then 3
      else if n < 0x100000000 then 5
      else 9 := by
  unfold argument
  repeat' split
  all_goals rfl

theorem Argument.ne_nil (h : Argument major bs n) : bs ≠ [] := by
  cases h with
  | short h => exact List.cons_ne_nil _ _
  | long hk hbs => exact List.cons_ne_nil _ _

/-- **An argument in the fewest bytes** is no longer than in any other width. -/
theorem Argument.length_le (h : Argument major bs n) : (argument major n).length ≤ bs.length := by
  rw [length_argument]
  cases h with
  | short h =>
    rw [if_pos h]
    rfl
  | long hk hbs =>
    rename_i k seg
    have hlt := ofBigEndian_lt seg
    rw [hbs] at hlt
    rw [List.length_cons, hbs]
    obtain rfl | rfl | rfl | rfl : k = 0 ∨ k = 1 ∨ k = 2 ∨ k = 3 := by omega
    all_goals
      norm_num at hlt
      split_ifs <;> omega

theorem length_narrowest (bits : Nat) (half single : Option Nat) :
    (narrowest bits half single).length
      = if half.isSome then 3 else if single.isSome then 5 else 9 := by
  cases half with
  | some narrowed => simp [narrowest]
  | none => cases single <;> simp [narrowest]

/-- **A number in the narrowest format** is no longer than in any other one that keeps its bits. -/
theorem Floating.length_le {bits : Nat} (h : Floating bs bits) :
    (floating bits).length ≤ bs.length := by
  rw [floating, length_narrowest]
  cases h with
  | half h =>
    have hnarrow := FloatFormat.narrow?_widen FloatFormat.half_proper (ofBigEndian ‹Bytes›)
    rw [if_pos (Option.isSome_iff_ne_none.2 hnarrow), List.length_cons, h]
  | single h =>
    have hnarrow := FloatFormat.narrow?_widen FloatFormat.single_proper (ofBigEndian ‹Bytes›)
    rw [if_pos (Option.isSome_iff_ne_none.2 hnarrow), List.length_cons, h]
    split <;> omega
  | double h =>
    rw [List.length_cons, h]
    split_ifs <;> omega

theorem Sized.length_le {length : Option Nat} (h : Sized major bs length) :
    (sized major length).length ≤ bs.length := by
  cases h with
  | definite h => exact h.length_le
  | indefinite => exact le_refl _

theorem Simple.length_le (h : Simple bs n) : (Head.simple n).write.length ≤ bs.length := by
  rw [write]
  cases h with
  | short h => rw [if_pos h]
  | long b => split <;> simp

variable {head : Head}

theorem Head.spelled_write (h : head.Fits) : Spelled head.write head := by
  obtain ⟨p, hp, hrest, -⟩ := (read_recognizes _ _ _).1 (read_write h 0 [])
  have heq : head.write = p := by simpa using hrest
  rwa [heq]

/-- **Heads are written in the fewest bytes**, and numbers in binary format in the narrowest format
that keeps all their bits. -/
theorem Head.write_shortest (h : head.Fits) :
    Spelled head.write head ∧ ∀ bs, Spelled bs head → head.write.length ≤ bs.length := by
  refine ⟨spelled_write h, fun bs hbs => ?_⟩
  cases hbs with
  | unsigned hn => exact hn.length_le
  | negative hn => exact hn.length_le
  | bytes hlength => exact hlength.length_le
  | text hlength => exact hlength.length_le
  | array hlength => exact hlength.length_le
  | map hlength => exact hlength.length_le
  | tag hn => exact hn.length_le
  | simple hn => exact hn.length_le
  | float hbits => exact hbits.length_le
  | stop => exact le_refl _

end Heads

/-! ## Integers -/

/-- What a number behind tag 2 or 3 saves against its head if it takes so many bytes, with the tag: the
head of a number below `2 ^ 32` has five bytes at most, and that of any other one has nine. -/
def bignumSaving (n length : Nat) : Nat := if n < 0x100000000 then 0 else 9 - length

/-- The bytes of an integer, and how many bytes they may be shorter than its head. -/
inductive IntegerSaving : Bytes → Int → Nat → Prop
  | unsigned {bs : Bytes} {n : Nat} (h : Argument 0 bs n) : IntegerSaving bs n 0
  | negative {bs : Bytes} {n : Nat} (h : Argument 1 bs n) : IntegerSaving bs (-1 - n) 0
  | big {tag head seg : Bytes} (htag : Argument 6 tag 2) (hhead : Argument 2 head seg.length)
      (hlength : seg.length ≤ 16) :
      IntegerSaving (tag ++ (head ++ seg)) (ofBigEndian seg)
        (bignumSaving (ofBigEndian seg) (tag ++ (head ++ seg)).length)
  | bigNegative {tag head seg : Bytes} (htag : Argument 6 tag 3)
      (hhead : Argument 2 head seg.length) (hlength : seg.length ≤ 16) :
      IntegerSaving (tag ++ (head ++ seg)) (-1 - ofBigEndian seg)
        (bignumSaving (ofBigEndian seg) (tag ++ (head ++ seg)).length)

section Integers

variable {bs : Bytes} {n : Int}

/-- Every spelling of an integer saves something or nothing. -/
theorem integer_iff_saving : Integer bs n ↔ ∃ saved, IntegerSaving bs n saved := by
  constructor
  · intro h
    cases h with
    | unsigned h => exact ⟨_, .unsigned h⟩
    | negative h => exact ⟨_, .negative h⟩
    | big htag hhead hlength => exact ⟨_, .big htag hhead hlength⟩
    | bigNegative htag hhead hlength => exact ⟨_, .bigNegative htag hhead hlength⟩
  · rintro ⟨saved, h⟩
    cases h with
    | unsigned h => exact .unsigned h
    | negative h => exact .negative h
    | big htag hhead hlength => exact .big htag hhead hlength
    | bigNegative htag hhead hlength => exact .bigNegative htag hhead hlength

theorem Item.magnitude_natCast (n : Nat) : magnitude n = n := by
  rw [magnitude, if_pos (by omega)]
  exact Int.toNat_natCast n

theorem Item.magnitude_negative (n : Nat) : magnitude (-1 - n) = n := by
  rw [magnitude, if_neg (by omega)]
  omega

/-- A tag and a head take at least two bytes, and a number at least as many as it needs. -/
theorem bignum_length {tag head seg : Bytes} (htag : tag ≠ []) (hhead : head ≠ []) :
    2 ≤ (tag ++ (head ++ seg)).length ∧
      ∀ k, 256 ^ k ≤ ofBigEndian seg → k + 3 ≤ (tag ++ (head ++ seg)).length := by
  have htag := List.length_pos_iff.2 htag
  have hhead := List.length_pos_iff.2 hhead
  rw [List.length_append, List.length_append]
  refine ⟨by omega, fun k hseg => ?_⟩
  have hlt : 256 ^ k < 256 ^ seg.length := hseg.trans_lt (ofBigEndian_lt seg)
  have hk := (Nat.pow_lt_pow_iff_right (by omega)).1 hlt
  omega

theorem bignum_length_le {major : Nat} {tag head seg : Bytes} (htag : tag ≠ []) (hhead : head ≠ []) :
    (argument major (ofBigEndian seg)).length ≤ (tag ++ (head ++ seg)).length
      + bignumSaving (ofBigEndian seg) (tag ++ (head ++ seg)).length := by
  obtain ⟨hany, hlength⟩ := bignum_length htag hhead
  generalize (tag ++ (head ++ seg)).length = length at hany hlength ⊢
  have hone : 256 ≤ ofBigEndian seg → 4 ≤ length := hlength 1
  have htwo : 0x10000 ≤ ofBigEndian seg → 5 ≤ length := hlength 2
  rw [length_argument, bignumSaving]
  split_ifs <;> omega

/-- **An integer is no shorter** than its head, except for what its tag saves. -/
theorem IntegerSaving.length_le {saved : Nat} (h : IntegerSaving bs n saved) (major : Nat) :
    (argument major (Item.magnitude n)).length ≤ bs.length + saved := by
  cases h with
  | unsigned h =>
    rw [Item.magnitude_natCast, length_argument, ← length_argument 0]
    exact h.length_le
  | negative h =>
    rw [Item.magnitude_negative, length_argument, ← length_argument 1]
    exact h.length_le
  | big htag hhead hlength =>
    rw [Item.magnitude_natCast]
    exact bignum_length_le htag.ne_nil hhead.ne_nil
  | bigNegative htag hhead hlength =>
    rw [Item.magnitude_negative]
    exact bignum_length_le htag.ne_nil hhead.ne_nil

/-- Nothing is saved on a number of at most 32 bits. -/
theorem IntegerSaving.eq_zero {saved : Nat} (h : IntegerSaving bs n saved)
    (hsmall : Item.magnitude n < 0x100000000) : saved = 0 := by
  cases h with
  | unsigned h => rfl
  | negative h => rfl
  | big htag hhead hlength =>
    rw [Item.magnitude_natCast] at hsmall
    exact if_pos hsmall
  | bigNegative htag hhead hlength =>
    rw [Item.magnitude_negative] at hsmall
    exact if_pos hsmall

end Integers

/-! ## Strings -/

/-- What segments of so many bytes with their heads may save against one head for a string of the
given size: one byte if that is `2 ^ 32` or more and the heads take six bytes, those of one segment
below 24 bytes and of one below `2 ^ 32`. -/
def segmentSaving (size length : Nat) : Nat :=
  if 0x100000000 ≤ size ∧ length = size + 6 then 1 else 0

/-- The bytes of a text or byte string, and how many bytes they may be shorter than one head with the
content behind it. -/
inductive StrSaving (kind : StringKind) : Bytes → List kind.Element → Nat → Prop
  | definite {bs : Bytes} {xs : List kind.Element} (h : Definite kind bs xs) : StrSaving kind bs xs 0
  | indefinite {bs : Bytes} {xs : List kind.Element} (h : Segments kind bs xs) :
      StrSaving kind (opening kind.major ++ (bs ++ closing)) xs
        (segmentSaving (kind.size xs) bs.length)

section Strings

variable {kind : StringKind} {bs : Bytes} {xs : List kind.Element}

/-- Every spelling of a string saves something or nothing. -/
theorem str_iff_saving : Str kind bs xs ↔ ∃ saved, StrSaving kind bs xs saved := by
  constructor
  · intro h
    cases h with
    | definite h => exact ⟨_, .definite h⟩
    | indefinite h => exact ⟨_, .indefinite h⟩
  · rintro ⟨saved, h⟩
    cases h with
    | definite h => exact .definite h
    | indefinite h => exact .indefinite h

/-- The most bytes that stand in segments whose heads take `n` bytes, for up to five of them: in one
segment, or, for four, in two. -/
def capacity : (n : Nat) → Nat
  | 0 => 0
  | 1 => 23
  | 2 => 0xFF
  | 3 => 0xFFFF
  | 4 => 0xFFFF + 23
  | _ => 0xFFFFFFFF

/-- Segments hold less in two groups than in one. -/
theorem capacity_add {m n : Nat} (h : m + n ≤ 5) : capacity m + capacity n ≤ capacity (m + n) := by
  have hsmall : ∀ m < 6, ∀ n < 6, m + n ≤ 5 → capacity m + capacity n ≤ capacity (m + n) := by decide
  exact hsmall m (by omega) n (by omega) h

theorem capacity_mono {m n : Nat} (h : m ≤ n) (hn : n ≤ 5) : capacity m ≤ capacity n := by
  have hsmall : ∀ n < 6, ∀ m < 6, m ≤ n → capacity m ≤ capacity n := by decide
  exact hsmall n (by omega) m (by omega) h

theorem Argument.le_capacity {major n : Nat} (h : Argument major bs n) (hbs : bs.length ≤ 5) :
    n ≤ capacity bs.length := by
  have hlength := h.length_le
  have hcapacity := capacity_mono hlength hbs
  refine le_trans ?_ hcapacity
  rw [length_argument] at hlength ⊢
  split_ifs at hlength ⊢
  all_goals
    simp only [capacity]
    omega

/-- **Segments hold no more** than their heads have room for. -/
theorem Segments.le_capacity (h : Segments kind bs xs) :
    ∃ heads, bs.length = kind.size xs + heads ∧ (heads ≤ 5 → kind.size xs ≤ capacity heads) := by
  induction h with
  | nil => exact ⟨0, by cases kind <;> rfl, fun _ => by cases kind <;> exact le_refl _⟩
  | definite h tail ih =>
    obtain ⟨head, seg, hhead, hseg, rfl⟩ := h
    obtain ⟨heads, hlength, hroom⟩ := ih
    rw [StringKind.size_append, hseg.size]
    refine ⟨head.length + heads, ?_, fun hfew => ?_⟩
    · rw [List.length_append, List.length_append]
      omega
    · have hfirst := hhead.le_capacity (by omega)
      have hrest := hroom (by omega)
      have hboth := capacity_add hfew
      omega
  | nested h tail ih ih' =>
    obtain ⟨heads, hlength, hroom⟩ := ih
    obtain ⟨heads', hlength', hroom'⟩ := ih'
    rw [StringKind.size_append]
    refine ⟨heads + heads' + 2, ?_, fun hfew => ?_⟩
    · simp only [List.length_append, opening, closing, List.length_singleton]
      omega
    · have hfirst := hroom (by omega)
      have hrest := hroom' (by omega)
      have hboth : capacity heads + capacity heads' ≤ capacity (heads + heads') :=
        capacity_add (by omega)
      have hmore : capacity (heads + heads') ≤ capacity (heads + heads' + 2) :=
        capacity_mono (by omega) hfew
      omega

/-- **A string is no shorter** than its head and its content, except for what its segments save. -/
theorem StrSaving.length_le {saved : Nat} (h : StrSaving kind bs xs saved) (major : Nat) :
    (argument major (kind.size xs)).length + kind.size xs ≤ bs.length + saved := by
  cases h with
  | definite h =>
    obtain ⟨head, seg, hhead, hseg, rfl⟩ := h
    have hle := hhead.length_le
    rw [length_argument] at hle
    rw [hseg.size, length_argument, List.length_append]
    omega
  | indefinite h =>
    obtain ⟨heads, hlength, hroom⟩ := h.le_capacity
    have hnone : heads ≤ 0 → kind.size xs ≤ 0 := fun hfew =>
      (hroom (by omega)).trans (capacity_mono hfew (by omega))
    have htwo : heads ≤ 2 → kind.size xs ≤ 0xFF := fun hfew =>
      (hroom (by omega)).trans (capacity_mono hfew (by omega))
    have hfive : heads ≤ 5 → kind.size xs ≤ 0xFFFFFFFF := fun hfew =>
      (hroom hfew).trans (capacity_mono hfew (by omega))
    rw [length_argument, segmentSaving]
    simp only [List.length_append, opening, closing, List.length_singleton]
    split_ifs <;> omega

/-- Bytes in a segment with the shortest head. -/
theorem definite_argument {xs : Bytes} (h : xs.length < 2 ^ 64) :
    Definite .bytes (argument 2 xs.length ++ xs) xs := by
  have hhead : Spelled (argument 2 xs.length) (.bytes (some xs.length)) :=
    @spelled_write (.bytes (some xs.length)) fun n hn => Option.some.inj hn ▸ h
  refine ⟨argument 2 xs.length, xs, ?_, rfl, rfl⟩
  generalize argument 2 xs.length = head at hhead ⊢
  cases hhead with
  | bytes hlength =>
    cases hlength with
    | definite hargument => exact hargument

/-- A byte is saved indeed: on `2 ^ 32` bytes of which one stands in a segment of its own. -/
theorem StrSaving.exists_saving :
    ∃ bs xs, StrSaving .bytes bs xs 1 ∧
      (argument 2 xs.length).length + xs.length = bs.length + 1 := by
  obtain ⟨xs, hxs⟩ : ∃ xs : Bytes, xs.length = 0xFFFFFFFF :=
    ⟨List.replicate 0xFFFFFFFF 0, List.length_replicate⟩
  obtain ⟨ys, hys⟩ : ∃ ys : Bytes, ys.length = 1 := ⟨[0], rfl⟩
  have hxs' : xs.length < 2 ^ 64 := by omega
  have hys' : ys.length < 2 ^ 64 := by omega
  have hsegments := Segments.definite (definite_argument hxs')
    (.definite (definite_argument hys') .nil)
  have hsize : StringKind.bytes.size (xs ++ (ys ++ [])) = 0x100000000 := by
    simp only [StringKind.size, List.length_append, hxs, hys, List.length_nil]
  have hbytes : (argument 2 xs.length ++ xs ++ (argument 2 ys.length ++ ys ++ [])).length
      = 0x100000000 + 6 := by
    simp [length_argument, hxs, hys]
  have hsaving := StrSaving.indefinite hsegments
  rw [hsize, hbytes, segmentSaving, if_pos (by omega)] at hsaving
  refine ⟨_, _, hsaving, ?_⟩
  have hlength : (xs ++ (ys ++ [])).length = 0x100000000 := hsize
  rw [hlength, length_argument, List.length_append, List.length_append, hbytes]
  rfl

end Strings

/-! ## Arrays and maps -/

/-- The content of an array or a map stands behind a byte at least. -/
theorem Enclosed.length_lt {major count : Nat} {content bs : Bytes}
    (h : Enclosed major count content bs) : content.length < bs.length := by
  cases h with
  | definite h =>
    have hpos := List.length_pos_iff.2 h.ne_nil
    rw [List.length_append]
    omega
  | indefinite =>
    simp only [List.length_append, opening, closing, List.length_singleton]
    omega

end ObjectStore.Cbor
