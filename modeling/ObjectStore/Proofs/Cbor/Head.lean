import Mathlib
import ObjectStore.Cbor.Head
import ObjectStore.Proofs.FloatFormat

/-!
# Heads read back

A head whose numbers fit their places is read back from its shortest spelling, whatever follows
(`Head.read_write`).
-/

namespace ObjectStore.Cbor

/-- Taking the bytes at the front. -/
theorem Input.take_append {bs rest : Bytes} {n : Nat} (offset : Nat) (h : bs.length = n) :
    Input.take n ⟨offset, bs ++ rest⟩ = .ok (bs, ⟨offset + n, rest⟩) :=
  take_eq_ok_iff.2 ⟨h, rfl, rfl⟩

namespace Head

/-- The numbers that a head can spell. -/
def Fits : Head → Prop
  | unsigned n => n < 2 ^ 64
  | negative n => n < 2 ^ 64
  | bytes length => ∀ n ∈ length, n < 2 ^ 64
  | text length => ∀ n ∈ length, n < 2 ^ 64
  | array length => ∀ n ∈ length, n < 2 ^ 64
  | map length => ∀ n ∈ length, n < 2 ^ 64
  | tag n => n < 2 ^ 64
  | simple n => n < 2 ^ 8
  | float bits => bits < 2 ^ 64
  | stop => True

/-! ## The initial byte -/

variable {offset major info n : Nat} {rest : Bytes} {head : Head}

/-- A head is read by its initial byte. -/
theorem read_initial (offset : Nat) (hmajor : major < 8) (hinfo : info < 32) (rest : Bytes) :
    read ⟨offset, initial major info :: rest⟩ = (do
      let (argument, after) ← readArgument offset info ⟨offset + 1, rest⟩
      match assemble? major info argument with
      | some head => return (head, after)
      | none => throw (.malformed offset)) := by
  have hbyte : (initial major info).toNat = major * 32 + info := by
    rw [initial, UInt8.toNat_ofNat']
    omega
  have hdiv : (initial major info).toNat / 32 = major := by omega
  have hmod : (initial major info).toNat % 32 = info := by omega
  -- the byte says no more than its two halves
  generalize initial major info = byte at hdiv hmod ⊢
  subst hdiv hmod
  rfl

/-- A small argument stands in the initial byte. -/
theorem readArgument_of_lt (start : Nat) (inp : Input) (h : info < 24) :
    readArgument start info inp = .ok (some info, inp) := by
  rw [readArgument, if_pos h]

/-- A longer argument stands in the next 1, 2, 4 or 8 bytes. -/
theorem readArgument_bigEndian (start offset : Nat) {k : Nat} (hk : k < 4)
    (hn : n < 256 ^ 2 ^ k) (rest : Bytes) :
    readArgument start (24 + k) ⟨offset, bigEndian (2 ^ k) n ++ rest⟩
      = .ok (some n, ⟨offset + 2 ^ k, rest⟩) := by
  rw [readArgument, if_neg (by omega), if_pos (by omega), Nat.add_sub_cancel_left,
    Input.take_append offset (length_bigEndian _ _)]
  simp only [bind, Except.bind, pure, Except.pure, ofBigEndian_bigEndian hn]

/-- A head with an argument in the next bytes is read back. -/
theorem read_bigEndian (offset : Nat) (hmajor : major < 8) {k : Nat} (hk : k < 4)
    (hn : n < 256 ^ 2 ^ k) (hhead : assemble? major (24 + k) (some n) = some head) (rest : Bytes) :
    read ⟨offset, initial major (24 + k) :: bigEndian (2 ^ k) n ++ rest⟩
      = .ok (head,
          ⟨offset + (initial major (24 + k) :: bigEndian (2 ^ k) n).length, rest⟩) := by
  rw [List.cons_append, read_initial offset hmajor (by omega),
    readArgument_bigEndian offset (offset + 1) hk hn, List.length_cons, length_bigEndian,
    Nat.add_comm (2 ^ k) 1, ← Nat.add_assoc]
  simp only [bind, Except.bind, hhead, pure, Except.pure]

/-- A head without a length is read back. -/
theorem read_indefinite (offset : Nat) (hmajor : major < 8)
    (hhead : assemble? major 31 none = some head) (rest : Bytes) :
    read ⟨offset, [initial major 31] ++ rest⟩ = .ok (head, ⟨offset + 1, rest⟩) := by
  rw [List.singleton_append, read_initial offset hmajor (by omega)]
  simp [readArgument, bind, Except.bind, hhead, pure, Except.pure]

/-! ## Arguments and lengths -/

/-- **A head with an argument in the fewest bytes is read back.** -/
theorem read_argument (offset : Nat) (hmajor : major < 8) (hn : n < 2 ^ 64)
    (hhead : ∀ info, assemble? major info (some n) = some head) (rest : Bytes) :
    read ⟨offset, argument major n ++ rest⟩
      = .ok (head, ⟨offset + (argument major n).length, rest⟩) := by
  rw [argument]
  split
  · rename_i hsmall
    rw [List.singleton_append, read_initial offset hmajor (by omega),
      readArgument_of_lt offset _ hsmall]
    simp only [bind, Except.bind, hhead, pure, Except.pure, List.length_singleton]
  split
  · rename_i hone
    exact read_bigEndian offset hmajor (k := 0) (by omega) hone (hhead _) rest
  split
  · rename_i htwo
    exact read_bigEndian offset hmajor (k := 1) (by omega) htwo (hhead _) rest
  split
  · rename_i hfour
    exact read_bigEndian offset hmajor (k := 2) (by omega) hfour (hhead _) rest
  · exact read_bigEndian offset hmajor (k := 3) (by omega) hn (hhead _) rest

/-- A head with a length or without one is read back. -/
theorem read_sized (offset : Nat) (hmajor : major < 8) {length : Option Nat}
    (hn : ∀ n ∈ length, n < 2 ^ 64) (hhead : ∀ info, assemble? major info length = some head)
    (rest : Bytes) :
    read ⟨offset, sized major length ++ rest⟩
      = .ok (head, ⟨offset + (sized major length).length, rest⟩) := by
  cases length with
  | none => exact read_indefinite offset hmajor (hhead 31) rest
  | some n => exact read_argument offset hmajor (hn n rfl) hhead rest

/-! ## The last major type -/

/-- A number is read back from any of the words that widen to it and fit their format. -/
theorem read_narrowest (offset : Nat) {bits : Nat} (hbits : bits < 2 ^ 64)
    {half single : Option Nat}
    (hhalf : ∀ n ∈ half, n < 2 ^ 16 ∧ FloatFormat.half.widen n = bits)
    (hsingle : ∀ n ∈ single, n < 2 ^ 32 ∧ FloatFormat.single.widen n = bits) (rest : Bytes) :
    read ⟨offset, narrowest bits half single ++ rest⟩
      = .ok (.float bits, ⟨offset + (narrowest bits half single).length, rest⟩) := by
  cases half with
  | some n =>
    obtain ⟨hlt, hwiden⟩ := hhalf n rfl
    have hhead : assemble? 7 (24 + 1) (some n) = some (.float bits) := by
      simp [assemble?, special, hwiden]
    exact read_bigEndian offset (by omega) (by omega) hlt hhead rest
  | none =>
    cases single with
    | some n =>
      obtain ⟨hlt, hwiden⟩ := hsingle n rfl
      have hhead : assemble? 7 (24 + 2) (some n) = some (.float bits) := by
        simp [assemble?, special, hwiden]
      exact read_bigEndian offset (by omega) (by omega) hlt hhead rest
    | none => exact read_bigEndian offset (by omega) (k := 3) (by omega) hbits rfl rest

/-- **A number in the narrowest format is read back**, bit for bit. -/
theorem read_floating (offset : Nat) {bits : Nat} (hbits : bits < 2 ^ 64) (rest : Bytes) :
    read ⟨offset, floating bits ++ rest⟩
      = .ok (.float bits, ⟨offset + (floating bits).length, rest⟩) := by
  rw [floating]
  refine read_narrowest offset hbits (fun n hn => ⟨?_, ?_⟩) (fun n hn => ⟨?_, ?_⟩) rest
  · exact FloatFormat.narrow?_lt FloatFormat.half_narrow hbits hn
  · exact FloatFormat.widen_of_narrow? hn
  · exact FloatFormat.narrow?_lt FloatFormat.single_narrow hbits hn
  · exact FloatFormat.widen_of_narrow? hn

/-- A simple value is read back. -/
theorem read_simple (offset : Nat) (hn : n < 2 ^ 8) (rest : Bytes) :
    read ⟨offset, (Head.simple n).write ++ rest⟩
      = .ok (.simple n, ⟨offset + (Head.simple n).write.length, rest⟩) := by
  rw [write]
  split
  · rename_i hsmall
    rw [List.singleton_append, read_initial offset (by omega) (by omega),
      readArgument_of_lt offset _ hsmall]
    have hinfo : n ≠ 25 ∧ n ≠ 26 ∧ n ≠ 27 := by omega
    simp [bind, Except.bind, assemble?, special, hinfo, pure, Except.pure]
  · have hbyte : [initial 7 24, UInt8.ofNat n] = initial 7 (24 + 0) :: bigEndian (2 ^ 0) n := by
      simp [bigEndian]
    rw [hbyte]
    exact read_bigEndian offset (by omega) (by omega) hn rfl rest

/-! ## All heads -/

/-- **Every head is read back from its shortest spelling.** -/
theorem read_write {head : Head} (h : head.Fits) (offset : Nat) (rest : Bytes) :
    read ⟨offset, head.write ++ rest⟩ = .ok (head, ⟨offset + head.write.length, rest⟩) := by
  cases head with
  | unsigned n => exact read_argument offset (by omega) h (fun _ => rfl) rest
  | negative n => exact read_argument offset (by omega) h (fun _ => rfl) rest
  | bytes length => exact read_sized offset (by omega) h (fun _ => rfl) rest
  | text length => exact read_sized offset (by omega) h (fun _ => rfl) rest
  | array length => exact read_sized offset (by omega) h (fun _ => rfl) rest
  | map length => exact read_sized offset (by omega) h (fun _ => rfl) rest
  | tag n => exact read_argument offset (by omega) h (fun _ => rfl) rest
  | simple n => exact read_simple offset h rest
  | float bits => exact read_floating offset h rest
  | stop => exact read_indefinite offset (by omega) rfl rest

end Head

end ObjectStore.Cbor
