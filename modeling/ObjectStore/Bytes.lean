/-!
# Bytes

Strings of bytes, and numbers in a fixed number of bytes with the most significant one first.

Main statement: `ofBigEndian_bigEndian`, reading `n` bytes gives back the number written in them.
-/

namespace ObjectStore

-- Powers are those of the core library, also where others are in sight.
attribute [local instance (high)] instPowNat

/-- A string of bytes. -/
abbrev Bytes := List UInt8

/-- The lowest `n` bytes of `v`, most significant first. -/
def bigEndian : Nat → Nat → Bytes
  | 0, _ => []
  | n + 1, v => UInt8.ofNat (v / 256 ^ n) :: bigEndian n v

/-- The number that bytes spell, most significant first. -/
def ofBigEndian (bs : Bytes) : Nat := bs.foldl (fun acc b => acc * 256 + b.toNat) 0

@[simp] theorem length_bigEndian (n v : Nat) : (bigEndian n v).length = n := by
  induction n with
  | zero => rfl
  | succ n ih => simp [bigEndian, ih]

theorem foldl_bigEndian (n v acc : Nat) :
    (bigEndian n v).foldl (fun acc b => acc * 256 + b.toNat) acc = acc * 256 ^ n + v % 256 ^ n := by
  induction n generalizing acc with
  | zero => simp [bigEndian, Nat.mod_one]
  | succ n ih =>
    have hb : (UInt8.ofNat (v / 256 ^ n)).toNat = v / 256 ^ n % 256 := by simp
    have hm : v % 256 ^ (n + 1) = 256 ^ n * (v / 256 ^ n % 256) + v % 256 ^ n := by
      rw [Nat.pow_succ, Nat.mod_mul, Nat.add_comm]
    rw [bigEndian, List.foldl_cons, ih, hb, hm, Nat.pow_succ, Nat.add_mul, Nat.mul_assoc,
      Nat.mul_comm 256, Nat.mul_comm (v / 256 ^ n % 256), Nat.add_assoc]

/-- Reading `n` bytes gives back the number written in them. -/
theorem ofBigEndian_bigEndian {n v : Nat} (h : v < 256 ^ n) : ofBigEndian (bigEndian n v) = v := by
  simp [ofBigEndian, foldl_bigEndian, Nat.mod_eq_of_lt h]

end ObjectStore
