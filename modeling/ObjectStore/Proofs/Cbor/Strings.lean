import Mathlib
import ObjectStore.Cbor.Strings
import ObjectStore.Proofs.Cbor.Head
import ObjectStore.Proofs.Text.Utf8

/-!
# Text segments read back

A text segment is read back whatever its length and wherever a chunk ends (`readText_encode`).  The
invariant of the chunks is in `readChunks_encode`: what is carried over and what is still to come
make up the rest of the text, and what is carried over is no character yet.
-/

namespace ObjectStore.Cbor

/-- **A text is read back in chunks**, whichever characters the ends of the chunks cut. -/
theorem readChunks_encode {start unread offset : Nat} {carried : Bytes}
    (hcarried : carried.length ≤ 3) {cs : List Char} {seg rest : Bytes}
    (hlength : seg.length = unread) (htext : carried ++ seg = Utf8.encode cs)
    (hnone : Utf8.decodeChar? carried = none) :
    readChunks start unread carried hcarried ⟨offset, seg ++ rest⟩
      = .ok (cs, ⟨offset + unread, rest⟩) := by
  induction unread using Nat.strong_induction_on generalizing offset carried cs seg with
  | h unread ih =>
    rw [readChunks]
    by_cases hzero : unread = 0
    · -- nothing is to come, so what is carried over is the rest of the text, and that is empty
      obtain rfl : seg = [] := List.length_eq_zero_iff.1 (hlength.trans hzero)
      rw [List.append_nil] at htext
      rw [htext] at hnone
      obtain rfl := Utf8.eq_nil_of_decodeChar?_encode hnone
      have hcarried' : carried = [] := htext
      rw [if_pos hzero, if_pos hcarried', hzero]
      rfl
    · rw [if_neg hzero]
      generalize hsize : min (bufferSize - carried.length) unread = size
      have hbuffer : bufferSize = 4096 := rfl
      have hpos : 0 < size := by omega
      have hle : size ≤ unread := by omega
      have hcut : seg.take size ++ seg.drop size = seg := List.take_append_drop size seg
      have hfresh : (seg.take size).length = size := by
        rw [List.length_take]
        omega
      have hlater : (seg.drop size).length = unread - size := by
        rw [List.length_drop, hlength]
      have hchunk : (carried ++ seg.take size) ++ seg.drop size = Utf8.encode cs := by
        rw [List.append_assoc, hcut, htext]
      -- whole characters are read from the chunk; what it cuts is carried over to the next one
      obtain ⟨read, unread', hcs, hread, hrest, hleft, hnone'⟩ :=
        Utf8.decodePrefix_of_append hchunk
      have htake : Input.take size ⟨offset, seg ++ rest⟩
          = .ok (seg.take size, ⟨offset + size, seg.drop size ++ rest⟩) := by
        rw [← Input.take_append offset hfresh, ← List.append_assoc, hcut]
      have hih : readChunks start (unread - size) (Utf8.decodePrefix (carried ++ seg.take size)).2
          hleft ⟨offset + size, seg.drop size ++ rest⟩
            = .ok (unread', ⟨offset + size + (unread - size), rest⟩) :=
        ih (unread - size) (by omega) hleft hlater hrest hnone'
      simp only [htake, dif_pos hleft, hih, bind, Except.bind, pure, Except.pure]
      rw [hread, ← hcs, Nat.add_assoc, Nat.add_sub_cancel' hle]

/-- **A text is read back**, in one piece if it fits the buffer and in chunks otherwise. -/
theorem readText_encode (start offset : Nat) (cs : List Char) (rest : Bytes) :
    readText start (Utf8.encode cs).length ⟨offset, Utf8.encode cs ++ rest⟩
      = .ok (cs, ⟨offset + (Utf8.encode cs).length, rest⟩) := by
  rw [readText]
  split
  · rw [readWhole, Input.take_append offset rfl]
    simp only [bind, Except.bind, Utf8.decode?_encode, pure, Except.pure]
  · exact readChunks_encode _ rfl (List.nil_append _) rfl

end ObjectStore.Cbor
