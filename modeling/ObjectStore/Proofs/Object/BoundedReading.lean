import Mathlib
import ObjectStore.Proofs.Cbor.Nesting
import ObjectStore.Proofs.Object.Grammar

/-!
# Reading stays within bounds

The item that an object is made of is read in full before it is judged, and bytes from anywhere may
announce any lengths and nest in any way.  What is read from them is still no larger than the bytes
that it takes and no deeper than 256 levels, and whatever is well formed but deeper is refused for
that.

Main statement: `decoding_stays_bounded`.
-/

namespace ObjectStore

open Cbor

/-- **Reading stays within bounds**, whatever the bytes are.  An item that was read has no more than
256 levels and weighs no more than the bytes taken.  Well-formed bytes at the front, with any
number of levels and with strings in segments of any depth, are refused as too deep exactly if they
have more than 256 levels, and read otherwise. -/
theorem decoding_stays_bounded (bs : Bytes) :
    (∀ item last, Item.read (.ofBytes bs) = .ok (item, last) →
      item.depth ≤ 256 ∧ item.weight ≤ last.offset ∧
        last.offset + last.rest.length = bs.length) ∧
    ∀ d p item, Whole (ContentWithin d) p item → p <+: bs →
      (Object.decode bs = .error (.decodingFailed (.unreadable .tooDeep)) ↔ 256 < item.depth) ∧
      (Item.decode bs = .ok item ↔ item.depth ≤ 256) := by
  constructor
  · intro item last hread
    obtain ⟨hwhole, hlength⟩ := Item.whole_of_read hread
    have hweight := Item.weight_le_of_whole hwhole
    obtain ⟨head, _, q, -, hq, -⟩ := hwhole
    exact ⟨hq.depth_le, hweight.trans (List.length_take_le _ _), hlength⟩
  · intro d p item hwhole hp
    have hdecode : Item.decode bs = if item.depth ≤ 256 then .ok item else .error .tooDeep :=
      Item.decode_of_whole hwhole hp
    rw [Object.decode_eq_unreadable_iff, hdecode]
    by_cases hshallow : item.depth ≤ 256
    · rw [if_pos hshallow]
      exact ⟨⟨nofun, fun hdeep => absurd hshallow (Nat.not_le.2 hdeep)⟩, fun _ => hshallow,
        fun _ => rfl⟩
    · rw [if_neg hshallow]
      exact ⟨⟨fun _ => Nat.not_le.1 hshallow, fun _ => rfl⟩, nofun,
        fun h => absurd h hshallow⟩

/-! ## Nested arrays -/

/-- An item in `n` arrays of one item each. -/
def nested (n : Nat) (item : Item) : Item := (fun inner => Item.array [inner])^[n] item

theorem nested_succ (n : Nat) (item : Item) : nested (n + 1) item = .array [nested n item] :=
  Function.iterate_succ_apply' _ n item

theorem depth_nested (n : Nat) (item : Item) : (nested n item).depth = n + item.depth := by
  induction n with
  | zero => exact (Nat.zero_add _).symm
  | succ n ih =>
    rw [nested_succ, Item.depth, Item.depths, Item.depths, ih]
    omega

theorem whole_nested {p : Bytes} {item : Item} (h : Whole (ContentWithin 0) p item) (n : Nat) :
    Whole (ContentWithin n) (List.replicate n 0x81 ++ p) (nested n item) := by
  induction n with
  | zero => exact h
  | succ n ih =>
    have hone : Sequence (Whole (ContentWithin n)) (List.replicate n 0x81 ++ p) [nested n item] := by
      have h := Sequence.cons ih .nil
      rwa [List.append_nil] at h
    rw [nested_succ]
    exact ⟨.array (some 1), [0x81], _, .array (.definite (.short (by omega : 1 < 24))),
      .array rfl ⟨hone, rfl⟩, rfl⟩

/-- Openings and their breaks, and no bytes between them. -/
def breaks (k : Nat) : Bytes := List.replicate k 0x5F ++ List.replicate k 0xFF

theorem breaks_succ (k : Nat) : breaks (k + 1) = opening 2 ++ (breaks k ++ closing) := by
  rw [breaks, breaks, List.replicate_succ, List.replicate_succ']
  simp only [List.cons_append, List.append_assoc]
  rfl

theorem segments_breaks (k : Nat) : Segments .bytes (breaks k) [] := by
  induction k with
  | zero => exact .nil
  | succ k ih =>
    have h := Segments.nested ih .nil
    rw [List.append_nil] at h
    rw [breaks_succ]
    exact h

theorem whole_breaks (k : Nat) : Whole (ContentWithin 0) (breaks (k + 1)) (.bytes []) := by
  rw [breaks_succ]
  exact whole_iff.2 (.bytes (.indefinite (segments_breaks k)))

/-- Bytes that are an item and nothing else are all taken. -/
theorem read_of_whole {p : Bytes} {item : Item} (h : Whole (ContentWithin 256) p item) :
    Item.read (.ofBytes p) = .ok (item, ⟨p.length, []⟩) :=
  (Item.read_recognizes _ _ _).2 ⟨p, h, (List.append_nil p).symm, (Nat.zero_add _).symm⟩

/-- The segments of a string are no levels: in 256 arrays the empty string is read with three hundred
of them, and in one more array it is refused. -/
theorem decoding_stays_bounded_nestedArrays :
    Item.decode (List.replicate 256 0x81 ++ breaks 301) = .ok (nested 256 (.bytes [])) ∧
      (nested 256 (.bytes [])).weight ≤ (List.replicate 256 0x81 ++ breaks 301).length ∧
      Object.decode (List.replicate 257 0x81 ++ breaks 301)
        = .error (.decodingFailed (.unreadable .tooDeep)) := by
  have hwhole (n : Nat) := whole_nested (whole_breaks 300) n
  have hdepth (n : Nat) : (nested n (.bytes [])).depth = n := depth_nested n _
  have hread := read_of_whole (hwhole 256)
  refine ⟨?_, ((decoding_stays_bounded _).1 _ _ hread).2.1, ?_⟩
  · exact ((decoding_stays_bounded _).2 _ _ _ (hwhole 256) List.prefix_rfl).2.2 (hdepth 256).le
  · refine ((decoding_stays_bounded _).2 _ _ _ (hwhole 257) List.prefix_rfl).1.2 ?_
    rw [hdepth]
    decide

end ObjectStore
