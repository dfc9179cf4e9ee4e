import Mathlib
import ObjectStore.Proofs.Cbor.SelfDelimiting
import ObjectStore.Proofs.Object.Grammar
import ObjectStore.Proofs.Object.PackedBytes

/-!
# Objects end where they end

An object is decoded from the bytes at the front, and the bytes behind them are not looked at.
Therefore more bytes never change what was decoded, or why it failed, as long as the bytes did not
come to their end (`Object.decode_append`); and an object that is cut off is no other object and no
other fault (`Object.decode_truncated`).

Main statement: `decoding_is_selfDelimiting`.
-/

namespace ObjectStore

open Cbor

namespace Object

/-- **More bytes do not change what was decoded.** -/
theorem decode_append {bs : Bytes}
    (h : decode bs ≠ .error (.decodingFailed (.unreadable .endOfInput))) (s : Bytes) :
    decode (bs ++ s) = decode bs := by
  have hitem : Item.decode bs ≠ .error .endOfInput := fun heq => h (decode_eq_unreadable_iff.2 heq)
  unfold decode
  rw [Item.decode_append hitem s]

/-- **Fewer bytes are not decoded at all.** -/
theorem decode_truncated {o : Object} (ho : o.Fits) {p : Bytes} (hp : p <+: o.encode)
    (hne : p ≠ o.encode) : decode p = .error (.decodingFailed (.unreadable .endOfInput)) := by
  have hread := (spells_encode ho (o.encode.length + 1) 254).read 0 []
  rw [List.append_nil] at hread
  exact decode_eq_unreadable_iff.2 (Item.decode_truncated hread rfl hp hne)

end Object

/-- **Decoding is self-delimiting.**  Whatever the bytes are, what is decoded from them, be it an
object or a fault other than that they end too early, is also decoded with any bytes behind them;
and the bytes that a builder delivered end too early wherever they are cut. -/
theorem decoding_is_selfDelimiting :
    (∀ bs s : Bytes, Object.decode bs ≠ .error (.decodingFailed (.unreadable .endOfInput)) →
      Object.decode (bs ++ s) = Object.decode bs) ∧
    ∀ (id : ObjectId) (fields : List (Slot × Value)) (b : Builder) (bytes : Bytes),
      b.Worked id fields → b.packedBytes = .ok bytes → (∀ f ∈ fields, f.2.Fits) →
        ∀ p, p <+: bytes → p ≠ bytes →
          Object.decode p = .error (.decodingFailed (.unreadable .endOfInput)) := by
  refine ⟨fun bs s h => Object.decode_append h s, ?_⟩
  intro id fields b bytes h hbytes hfits p hp hne
  obtain ⟨hslots, rfl⟩ := h.packed hbytes
  exact Object.decode_truncated (Object.fits_ofList hslots hfits) hp hne

/-- A character that is cut short is a fault of the text, whatever comes behind it, where its length
says that the text is over; the same text packed by a builder and cut within the character has come
to its end too early. -/
theorem decoding_is_selfDelimiting_cutCharacter :
    Object.decode [0x82, 0x07, 0xA1, 0x01, 0x61, 0xC3] = .error (.decodingFailed (.unreadable
        (.malformed 4))) ∧
      Object.decode ([0x82, 0x07, 0xA1, 0x01, 0x61, 0xC3] ++ [0xA9, 0x00])
        = .error (.decodingFailed (.unreadable (.malformed 4))) ∧
      (∃ b : Builder, b.Worked 7 [(1, .text "é")] ∧
        b.packedBytes = .ok [0x82, 0x07, 0xA1, 0x01, 0x62, 0xC3, 0xA9]) ∧
      Object.decode [0x82, 0x07, 0xA1, 0x01, 0x62, 0xC3]
        = .error (.decodingFailed (.unreadable .endOfInput)) := by
  have hfault : Object.decode [0x82, 0x07, 0xA1, 0x01, 0x61, 0xC3]
      = .error (.decodingFailed (.unreadable (.malformed 4))) := by decide +kernel
  have h : Builder.Worked 7 [(1, .text "é")] _ :=
    .pack (.complete (.add (.start (.new 0) rfl) rfl)) ⟨0⟩
  have hbytes : Builder.packedBytes _ = .ok [0x82, 0x07, 0xA1, 0x01, 0x62, 0xC3, 0xA9] :=
    show Builder.packedBytes ⟨.packed (Object.mk 7 (.ofList [(1, .text "é")])).encode, 0⟩ = _ by
      decide +kernel
  refine ⟨hfault, ?_, ⟨_, h, hbytes⟩, ?_⟩
  · rw [decoding_is_selfDelimiting.1 _ _ (by rw [hfault]; nofun), hfault]
  · exact decoding_is_selfDelimiting.2 7 _ _ _ h hbytes (by decide +kernel) _ ⟨[0xA9], rfl⟩
      (by decide)

end ObjectStore
