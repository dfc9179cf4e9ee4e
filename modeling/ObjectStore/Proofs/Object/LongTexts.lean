import Mathlib
import ObjectStore.Proofs.Cbor.Nesting
import ObjectStore.Proofs.Object.Grammar

/-!
# Long texts

A text that does not fit the reading buffer is read in chunks.  The end of a chunk may cut a character,
the next chunk may be shorter than what was carried over, and bytes that are no character may look like
the beginning of one where a chunk ends.

None of this can be told from what is read.  A segment is accepted in chunks exactly if its bytes are
valid UTF-8 as a whole, and it is the text of these bytes, just as if it had been read at once.  Main
statement: `long_text_is_read_at_once`.
-/

namespace ObjectStore

/-- Bytes are refused that are the bytes of no text. -/
theorem Utf8.decode?_eq_none_iff {bs : Bytes} : decode? bs = none ↔ ∀ cs, bs ≠ encode cs := by
  rw [Option.eq_none_iff_forall_ne_some]
  exact forall_congr' fun cs => not_congr decode?_eq_some_iff

namespace Cbor

/-! ## Segments -/

/-- What reading a segment comes to whose bytes are all there: its text, with the input behind it, or
an error where the segment counts as standing. -/
def textOf (start : Nat) (c : Bytes) (after : Input) : Except ReadError (List Char × Input) :=
  match Utf8.decode? c with
  | some cs => .ok (cs, after)
  | none => .error (.malformed start)

section Segment

variable {start offset : Nat} {c rest : Bytes}

/-- A segment that is read at once. -/
theorem readWhole_append (start offset : Nat) (c rest : Bytes) :
    readWhole start c.length ⟨offset, c ++ rest⟩ = textOf start c ⟨offset + c.length, rest⟩ := by
  rw [readWhole, Input.take_append offset rfl, textOf]
  cases h : Utf8.decode? c <;> simp only [bind, Except.bind, h] <;> rfl

/-- **A segment whose bytes are all there** is refused in chunks only for what its bytes are. -/
theorem readChunks_eq_error {carried : Bytes} (hcarried : carried.length ≤ 3) {unread : Nat}
    {e : ReadError} (hlength : c.length = unread)
    (h : readChunks start unread carried hcarried ⟨offset, c ++ rest⟩ = .error e) :
    e = .malformed start := by
  induction unread using Nat.strong_induction_on generalizing carried offset c with
  | h unread ih =>
    rw [readChunks] at h
    split at h
    · split at h
      · cases h
      · cases h
        rfl
    rename_i hmore
    generalize hsize : min (bufferSize - carried.length) unread = size at h
    have hbuffer : bufferSize = 4096 := rfl
    have hfresh : (c.take size).length = size := by
      rw [List.length_take]
      omega
    have hlater : (c.drop size).length = unread - size := by
      rw [List.length_drop, hlength]
    have htake : Input.take size ⟨offset, c ++ rest⟩
        = .ok (c.take size, ⟨offset + size, c.drop size ++ rest⟩) := by
      rw [← Input.take_append offset hfresh, ← List.append_assoc, List.take_append_drop]
    simp only [htake] at h
    split at h
    · rename_i hleft
      rcases bind_eq_error.1 h with hnext | ⟨_, -, hdone⟩
      · exact ih (unread - size) (by omega) hleft hlater hnext
      · cases hdone
    · cases h
      rfl

/-- **A segment that is read in chunks** is read as if it were read at once. -/
theorem readChunks_append (start offset : Nat) (c rest : Bytes) :
    readChunks start c.length [] (Nat.zero_le 3) ⟨offset, c ++ rest⟩
      = textOf start c ⟨offset + c.length, rest⟩ := by
  rw [textOf]
  cases hdecode : Utf8.decode? c with
  | some cs => exact readChunks_encode _ rfl (Utf8.decode?_eq_some_iff.1 hdecode) rfl
  | none =>
    cases hread : readChunks start c.length [] (Nat.zero_le 3) ⟨offset, c ++ rest⟩ with
    | error e => rw [readChunks_eq_error _ rfl hread]
    | ok r =>
      obtain ⟨cs, last⟩ := r
      obtain ⟨seg, hlength, htext, hsplits⟩ := encode_of_readChunks _ hread
      have hseg : c = seg := (List.append_inj hsplits.1 hlength.symm).1
      exact absurd (hseg.trans htext) (Utf8.decode?_eq_none_iff.1 hdecode cs)

/-- A text is read alike in chunks and at once, whatever its length. -/
theorem readText_append (start offset : Nat) (c rest : Bytes) :
    readText start c.length ⟨offset, c ++ rest⟩ = textOf start c ⟨offset + c.length, rest⟩ := by
  rw [readText]
  split
  · exact readWhole_append start offset c rest
  · exact readChunks_append start offset c rest

end Segment

/-! ## Behind a head -/

section Heads

variable {fuel offset : Nat} {inner : Except ReadError (BodyReader Item)} {head c rest : Bytes}

theorem read_textHead (hhead : Argument 3 head c.length) (offset : Nat) (rest : Bytes) :
    Head.read ⟨offset, head ++ rest⟩
      = .ok (.text (some c.length), ⟨offset + head.length, rest⟩) :=
  Head.read_of_splits (.text (.definite hhead)) ⟨rfl, rfl⟩

/-- Where a text behind this head counts as standing. -/
def textStart (offset : Nat) (head c : Bytes) : Nat :=
  offset + head.length - (Head.text (some c.length)).write.length

/-- A text of definite length. -/
theorem readWith_definite (offset : Nat) (head c rest : Bytes) :
    readWith fuel inner (.text (some c.length)) ⟨offset + head.length, c ++ rest⟩
      = (textOf (textStart offset head c) c ⟨offset + head.length + c.length, rest⟩).map
          fun r => (.text r.1, r.2) := by
  rw [readWith, readText_append, stringStart]
  rfl

/-- A segment inside a text of indefinite length. -/
theorem readSegments_segment (hhead : Argument 3 head c.length) (level offset : Nat) (rest : Bytes) :
    readSegments .text (fuel + 1) level ⟨offset, head ++ (c ++ rest)⟩ = do
      let (cs, after) ← textOf offset c ⟨offset + head.length + c.length, rest⟩
      let (ds, after) ← readSegments .text fuel level after
      return (cs ++ ds, after) := by
  have hsegment : StringKind.readSegment offset c.length ⟨offset + head.length, c ++ rest⟩ .text
      = textOf offset c ⟨offset + head.length + c.length, rest⟩ :=
    readChunks_append offset (offset + head.length) c rest
  rw [readSegments, read_textHead hhead]
  simp only [bind, Except.bind, StringKind.piece, hsegment]

/-- The end of a text of indefinite length. -/
theorem readSegments_closing (offset : Nat) (rest : Bytes) :
    readSegments .text (fuel + 1) 0 ⟨offset, closing ++ rest⟩ = .ok ([], ⟨offset + 1, rest⟩) := by
  have hstop : Head.read ⟨offset, closing ++ rest⟩ = .ok (.stop, ⟨offset + 1, rest⟩) :=
    Head.read_of_splits .stop ⟨rfl, rfl⟩
  rw [readSegments, hstop]
  rfl

/-- A text of indefinite length that is one segment. -/
theorem readWith_indefinite (hhead : Argument 3 head c.length) (offset : Nat) (rest : Bytes) :
    readWith (fuel + 2) inner (.text none) ⟨offset, head ++ (c ++ (closing ++ rest))⟩
      = (textOf offset c ⟨offset + head.length + c.length + 1, rest⟩).map
          fun r => (.text r.1, r.2) := by
  rw [readWith, readSegments_segment hhead, textOf, textOf]
  simp only [bind, Except.bind]
  cases Utf8.decode? c with
  | none => rfl
  | some cs =>
    dsimp only
    rw [readSegments_closing]
    simp only [pure, Except.pure, Except.map, List.append_nil]

/-- What is nested at most so deep is read by one and the same reader. -/
theorem exists_readWith (fuel depth : Nat) : ∃ inner, readBody fuel depth = readWith fuel inner := by
  cases depth with
  | zero => exact ⟨_, rfl⟩
  | succ depth => exact ⟨_, rfl⟩

end Heads

/-- Things that are spelled are read off the front of others. -/
theorem Spells.many_append {α β : Type} {body : BodyReader α} {encode : β → Bytes} {f : β → α}
    {xs : List β} (h : ∀ x ∈ xs, Spells body (encode x) (f x)) (n offset : Nat) (rest : Bytes) :
    readMany body (xs.length + n) ⟨offset, xs.flatMap encode ++ rest⟩ = do
      let (ys, after) ← readMany body n ⟨offset + (xs.flatMap encode).length, rest⟩
      return (xs.map f ++ ys, after) := by
  induction xs generalizing offset with
  | nil =>
    simp only [List.length_nil, Nat.zero_add, List.flatMap_nil, List.nil_append, Nat.add_zero,
      List.map_nil]
    cases readMany body n ⟨offset, rest⟩ <;> rfl
  | cons x xs ih =>
    have hx := h x List.mem_cons_self
    have hxs := ih (fun y hy => h y (List.mem_cons_of_mem x hy)) (offset + (encode x).length)
    have hread := hx.read offset (xs.flatMap encode ++ rest)
    simp only [bind, Except.bind] at hread
    rw [List.flatMap_cons, List.append_assoc, List.length_cons, Nat.add_right_comm, readMany]
    simp only [bind, Except.bind] at hxs ⊢
    cases hnext : Head.read ⟨offset, encode x ++ (xs.flatMap encode ++ rest)⟩ with
    | error e =>
      rw [hnext] at hread
      cases hread
    | ok r =>
      rw [hnext] at hread
      simp only [hread, hxs, List.length_append, Nat.add_assoc]
      cases readMany body n ⟨offset + ((encode x).length + (xs.flatMap encode).length), rest⟩ <;> rfl

end Cbor

/-! ## Fields -/

namespace Object

open Cbor

/-- The bytes of an object up to the value in its last slot. -/
def front (id : ObjectId) (before : List (Slot × Value)) (slot : Slot) : Bytes :=
  Head.write (.array (some 2)) ++ (Head.write (.unsigned id.toNat) ++
    (Head.write (.map (some (before.length + 1))) ++
      (before.flatMap encodeField ++ Head.write (.unsigned slot.toNat))))

section Fields

variable {id : ObjectId} {before : List (Slot × Value)} {slot : Slot}

/-- A map is read up to the value in its last slot. -/
theorem readBody_entries (hfits : ∀ f ∈ before, f.2.Fits) (fuel depth offset : Nat) (bs : Bytes) :
    readBody fuel (depth + 2) (.map (some (before.length + 1)))
        ⟨offset, before.flatMap encodeField ++ (Head.write (.unsigned slot.toNat) ++ bs)⟩ = do
      let (head, after) ← Head.read ⟨offset + (before.flatMap encodeField).length +
        (Head.write (.unsigned slot.toNat)).length, bs⟩
      let (item, after) ← readBody fuel (depth + 1) head after
      return (.map (before.map fieldItem ++ [(.int slot.toNat, item)]), after) := by
  have hpairs : ∀ f ∈ before,
      Spells (readPair (readBody fuel (depth + 1))) (encodeField f) (fieldItem f) :=
    fun f hf => spells_encodeField (hfits f hf) fuel _
  have hslot : (Head.unsigned slot.toNat).Fits := lt_trans slot.toNat_lt (by norm_num)
  have hkey : ∀ after, readBody fuel (depth + 1) (.unsigned slot.toNat) after
      = .ok (.int slot.toNat, after) := fun _ => rfl
  have hmap : ∀ inp, readBody fuel (depth + 2) (.map (some (before.length + 1))) inp = do
      let entries ← readMany (readPair (readBody fuel (depth + 1))) (before.length + 1) inp
      return (.map entries.1, entries.2) := fun _ => rfl
  rw [hmap, Spells.many_append hpairs]
  simp only [readMany, readPair, Head.read_write hslot, hkey, bind, Except.bind]
  cases Head.read ⟨offset + (before.flatMap encodeField).length +
    (Head.write (.unsigned slot.toNat)).length, bs⟩ with
  | error e => rfl
  | ok r =>
    dsimp only
    cases readBody fuel (depth + 1) r.1 r.2 <;> rfl

/-- An object is read up to the value in its last slot, which decides how it goes on. -/
theorem decode_front (hslots : (slot :: before.map Prod.fst).Nodup)
    (hfits : ∀ f ∈ before, f.2.Fits) (bs : Bytes) :
    decode (front id before slot ++ bs) =
      match (do
        let (head, after) ← Head.read ⟨(front id before slot).length, bs⟩
        readBody ((front id before slot ++ bs).length + 1) 254 head after) with
      | .ok (item, _) =>
        ofItem (.array [.int id.toNat, .map (before.map fieldItem ++ [(.int slot.toNat, item)])])
      | .error e => .error (.decodingFailed (.unreadable e)) := by
  generalize hfuel : (front id before slot ++ bs).length + 1 = fuel
  have hmap : (Head.map (some (before.length + 1))).Fits := by
    rintro n ⟨⟩
    have hle := length_slots_le hslots
    rw [List.length_cons, List.length_map] at hle
    exact lt_of_le_of_lt hle (by norm_num)
  have hid : (Head.unsigned id.toNat).Fits := id.toNat_lt
  have hpair : (Head.array (some 2)).Fits := by rintro n ⟨⟩; norm_num
  have hkey : ∀ after, readBody fuel 255 (.unsigned id.toNat) after
      = .ok (.int id.toNat, after) := fun _ => rfl
  have hlength : (front id before slot).length = 0 + (Head.write (.array (some 2))).length +
      (Head.write (.unsigned id.toNat)).length +
      (Head.write (.map (some (before.length + 1)))).length + (before.flatMap encodeField).length +
      (Head.write (.unsigned slot.toNat)).length := by
    simp only [front, List.length_append]
    omega
  have hdepth : readBody fuel maxDepth = readWith fuel (.ok (readBody fuel 255)) := rfl
  unfold decode Item.decode Item.read Input.ofBytes
  simp only [hfuel, hdepth]
  rw [hlength]
  simp only [front, List.append_assoc, Head.read_write hpair, Head.read_write hid,
    Head.read_write hmap, readBody_entries hfits, readWith, readSequence, readMany, hkey, bind,
    Except.bind]
  cases Head.read ⟨_, bs⟩ with
  | error e => rfl
  | ok r =>
    dsimp only
    cases readBody fuel 254 r.1 r.2 <;> rfl

/-- A text in the last slot is taken from its items. -/
theorem ofItem_text (hslots : (slot :: before.map Prod.fst).Nodup) (cs : List Char) :
    ofItem (.array [.int id.toNat, .map (before.map fieldItem ++ [(.int slot.toNat, .text cs)])])
      = .ok ⟨id, .ofList (before ++ [(slot, .text (String.ofList cs))])⟩ := by
  have htext : fieldItem (slot, .text (String.ofList cs)) = (.int slot.toNat, .text cs) :=
    congrArg (fun ds => (Item.int slot.toNat, Item.text ds)) String.toList_ofList
  have hitem : before.map fieldItem ++ [(.int slot.toNat, .text cs)]
      = (before ++ [(slot, Value.text (String.ofList cs))]).map fieldItem := by
    rw [List.map_append, List.map_singleton, htext]
  have hdistinct : ((before ++ [(slot, Value.text (String.ofList cs))]).map Prod.fst).Nodup := by
    rw [List.map_append, List.map_singleton]
    exact List.nodup_append_comm.1 hslots
  rw [hitem]
  exact ofItem_eq_ok (idOfItem_toNat id) (foldlM_addEntry_ofList hdistinct)

variable {head c : Bytes}

/-- **A text of definite length in a field** is what its bytes are as a whole. -/
theorem decode_definite (hslots : (slot :: before.map Prod.fst).Nodup)
    (hfits : ∀ f ∈ before, f.2.Fits) (hhead : Argument 3 head c.length) (rest : Bytes) :
    decode (front id before slot ++ (head ++ (c ++ rest))) =
      match Utf8.decode? c with
      | some cs => .ok ⟨id, .ofList (before ++ [(slot, .text (String.ofList cs))])⟩
      | none => .error (.decodingFailed (.unreadable
          (.malformed (textStart (front id before slot).length head c)))) := by
  generalize hlength : (front id before slot ++ (head ++ (c ++ rest))).length = length
  obtain ⟨inner, hinner⟩ := exists_readWith (length + 1) 254
  rw [decode_front hslots hfits, hlength, read_textHead hhead, hinner]
  simp only [bind, Except.bind, readWith_definite, textOf]
  cases Utf8.decode? c with
  | none => rfl
  | some cs => exact ofItem_text hslots cs

/-- **A segment of a text of indefinite length in a field** is what its bytes are as a whole. -/
theorem decode_indefinite (hslots : (slot :: before.map Prod.fst).Nodup)
    (hfits : ∀ f ∈ before, f.2.Fits) (hhead : Argument 3 head c.length) (rest : Bytes) :
    decode (front id before slot ++ (opening 3 ++ (head ++ (c ++ (closing ++ rest))))) =
      match Utf8.decode? c with
      | some cs => .ok ⟨id, .ofList (before ++ [(slot, .text (String.ofList cs))])⟩
      | none => .error (.decodingFailed (.unreadable
          (.malformed ((front id before slot).length + 1)))) := by
  obtain ⟨fuel, hfuel⟩ : ∃ fuel,
      (front id before slot ++ (opening 3 ++ (head ++ (c ++ (closing ++ rest))))).length + 1
        = fuel + 2 := by
    have hpos : (opening 3).length = 1 := rfl
    refine ⟨(front id before slot).length + (head ++ (c ++ (closing ++ rest))).length, ?_⟩
    rw [List.length_append, List.length_append, hpos]
    omega
  obtain ⟨inner, hinner⟩ := exists_readWith (fuel + 2) 254
  have hopening : ∀ offset rest, Head.read ⟨offset, opening 3 ++ rest⟩
      = .ok (.text none, ⟨offset + 1, rest⟩) :=
    fun offset rest => Head.read_of_splits (.text .indefinite) ⟨rfl, rfl⟩
  rw [decode_front hslots hfits, hfuel, hopening, hinner]
  simp only [bind, Except.bind, readWith_indefinite hhead, textOf]
  cases Utf8.decode? c with
  | none => rfl
  | some cs => exact ofItem_text hslots cs

end Fields

/-- **Long texts are read as if at once.**  A segment of text that does not fit the reading buffer is
read in chunks, wherever it stands.

* What comes of it is what comes of reading it at once: it is accepted if and only if its bytes are
  valid UTF-8 as a whole, and then it is their text; otherwise it is malformed where it counts as
  standing.
* Inside a text of indefinite length, the other segments are read on behind it.
* An object with such a text in a field is read with this text, and is refused otherwise. -/
theorem long_text_is_read_at_once {c : Bytes} (hlong : bufferSize < c.length) :
    (∀ start offset rest,
      let inp : Input := ⟨offset, c ++ rest⟩
      let chunked := readChunks start c.length [] (Nat.zero_le 3) inp
      readText start c.length inp = chunked ∧
        StringKind.readSegment start c.length inp .text = chunked ∧
        chunked = readWhole start c.length inp ∧
        (∀ cs after, chunked = .ok (cs, after) ↔
          c = Utf8.encode cs ∧ after = ⟨offset + c.length, rest⟩) ∧
        ((∀ cs, c ≠ Utf8.encode cs) → chunked = .error (.malformed start))) ∧
      ∀ head, Argument 3 head c.length →
        (∀ fuel level offset rest,
          (∀ cs, c = Utf8.encode cs →
            readSegments .text (fuel + 1) level ⟨offset, head ++ (c ++ rest)⟩
              = (readSegments .text fuel level ⟨offset + head.length + c.length, rest⟩).map
                  fun r => (cs ++ r.1, r.2)) ∧
            ((∀ cs, c ≠ Utf8.encode cs) →
              readSegments .text (fuel + 1) level ⟨offset, head ++ (c ++ rest)⟩
                = .error (.malformed offset))) ∧
          ∀ id before slot rest, (slot :: before.map Prod.fst).Nodup → (∀ f ∈ before, f.2.Fits) →
            let definite := front id before slot ++ (head ++ (c ++ rest))
            let inside := front id before slot ++ (opening 3 ++ (head ++ (c ++ (closing ++ rest))))
            (∀ cs, c = Utf8.encode cs →
              let o : Object := ⟨id, .ofList (before ++ [(slot, .text (String.ofList cs))])⟩
              decode definite = .ok o ∧ decode inside = .ok o) ∧
              ((∀ cs, c ≠ Utf8.encode cs) →
                decode definite = .error (.decodingFailed (.unreadable
                  (.malformed (textStart (front id before slot).length head c)))) ∧
                decode inside = .error (.decodingFailed (.unreadable
                  (.malformed ((front id before slot).length + 1))))) := by
  have hdecode : ∀ {cs}, c = Utf8.encode cs → Utf8.decode? c = some cs := Utf8.decode?_eq_some_iff.2
  have hrefuse : (∀ cs, c ≠ Utf8.encode cs) → Utf8.decode? c = none := Utf8.decode?_eq_none_iff.2
  refine ⟨fun start offset rest => ?_, fun head hhead => ⟨fun fuel level offset rest => ?_, ?_⟩⟩
  · intro inp chunked
    -- reading in chunks depends on the bytes of the segment alone
    have htext : chunked = textOf start c ⟨offset + c.length, rest⟩ :=
      readChunks_append start offset c rest
    refine ⟨?_, rfl, htext.trans (readWhole_append start offset c rest).symm, fun cs after => ?_, ?_⟩
    · rw [readText, if_neg (not_le.2 hlong)]
    · rw [htext, textOf, ← Utf8.decode?_eq_some_iff]
      cases Utf8.decode? c with
      | none => simp
      | some ds => simp [eq_comm]
    · intro hinvalid
      rw [htext, textOf, hrefuse hinvalid]
  · rw [readSegments_segment hhead, textOf]
    refine ⟨fun cs hcs => ?_, fun hinvalid => ?_⟩
    · rw [hdecode hcs]
      rfl
    · rw [hrefuse hinvalid]
      rfl
  · intro id before slot rest hslots hfits definite inside
    have hdefinite : decode definite = _ := decode_definite hslots hfits hhead rest
    have hinside : decode inside = _ := decode_indefinite hslots hfits hhead rest
    refine ⟨fun cs hcs => ?_, fun hinvalid => ?_⟩
    · rw [hdecode hcs] at hdefinite hinside
      exact ⟨hdefinite, hinside⟩
    · rw [hrefuse hinvalid] at hdefinite hinside
      exact ⟨hdefinite, hinside⟩

/-- A character of one byte, many times. -/
theorem encode_replicate (n : Nat) : Utf8.encode (List.replicate n 'a') = List.replicate n 97 := by
  induction n with
  | zero => rfl
  | succ n ih =>
    rw [List.replicate_succ, Utf8.encode_cons, ih]
    rfl

/-- The first byte of a character does not go on like this. -/
theorem broken_ne_encode (n : Nat) (cs : List Char) :
    List.replicate n 97 ++ [195, 98] ≠ Utf8.encode cs := by
  intro h
  rw [← encode_replicate] at h
  obtain ⟨read, unread, -, -, hrest, -, -⟩ := Utf8.decodePrefix_of_append h
  rw [Utf8.decodePrefix_encode, List.nil_append] at hrest
  have hread := Utf8.decode?_encode unread
  rw [← hrest, Utf8.decode?, Utf8.decodePrefix_of_none rfl] at hread
  cases hread

/-- A text of 4097 bytes, the last character of which is cut by the end of the first chunk; and the
same bytes but for the last one, with which that character does not go on. -/
theorem long_text_is_read_at_once_cutCharacter :
    let cs := List.replicate 4095 'a' ++ ['é']
    let c := List.replicate 4095 97 ++ [195, 169]
    let broken := List.replicate 4095 97 ++ [195, 98]
    let front := front 7 [(1, .int 5)] 2
    decode (front ++ ([121, 16, 1] ++ (c ++ [])))
        = .ok ⟨7, .ofList [(1, .int 5), (2, .text (String.ofList cs))]⟩ ∧
      decode (front ++ ([121, 16, 1] ++ (broken ++ [])))
        = .error (.decodingFailed (.unreadable (.malformed front.length))) := by
  intro cs c broken front
  have hlength : ∀ a b : UInt8, (List.replicate 4095 97 ++ [a, b]).length = 4097 := fun a b => by
    rw [List.length_append, List.length_replicate]
    rfl
  have hlong : ∀ a b : UInt8, bufferSize < (List.replicate 4095 97 ++ [a, b]).length := fun a b => by
    rw [hlength]
    decide
  have hhead : ∀ a b : UInt8,
      Argument 3 [121, 16, 1] (List.replicate 4095 97 ++ [a, b]).length := fun a b => by
    rw [hlength]
    have hbytes : ([16, 1] : Bytes).length = 2 ^ 1 := rfl
    exact .long (by decide) hbytes
  have hslots : (2 :: [((1 : Slot), Value.int 5)].map Prod.fst).Nodup := by decide
  have hfits : ∀ f ∈ [((1 : Slot), Value.int 5)], f.2.Fits := by decide +kernel
  have hc : c = Utf8.encode cs := by
    rw [Utf8.encode_append, encode_replicate]
    rfl
  have hstart : textStart front.length [121, 16, 1] broken = front.length := by
    rw [textStart, hlength]
    rfl
  obtain ⟨-, hread⟩ := long_text_is_read_at_once (hlong 195 169)
  obtain ⟨-, hrefuse⟩ := long_text_is_read_at_once (hlong 195 98)
  refine ⟨(((hread _ (hhead 195 169)).2 7 _ 2 [] hslots hfits).1 cs hc).1, ?_⟩
  rw [← hstart]
  exact (((hrefuse _ (hhead 195 98)).2 7 _ 2 [] hslots hfits).2 (broken_ne_encode 4095)).1

end Object

end ObjectStore
