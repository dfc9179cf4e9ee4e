import Mathlib
import ObjectStore.Proofs.Cbor.Grammar
import ObjectStore.Proofs.Cbor.Strings

/-!
# The strings that are read

A string is a head with its length and one segment of that many bytes, or it has no length and is a
sequence of segments and further such strings up to a break (`Segments`).  A segment of a text is
valid UTF-8 by itself, however its bytes are read (`readChunks_recognizes`).

Main statements: `readText_recognizes` for texts of definite length, and
`readSegments_recognizes` for strings of indefinite length.  The reader goes through the nested
strings with a counter; the grammar `Pending` says what is left to be read when `level` further
strings are open.
-/

namespace ObjectStore

namespace Utf8

/-- The bytes of a text are those that it is read from. -/
theorem decode?_eq_some_iff {bs : Bytes} {cs : List Char} :
    decode? bs = some cs ↔ bs = encode cs := by
  constructor
  · intro h
    have hlossless := encode_decodePrefix bs
    simp only [decode?] at h
    split at h
    · rename_i cs' heq
      cases h
      rw [heq, List.append_nil] at hlossless
      exact hlossless.symm
    · cases h
  · rintro rfl
    exact decode?_encode cs

theorem encode_append (cs cs' : List Char) : encode (cs ++ cs') = encode cs ++ encode cs' :=
  List.flatMap_append

end Utf8

namespace Cbor

/-! ## Segments -/

/-- What is read in chunks is the text of all the bytes. -/
theorem encode_of_readChunks {start unread : Nat} {carried : Bytes} (hcarried : carried.length ≤ 3)
    {inp inp' : Input} {cs : List Char}
    (h : readChunks start unread carried hcarried inp = .ok (cs, inp')) :
    ∃ seg, seg.length = unread ∧ carried ++ seg = Utf8.encode cs ∧ inp.Splits seg inp' := by
  induction unread using Nat.strong_induction_on generalizing carried cs inp with
  | h unread ih =>
    rw [readChunks] at h
    split at h
    · rename_i hzero
      split at h
      · rename_i hnil
        cases h
        exact ⟨[], hzero.symm, by rw [hnil]; rfl, Input.splits_nil.2 rfl⟩
      · cases h
    rename_i hmore
    generalize hsize : min (bufferSize - carried.length) unread = size at h
    have hbuffer : bufferSize = 4096 := rfl
    have hpos : 0 < size := by omega
    cases htake : inp.take size with
    | error e =>
      simp only [htake] at h
      cases h
    | ok taken =>
      obtain ⟨fresh, mid⟩ := taken
      simp only [htake] at h
      split at h
      · rename_i hleft
        obtain ⟨⟨cs', last⟩, hrest, heq⟩ := bind_eq_ok.1 h
        cases heq
        obtain ⟨hfresh, hsplits⟩ := Input.take_eq_ok_iff_splits.1 htake
        obtain ⟨seg, hseg, htext, hsplits'⟩ := ih (unread - size) (by omega) hleft hrest
        refine ⟨fresh ++ seg, ?_, ?_, Input.splits_append.2 ⟨mid, hsplits, hsplits'⟩⟩
        · rw [List.length_append, hfresh, hseg]
          omega
        · -- the chunk is the characters read from it and the bytes carried over
          rw [Utf8.encode_append, ← htext, ← List.append_assoc, ← List.append_assoc,
            Utf8.encode_decodePrefix]
      · cases h

namespace StringKind

/-- The major type of strings of a kind. -/
def major : StringKind → Nat
  | .bytes => 2
  | .text => 3

/-- What the bytes of a segment spell: themselves, or the text they are the UTF-8 form of. -/
def Segment : (kind : StringKind) → Bytes → List kind.Element → Prop
  | .bytes, bs, xs => xs = bs
  | .text, bs, cs => bs = Utf8.encode cs

/-- The number of bytes that a string takes. -/
def size : (kind : StringKind) → List kind.Element → Nat
  | .bytes, bs => bs.length
  | .text, cs => (Utf8.encode cs).length

/-- The head of a string of a kind, with its length or without one. -/
def head : StringKind → Option Nat → Head
  | .bytes, length => .bytes length
  | .text, length => .text length

variable {kind : StringKind} {p bs : Bytes} {n : Nat} {length : Option Nat} {h : Head}

/-- A segment has the size of what it spells. -/
theorem Segment.size {xs : List kind.Element} (h : kind.Segment bs xs) : kind.size xs = bs.length := by
  cases kind with
  | bytes =>
    obtain rfl : xs = bs := h
    rfl
  | text =>
    obtain rfl : bs = Utf8.encode xs := h
    rfl

theorem size_append (xs ys : List kind.Element) :
    kind.size (xs ++ ys) = kind.size xs + kind.size ys := by
  cases kind with
  | bytes => exact List.length_append
  | text =>
    show (Utf8.encode (xs ++ ys)).length = _
    rw [Utf8.encode_append, List.length_append]
    rfl

theorem spelled_head_iff : Head.Spelled p (kind.head length) ↔ Sized kind.major p length := by
  cases kind with
  | bytes =>
    constructor
    · rintro ⟨⟩
      assumption
    · exact .bytes
  | text =>
    constructor
    · rintro ⟨⟩
      assumption
    · exact .text

@[simp] theorem piece_stop : kind.piece .stop = .stop := by
  cases kind <;> rfl

@[simp] theorem piece_head_none : kind.piece (kind.head none) = .opening := by
  cases kind <;> rfl

@[simp] theorem piece_head_some : kind.piece (kind.head (some n)) = .segment n := by
  cases kind <;> rfl

/-- Inside a string there may stand a break and heads of strings of the same kind. -/
theorem head_cases (kind : StringKind) (h : Head) :
    h = .stop ∨ (∃ length, h = kind.head length) ∨ kind.piece h = .foreign := by
  cases kind with
  | bytes =>
    cases h with
    | stop => exact .inl rfl
    | bytes length => exact .inr (.inl ⟨length, rfl⟩)
    | text length => cases length <;> exact .inr (.inr rfl)
    | _ => exact .inr (.inr rfl)
  | text =>
    cases h with
    | stop => exact .inl rfl
    | text length => exact .inr (.inl ⟨length, rfl⟩)
    | bytes length => cases length <;> exact .inr (.inr rfl)
    | _ => exact .inr (.inr rfl)

end StringKind

/-- **A text segment** is read from its bytes in one way only, whatever the chunks are. -/
theorem readChunks_recognizes (start n : Nat) (inp : Input) :
    Recognizes (fun bs cs => bs.length = n ∧ bs = Utf8.encode cs) inp
      (readChunks start n [] (Nat.zero_le 3) inp) := by
  intro cs inp'
  constructor
  · intro h
    obtain ⟨seg, hseg, htext, hsplits⟩ := encode_of_readChunks _ h
    exact ⟨seg, ⟨hseg, htext⟩, hsplits⟩
  · rintro ⟨bs, ⟨hlength, htext⟩, hrest, hoffset⟩
    obtain ⟨offset, rest⟩ := inp
    obtain ⟨offset', rest'⟩ := inp'
    simp only at hrest hoffset
    subst hrest hoffset
    rw [hlength]
    exact readChunks_encode _ hlength htext rfl

theorem readWhole_recognizes (start n : Nat) (inp : Input) :
    Recognizes (fun bs cs => bs.length = n ∧ bs = Utf8.encode cs) inp (readWhole start n inp) := by
  have hread : Recognizes (Grammar.andThen (fun bs xs => bs.length = n ∧ xs = bs) fun xs bs cs =>
      bs = [] ∧ xs = Utf8.encode cs) inp (readWhole start n inp) := by
    refine (Recognizes.take n inp).bind fun xs p mid _ _ => ?_
    dsimp only
    split
    · rename_i cs hdecode
      obtain rfl := Utf8.decode?_eq_some_iff.1 hdecode
      refine (Recognizes.unit cs).congr fun bs cs' => and_congr_right' ?_
      constructor
      · rintro rfl
        rfl
      · intro h
        have hsame := Utf8.decode?_eq_some_iff.2 h
        rw [hdecode] at hsame
        exact (Option.some.inj hsame).symm
    · rename_i hnone
      refine .error _ fun bs cs h => ?_
      rw [Utf8.decode?_eq_some_iff.2 h.2] at hnone
      cases hnone
  refine hread.congr fun bs cs => ?_
  constructor
  · rintro ⟨_, p, _, ⟨hlength, rfl⟩, ⟨rfl, htext⟩, rfl⟩
    rw [List.append_nil]
    exact ⟨hlength, htext⟩
  · rintro ⟨hlength, htext⟩
    exact ⟨bs, bs, [], ⟨hlength, rfl⟩, ⟨rfl, htext⟩, (List.append_nil bs).symm⟩

/-- **A text of definite length** is the UTF-8 form of what is read. -/
theorem readText_recognizes (start n : Nat) (inp : Input) :
    Recognizes (fun bs cs => bs.length = n ∧ bs = Utf8.encode cs) inp (readText start n inp) := by
  rw [readText]
  split
  · exact readWhole_recognizes start n inp
  · exact readChunks_recognizes start n inp

theorem readSegment_recognizes (kind : StringKind) (start n : Nat) (inp : Input) :
    Recognizes (fun bs xs => bs.length = n ∧ kind.Segment bs xs) inp
      (kind.readSegment start n inp) := by
  cases kind with
  | bytes => exact Recognizes.take n inp
  | text => exact readChunks_recognizes start n inp

/-! ## Strings of indefinite length -/

section Grammars

variable (kind : StringKind)

/-- A string of definite length: its head and one segment. -/
def Definite : Grammar (List kind.Element) := fun bs xs =>
  ∃ head seg, Argument kind.major head seg.length ∧ kind.Segment seg xs ∧ bs = head ++ seg

/-- What stands in a string of indefinite length: strings of definite length and further strings of
indefinite length, in any order. -/
inductive Segments : Bytes → List kind.Element → Prop
  | nil : Segments [] []
  | definite {p q : Bytes} {xs ys : List kind.Element} (h : Definite kind p xs)
      (tail : Segments q ys) : Segments (p ++ q) (xs ++ ys)
  | nested {p q : Bytes} {xs ys : List kind.Element} (h : Segments p xs) (tail : Segments q ys) :
      Segments (opening kind.major ++ (p ++ (closing ++ q))) (xs ++ ys)

/-- A string of either form. -/
inductive Str : Bytes → List kind.Element → Prop
  | definite {bs : Bytes} {xs : List kind.Element} (h : Definite kind bs xs) : Str bs xs
  | indefinite {bs : Bytes} {xs : List kind.Element} (h : Segments kind bs xs) :
      Str (opening kind.major ++ (bs ++ closing)) xs

/-- The break of the innermost open string and what is left of the `level` strings around it. -/
def Closings : (level : Nat) → Grammar (List kind.Element)
  | 0 => fun bs xs => bs = closing ∧ xs = []
  | level + 1 => fun bs xs => ∃ q, bs = closing ++ q ∧
      Grammar.both (· ++ ·) (Segments kind) (Closings level) q xs

/-- What is left of a string of indefinite length and of the `level` strings around it. -/
def Pending (level : Nat) : Grammar (List kind.Element) :=
  .both (· ++ ·) (Segments kind) (Closings kind level)

/-- What is left behind a head. -/
def Behind (level : Nat) (head : Head) : Grammar (List kind.Element) :=
  match kind.piece head, level with
  | .stop, 0 => .unit []
  | .stop, level + 1 => Pending kind level
  | .opening, level => Pending kind (level + 1)
  | .segment n, level =>
    .both (· ++ ·) (fun bs xs => bs.length = n ∧ kind.Segment bs xs) (Pending kind level)
  | .foreign, _ => fun _ _ => False

end Grammars

variable {kind : StringKind} {level : Nat} {p bs : Bytes} {xs ys : List kind.Element}

/-- A string of definite length in front. -/
theorem Pending.definite (hp : Definite kind p ys) (h : Pending kind level bs xs) :
    Pending kind level (p ++ bs) (ys ++ xs) := by
  obtain ⟨p', q, ys', zs, hp', hq, rfl, rfl⟩ := h
  exact ⟨p ++ p', q, ys ++ ys', zs, .definite hp hp', hq, (List.append_assoc _ _ _).symm,
    (List.append_assoc _ _ _).symm⟩

/-- The head of a further string in front. -/
theorem Pending.opening (h : Pending kind (level + 1) bs xs) :
    Pending kind level (opening kind.major ++ bs) xs := by
  obtain ⟨p, _, ys, _, hp, ⟨_, rfl, p', q', ys', zs', hp', hq', rfl, rfl⟩, rfl, rfl⟩ := h
  refine ⟨_, q', _, zs', .nested hp hp', hq', ?_, (List.append_assoc _ _ _).symm⟩
  simp only [List.append_assoc]

/-- **What is left of nested strings** is a head and what is left behind that. -/
theorem pending_iff :
    Pending kind level bs xs ↔ Grammar.andThen Head.Spelled (Behind kind level) bs xs := by
  constructor
  · rintro ⟨_, q, _, zs, hsegments, hq, rfl, rfl⟩
    cases hsegments with
    -- no segment is left: the break ends this level, or everything
    | nil =>
      cases level with
      | zero =>
        obtain ⟨rfl, rfl⟩ := hq
        refine ⟨.stop, closing, [], .stop, ?_, rfl⟩
        simp only [Behind, StringKind.piece_stop]
        exact ⟨rfl, rfl⟩
      | succ level =>
        obtain ⟨q', rfl, hpending⟩ := hq
        refine ⟨.stop, closing, q', .stop, ?_, rfl⟩
        simp only [Behind, StringKind.piece_stop]
        exact hpending
    | definite h tail =>
      obtain ⟨head, seg, hhead, hseg, rfl⟩ := h
      refine ⟨kind.head (some seg.length), head, _, StringKind.spelled_head_iff.2 (.definite hhead),
        ?_, by rw [List.append_assoc, List.append_assoc]⟩
      simp only [Behind, StringKind.piece_head_some]
      exact ⟨seg, _, _, _, ⟨rfl, hseg⟩, ⟨_, q, _, zs, tail, hq, rfl, rfl⟩, rfl,
        List.append_assoc _ _ _⟩
    | nested h tail =>
      refine ⟨kind.head none, opening kind.major, _, StringKind.spelled_head_iff.2 .indefinite, ?_,
        by rw [List.append_assoc]⟩
      simp only [Behind, StringKind.piece_head_none]
      refine ⟨_, _, _, _, h, ⟨_, rfl, _, q, _, zs, tail, hq, rfl, rfl⟩, ?_,
        List.append_assoc _ _ _⟩
      simp only [List.append_assoc]
  · rintro ⟨head, p, q, hp, hq, rfl⟩
    rcases StringKind.head_cases kind head with rfl | ⟨length, rfl⟩ | hforeign
    · cases hp
      simp only [Behind, StringKind.piece_stop] at hq
      cases level with
      | zero =>
        obtain ⟨rfl, rfl⟩ := hq
        exact ⟨[], closing, [], [], .nil, ⟨rfl, rfl⟩, rfl, rfl⟩
      | succ level => exact ⟨[], closing ++ q, [], xs, .nil, ⟨q, rfl, hq⟩, rfl, rfl⟩
    · cases StringKind.spelled_head_iff.1 hp with
      | definite hhead =>
        simp only [Behind, StringKind.piece_head_some] at hq
        obtain ⟨seg, q, ys, zs, ⟨rfl, hseg⟩, hpending, rfl, rfl⟩ := hq
        rw [← List.append_assoc]
        exact hpending.definite ⟨p, seg, hhead, hseg, rfl⟩
      | indefinite =>
        simp only [Behind, StringKind.piece_head_none] at hq
        exact hq.opening
    · simp only [Behind, hforeign] at hq

/-- **Strings of indefinite length** are read to the end of the outermost one. -/
theorem readSegments_recognizes (kind : StringKind) {fuel : Nat} (level : Nat) {inp : Input}
    (hfuel : inp.rest.length < fuel) :
    Recognizes (Pending kind level) inp (readSegments kind fuel level inp) := by
  induction fuel generalizing level inp with
  | zero => omega
  | succ fuel ih =>
    refine ((Head.read_recognizes inp).bind fun head p after hhead hsplits => ?_).congr
      fun bs xs => pending_iff.symm
    -- a head takes a byte, so the fuel lasts for what is behind it
    have hshorter : after.rest.length < fuel := by
      have hpos := List.length_pos_iff.2 hhead.ne_nil
      have hadd := hsplits.length_add
      omega
    unfold Behind
    dsimp only
    rcases StringKind.head_cases kind head with rfl | ⟨length, rfl⟩ | hforeign
    · simp only [StringKind.piece_stop]
      cases level with
      | zero => exact .unit []
      | succ level => exact ih level hshorter
    · cases length with
      | some n =>
        simp only [StringKind.piece_head_some]
        refine (readSegment_recognizes kind inp.offset n after).both (· ++ ·) fun xs p last _ h => ?_
        refine ih level ?_
        have hadd := h.length_add
        omega
      | none =>
        simp only [StringKind.piece_head_none]
        exact ih (level + 1) hshorter
    · simp only [hforeign]
      exact .error _ fun bs xs => id

end Cbor

end ObjectStore
