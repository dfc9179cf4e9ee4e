import Mathlib
import ObjectStore.Cbor.Item
import ObjectStore.Proofs.Cbor.Strings

/-!
# Items read back

`Spells body bs x` says that `bs` is a head with something after it which a reader `body` takes for
`x`, wherever the bytes stand and whatever follows them.  Scalars are spelled by their head and
their content; arrays and maps are spelled by their head and the spellings of what is in them.  A
spelled item is decoded (`Spells.decode`).
-/

namespace ObjectStore.Cbor

/-- The bytes `bs` are a head together with what `body` takes for `x` after it. -/
def Spells {α : Type} (body : BodyReader α) (bs : Bytes) (x : α) : Prop :=
  ∃ head : Head, ∃ content : Bytes, head.Fits ∧ bs = head.write ++ content ∧
    ∀ offset rest, body head ⟨offset, content ++ rest⟩ = .ok (x, ⟨offset + content.length, rest⟩)

namespace Spells

variable {α : Type} {body : BodyReader α} {bs : Bytes} {x : α}

/-- What is spelled is read. -/
theorem read (h : Spells body bs x) (offset : Nat) (rest : Bytes) :
    (do
      let (head, inp) ← Head.read ⟨offset, bs ++ rest⟩
      body head inp) = .ok (x, ⟨offset + bs.length, rest⟩) := by
  obtain ⟨head, content, hhead, rfl, hbody⟩ := h
  rw [List.append_assoc, Head.read_write hhead]
  simp only [bind, Except.bind, hbody, List.length_append, Nat.add_assoc]

/-- A head alone that says all. -/
theorem of_head {head : Head} (hhead : head.Fits)
    (hbody : ∀ inp, body head inp = .ok (x, inp)) : Spells body head.write x :=
  ⟨head, [], hhead, (List.append_nil _).symm, fun _ _ => hbody _⟩

/-- A pair is spelled by its two parts. -/
theorem pair {body : BodyReader Item} {bs bs' : Bytes} {key value : Item}
    (hkey : Spells body bs key) (hvalue : Spells body bs' value) :
    Spells (readPair body) (bs ++ bs') (key, value) := by
  obtain ⟨head, content, hhead, rfl, hbody⟩ := hkey
  refine ⟨head, content ++ bs', hhead, List.append_assoc _ _ _, fun offset rest => ?_⟩
  have hread := hvalue.read (offset + content.length) rest
  simp only [bind, Except.bind] at hread
  rw [readPair, List.append_assoc, hbody]
  simp only [bind, Except.bind]
  cases hnext : Head.read ⟨offset + content.length, bs' ++ rest⟩ with
  | error e =>
    rw [hnext] at hread
    cases hread
  | ok r =>
    rw [hnext] at hread
    simp only [hread, pure, Except.pure, List.length_append, Nat.add_assoc]

/-- **Things that are spelled one after the other are read one after the other.** -/
theorem many {β : Type} {encode : β → Bytes} {f : β → α} {xs : List β}
    (h : ∀ x ∈ xs, Spells body (encode x) (f x)) (offset : Nat) (rest : Bytes) :
    readMany body xs.length ⟨offset, xs.flatMap encode ++ rest⟩
      = .ok (xs.map f, ⟨offset + (xs.flatMap encode).length, rest⟩) := by
  induction xs generalizing offset with
  | nil => rfl
  | cons x xs ih =>
    have hx := h x List.mem_cons_self
    have hxs := ih (fun y hy => h y (List.mem_cons_of_mem x hy)) (offset + (encode x).length)
    have hread := hx.read offset (xs.flatMap encode ++ rest)
    simp only [bind, Except.bind] at hread
    rw [List.flatMap_cons, List.append_assoc, List.length_cons, readMany]
    simp only [bind, Except.bind]
    cases hnext : Head.read ⟨offset, encode x ++ (xs.flatMap encode ++ rest)⟩ with
    | error e =>
      rw [hnext] at hread
      cases hread
    | ok r =>
      rw [hnext] at hread
      simp only [hread, hxs, pure, Except.pure, List.map_cons, List.length_append, Nat.add_assoc]

/-! ## Scalars -/

section Scalars

variable {fuel : Nat} {inner : Except ReadError (BodyReader Item)}

/-- An integer is spelled by its head. -/
theorem unsigned {n : Nat} (hn : n < 2 ^ 64) :
    Spells (readWith fuel inner) (Head.unsigned n).write (.int n) :=
  of_head hn fun _ => rfl

/-- A negative integer is spelled by its head. -/
theorem negative {n : Nat} (hn : n < 2 ^ 64) :
    Spells (readWith fuel inner) (Head.negative n).write (.int (-1 - n)) :=
  of_head hn fun _ => rfl

/-- A number in binary format is spelled by its head. -/
theorem float {bits : Nat} (hbits : bits < 2 ^ 64) :
    Spells (readWith fuel inner) (Head.float bits).write (.float bits) :=
  of_head hbits fun _ => rfl

/-- A simple value with a meaning is spelled by its head. -/
theorem simple {n : Nat} {item : Item} (hn : n < 2 ^ 8) (hitem : Item.ofSimple? n = some item) :
    Spells (readWith fuel inner) (Head.simple n).write item := by
  refine of_head hn fun inp => ?_
  rw [readWith, hitem]

/-- Bytes are spelled by their length and themselves. -/
theorem bytes {bs : Bytes} (hlength : bs.length < 2 ^ 64) :
    Spells (readWith fuel inner) ((Head.bytes (some bs.length)).write ++ bs) (.bytes bs) := by
  refine ⟨.bytes (some bs.length), bs, ?_, rfl, fun offset rest => ?_⟩
  · rintro n ⟨⟩
    exact hlength
  · rw [readWith, Input.take_append offset rfl]
    rfl

/-- A text is spelled by its length and its bytes. -/
theorem text {cs : List Char} (hlength : (Utf8.encode cs).length < 2 ^ 64) :
    Spells (readWith fuel inner)
      ((Head.text (some (Utf8.encode cs).length)).write ++ Utf8.encode cs) (.text cs) := by
  refine ⟨.text (some (Utf8.encode cs).length), Utf8.encode cs, ?_, rfl, fun offset rest => ?_⟩
  · rintro n ⟨⟩
    exact hlength
  · rw [readWith, readText_encode]
    rfl

end Scalars

/-! ## Arrays and maps -/

section Containers

variable {β : Type} {fuel : Nat} {body : BodyReader Item} {xs : List β} {encode : β → Bytes}

/-- An array is spelled by its length and its items. -/
theorem array {f : β → Item} (hlength : xs.length < 2 ^ 64)
    (h : ∀ x ∈ xs, Spells body (encode x) (f x)) :
    Spells (readWith fuel (.ok body)) ((Head.array (some xs.length)).write ++ xs.flatMap encode)
      (.array (xs.map f)) := by
  refine ⟨.array (some xs.length), xs.flatMap encode, ?_, rfl, fun offset rest => ?_⟩
  · rintro n ⟨⟩
    exact hlength
  · simp only [readWith, readSequence, bind, Except.bind, many h, pure, Except.pure]

/-- A map is spelled by its length and its pairs. -/
theorem map {f : β → Item × Item} (hlength : xs.length < 2 ^ 64)
    (h : ∀ x ∈ xs, Spells (readPair body) (encode x) (f x)) :
    Spells (readWith fuel (.ok body)) ((Head.map (some xs.length)).write ++ xs.flatMap encode)
      (.map (xs.map f)) := by
  refine ⟨.map (some xs.length), xs.flatMap encode, ?_, rfl, fun offset rest => ?_⟩
  · rintro n ⟨⟩
    exact hlength
  · simp only [readWith, readSequence, bind, Except.bind, many h, pure, Except.pure]

end Containers

/-! ## Decoding -/

/-- **A spelled item is decoded**, whatever follows it. -/
theorem decode {bs : Bytes} {item : Item} (h : ∀ fuel, Spells (readBody fuel maxDepth) bs item)
    (rest : Bytes) : Item.decode (bs ++ rest) = .ok item := by
  have hread := (h ((bs ++ rest).length + 1)).read 0 rest
  rw [Item.decode, Item.read, Input.ofBytes]
  rw [hread]
  rfl

end Spells

end ObjectStore.Cbor
