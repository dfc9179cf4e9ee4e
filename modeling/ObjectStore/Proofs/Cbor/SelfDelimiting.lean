import Mathlib
import ObjectStore.Proofs.Cbor.ItemGrammar

/-!
# Readers do not look ahead

A reader takes bytes off the front of its input and never looks at those that it leaves.  So more
bytes behind the input change what it returns only if the input had come to its end too early
(`Continues`).  This holds of every reader, step by step: the fuel, which is the one thing that is
computed from the whole input, only has to last.

Main statements: `Item.decode_append`, an item is decoded from more bytes as it was from fewer, and
`Item.decode_truncated`, an item whose bytes are cut off anywhere comes to the end of the input.
-/

namespace ObjectStore.Cbor

variable {α β : Type} {s : Bytes}

/-- The input with more bytes behind it. -/
def Input.extend (inp : Input) (s : Bytes) : Input := ⟨inp.offset, inp.rest ++ s⟩

/-- What a reader returns, and what it returns with the bytes `s` behind its input: the same, unless
the input had come to its end. -/
inductive Continues (s : Bytes) :
    Except ReadError (α × Input) → Except ReadError (α × Input) → Prop
  | short (r : Except ReadError (α × Input)) : Continues s (.error .endOfInput) r
  | error (e : ReadError) : Continues s (.error e) (.error e)
  | ok (x : α) (inp : Input) : Continues s (.ok (x, inp)) (.ok (x, inp.extend s))

/-- **Readers in sequence** do not look ahead if none of them does. -/
theorem Continues.bind {r r' : Except ReadError (α × Input)}
    {k k' : α × Input → Except ReadError (β × Input)} (h : Continues s r r')
    (hk : ∀ x mid, Continues s (k (x, mid)) (k' (x, mid.extend s))) :
    Continues s (r >>= k) (r' >>= k') := by
  cases h with
  | short r => exact .short _
  | error e => exact .error e
  | ok x inp => exact hk x inp

/-! ## Bytes and heads -/

theorem next_continues (inp : Input) : Continues s inp.next (inp.extend s).next := by
  obtain ⟨offset, rest⟩ := inp
  cases rest with
  | nil => exact .short _
  | cons b rest => exact .ok b ⟨offset + 1, rest⟩

theorem take_continues (n : Nat) (inp : Input) :
    Continues s (inp.take n) ((inp.extend s).take n) := by
  cases h : inp.take n with
  | error e =>
    simp only [Input.take] at h
    split at h
    · cases h
    · cases h
      exact .short _
  | ok r =>
    obtain ⟨bs, after⟩ := r
    obtain ⟨hlength, hrest, hoffset⟩ := Input.take_eq_ok_iff.1 h
    have hmore : (inp.extend s).take n = .ok (bs, after.extend s) :=
      Input.take_eq_ok_iff.2 ⟨hlength, by
        rw [Input.extend, Input.extend, hrest, List.append_assoc], hoffset⟩
    rw [hmore]
    exact .ok bs after

theorem readArgument_continues (start info : Nat) (inp : Input) :
    Continues s (Head.readArgument start info inp)
      (Head.readArgument start info (inp.extend s)) := by
  unfold Head.readArgument
  split
  · exact .ok _ inp
  split
  · exact (take_continues _ inp).bind fun bs mid => .ok _ mid
  split
  · exact .error _
  · exact .ok _ inp

/-- **A head** is read from its own bytes. -/
theorem readHead_continues (inp : Input) : Continues s (Head.read inp) (Head.read (inp.extend s)) := by
  refine (next_continues inp).bind fun b after => ?_
  refine (readArgument_continues inp.offset _ after).bind fun argument last => ?_
  dsimp only
  split
  · exact .ok _ last
  · exact .error _

/-! ## Strings -/

/-- The chunks of a text segment are cut by its length alone. -/
theorem readChunks_continues (start unread : Nat) {carried : Bytes} (hcarried : carried.length ≤ 3)
    (inp : Input) :
    Continues s (readChunks start unread carried hcarried inp)
      (readChunks start unread carried hcarried (inp.extend s)) := by
  induction unread using Nat.strong_induction_on generalizing carried inp with
  | h unread ih =>
    rw [readChunks, readChunks]
    split
    · split
      · exact .ok _ inp
      · exact .error _
    rename_i hmore
    have hbuffer : bufferSize = 4096 := rfl
    dsimp only
    generalize hsize : min (bufferSize - carried.length) unread = size
    have htake := take_continues (s := s) size inp
    generalize inp.take size = r at htake ⊢
    generalize (inp.extend s).take size = r' at htake ⊢
    cases htake with
    | short r => exact .short _
    | error e => exact .error e
    | ok fresh mid =>
      dsimp only
      split
      · exact (ih (unread - size) (by omega) _ mid).bind fun cs last => .ok _ last
      · exact .error _

theorem readWhole_continues (start n : Nat) (inp : Input) :
    Continues s (readWhole start n inp) (readWhole start n (inp.extend s)) := by
  refine (take_continues n inp).bind fun bs mid => ?_
  dsimp only
  split
  · exact .ok _ mid
  · exact .error _

theorem readText_continues (start n : Nat) (inp : Input) :
    Continues s (readText start n inp) (readText start n (inp.extend s)) := by
  unfold readText
  split
  · exact readWhole_continues start n inp
  · exact readChunks_continues start n _ inp

theorem readSegment_continues (kind : StringKind) (start n : Nat) (inp : Input) :
    Continues s (kind.readSegment start n inp) (kind.readSegment start n (inp.extend s)) := by
  cases kind with
  | bytes => exact take_continues n inp
  | text => exact readChunks_continues start n _ inp

/-- **Strings of indefinite length** are read up to their break; more fuel is not needed. -/
theorem readSegments_continues (kind : StringKind) {fuel fuel' : Nat} (hfuel : fuel ≤ fuel')
    (level : Nat) (inp : Input) :
    Continues s (readSegments kind fuel level inp)
      (readSegments kind fuel' level (inp.extend s)) := by
  induction fuel generalizing fuel' level inp with
  | zero => exact .short _
  | succ fuel ih =>
    obtain ⟨fuel', rfl⟩ : ∃ k, fuel' = k + 1 := ⟨fuel' - 1, by omega⟩
    have hless : fuel ≤ fuel' := by omega
    refine (readHead_continues inp).bind fun head after => ?_
    dsimp only
    cases kind.piece head with
    | stop =>
      cases level with
      | zero => exact .ok _ after
      | succ level => exact ih hless level after
    | opening => exact ih hless (level + 1) after
    | segment n =>
      exact (readSegment_continues kind inp.offset n after).bind fun xs mid =>
        (ih hless level mid).bind fun ys last => .ok _ last
    | foreign => exact .error _

/-! ## Sequences -/

/-- A reader of what follows a head, and the same reader for extended inputs. -/
def BodyReader.Continues (s : Bytes) (body body' : BodyReader α) : Prop :=
  ∀ head inp, Cbor.Continues s (body head inp) (body' head (inp.extend s))

section Sequences

variable {body body' : BodyReader α}

theorem readMany_continues (hbody : body.Continues s body') (n : Nat) (inp : Input) :
    Continues s (readMany body n inp) (readMany body' n (inp.extend s)) := by
  induction n generalizing inp with
  | zero => exact .ok [] inp
  | succ n ih =>
    exact (readHead_continues inp).bind fun head after => (hbody head after).bind fun x mid =>
      (ih mid).bind fun xs last => .ok _ last

theorem readUntilStop_continues (hbody : body.Continues s body') {fuel fuel' : Nat}
    (hfuel : fuel ≤ fuel') (inp : Input) :
    Continues s (readUntilStop body fuel inp) (readUntilStop body' fuel' (inp.extend s)) := by
  induction fuel generalizing fuel' inp with
  | zero => exact .short _
  | succ fuel ih =>
    obtain ⟨fuel', rfl⟩ : ∃ k, fuel' = k + 1 := ⟨fuel' - 1, by omega⟩
    refine (readHead_continues inp).bind fun head after => ?_
    dsimp only
    split
    · exact .ok _ after
    · exact (hbody head after).bind fun x mid =>
        (ih (by omega) mid).bind fun xs last => .ok _ last

theorem readSequence_continues (hbody : body.Continues s body') {fuel fuel' : Nat}
    (hfuel : fuel ≤ fuel') (length : Option Nat) (inp : Input) :
    Continues s (readSequence fuel body length inp)
      (readSequence fuel' body' length (inp.extend s)) := by
  cases length with
  | some n => exact readMany_continues hbody n inp
  | none => exact readUntilStop_continues hbody hfuel inp

theorem readPair_continues {body body' : BodyReader Item} (hbody : body.Continues s body') :
    (readPair body).Continues s (readPair body') := fun head inp =>
  (hbody head inp).bind fun _ mid => (readHead_continues mid).bind fun head after =>
    (hbody head after).bind fun _ last => .ok _ last

end Sequences

/-! ## Items -/

/-- What is nested inside an item, in a reader and in the same reader for extended inputs. -/
inductive InnerContinues (s : Bytes) :
    Except ReadError (BodyReader Item) → Except ReadError (BodyReader Item) → Prop
  | none (e : ReadError) : InnerContinues s (.error e) (.error e)
  | some {body body' : BodyReader Item} (h : body.Continues s body') :
      InnerContinues s (.ok body) (.ok body')

/-- What is nested is read where a further level is left. -/
theorem InnerContinues.bind {inner inner' : Except ReadError (BodyReader Item)}
    {k k' : BodyReader Item → Except ReadError (β × Input)} (h : InnerContinues s inner inner')
    (hk : ∀ body body' : BodyReader Item, body.Continues s body' → Continues s (k body) (k' body')) :
    Continues s (inner >>= k) (inner' >>= k') := by
  cases h with
  | none e => exact .error e
  | some h => exact hk _ _ h

/-- **What follows a head** is read from its own bytes, also behind a tag, where the next head is
looked at before it is known what it belongs to. -/
theorem readWith_continues {fuel fuel' : Nat} (hfuel : fuel ≤ fuel')
    {inner inner' : Except ReadError (BodyReader Item)} (hinner : InnerContinues s inner inner') :
    (readWith fuel inner).Continues s (readWith fuel' inner') := by
  intro head inp
  cases head with
  | unsigned n => exact .ok _ inp
  | negative n => exact .ok _ inp
  | bytes length =>
    cases length with
    | some n => exact (take_continues n inp).bind fun bs last => .ok _ last
    | none =>
      exact (readSegments_continues .bytes hfuel 0 inp).bind fun bs last => .ok _ last
  | text length =>
    cases length with
    | some n => exact (readText_continues _ n inp).bind fun cs last => .ok _ last
    | none => exact (readSegments_continues .text hfuel 0 inp).bind fun cs last => .ok _ last
  | array length =>
    exact hinner.bind fun body body' hbody =>
      (readSequence_continues hbody hfuel length inp).bind fun items last => .ok _ last
  | map length =>
    exact hinner.bind fun body body' hbody =>
      (readSequence_continues (readPair_continues hbody) hfuel length inp).bind
        fun entries last => .ok _ last
  | tag tag =>
    refine (readHead_continues inp).bind fun head after => ?_
    dsimp only
    cases integerLength? tag head with
    | some n =>
      refine (take_continues n after).bind fun bs last => ?_
      dsimp only
      cases bigInteger tag bs with
      | error e => exact .error e
      | ok item => exact .ok _ last
    | none =>
      exact hinner.bind fun body body' hbody =>
        (hbody head after).bind fun content last => .ok _ last
  | simple n =>
    unfold readWith
    dsimp only
    split
    · exact .ok _ inp
    · exact .error _
  | float bits => exact .ok _ inp
  | stop => exact .error _

theorem readBody_continues {fuel fuel' : Nat} (hfuel : fuel ≤ fuel') (depth : Nat) :
    (readBody fuel depth).Continues s (readBody fuel' depth) := by
  induction depth with
  | zero => exact readWith_continues hfuel (.none .tooDeep)
  | succ depth ih => exact readWith_continues hfuel (.some ih)

namespace Item

/-- **An item** is read from its own bytes. -/
theorem read_continues (inp : Input) : Continues s (read inp) (read (inp.extend s)) := by
  have hfuel : inp.rest.length + 1 ≤ (inp.extend s).rest.length + 1 := by
    rw [Input.extend, List.length_append]
    omega
  exact (readHead_continues inp).bind fun head after => readBody_continues hfuel maxDepth head after

/-- **An item is decoded from more bytes as it was from fewer**, and fails as it did, unless it had
come to the end of the bytes. -/
theorem decode_append {bs : Bytes} (h : decode bs ≠ .error .endOfInput) (s : Bytes) :
    decode (bs ++ s) = decode bs := by
  have hread := read_continues (s := s) (.ofBytes bs)
  have hextend : (Input.ofBytes bs).extend s = .ofBytes (bs ++ s) := rfl
  rw [hextend] at hread
  unfold decode at h ⊢
  generalize read (.ofBytes bs) = r at h hread ⊢
  generalize read (.ofBytes (bs ++ s)) = r' at hread ⊢
  cases hread with
  | short r => exact absurd rfl h
  | error e => rfl
  | ok item last => rfl

/-- **An item that is cut off** anywhere comes to the end of the bytes. -/
theorem decode_truncated {bs p : Bytes} {item : Item} {last : Input}
    (h : read (.ofBytes bs) = .ok (item, last)) (hlast : last.rest = []) (hp : p <+: bs)
    (hne : p ≠ bs) : decode p = .error .endOfInput := by
  obtain ⟨s, rfl⟩ := hp
  have hread := read_continues (s := s) (.ofBytes p)
  have hextend : (Input.ofBytes p).extend s = .ofBytes (p ++ s) := rfl
  rw [hextend, h] at hread
  unfold decode
  generalize read (.ofBytes p) = r at hread ⊢
  cases hread with
  | short r => rfl
  | ok x mid =>
    -- it would have been read with the bytes that were cut off still to come
    obtain ⟨-, hs⟩ := List.append_eq_nil_iff.1 hlast
    rw [hs, List.append_nil] at hne
    exact absurd rfl hne

end Item

end ObjectStore.Cbor
