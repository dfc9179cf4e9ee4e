import Mathlib
import ObjectStore.Cbor.Head
import ObjectStore.Proofs.Except

/-!
# Grammars, and the heads that are read

A `Grammar` says which bytes spell which thing.  `Recognizes G inp r` says that `r` is what a reader
of `G` returns at `inp`: it succeeds exactly if some bytes at the front of the input spell something,
and then it returns that and the input behind those bytes.  Readers in sequence recognize grammars
in sequence (`Recognizes.bind`).

Main statement: `Head.read_recognizes`, the heads that are read are those of the grammar
`Head.Spelled`, in every width.
-/

namespace ObjectStore.Cbor

/-- Which bytes spell which thing. -/
abbrev Grammar (α : Type) := Bytes → α → Prop

namespace Grammar

variable {α β γ : Type}

/-- No bytes, which spell one thing. -/
def unit (x : α) : Grammar α := fun bs y => bs = [] ∧ y = x

/-- Bytes of one grammar and behind them bytes of another one, which depends on what the first ones
spell. -/
def andThen (G : Grammar α) (H : α → Grammar β) : Grammar β := fun bs y =>
  ∃ x p q, G p x ∧ H x q y ∧ bs = p ++ q

/-- Bytes of two grammars one behind the other; `f` puts together what they spell. -/
def both (f : α → β → γ) (G : Grammar α) (H : Grammar β) : Grammar γ := fun bs z =>
  ∃ p q x y, G p x ∧ H q y ∧ bs = p ++ q ∧ z = f x y

end Grammar

namespace Input

/-- The bytes `bs` lie between two positions of an input. -/
def Splits (inp : Input) (bs : Bytes) (inp' : Input) : Prop :=
  inp.rest = bs ++ inp'.rest ∧ inp'.offset = inp.offset + bs.length

variable {inp inp' : Input} {p q bs : Bytes} {b : UInt8} {n : Nat}

theorem splits_nil : inp.Splits [] inp' ↔ inp' = inp := by
  obtain ⟨offset, rest⟩ := inp
  obtain ⟨offset', rest'⟩ := inp'
  simp only [Splits, List.nil_append, List.length_nil, Nat.add_zero, mk.injEq]
  constructor
  · rintro ⟨h, h'⟩
    exact ⟨h', h.symm⟩
  · rintro ⟨h, h'⟩
    exact ⟨h'.symm, h⟩

theorem splits_append : inp.Splits (p ++ q) inp' ↔ ∃ mid, inp.Splits p mid ∧ mid.Splits q inp' := by
  constructor
  · rintro ⟨hrest, hoffset⟩
    refine ⟨⟨inp.offset + p.length, q ++ inp'.rest⟩, ⟨?_, rfl⟩, rfl, ?_⟩
    · rw [hrest, List.append_assoc]
    · rw [hoffset, List.length_append, Nat.add_assoc]
  · rintro ⟨mid, ⟨hrest, hoffset⟩, hrest', hoffset'⟩
    refine ⟨?_, ?_⟩
    · rw [hrest, hrest', List.append_assoc]
    · rw [hoffset', hoffset, List.length_append, Nat.add_assoc]

/-- The bytes taken are no longer there. -/
theorem Splits.length_add (h : inp.Splits bs inp') :
    bs.length + inp'.rest.length = inp.rest.length := by
  rw [h.1, List.length_append]

theorem next_eq_ok_iff : inp.next = .ok (b, inp') ↔ inp.Splits [b] inp' := by
  obtain ⟨offset, rest⟩ := inp
  obtain ⟨offset', rest'⟩ := inp'
  cases rest with
  | nil =>
    constructor
    · intro h
      cases h
    · rintro ⟨h, -⟩
      cases h
  | cons c rest =>
    simp only [next, Except.ok.injEq, Prod.mk.injEq, mk.injEq, Splits, List.singleton_append,
      List.cons.injEq, List.length_singleton]
    constructor
    · rintro ⟨rfl, rfl, rfl⟩
      exact ⟨⟨rfl, rfl⟩, rfl⟩
    · rintro ⟨⟨rfl, rfl⟩, rfl⟩
      exact ⟨rfl, rfl, rfl⟩

theorem take_eq_ok_iff_splits :
    inp.take n = .ok (bs, inp') ↔ bs.length = n ∧ inp.Splits bs inp' := by
  rw [take_eq_ok_iff]
  constructor
  · rintro ⟨rfl, hrest, hoffset⟩
    exact ⟨rfl, hrest, hoffset⟩
  · rintro ⟨rfl, hrest, hoffset⟩
    exact ⟨rfl, hrest, hoffset⟩

end Input

/-! ## Readers of a grammar -/

/-- A reader of `G` that starts at `inp` returns `r`: it reads `x` and stops at `inp'` exactly if
bytes that spell `x` lie between. -/
def Recognizes {α : Type} (G : Grammar α) (inp : Input) (r : Except ReadError (α × Input)) : Prop :=
  ∀ x inp', r = .ok (x, inp') ↔ ∃ bs, G bs x ∧ inp.Splits bs inp'

namespace Recognizes

variable {α β γ : Type} {G G' : Grammar α} {inp : Input} {r : Except ReadError (α × Input)}

/-- What a reader of `G` returns is what a reader of any equal grammar returns. -/
theorem congr (h : Recognizes G inp r) (hG : ∀ bs x, G bs x ↔ G' bs x) :
    Recognizes G' inp r := by
  intro x inp'
  rw [h x inp']
  simp only [hG]

/-- A reader that fails recognizes nothing. -/
theorem error (e : ReadError) (hG : ∀ bs x, ¬ G bs x) : Recognizes G inp (.error e) := by
  intro x inp'
  constructor
  · intro h
    cases h
  · rintro ⟨bs, h, -⟩
    exact absurd h (hG bs x)

/-- A reader that takes nothing recognizes no bytes. -/
theorem unit (x : α) : Recognizes (Grammar.unit x) inp (.ok (x, inp)) := by
  intro y inp'
  constructor
  · intro h
    cases h
    exact ⟨[], ⟨rfl, rfl⟩, Input.splits_nil.2 rfl⟩
  · rintro ⟨bs, ⟨rfl, rfl⟩, hsplits⟩
    rw [Input.splits_nil.1 hsplits]

/-- A step that takes nothing and may fail. -/
theorem step (x? : Except ReadError α) :
    Recognizes (fun bs x => bs = [] ∧ x? = .ok x) inp (x? >>= fun x => .ok (x, inp)) := by
  cases x? with
  | error e =>
    refine error e fun bs x h => ?_
    cases h.2
  | ok x =>
    refine (unit x).congr fun bs y => and_congr_right' ?_
    rw [Except.ok.injEq]
    exact eq_comm

/-- **Readers in sequence recognize grammars in sequence.** -/
theorem bind {H : α → Grammar β} {k : α × Input → Except ReadError (β × Input)}
    (h : Recognizes G inp r)
    (hk : ∀ x p mid, G p x → inp.Splits p mid → Recognizes (H x) mid (k (x, mid))) :
    Recognizes (G.andThen H) inp (r >>= k) := by
  intro y inp'
  rw [bind_eq_ok]
  constructor
  · rintro ⟨⟨x, mid⟩, hr, hrest⟩
    obtain ⟨p, hp, hsplits⟩ := (h x mid).1 hr
    obtain ⟨q, hq, hsplits'⟩ := (hk x p mid hp hsplits y inp').1 hrest
    exact ⟨p ++ q, ⟨x, p, q, hp, hq, rfl⟩, Input.splits_append.2 ⟨mid, hsplits, hsplits'⟩⟩
  · rintro ⟨bs, ⟨x, p, q, hp, hq, rfl⟩, hsplits⟩
    obtain ⟨mid, hsplits, hsplits'⟩ := Input.splits_append.1 hsplits
    exact ⟨(x, mid), (h x mid).2 ⟨p, hp, hsplits⟩,
      (hk x p mid hp hsplits y inp').2 ⟨q, hq, hsplits'⟩⟩

/-- Changing what was read changes what the bytes spell. -/
theorem map (f : α → β) (h : Recognizes G inp r) :
    Recognizes (fun bs y => ∃ x, G bs x ∧ y = f x) inp (r >>= fun p => .ok (f p.1, p.2)) := by
  refine (h.bind (H := fun x => Grammar.unit (f x)) fun x p mid _ _ => unit (f x)).congr ?_
  intro bs y
  constructor
  · rintro ⟨x, p, q, hp, ⟨rfl, rfl⟩, rfl⟩
    rw [List.append_nil]
    exact ⟨x, hp, rfl⟩
  · rintro ⟨x, hx, rfl⟩
    exact ⟨x, bs, [], hx, ⟨rfl, rfl⟩, (List.append_nil bs).symm⟩

/-- Two readers in sequence whose results are put together. -/
theorem both (f : α → β → γ) {H : Grammar β} {k : Input → Except ReadError (β × Input)}
    (h : Recognizes G inp r)
    (hk : ∀ x p mid, G p x → inp.Splits p mid → Recognizes H mid (k mid)) :
    Recognizes (Grammar.both f G H) inp (do
      let (x, inp) ← r
      let (y, inp) ← k inp
      return (f x y, inp)) := by
  refine (h.bind fun x p mid hp hsplits => (hk x p mid hp hsplits).map (f x)).congr fun bs z => ?_
  constructor
  · rintro ⟨x, p, q, hp, ⟨y, hq, rfl⟩, rfl⟩
    exact ⟨p, q, x, y, hp, hq, rfl, rfl⟩
  · rintro ⟨p, q, x, y, hp, hq, rfl, rfl⟩
    exact ⟨x, p, q, hp, ⟨y, hq, rfl⟩, rfl⟩

/-- Taking one byte. -/
theorem next (inp : Input) : Recognizes (fun bs b => bs = [b]) inp inp.next := by
  intro b inp'
  rw [Input.next_eq_ok_iff]
  constructor
  · exact fun h => ⟨[b], rfl, h⟩
  · rintro ⟨_, rfl, h⟩
    exact h

/-- Taking `n` bytes. -/
theorem take (n : Nat) (inp : Input) :
    Recognizes (fun bs xs => bs.length = n ∧ xs = bs) inp (inp.take n) := by
  intro xs inp'
  rw [Input.take_eq_ok_iff_splits]
  constructor
  · rintro ⟨hn, h⟩
    exact ⟨xs, ⟨hn, rfl⟩, h⟩
  · rintro ⟨_, ⟨hn, rfl⟩, h⟩
    exact ⟨hn, h⟩

end Recognizes

/-! ## The grammar of heads -/

open Head (initial)

/-- The argument `n` of a head of major type `major`: in the initial byte, or in the next 1, 2, 4
or 8 bytes. -/
inductive Argument (major : Nat) : Bytes → Nat → Prop
  | short {n : Nat} (h : n < 24) : Argument major [initial major n] n
  | long {k : Nat} {bs : Bytes} (hk : k < 4) (hbs : bs.length = 2 ^ k) :
      Argument major (initial major (24 + k) :: bs) (ofBigEndian bs)

/-- Bytes spell a number that fits them. -/
theorem ofBigEndian_lt (bs : Bytes) : ofBigEndian bs < 256 ^ bs.length := by
  have hfold : ∀ acc,
      bs.foldl (fun acc b => acc * 256 + b.toNat) acc < (acc + 1) * 256 ^ bs.length := by
    induction bs with
    | nil =>
      intro acc
      simp
    | cons b bs ih =>
      intro acc
      have hb := b.toNat_lt
      rw [List.foldl_cons, List.length_cons, pow_succ', ← Nat.mul_assoc]
      exact lt_of_lt_of_le (ih _) (Nat.mul_le_mul_right _ (by omega))
  have hzero := hfold 0
  rwa [Nat.zero_add, Nat.one_mul] at hzero

/-- An argument has at most 64 bits. -/
theorem Argument.lt {major n : Nat} {bs : Bytes} (h : Argument major bs n) :
    n < 0x10000000000000000 := by
  cases h with
  | short h => omega
  | long hk hbs =>
    rename_i k seg
    have hlt := ofBigEndian_lt seg
    have hwidth : 2 ^ k ≤ 2 ^ 3 := Nat.pow_le_pow_right (by omega) (by omega)
    have hle : 256 ^ 2 ^ k ≤ 256 ^ 2 ^ 3 := Nat.pow_le_pow_right (by omega) hwidth
    rw [hbs] at hlt
    exact lt_of_lt_of_le hlt hle

/-- The head of content without a length. -/
def opening (major : Nat) : Bytes := [initial major 31]

/-- The end of content without a length. -/
def closing : Bytes := [initial 7 31]

/-- A head of major type `major` with a length or without one. -/
inductive Sized (major : Nat) : Bytes → Option Nat → Prop
  | definite {bs : Bytes} {n : Nat} (h : Argument major bs n) : Sized major bs (some n)
  | indefinite : Sized major (opening major) none

/-- A simple value: in the initial byte, or in the next one. -/
inductive Simple : Bytes → Nat → Prop
  | short {n : Nat} (h : n < 24) : Simple [initial 7 n] n
  | long (b : UInt8) : Simple [initial 7 24, b] b.toNat

/-- A number in binary format, as the 64-bit word of that number: in 16, 32 or 64 bits. -/
inductive Floating : Bytes → Nat → Prop
  | half {bs : Bytes} (h : bs.length = 2) :
      Floating (initial 7 25 :: bs) (FloatFormat.half.widen (ofBigEndian bs))
  | single {bs : Bytes} (h : bs.length = 4) :
      Floating (initial 7 26 :: bs) (FloatFormat.single.widen (ofBigEndian bs))
  | double {bs : Bytes} (h : bs.length = 8) : Floating (initial 7 27 :: bs) (ofBigEndian bs)

namespace Head

/-- The bytes of a head, in any width. -/
inductive Spelled : Bytes → Head → Prop
  | unsigned {bs : Bytes} {n : Nat} (h : Argument 0 bs n) : Spelled bs (.unsigned n)
  | negative {bs : Bytes} {n : Nat} (h : Argument 1 bs n) : Spelled bs (.negative n)
  | bytes {bs : Bytes} {length : Option Nat} (h : Sized 2 bs length) : Spelled bs (.bytes length)
  | text {bs : Bytes} {length : Option Nat} (h : Sized 3 bs length) : Spelled bs (.text length)
  | array {bs : Bytes} {length : Option Nat} (h : Sized 4 bs length) : Spelled bs (.array length)
  | map {bs : Bytes} {length : Option Nat} (h : Sized 5 bs length) : Spelled bs (.map length)
  | tag {bs : Bytes} {n : Nat} (h : Argument 6 bs n) : Spelled bs (.tag n)
  | simple {bs : Bytes} {n : Nat} (h : Simple bs n) : Spelled bs (.simple n)
  | float {bs : Bytes} {bits : Nat} (h : Floating bs bits) : Spelled bs (.float bits)
  | stop : Spelled closing .stop

/-! ## Heads as they are read -/

/-- What follows an initial byte with additional information `info`, and the argument it gives. -/
inductive Trailing (info : Nat) : Bytes → Option Nat → Prop
  | within (h : info < 24) : Trailing info [] (some info)
  | behind {k : Nat} {bs : Bytes} (hk : k < 4) (hinfo : info = 24 + k) (hbs : bs.length = 2 ^ k) :
      Trailing info bs (some (ofBigEndian bs))
  | absent (h : info = 31) : Trailing info [] none

variable {bs : Bytes} {major info n : Nat} {argument : Option Nat} {head : Head}

/-- The argument that is read is what follows the initial byte. -/
theorem readArgument_recognizes (start : Nat) (hinfo : info < 32) (inp : Input) :
    Recognizes (Trailing info) inp (readArgument start info inp) := by
  unfold readArgument
  split
  · rename_i hsmall
    refine (Recognizes.unit (some info)).congr fun bs argument => ?_
    constructor
    · rintro ⟨rfl, rfl⟩
      exact .within hsmall
    · intro h
      cases h with
      | within h => exact ⟨rfl, rfl⟩
      | behind hk hinfo hbs => omega
      | absent h => omega
  split
  · rename_i hlarge hmiddle
    refine ((Recognizes.take (2 ^ (info - 24)) inp).map fun bs => some (ofBigEndian bs)).congr ?_
    intro bs argument
    constructor
    · rintro ⟨_, ⟨hbs, rfl⟩, rfl⟩
      exact .behind (k := info - 24) (by omega) (by omega) hbs
    · intro h
      cases h with
      | within h => omega
      | behind hk hinfo hbs =>
        subst hinfo
        refine ⟨bs, ⟨?_, rfl⟩, rfl⟩
        rw [hbs, Nat.add_sub_cancel_left]
      | absent h => omega
  split
  · refine .error _ fun bs argument h => ?_
    cases h with
    | within h => omega
    | behind hk hinfo hbs => omega
    | absent h => omega
  · refine (Recognizes.unit none).congr fun bs argument => ?_
    constructor
    · rintro ⟨rfl, rfl⟩
      exact .absent (by omega)
    · intro h
      cases h with
      | within h => omega
      | behind hk hinfo hbs => omega
      | absent h => exact ⟨rfl, rfl⟩

/-- An argument is an initial byte and what follows it. -/
theorem argument_iff :
    Argument major bs n ↔
      ∃ info tail, info < 32 ∧ bs = initial major info :: tail ∧ Trailing info tail (some n) := by
  constructor
  · intro h
    cases h with
    | short h => exact ⟨n, [], by omega, rfl, .within h⟩
    | long hk hbs => exact ⟨_, _, by omega, rfl, .behind hk rfl hbs⟩
  · rintro ⟨info, tail, -, rfl, htail⟩
    cases htail with
    | within h => exact .short h
    | behind hk hinfo hbs =>
      subst hinfo
      exact .long hk hbs

/-- A head with a length or without one is an initial byte and what follows it. -/
theorem sized_iff :
    Sized major bs argument ↔
      ∃ info tail, info < 32 ∧ bs = initial major info :: tail ∧ Trailing info tail argument := by
  cases argument with
  | some n =>
    rw [← argument_iff]
    constructor
    · rintro ⟨h⟩
      exact h
    · exact .definite
  | none =>
    constructor
    · intro h
      cases h
      exact ⟨31, [], by omega, rfl, .absent rfl⟩
    · rintro ⟨info, tail, -, rfl, htail⟩
      cases htail with
      | absent h =>
        subst h
        exact .indefinite

/-- Below the last major type the argument says all. -/
theorem spelled_of_sized (hmajor : major < 7) (h : Sized major bs argument)
    (hhead : assemble? major info argument = some head) : Spelled bs head := by
  interval_cases major
  · obtain ⟨n, rfl, rfl⟩ := Option.map_eq_some_iff.1 hhead
    cases h with
    | definite h => exact .unsigned h
  · obtain ⟨n, rfl, rfl⟩ := Option.map_eq_some_iff.1 hhead
    cases h with
    | definite h => exact .negative h
  · cases hhead
    exact .bytes h
  · cases hhead
    exact .text h
  · cases hhead
    exact .array h
  · cases hhead
    exact .map h
  · obtain ⟨n, rfl, rfl⟩ := Option.map_eq_some_iff.1 hhead
    cases h with
    | definite h => exact .tag h

/-- The last major type says what the width of its argument makes it. -/
theorem spelled_special {tail : Bytes} (h : Trailing info tail argument) :
    Spelled (initial 7 info :: tail) (special info argument) := by
  cases h with
  | within h =>
    rw [special, if_neg (by omega), if_neg (by omega), if_neg (by omega)]
    exact .simple (.short h)
  | behind hk hinfo hbs =>
    subst hinfo
    rename_i k
    interval_cases k
    · obtain ⟨b, rfl⟩ := List.length_eq_one_iff.1 hbs
      have hvalue : ofBigEndian [b] = b.toNat := by simp [ofBigEndian]
      rw [special, hvalue]
      exact .simple (.long b)
    · exact .float (.half hbs)
    · exact .float (.single hbs)
    · exact .float (.double hbs)
  | absent h =>
    subst h
    exact .stop

/-- A head is an initial byte of some major type, what follows it, and what both say. -/
theorem spelled_iff :
    Spelled bs head ↔
      ∃ major info tail argument, major < 8 ∧ info < 32 ∧ bs = initial major info :: tail ∧
        Trailing info tail argument ∧ assemble? major info argument = some head := by
  constructor
  · intro h
    -- below the last major type the argument is that of the head
    have hsized : ∀ major {argument}, major < 7 → Sized major bs argument →
        (∀ info, assemble? major info argument = some head) →
        ∃ major info tail argument, major < 8 ∧ info < 32 ∧ bs = initial major info :: tail ∧
          Trailing info tail argument ∧ assemble? major info argument = some head := by
      intro major argument hmajor hsized hhead
      obtain ⟨info, tail, hinfo, rfl, htail⟩ := sized_iff.1 hsized
      exact ⟨major, info, tail, argument, by omega, hinfo, rfl, htail, hhead info⟩
    cases h with
    | unsigned h => exact hsized 0 (by omega) (.definite h) fun _ => rfl
    | negative h => exact hsized 1 (by omega) (.definite h) fun _ => rfl
    | bytes h => exact hsized 2 (by omega) h fun _ => rfl
    | text h => exact hsized 3 (by omega) h fun _ => rfl
    | array h => exact hsized 4 (by omega) h fun _ => rfl
    | map h => exact hsized 5 (by omega) h fun _ => rfl
    | tag h => exact hsized 6 (by omega) (.definite h) fun _ => rfl
    | simple h =>
      cases h with
      | short h =>
        refine ⟨7, _, [], some _, by omega, by omega, rfl, .within h, ?_⟩
        show some (special _ _) = some _
        rw [special, if_neg (by omega), if_neg (by omega), if_neg (by omega)]
      | long b =>
        refine ⟨7, 24, [b], some (ofBigEndian [b]), by omega, by omega, rfl,
          .behind (k := 0) (by omega) rfl rfl, ?_⟩
        simp [assemble?, special, ofBigEndian]
    | float h =>
      cases h with
      | half h =>
        exact ⟨7, 25, _, _, by omega, by omega, rfl, .behind (k := 1) (by omega) rfl h, rfl⟩
      | single h =>
        exact ⟨7, 26, _, _, by omega, by omega, rfl, .behind (k := 2) (by omega) rfl h, rfl⟩
      | double h =>
        exact ⟨7, 27, _, _, by omega, by omega, rfl, .behind (k := 3) (by omega) rfl h, rfl⟩
    | stop => exact ⟨7, 31, [], none, by omega, by omega, rfl, .absent rfl, rfl⟩
  · rintro ⟨major, info, tail, argument, hmajor, hinfo, rfl, htail, hhead⟩
    rcases Nat.lt_succ_iff_lt_or_eq.1 hmajor with hlow | rfl
    · exact spelled_of_sized hlow (sized_iff.2 ⟨info, tail, hinfo, rfl, htail⟩) hhead
    · cases hhead
      exact spelled_special htail

/-- A byte is the initial byte of its two halves. -/
theorem initial_eq (b : UInt8) : initial (b.toNat / 32) (b.toNat % 32) = b := by
  rw [initial, Nat.div_add_mod' b.toNat 32, UInt8.ofNat_toNat]

theorem toNat_initial (hmajor : major < 8) (hinfo : info < 32) :
    (initial major info).toNat = major * 32 + info := by
  rw [initial, UInt8.toNat_ofNat']
  omega

/-- **The heads that are read** are those of the grammar, in every width. -/
theorem read_recognizes (inp : Input) : Recognizes Spelled inp (read inp) := by
  have hread : Recognizes (Grammar.andThen (fun bs b => bs = [b]) fun b =>
      Grammar.andThen (Trailing (b.toNat % 32)) fun argument bs head =>
        bs = [] ∧ assemble? (b.toNat / 32) (b.toNat % 32) argument = some head) inp
      (read inp) := by
    refine (Recognizes.next inp).bind fun b _ after _ _ => ?_
    refine (readArgument_recognizes inp.offset (by omega) after).bind fun argument _ last _ _ => ?_
    dsimp only
    split
    · rename_i head hhead
      refine (Recognizes.unit head).congr fun bs x => ?_
      rw [hhead, Option.some_inj]
      exact and_congr_right' eq_comm
    · rename_i hnone
      refine .error _ fun bs x h => ?_
      rw [hnone] at h
      cases h.2
  refine hread.congr fun bs head => ?_
  rw [spelled_iff]
  constructor
  · rintro ⟨b, _, _, rfl, ⟨argument, tail, _, htail, ⟨rfl, hhead⟩, rfl⟩, rfl⟩
    refine ⟨b.toNat / 32, b.toNat % 32, tail, argument, ?_, by omega, ?_, htail, hhead⟩
    · have := b.toNat_lt
      omega
    · rw [initial_eq, List.append_nil, List.singleton_append]
  · rintro ⟨major, info, tail, argument, hmajor, hinfo, rfl, htail, hhead⟩
    have hbyte := toNat_initial hmajor hinfo
    have hdiv : (initial major info).toNat / 32 = major := by omega
    have hmod : (initial major info).toNat % 32 = info := by omega
    refine ⟨initial major info, _, tail, rfl, ⟨argument, tail, [], ?_, ⟨rfl, ?_⟩, ?_⟩, rfl⟩
    · rwa [hmod]
    · rwa [hdiv, hmod]
    · rw [List.append_nil]

/-- A head takes at least one byte. -/
theorem Spelled.ne_nil (h : Spelled bs head) : bs ≠ [] := by
  obtain ⟨major, info, tail, argument, -, -, rfl, -⟩ := spelled_iff.1 h
  exact List.cons_ne_nil _ _

end Head

end ObjectStore.Cbor
