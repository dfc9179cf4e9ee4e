import Mathlib
import ObjectStore.Proofs.Cbor.ItemGrammar

/-!
# How items are spelled

The content of an item depends on its head.  Seen from the item, an integer, a string, an array and
so on has these and these forms (`Spelling`), among them several for every integer: heads of any
width, and tags 2 and 3 with up to sixteen bytes.

Main statement: `whole_iff`, what is read as an item is what is spelled in one of its forms.
-/

namespace ObjectStore.Cbor

/-- An integer: a head with its argument, or tag 2 or 3 and at most sixteen bytes of definite
length. -/
inductive Integer : Bytes → Int → Prop
  | unsigned {bs : Bytes} {n : Nat} (h : Argument 0 bs n) : Integer bs n
  | negative {bs : Bytes} {n : Nat} (h : Argument 1 bs n) : Integer bs (-1 - n)
  | big {tag head seg : Bytes} (htag : Argument 6 tag 2) (hhead : Argument 2 head seg.length)
      (hlength : seg.length ≤ 16) : Integer (tag ++ (head ++ seg)) (ofBigEndian seg)
  | bigNegative {tag head seg : Bytes} (htag : Argument 6 tag 3) (hhead : Argument 2 head seg.length)
      (hlength : seg.length ≤ 16) : Integer (tag ++ (head ++ seg)) (-1 - ofBigEndian seg)

/-- The content of an array or a map behind its head: as many things as the head says, or things up
to a break. -/
inductive Enclosed (major count : Nat) (content : Bytes) : Bytes → Prop
  | definite {head : Bytes} (h : Argument major head count) :
      Enclosed major count content (head ++ content)
  | indefinite : Enclosed major count content (opening major ++ (content ++ closing))

/-- The bytes of an item, whatever its kind.  `inner` is as in `Content`. -/
inductive Spelling (inner : Option (BodyGrammar Item)) : Bytes → Item → Prop
  | int {bs : Bytes} {n : Int} (h : Integer bs n) (hlower : -0x10000000000000000 ≤ n)
      (hupper : n < 0x10000000000000000) : Spelling inner bs (.int n)
  | bignum {bs : Bytes} {n : Int} (h : Integer bs n)
      (hbig : n < -0x10000000000000000 ∨ 0x10000000000000000 ≤ n)
      (hlower : -0x80000000000000000000000000000000 ≤ n) : Spelling inner bs (.bignum n)
  | bytes {bs xs : Bytes} (h : Str .bytes bs xs) : Spelling inner bs (.bytes xs)
  | text {bs : Bytes} {cs : List Char} (h : Str .text bs cs) : Spelling inner bs (.text cs)
  | array {G : BodyGrammar Item} {bs content : Bytes} {items : List Item} (hinner : inner = some G)
      (hitems : Sequence (Whole G) content items) (h : Enclosed 4 items.length content bs) :
      Spelling inner bs (.array items)
  | map {G : BodyGrammar Item} {bs content : Bytes} {entries : List (Item × Item)}
      (hinner : inner = some G) (hentries : Sequence (Whole (PairContent G)) content entries)
      (h : Enclosed 5 entries.length content bs) : Spelling inner bs (.map entries)
  | tag {G : BodyGrammar Item} {n : Nat} {tag p q : Bytes} {head : Head} {item : Item}
      (hinner : inner = some G) (htag : Argument 6 tag n) (hhead : Head.Spelled p head)
      (hother : integerLength? n head = none) (h : G head q item) :
      Spelling inner (tag ++ (p ++ q)) (.tag n item)
  | false {bs : Bytes} (h : Simple bs 20) : Spelling inner bs (.bool false)
  | true {bs : Bytes} (h : Simple bs 21) : Spelling inner bs (.bool true)
  | null {bs : Bytes} (h : Simple bs 22 ∨ Simple bs 23) : Spelling inner bs .null
  | float {bs : Bytes} {bits : Nat} (h : Floating bs bits) : Spelling inner bs (.float bits)

section Spellings

variable {G? : Option (BodyGrammar Item)} {bs seg : Bytes} {tag n : Nat} {item : Item}

theorem ofInt_of_range {n : Int} (hlower : -0x10000000000000000 ≤ n)
    (hupper : n < 0x10000000000000000) : Item.ofInt n = .int n :=
  if_pos ⟨hlower, hupper⟩

theorem ofInt_of_big {n : Int} (h : n < -0x10000000000000000 ∨ 0x10000000000000000 ≤ n) :
    Item.ofInt n = .bignum n := by
  rw [Item.ofInt, if_neg (by omega)]

/-- An integer is spelled as one, in or beyond the range of heads. -/
theorem Spelling.ofInt {n : Int} (h : Integer bs n)
    (hlower : -0x80000000000000000000000000000000 ≤ n) : Spelling G? bs (.ofInt n) := by
  by_cases hrange : -0x10000000000000000 ≤ n ∧ n < 0x10000000000000000
  · rw [ofInt_of_range hrange.1 hrange.2]
    exact .int h hrange.1 hrange.2
  · have hbig : n < -0x10000000000000000 ∨ 0x10000000000000000 ≤ n := by omega
    rw [ofInt_of_big hbig]
    exact .bignum h hbig hlower

/-- A tag with its bytes is an integer. -/
theorem bigInteger_eq_ok_iff :
    bigInteger tag seg = .ok item ↔
      tag = 2 ∧ item = .ofInt (ofBigEndian seg) ∨
        tag ≠ 2 ∧ ofBigEndian seg < 0x80000000000000000000000000000000 ∧
          item = .ofInt (-1 - ofBigEndian seg) := by
  unfold bigInteger
  dsimp only
  by_cases htwo : tag = 2
  · rw [if_pos htwo, Except.ok.injEq]
    constructor
    · intro h
      exact .inl ⟨htwo, h.symm⟩
    · rintro (⟨-, h⟩ | ⟨h, -⟩)
      · exact h.symm
      · exact absurd htwo h
  · rw [if_neg htwo]
    by_cases hsmall : ofBigEndian seg < 0x80000000000000000000000000000000
    · rw [if_pos hsmall, Except.ok.injEq]
      constructor
      · intro h
        exact .inr ⟨htwo, hsmall, h.symm⟩
      · rintro (⟨h, -⟩ | ⟨-, -, h⟩)
        · exact absurd h htwo
        · exact h.symm
    · rw [if_neg hsmall]
      constructor
      · intro h
        exact absurd h nofun
      · rintro (⟨h, -⟩ | ⟨-, h, -⟩)
        · exact absurd h htwo
        · exact absurd h hsmall

theorem ofSimple?_eq_some_iff :
    Item.ofSimple? n = some item ↔
      n = 20 ∧ item = .bool false ∨ n = 21 ∧ item = .bool true ∨ (n = 22 ∨ n = 23) ∧ item = .null := by
  unfold Item.ofSimple?
  constructor
  · intro h
    split at h
    · cases h
      exact .inl ⟨rfl, rfl⟩
    · cases h
      exact .inr (.inl ⟨rfl, rfl⟩)
    · cases h
      exact .inr (.inr ⟨.inl rfl, rfl⟩)
    · cases h
      exact .inr (.inr ⟨.inr rfl, rfl⟩)
    · cases h
  · rintro (⟨rfl, rfl⟩ | ⟨rfl, rfl⟩ | ⟨rfl | rfl, rfl⟩) <;> rfl

/-- A string is its head and what follows that. -/
theorem str_iff {kind : StringKind} {xs : List kind.Element} :
    Str kind bs xs ↔ ∃ length p q, Sized kind.major p length ∧ StringContent kind length q xs ∧
      bs = p ++ q := by
  constructor
  · intro h
    cases h with
    | definite h =>
      obtain ⟨head, seg, hhead, hseg, rfl⟩ := h
      exact ⟨some seg.length, head, seg, .definite hhead, ⟨rfl, hseg⟩, rfl⟩
    | indefinite h =>
      exact ⟨none, _, _, .indefinite, ⟨_, _, xs, [], h, ⟨rfl, rfl⟩, rfl,
        (List.append_nil xs).symm⟩, rfl⟩
  · rintro ⟨length, p, q, hp, hq, rfl⟩
    cases hp with
    | definite hp =>
      obtain ⟨rfl, hseg⟩ := hq
      exact .definite ⟨p, q, hp, hseg, rfl⟩
    | indefinite =>
      obtain ⟨p, _, ys, _, hp, ⟨rfl, rfl⟩, rfl, rfl⟩ := hq
      simp only [List.append_nil]
      exact .indefinite hp

/-- An array or a map is its head and what follows that. -/
theorem enclosed_iff {α : Type} {G : Grammar α} {major : Nat} {xs : List α} :
    (∃ content, Sequence G content xs ∧ Enclosed major xs.length content bs) ↔
      ∃ length p q, Sized major p length ∧ SequenceContent G length q xs ∧ bs = p ++ q := by
  constructor
  · rintro ⟨content, hcontent, h⟩
    cases h with
    | definite h => exact ⟨some xs.length, _, content, .definite h, ⟨hcontent, rfl⟩, rfl⟩
    | indefinite => exact ⟨none, _, _, .indefinite, ⟨content, hcontent, rfl⟩, rfl⟩
  · rintro ⟨length, p, q, hp, hq, rfl⟩
    cases hp with
    | definite hp =>
      obtain ⟨hcontent, rfl⟩ := hq
      exact ⟨q, hcontent, .definite hp⟩
    | indefinite =>
      obtain ⟨content, hcontent, rfl⟩ := hq
      exact ⟨content, hcontent, .indefinite⟩

/-- What a head and the content behind it spell. -/
theorem spelling_of_content {head : Head} {p q : Bytes} (hhead : Head.Spelled p head)
    (h : Content G? head q item) : Spelling G? (p ++ q) item := by
  cases h with
  | unsigned n =>
    cases hhead with
    | unsigned hn =>
      have hlt := hn.lt
      rw [List.append_nil]
      exact .int (.unsigned hn) (by omega) (by omega)
  | negative n =>
    cases hhead with
    | negative hn =>
      have hlt := hn.lt
      rw [List.append_nil]
      exact .int (.negative hn) (by omega) (by omega)
  | bytes h =>
    cases hhead with
    | bytes hhead => exact .bytes (str_iff.2 ⟨_, p, q, hhead, h, rfl⟩)
  | text h =>
    cases hhead with
    | text hhead => exact .text (str_iff.2 ⟨_, p, q, hhead, h, rfl⟩)
  | array hinner h =>
    cases hhead with
    | array hhead =>
      obtain ⟨content, hitems, h⟩ := enclosed_iff.2 ⟨_, p, q, hhead, h, rfl⟩
      exact .array hinner hitems h
  | map hinner h =>
    cases hhead with
    | map hhead =>
      obtain ⟨content, hentries, h⟩ := enclosed_iff.2 ⟨_, p, q, hhead, h, rfl⟩
      exact .map hinner hentries h
  | integer hargument htag hlength hitem =>
    cases hhead with
    | tag ht =>
      rcases bigInteger_eq_ok_iff.1 hitem with ⟨htwo, hvalue⟩ | ⟨hother, hsmall, hvalue⟩
      · rw [htwo] at ht
        rw [hvalue]
        exact .ofInt (.big ht hargument hlength) (by omega)
      · rw [htag.resolve_left hother] at ht
        rw [hvalue]
        exact .ofInt (.bigNegative ht hargument hlength) (by omega)
  | tag hinner hnext hother h =>
    cases hhead with
    | tag ht => exact .tag hinner ht hnext hother h
  | simple hitem =>
    cases hhead with
    | simple h =>
      rw [List.append_nil]
      rcases ofSimple?_eq_some_iff.1 hitem with ⟨rfl, rfl⟩ | ⟨rfl, rfl⟩ | ⟨rfl | rfl, rfl⟩
      · exact .false h
      · exact .true h
      · exact .null (.inl h)
      · exact .null (.inr h)
  | float bits =>
    cases hhead with
    | float h =>
      rw [List.append_nil]
      exact .float h

/-- A head alone that says all. -/
theorem whole_of_head {head : Head} (hhead : Head.Spelled bs head) (h : Content G? head [] item) :
    Whole (Content G?) bs item :=
  ⟨head, bs, [], hhead, h, (List.append_nil bs).symm⟩

/-- An integer is a head alone or a tag with its bytes. -/
theorem whole_of_integer {n : Int} (h : Integer bs n)
    (hlower : -0x80000000000000000000000000000000 ≤ n) : Whole (Content G?) bs (.ofInt n) := by
  cases h with
  | unsigned h =>
    have hlt := h.lt
    rw [ofInt_of_range (by omega) (by omega)]
    exact whole_of_head (.unsigned h) (.unsigned _)
  | negative h =>
    have hlt := h.lt
    rw [ofInt_of_range (by omega) (by omega)]
    exact whole_of_head (.negative h) (.negative _)
  | big htag hhead hlength =>
    exact ⟨_, _, _, .tag htag, .integer hhead (.inl rfl) hlength
      (bigInteger_eq_ok_iff.2 (.inl ⟨rfl, rfl⟩)), rfl⟩
  | bigNegative htag hhead hlength =>
    exact ⟨_, _, _, .tag htag, .integer hhead (.inr rfl) hlength
      (bigInteger_eq_ok_iff.2 (.inr ⟨by omega, by omega, rfl⟩)), rfl⟩

/-- **What is read as an item is what is spelled**, in any of the forms that the item has. -/
theorem whole_iff : Whole (Content G?) bs item ↔ Spelling G? bs item := by
  constructor
  · rintro ⟨head, p, q, hhead, hq, rfl⟩
    exact spelling_of_content hhead hq
  · intro h
    cases h with
    | int h hlower hupper =>
      rw [← ofInt_of_range hlower hupper]
      exact whole_of_integer h (by omega)
    | bignum h hbig hlower =>
      rw [← ofInt_of_big hbig]
      exact whole_of_integer h hlower
    | bytes h =>
      obtain ⟨length, p, q, hp, hq, rfl⟩ := str_iff.1 h
      exact ⟨_, p, q, .bytes hp, .bytes hq, rfl⟩
    | text h =>
      obtain ⟨length, p, q, hp, hq, rfl⟩ := str_iff.1 h
      exact ⟨_, p, q, .text hp, .text hq, rfl⟩
    | array hinner hitems h =>
      obtain ⟨length, p, q, hp, hq, rfl⟩ := enclosed_iff.1 ⟨_, hitems, h⟩
      exact ⟨_, p, q, .array hp, .array hinner hq, rfl⟩
    | map hinner hentries h =>
      obtain ⟨length, p, q, hp, hq, rfl⟩ := enclosed_iff.1 ⟨_, hentries, h⟩
      exact ⟨_, p, q, .map hp, .map hinner hq, rfl⟩
    | tag hinner htag hhead hother h => exact ⟨_, _, _, .tag htag, .tag hinner hhead hother h, rfl⟩
    | false h => exact whole_of_head (.simple h) (.simple rfl)
    | true h => exact whole_of_head (.simple h) (.simple rfl)
    | null h =>
      rcases h with h | h
      · exact whole_of_head (.simple h) (.simple rfl)
      · exact whole_of_head (.simple h) (.simple rfl)
    | float h => exact whole_of_head (.float h) (.float _)

end Spellings

end ObjectStore.Cbor
