import Mathlib
import ObjectStore.Cbor.Item
import ObjectStore.Proofs.Cbor.StringGrammar

/-!
# The items that are read

What a reader takes for an item is a head and some content; `Content` says, head by head, which
content that is, and `ContentWithin` closes it up to a number of nested levels.  `Sequence` is any
number of things one behind the other.

Main statement: `Item.decode_eq_ok_iff`, an item is decoded exactly if a head and such content stand at
the front of the bytes.
-/

namespace ObjectStore.Cbor

variable {α β : Type}

/-! ## Grammars of what follows a head -/

/-- Which bytes spell which thing behind a head. -/
abbrev BodyGrammar (α : Type) := Head → Grammar α

/-- A head and what follows it. -/
def Whole (G : BodyGrammar α) : Grammar α := Grammar.andThen Head.Spelled G

/-- Any number of things one behind the other. -/
inductive Sequence (G : Grammar α) : Bytes → List α → Prop
  | nil : Sequence G [] []
  | cons {p q : Bytes} {x : α} {xs : List α} (head : G p x) (tail : Sequence G q xs) :
      Sequence G (p ++ q) (x :: xs)

/-- Things behind a head that announces how many, or that leaves it to a break. -/
def SequenceContent (G : Grammar α) : Option Nat → Grammar (List α)
  | some n => fun bs xs => Sequence G bs xs ∧ xs.length = n
  | none => fun bs xs => ∃ p, Sequence G p xs ∧ bs = p ++ closing

/-- A string behind its head. -/
def StringContent (kind : StringKind) : Option Nat → Grammar (List kind.Element)
  | some n => fun bs xs => bs.length = n ∧ kind.Segment bs xs
  | none => Pending kind 0

/-- A pair behind the head of its first part. -/
def PairContent (G : BodyGrammar Item) : BodyGrammar (Item × Item) := fun head =>
  .both Prod.mk (G head) (Whole G)

/-- What follows a head in an item.  `inner` says what follows the heads of the items in it; there is
none where no further level is left. -/
inductive Content (inner : Option (BodyGrammar Item)) : Head → Bytes → Item → Prop
  | unsigned (n : Nat) : Content inner (.unsigned n) [] (.int n)
  | negative (n : Nat) : Content inner (.negative n) [] (.int (-1 - n))
  | bytes {length : Option Nat} {bs xs : Bytes} (h : StringContent .bytes length bs xs) :
      Content inner (.bytes length) bs (.bytes xs)
  | text {length : Option Nat} {bs : Bytes} {cs : List Char} (h : StringContent .text length bs cs) :
      Content inner (.text length) bs (.text cs)
  | array {G : BodyGrammar Item} {length : Option Nat} {bs : Bytes} {items : List Item}
      (hinner : inner = some G) (h : SequenceContent (Whole G) length bs items) :
      Content inner (.array length) bs (.array items)
  | map {G : BodyGrammar Item} {length : Option Nat} {bs : Bytes} {entries : List (Item × Item)}
      (hinner : inner = some G) (h : SequenceContent (Whole (PairContent G)) length bs entries) :
      Content inner (.map length) bs (.map entries)
  | integer {tag : Nat} {head seg : Bytes} {item : Item} (hhead : Argument 2 head seg.length)
      (htag : tag = 2 ∨ tag = 3) (hlength : seg.length ≤ 16) (hitem : bigInteger tag seg = .ok item) :
      Content inner (.tag tag) (head ++ seg) item
  | tag {G : BodyGrammar Item} {tag : Nat} {head : Head} {p q : Bytes} {item : Item}
      (hinner : inner = some G) (hhead : Head.Spelled p head) (hother : integerLength? tag head = none)
      (h : G head q item) : Content inner (.tag tag) (p ++ q) (.tag tag item)
  | simple {n : Nat} {item : Item} (hitem : Item.ofSimple? n = some item) :
      Content inner (.simple n) [] item
  | float (bits : Nat) : Content inner (.float bits) [] (.float bits)

/-- What follows a head in an item with at most `depth` levels of arrays, maps and tags. -/
def ContentWithin : (depth : Nat) → BodyGrammar Item
  | 0 => Content none
  | depth + 1 => Content (some (ContentWithin depth))

/-! ## Readers of what follows a head -/

/-- A reader recognizes a grammar on inputs of less than `limit` bytes. -/
def BodyReader.Recognizes (limit : Nat) (body : BodyReader α) (G : BodyGrammar α) : Prop :=
  ∀ head inp, inp.rest.length < limit → Cbor.Recognizes (G head) inp (body head inp)

section Readers

variable {limit fuel : Nat} {body : BodyReader α} {G : BodyGrammar α} {inp mid : Input} {p : Bytes}

theorem Input.Splits.length_lt (h : inp.Splits p mid) (hlimit : inp.rest.length < limit) :
    mid.rest.length < limit := by
  have hadd := h.length_add
  omega

/-- Behind a head there is less than before it. -/
theorem Input.Splits.length_lt_of_spelled {head : Head} (h : inp.Splits p mid)
    (hhead : Head.Spelled p head) (hlimit : inp.rest.length < limit + 1) :
    mid.rest.length < limit := by
  have hadd := h.length_add
  have hpos := List.length_pos_iff.2 hhead.ne_nil
  omega

/-- **Things of a given number** are read one after the other. -/
theorem readMany_recognizes (hbody : body.Recognizes limit G) (n : Nat)
    (hlimit : inp.rest.length < limit) :
    Recognizes (SequenceContent (Whole G) (some n)) inp (readMany body n inp) := by
  induction n generalizing inp with
  | zero =>
    refine (Recognizes.unit []).congr fun bs xs => ?_
    constructor
    · rintro ⟨rfl, rfl⟩
      exact ⟨.nil, rfl⟩
    · rintro ⟨hsequence, hlength⟩
      obtain rfl := List.length_eq_zero_iff.1 hlength
      cases hsequence
      exact ⟨rfl, rfl⟩
  | succ n ih =>
    refine ((Head.read_recognizes inp).bind fun head p mid _ hsplits =>
      (hbody head mid (hsplits.length_lt hlimit)).both List.cons fun x q last _ hsplits' =>
        ih (hsplits'.length_lt (hsplits.length_lt hlimit))).congr fun bs xs => ?_
    constructor
    · rintro ⟨head, p, _, hhead, ⟨q, r, x, xs, hx, ⟨hxs, hlength⟩, rfl, rfl⟩, rfl⟩
      refine ⟨?_, by rw [List.length_cons, hlength]⟩
      rw [← List.append_assoc]
      exact .cons ⟨head, p, q, hhead, hx, rfl⟩ hxs
    · rintro ⟨hsequence, hlength⟩
      cases hsequence with
      | nil => cases hlength
      | cons hx hxs =>
        obtain ⟨head, p, q, hhead, hx, rfl⟩ := hx
        exact ⟨head, p, _, hhead, ⟨q, _, _, _, hx, ⟨hxs, Nat.succ.inj hlength⟩, rfl, rfl⟩,
          List.append_assoc _ _ _⟩

/-- **Things up to a break** are read one after the other; none of them is the break itself. -/
theorem readUntilStop_recognizes (hbody : body.Recognizes limit G) (hstop : ∀ bs x, ¬ G .stop bs x)
    (hlimit : inp.rest.length < limit) (hfuel : inp.rest.length < fuel) :
    Recognizes (SequenceContent (Whole G) none) inp (readUntilStop body fuel inp) := by
  induction fuel generalizing inp with
  | zero => omega
  | succ fuel ih =>
    have hread : Recognizes (Grammar.andThen Head.Spelled fun head =>
        if head = .stop then .unit [] else
          .both List.cons (G head) (SequenceContent (Whole G) none)) inp
        (readUntilStop body (fuel + 1) inp) := by
      refine (Head.read_recognizes inp).bind fun head p mid hhead hsplits => ?_
      dsimp only
      by_cases hclosed : head = .stop
      · simp only [if_pos hclosed]
        exact .unit []
      · simp only [if_neg hclosed]
        refine (hbody head mid (hsplits.length_lt hlimit)).both List.cons fun x q last _ hsplits' =>
          ih (hsplits'.length_lt (hsplits.length_lt hlimit))
            (hsplits'.length_lt (hsplits.length_lt_of_spelled hhead hfuel))
    -- a break ends the sequence, and any other head begins one more thing
    refine hread.congr fun bs xs => ?_
    constructor
    · rintro ⟨head, p, q, hhead, hq, rfl⟩
      split at hq
      · rename_i hclosed
        subst hclosed
        cases hhead
        obtain ⟨rfl, rfl⟩ := hq
        exact ⟨[], .nil, rfl⟩
      · obtain ⟨q, _, x, xs, hx, ⟨r, hxs, rfl⟩, rfl, rfl⟩ := hq
        refine ⟨(p ++ q) ++ r, .cons ⟨head, p, q, hhead, hx, rfl⟩ hxs, ?_⟩
        simp only [List.append_assoc]
    · rintro ⟨p, hsequence, rfl⟩
      cases hsequence with
      | nil => exact ⟨.stop, closing, [], .stop, ⟨rfl, rfl⟩, rfl⟩
      | cons hx hxs =>
        obtain ⟨head, p, q, hhead, hx, rfl⟩ := hx
        have hopen : head ≠ .stop := by
          rintro rfl
          exact hstop _ _ hx
        refine ⟨head, p, _, hhead, ?_, by rw [List.append_assoc, List.append_assoc]⟩
        beta_reduce
        rw [if_neg hopen]
        exact ⟨q, _, _, _, hx, ⟨_, hxs, rfl⟩, rfl, rfl⟩

/-- **Things behind a head with a length or without one** are read one after the other. -/
theorem readSequence_recognizes (hbody : body.Recognizes fuel G) (hstop : ∀ bs x, ¬ G .stop bs x)
    (length : Option Nat) (hfuel : inp.rest.length < fuel) :
    Recognizes (SequenceContent (Whole G) length) inp (readSequence fuel body length inp) := by
  cases length with
  | some n => exact readMany_recognizes hbody n hfuel
  | none => exact readUntilStop_recognizes hbody hstop hfuel hfuel

/-- A head is read and then what it begins. -/
theorem head_body_recognizes {body : BodyReader Item} {G : BodyGrammar Item}
    (hbody : body.Recognizes limit G) {inp : Input} (hlimit : inp.rest.length < limit) :
    Recognizes (Whole G) inp (do
      let (head, inp) ← Head.read inp
      body head inp) :=
  (Head.read_recognizes inp).bind fun head _ rest _ hsplits =>
    hbody head rest (hsplits.length_lt hlimit)

theorem readPair_recognizes {body : BodyReader Item} {G : BodyGrammar Item}
    (hbody : body.Recognizes limit G) : (readPair body).Recognizes limit (PairContent G) := by
  intro head inp hlimit
  have hpair := (hbody head inp hlimit).both Prod.mk fun x p mid _ hsplits =>
    head_body_recognizes hbody (hsplits.length_lt hlimit)
  unfold readPair PairContent
  simpa only [bind_assoc] using hpair

end Readers

/-! ## Readers of items -/

section Items

variable {fuel depth : Nat} {inner : Except ReadError (BodyReader Item)}
  {G? : Option (BodyGrammar Item)} {head : Head} {bs : Bytes} {item : Item}

/-- No item starts with a break. -/
theorem not_content_stop : ¬ Content G? .stop bs item := nofun

theorem not_pairContent_stop {entry : Item × Item} {G : BodyGrammar Item}
    (hstop : ∀ bs x, ¬ G .stop bs x) : ¬ PairContent G .stop bs entry := by
  rintro ⟨p, q, x, y, hx, -⟩
  exact hstop p x hx

/-- What is nested inside an item is read by a reader of its grammar, or not at all where there is
no further level. -/
inductive InnerRecognizes (fuel : Nat) :
    Except ReadError (BodyReader Item) → Option (BodyGrammar Item) → Prop
  | none (e : ReadError) : InnerRecognizes fuel (.error e) none
  | some {body : BodyReader Item} {G : BodyGrammar Item} (h : body.Recognizes fuel G)
      (hstop : ∀ bs x, ¬ G .stop bs x) : InnerRecognizes fuel (.ok body) (some G)

theorem integerLength?_eq_some {tag n : Nat} :
    integerLength? tag head = some n ↔ head = .bytes (some n) ∧ (tag = 2 ∨ tag = 3) ∧ n ≤ 16 := by
  unfold integerLength?
  constructor
  · intro h
    split at h
    · rename_i m
      split at h
      · rename_i hm
        cases h
        exact ⟨rfl, hm⟩
      · cases h
    · cases h
  · rintro ⟨rfl, h⟩
    exact if_pos h

/-- What the bytes behind the head of a tag say. -/
theorem readTag_recognizes (hinner : InnerRecognizes fuel inner G?) (tag : Nat) {inp : Input}
    (hfuel : inp.rest.length < fuel) :
    Recognizes (Content G? (.tag tag)) inp (readWith fuel inner (.tag tag) inp) := by
  -- the next head decides whether the tag is part of an integer
  have hread : Recognizes (Grammar.andThen Head.Spelled fun head bs item =>
      (∃ n, integerLength? tag head = some n ∧ bs.length = n ∧ bigInteger tag bs = .ok item) ∨
        integerLength? tag head = none ∧
          ∃ G content, G? = some G ∧ G head bs content ∧ item = .tag tag content) inp
      (readWith fuel inner (.tag tag) inp) := by
    unfold readWith
    refine (Head.read_recognizes inp).bind fun head p mid _ hsplits => ?_
    dsimp only
    cases hlength : integerLength? tag head with
    | some n =>
      refine ((Recognizes.take n mid).bind fun bs q last _ _ =>
        Recognizes.step (bigInteger tag bs)).congr fun bs item => ?_
      constructor
      · rintro ⟨_, p, _, ⟨hp, rfl⟩, ⟨rfl, hitem⟩, rfl⟩
        rw [List.append_nil]
        exact .inl ⟨n, rfl, hp, hitem⟩
      · rintro (⟨_, ⟨⟩, hp, hitem⟩ | ⟨h, -⟩)
        · exact ⟨bs, bs, [], ⟨hp, rfl⟩, ⟨rfl, hitem⟩, (List.append_nil bs).symm⟩
        · cases h
    | none =>
      cases hinner with
      | none e =>
        refine .error e fun bs item h => ?_
        obtain ⟨n, hn, -⟩ | ⟨-, G, content, hG, -⟩ := h
        · cases hn
        · cases hG
      | some hbody hstop =>
        rename_i body G
        refine ((hbody head mid (hsplits.length_lt hfuel)).map (Item.tag tag)).congr fun bs item => ?_
        constructor
        · rintro ⟨content, hcontent, rfl⟩
          exact .inr ⟨rfl, G, content, rfl, hcontent, rfl⟩
        · rintro (⟨n, hn, -⟩ | ⟨-, _, content, hG, hcontent, rfl⟩)
          · cases hn
          · cases hG
            exact ⟨content, hcontent, rfl⟩
  refine hread.congr fun bs item => ?_
  constructor
  · rintro ⟨head, p, q, hhead, ⟨n, hlength, rfl, hitem⟩ | ⟨hother, G, content, hG, hq, rfl⟩, rfl⟩
    · obtain ⟨rfl, htag, hsmall⟩ := integerLength?_eq_some.1 hlength
      cases hhead with
      | bytes hsized =>
        cases hsized with
        | definite hargument => exact .integer hargument htag hsmall hitem
    · exact .tag hG hhead hother hq
  · intro h
    cases h with
    | integer hargument htag hsmall hitem =>
      exact ⟨.bytes (some _), _, _, .bytes (.definite hargument),
        .inl ⟨_, integerLength?_eq_some.2 ⟨rfl, htag, hsmall⟩, rfl, hitem⟩, rfl⟩
    | tag hG hhead hother hq =>
      exact ⟨_, _, _, hhead, .inr ⟨hother, _, _, hG, hq, rfl⟩, rfl⟩

/-- **What follows a head in an item** is what the grammar says. -/
theorem readWith_recognizes (hinner : InnerRecognizes fuel inner G?) :
    (readWith fuel inner).Recognizes fuel (Content G?) := by
  intro head inp hfuel
  cases head with
  | unsigned n =>
    refine (Recognizes.unit (Item.int n)).congr fun bs item => ?_
    constructor
    · rintro ⟨rfl, rfl⟩
      exact .unsigned n
    · rintro ⟨⟩
      exact ⟨rfl, rfl⟩
  | negative n =>
    refine (Recognizes.unit (Item.int (-1 - n))).congr fun bs item => ?_
    constructor
    · rintro ⟨rfl, rfl⟩
      exact .negative n
    · rintro ⟨⟩
      exact ⟨rfl, rfl⟩
  | bytes length =>
    have hcontent : ∀ bs item, (∃ xs, StringContent .bytes length bs xs ∧ item = .bytes xs) ↔
        Content G? (.bytes length) bs item := by
      intro bs item
      constructor
      · rintro ⟨xs, h, rfl⟩
        exact .bytes h
      · rintro ⟨⟩
        exact ⟨_, ‹_›, rfl⟩
    -- a definite string is taken at once, and one of indefinite length segment by segment
    cases length with
    | some n => exact ((Recognizes.take n inp).map Item.bytes).congr hcontent
    | none => exact ((readSegments_recognizes .bytes 0 hfuel).map Item.bytes).congr hcontent
  | text length =>
    have hcontent : ∀ bs item, (∃ cs, StringContent .text length bs cs ∧ item = .text cs) ↔
        Content G? (.text length) bs item := by
      intro bs item
      constructor
      · rintro ⟨cs, h, rfl⟩
        exact .text h
      · rintro ⟨⟩
        exact ⟨_, ‹_›, rfl⟩
    cases length with
    | some n => exact ((readText_recognizes _ n inp).map Item.text).congr hcontent
    | none => exact ((readSegments_recognizes .text 0 hfuel).map Item.text).congr hcontent
  | array length =>
    cases hinner with
    -- no level is left, and without one no content has items in it
    | none e =>
      refine .error e fun bs item h => ?_
      cases h with
      | array hG h => cases hG
    | some hbody hstop =>
      refine ((readSequence_recognizes hbody hstop length hfuel).map Item.array).congr
        fun bs item => ?_
      constructor
      · rintro ⟨items, h, rfl⟩
        exact .array rfl h
      · intro h
        cases h with
        | array hG h =>
          cases hG
          exact ⟨_, h, rfl⟩
  | map length =>
    cases hinner with
    | none e =>
      refine .error e fun bs item h => ?_
      cases h with
      | map hG h => cases hG
    | some hbody hstop =>
      refine ((readSequence_recognizes (readPair_recognizes hbody)
        (fun bs entry => not_pairContent_stop hstop) length hfuel).map Item.map).congr
        fun bs item => ?_
      constructor
      · rintro ⟨entries, h, rfl⟩
        exact .map rfl h
      · intro h
        cases h with
        | map hG h =>
          cases hG
          exact ⟨_, h, rfl⟩
  | tag tag => exact readTag_recognizes hinner tag hfuel
  | simple n =>
    unfold readWith
    dsimp only
    split
    · rename_i item hitem
      refine (Recognizes.unit item).congr fun bs x => ?_
      constructor
      · rintro ⟨rfl, rfl⟩
        exact .simple hitem
      · rintro ⟨⟩
        rename_i hx
        rw [hitem] at hx
        cases hx
        exact ⟨rfl, rfl⟩
    · rename_i hnone
      refine .error _ fun bs x h => ?_
      cases h with
      | simple hx =>
        rw [hnone] at hx
        cases hx
  | float bits =>
    refine (Recognizes.unit (Item.float bits)).congr fun bs item => ?_
    constructor
    · rintro ⟨rfl, rfl⟩
      exact .float bits
    · rintro ⟨⟩
      exact ⟨rfl, rfl⟩
  | stop => exact .error _ fun bs item => not_content_stop

theorem readBody_recognizes (fuel depth : Nat) :
    (readBody fuel depth).Recognizes fuel (ContentWithin depth) := by
  induction depth with
  | zero => exact readWith_recognizes (.none .tooDeep)
  | succ depth ih =>
    refine readWith_recognizes (.some ih fun bs x => ?_)
    cases depth with
    | zero => exact not_content_stop
    | succ depth => exact not_content_stop

/-- **Items are read** up to the deepest level. -/
theorem Item.read_recognizes (inp : Input) :
    Recognizes (Whole (ContentWithin maxDepth)) inp (Item.read inp) :=
  head_body_recognizes (readBody_recognizes _ maxDepth) (Nat.lt_succ_self _)

/-- The bytes up to where the reader stops spell the item that was read. -/
theorem Item.whole_of_read {last : Input} (h : Item.read (.ofBytes bs) = .ok (item, last)) :
    Whole (ContentWithin maxDepth) (bs.take last.offset) item ∧
      last.offset + last.rest.length = bs.length := by
  obtain ⟨p, hp, hrest, hoffset⟩ := (Item.read_recognizes _ _ _).1 h
  have hlast : last.offset = p.length := hoffset.trans (Nat.zero_add _)
  have hbs : bs = p ++ last.rest := hrest
  rw [hlast, hbs, List.take_left, List.length_append]
  exact ⟨hp, rfl⟩

/-- **An item is decoded** exactly if some bytes at the front spell it. -/
theorem Item.decode_eq_ok_iff :
    Item.decode bs = .ok item ↔ ∃ p, p <+: bs ∧ Whole (ContentWithin maxDepth) p item := by
  unfold Item.decode
  rw [bind_eq_ok]
  constructor
  · rintro ⟨⟨item', last⟩, hread, heq⟩
    cases heq
    obtain ⟨p, hp, hrest, -⟩ := (Item.read_recognizes _ _ _).1 hread
    exact ⟨p, ⟨last.rest, hrest.symm⟩, hp⟩
  · rintro ⟨p, ⟨rest, rfl⟩, hp⟩
    refine ⟨(item, ⟨p.length, rest⟩), (Item.read_recognizes _ _ _).2 ⟨p, hp, rfl, ?_⟩, rfl⟩
    exact (Nat.zero_add p.length).symm

end Items

end ObjectStore.Cbor
