import Mathlib
import ObjectStore.Proofs.Cbor.Spelling

/-!
# How large and how deep items are

An item weighs what it holds in memory: one for each node and one for each byte of its strings
(`Item.weight`).  Whatever lengths its heads announce, it weighs no more than the bytes it is read
from (`Item.weight_le_of_whole`).

Its depth is the number of levels of arrays, maps and tags (`Item.depth`).  A reader that has some
levels left reads what is no deeper and gives up on everything else that is well formed (`Settles`),
one level at a time.

Main statement: `Item.decode_of_whole`, well-formed bytes are decoded up to the deepest level and
refused beyond.
-/

namespace ObjectStore.Cbor

/-! ## The measures -/

namespace Item

/-- The number that is spelled for an integer behind tag 2 or 3. -/
def magnitude (n : Int) : Nat := if 0 ≤ n then n.toNat else (-1 - n).toNat

mutual
/-- The number of levels of arrays, maps and tags; an integer is none, also with a tag of its own. -/
def depth : Item → Nat
  | .array items => depths items + 1
  | .map entries => entryDepths entries + 1
  | .tag _ content => content.depth + 1
  | _ => 0
/-- The depth of the deepest item. -/
def depths : List Item → Nat
  | [] => 0
  | item :: items => max item.depth (depths items)
/-- The depth of the deepest item in some pairs. -/
def entryDepths : List (Item × Item) → Nat
  | [] => 0
  | (key, value) :: entries => max (max key.depth value.depth) (entryDepths entries)
end

mutual
/-- The number of nodes and of bytes in strings.  An integer beyond 64 bits is a tag, a string, and
the bytes of its magnitude. -/
def weight : Item → Nat
  | .bytes bs => 1 + bs.length
  | .text cs => 1 + (Utf8.encode cs).length
  | .bignum n => 2 + (Nat.digits 256 (magnitude n)).length
  | .array items => 1 + weights items
  | .map entries => 1 + entryWeights entries
  | .tag _ content => 1 + content.weight
  | _ => 1
/-- The weight of all items together. -/
def weights : List Item → Nat
  | [] => 0
  | item :: items => item.weight + weights items
/-- The weight of all items in some pairs together. -/
def entryWeights : List (Item × Item) → Nat
  | [] => 0
  | (key, value) :: entries => key.weight + value.weight + entryWeights entries
end

variable {d : Nat}

theorem depths_le_iff {items : List Item} : depths items ≤ d ↔ ∀ item ∈ items, item.depth ≤ d := by
  induction items with
  | nil => simp [depths]
  | cons item items ih => simp [depths, ih]

theorem entryDepths_le_iff {entries : List (Item × Item)} :
    entryDepths entries ≤ d ↔ ∀ e ∈ entries, e.1.depth ≤ d ∧ e.2.depth ≤ d := by
  induction entries with
  | nil => simp [entryDepths]
  | cons e entries ih =>
    rw [entryDepths, max_le_iff, max_le_iff, ih, List.forall_mem_cons]

theorem depth_array_le_iff {items : List Item} :
    (array items).depth ≤ d + 1 ↔ ∀ item ∈ items, item.depth ≤ d := by
  rw [depth, Nat.add_le_add_iff_right, depths_le_iff]

theorem depth_map_le_iff {entries : List (Item × Item)} :
    (map entries).depth ≤ d + 1 ↔ ∀ e ∈ entries, e.1.depth ≤ d ∧ e.2.depth ≤ d := by
  rw [depth, Nat.add_le_add_iff_right, entryDepths_le_iff]

/-- An integer is no level, in or beyond the range of heads. -/
theorem depth_ofInt (n : Int) : (ofInt n).depth = 0 := by
  by_cases hrange : -0x10000000000000000 ≤ n ∧ n < 0x10000000000000000
  · rw [ofInt_of_range hrange.1 hrange.2]
    rfl
  · have hbig : n < -0x10000000000000000 ∨ 0x10000000000000000 ≤ n := by omega
    rw [ofInt_of_big hbig]
    rfl

theorem depth_of_bigInteger {tag : Nat} {bs : Bytes} {item : Item}
    (h : bigInteger tag bs = .ok item) : item.depth = 0 := by
  rcases bigInteger_eq_ok_iff.1 h with ⟨_, hitem⟩ | ⟨_, _, hitem⟩
  · rw [hitem, depth_ofInt]
  · rw [hitem, depth_ofInt]

theorem depth_of_ofSimple? {n : Nat} {item : Item} (h : ofSimple? n = some item) :
    item.depth = 0 ∧ item.weight = 1 := by
  unfold ofSimple? at h
  split at h <;> cases h <;> exact ⟨rfl, rfl⟩

end Item

/-! ## Weight -/

section Weight

variable {kind : StringKind} {length : Option Nat} {bs : Bytes}

theorem Segments.size_le {xs : List kind.Element} (h : Segments kind bs xs) :
    kind.size xs ≤ bs.length := by
  induction h with
  | nil => cases kind <;> exact Nat.le_refl 0
  | definite h tail ih =>
    obtain ⟨head, seg, -, hseg, rfl⟩ := h
    rw [StringKind.size_append, hseg.size, List.length_append, List.length_append]
    omega
  | nested h tail ih ih' =>
    simp only [StringKind.size_append, List.length_append]
    omega

theorem StringContent.size_le {xs : List kind.Element} (h : StringContent kind length bs xs) :
    kind.size xs ≤ bs.length := by
  cases length with
  | some n => exact (StringKind.Segment.size h.2).le
  | none =>
    obtain ⟨p, q, ys, zs, hp, ⟨rfl, rfl⟩, rfl, rfl⟩ := h
    have hle := hp.size_le
    beta_reduce
    rw [List.append_nil, List.length_append]
    omega

/-- An integer with a tag of its own weighs no more than its tag, its head and its bytes. -/
theorem Item.weight_of_bigInteger {tag : Nat} {item : Item} (h : bigInteger tag bs = .ok item) :
    item.weight ≤ bs.length + 2 := by
  have hdigits : (Nat.digits 256 (ofBigEndian bs)).length ≤ bs.length :=
    (Nat.digits_length_le_iff (by omega) _).2 (ofBigEndian_lt bs)
  have hofInt : ∀ n : Int, magnitude n = ofBigEndian bs → (ofInt n).weight ≤ bs.length + 2 := by
    intro n hn
    by_cases hrange : -0x10000000000000000 ≤ n ∧ n < 0x10000000000000000
    · rw [ofInt_of_range hrange.1 hrange.2, weight]
      · omega
      all_goals nofun
    · have hbig : n < -0x10000000000000000 ∨ 0x10000000000000000 ≤ n := by omega
      rw [ofInt_of_big hbig, weight, hn]
      omega
  rcases bigInteger_eq_ok_iff.1 h with ⟨_, hitem⟩ | ⟨_, _, hitem⟩
  · rw [hitem]
    refine hofInt _ ?_
    rw [magnitude, if_pos (by omega)]
    omega
  · rw [hitem]
    refine hofInt _ ?_
    rw [magnitude, if_neg (by omega)]
    omega

theorem Item.weights_le {G : Grammar Item} (hG : ∀ p item, G p item → item.weight ≤ p.length)
    {items : List Item} (h : Sequence G bs items) : weights items ≤ bs.length := by
  induction h with
  | nil => exact Nat.le_refl 0
  | cons hx hxs ih =>
    have hitem := hG _ _ hx
    rw [weights, List.length_append]
    omega

theorem Item.entryWeights_le {G : Grammar (Item × Item)}
    (hG : ∀ p e, G p e → e.1.weight + e.2.weight ≤ p.length) {entries : List (Item × Item)}
    (h : Sequence G bs entries) : entryWeights entries ≤ bs.length := by
  induction h with
  | nil => exact Nat.le_refl 0
  | cons hx hxs ih =>
    have hentry := hG _ _ hx
    rw [entryWeights, List.length_append]
    omega

/-- Things behind a head take all the bytes there are, up to the break. -/
theorem SequenceContent.exists {α : Type} {G : Grammar α} {xs : List α}
    (h : SequenceContent G length bs xs) : ∃ p, Sequence G p xs ∧ p.length ≤ bs.length := by
  cases length with
  | some n => exact ⟨bs, h.1, Nat.le_refl _⟩
  | none =>
    obtain ⟨p, hp, rfl⟩ := h
    refine ⟨p, hp, ?_⟩
    rw [List.length_append]
    omega

variable {G : BodyGrammar Item} {head : Head} {item : Item}

/-- With its head an item is at least one byte longer. -/
theorem Item.weight_le_of_content (hG : ∀ head q item, G head q item → item.weight ≤ q.length + 1)
    {p : Bytes} (h : Whole G p item) : item.weight ≤ p.length := by
  obtain ⟨head, p, q, hhead, hq, rfl⟩ := h
  have hweight := hG head q item hq
  have hpos := List.length_pos_iff.2 hhead.ne_nil
  rw [List.length_append]
  omega

theorem Content.weight_le {G? : Option (BodyGrammar Item)}
    (hG : ∀ G, G? = some G → ∀ head q item, G head q item → item.weight ≤ q.length + 1)
    (h : Content G? head bs item) : item.weight ≤ bs.length + 1 := by
  cases h with
  | unsigned n => exact Nat.le_refl 1
  | negative n => exact Nat.le_refl 1
  | bytes h =>
    have hsize := StringContent.size_le h
    rw [StringKind.size] at hsize
    rw [Item.weight]
    omega
  | text h =>
    have hsize := StringContent.size_le h
    rw [StringKind.size] at hsize
    rw [Item.weight]
    omega
  | array hinner h =>
    obtain ⟨p, hp, hlength⟩ := h.exists
    have hitems := Item.weights_le (fun _ _ => Item.weight_le_of_content (hG _ hinner)) hp
    rw [Item.weight]
    omega
  | map hinner h =>
    obtain ⟨p, hp, hlength⟩ := h.exists
    have hentries := Item.entryWeights_le (fun q e he => by
      obtain ⟨head, p₁, _, hhead, ⟨p₂, p₃, key, value, hkey, hvalue, rfl, rfl⟩, rfl⟩ := he
      have hfirst := Item.weight_le_of_content (hG _ hinner) ⟨head, p₁, p₂, hhead, hkey, rfl⟩
      have hsecond := Item.weight_le_of_content (hG _ hinner) hvalue
      simp only [List.length_append] at hfirst ⊢
      omega) hp
    rw [Item.weight]
    omega
  | integer hhead htag hlength hitem =>
    have hweight := Item.weight_of_bigInteger hitem
    have hpos := List.length_pos_iff.2 (Head.Spelled.bytes (.definite hhead)).ne_nil
    rw [List.length_append]
    omega
  | tag hinner hhead hother h =>
    have hcontent := Item.weight_le_of_content (hG _ hinner) ⟨_, _, _, hhead, h, rfl⟩
    rw [Item.weight]
    omega
  | simple hitem =>
    rw [(Item.depth_of_ofSimple? hitem).2]
    exact Nat.le_refl 1
  | float bits => exact Nat.le_refl 1

theorem ContentWithin.weight_le (d : Nat) {head : Head} {q : Bytes} {item : Item}
    (h : ContentWithin d head q item) : item.weight ≤ q.length + 1 := by
  induction d generalizing head q item with
  | zero =>
    refine Content.weight_le ?_ h
    rintro _ ⟨⟩
  | succ d ih =>
    refine Content.weight_le ?_ h
    rintro _ ⟨⟩ head q item
    exact ih

/-- **An item weighs no more than its bytes**, whatever they announce. -/
theorem Item.weight_le_of_whole {d : Nat} {p : Bytes} {item : Item}
    (h : Whole (ContentWithin d) p item) : item.weight ≤ p.length :=
  weight_le_of_content (fun _ _ _ => ContentWithin.weight_le d) h

end Weight

/-! ## Depth -/

section Depth

variable {α : Type} {length : Option Nat} {bs : Bytes}

theorem Sequence.exists_of_mem {G : Grammar α} {xs : List α} (h : Sequence G bs xs) {x : α}
    (hx : x ∈ xs) : ∃ p, G p x := by
  induction h with
  | nil => cases hx
  | cons hhead _ ih =>
    rcases List.mem_cons.1 hx with rfl | hx
    · exact ⟨_, hhead⟩
    · exact ih hx

theorem Sequence.imp {G H : Grammar α} {xs : List α} (h : Sequence G bs xs)
    (hGH : ∀ p, ∀ x ∈ xs, G p x → H p x) : Sequence H bs xs := by
  induction h with
  | nil => exact .nil
  | cons hx _ ih =>
    exact .cons (hGH _ _ List.mem_cons_self hx)
      (ih fun p y hy => hGH p y (List.mem_cons_of_mem _ hy))

theorem SequenceContent.imp {G H : Grammar α} {xs : List α} (h : SequenceContent G length bs xs)
    (hGH : ∀ p, ∀ x ∈ xs, G p x → H p x) : SequenceContent H length bs xs := by
  cases length with
  | some n => exact ⟨h.1.imp hGH, h.2⟩
  | none =>
    obtain ⟨p, hp, rfl⟩ := h
    exact ⟨p, hp.imp hGH, rfl⟩

theorem Whole.imp {G H : BodyGrammar α} {x : α} (h : Whole G bs x)
    (hGH : ∀ head q, G head q x → H head q x) : Whole H bs x := by
  obtain ⟨head, p, q, hhead, hq, rfl⟩ := h
  exact ⟨head, p, q, hhead, hGH head q hq, rfl⟩

variable {head : Head} {item : Item}

/-- An item is well formed over other levels if what is nested in it is. -/
theorem Content.relevel {G? H? : Option (BodyGrammar Item)} (h : Content G? head bs item)
    (hinner : ∀ G, G? = some G → 0 < item.depth →
      ∃ H, H? = some H ∧ ∀ head q x, x.depth < item.depth → G head q x → H head q x) :
    Content H? head bs item := by
  cases h with
  | unsigned n => exact .unsigned n
  | negative n => exact .negative n
  | bytes h => exact .bytes h
  | text h => exact .text h
  | array hG h =>
    obtain ⟨H, hH, himp⟩ := hinner _ hG (Nat.succ_pos _)
    refine .array hH (h.imp fun p x hx hp => hp.imp fun head q => himp head q x ?_)
    exact Nat.lt_succ_of_le (Item.depths_le_iff.1 (Nat.le_refl _) x hx)
  | map hG h =>
    obtain ⟨H, hH, himp⟩ := hinner _ hG (Nat.succ_pos _)
    refine .map hH (h.imp fun p e he hp => hp.imp fun head q => ?_)
    obtain ⟨hkey, hvalue⟩ := Item.entryDepths_le_iff.1 (Nat.le_refl _) e he
    rintro ⟨q₁, q₂, key, value, hq₁, hq₂, rfl, rfl⟩
    exact ⟨q₁, q₂, key, value, himp _ _ _ (Nat.lt_succ_of_le hkey) hq₁,
      hq₂.imp fun head q => himp head q value (Nat.lt_succ_of_le hvalue), rfl, rfl⟩
  | integer hhead htag hlength hitem => exact .integer hhead htag hlength hitem
  | tag hG hhead hother h =>
    obtain ⟨H, hH, himp⟩ := hinner _ hG (Nat.succ_pos _)
    exact .tag hH hhead hother (himp _ _ _ (Nat.lt_succ_self _) h)
  | simple hitem => exact .simple hitem
  | float bits => exact .float bits

namespace ContentWithin

variable {d d' : Nat} {q : Bytes}

/-- **An item is no deeper than the levels it is read with.** -/
theorem depth_le (h : ContentWithin d head q item) : item.depth ≤ d := by
  induction d generalizing head q item with
  | zero =>
    cases h with
    | array hG => cases hG
    | map hG => cases hG
    | tag hG => cases hG
    | integer hhead htag hlength hitem => exact (Item.depth_of_bigInteger hitem).le
    | simple hitem => exact (Item.depth_of_ofSimple? hitem).1.le
    | _ => exact Nat.le_refl 0
  | succ d ih =>
    have hwhole : ∀ {p x}, Whole (ContentWithin d) p x → x.depth ≤ d := by
      rintro p x ⟨head, p, q, -, hq, rfl⟩
      exact ih hq
    cases h with
    | array hG h =>
      cases hG
      obtain ⟨p, hp, -⟩ := h.exists
      refine Item.depth_array_le_iff.2 fun x hx => ?_
      obtain ⟨p, hp⟩ := hp.exists_of_mem hx
      exact hwhole hp
    | map hG h =>
      cases hG
      obtain ⟨p, hp, -⟩ := h.exists
      refine Item.depth_map_le_iff.2 fun e he => ?_
      obtain ⟨p, head, p, _, hhead, ⟨q, r, key, value, hkey, hvalue, rfl, rfl⟩, rfl⟩ :=
        hp.exists_of_mem he
      exact ⟨ih hkey, hwhole hvalue⟩
    | tag hG hhead hother h =>
      cases hG
      exact Nat.succ_le_succ (ih h)
    | integer hhead htag hlength hitem =>
      rw [Item.depth_of_bigInteger hitem]
      exact Nat.zero_le _
    | simple hitem =>
      rw [(Item.depth_of_ofSimple? hitem).1]
      exact Nat.zero_le _
    | _ => exact Nat.zero_le _

/-- **As many levels as an item is deep** are enough for it. -/
theorem of_depth_le (h : ContentWithin d head q item) (hdepth : item.depth ≤ d') :
    ContentWithin d' head q item := by
  induction d generalizing d' head q item with
  | zero =>
    have hlevel : ∀ H?, Content H? head q item := by
      intro H?
      refine Content.relevel h ?_
      rintro _ ⟨⟩
    cases d' with
    | zero => exact hlevel _
    | succ d' => exact hlevel _
  | succ d ih =>
    cases d' with
    | zero =>
      refine Content.relevel h fun G hG hpos => ?_
      omega
    | succ d' =>
      refine Content.relevel h ?_
      rintro _ ⟨⟩ -
      refine ⟨_, rfl, fun head q x hx hq => ih hq ?_⟩
      omega

end ContentWithin

end Depth

/-! ## Items that are too deep -/

section Refusal

variable {α : Type} {fuel : Nat}

/-- A reader reads what is shallow, and gives up on everything else that is well formed. -/
def Settles (fuel : Nat) (body : BodyReader α) (G : BodyGrammar α) (shallow : α → Prop) : Prop :=
  ∀ {head q x inp inp'}, G head q x → Input.Splits inp q inp' → inp.rest.length < fuel →
    (shallow x → body head inp = .ok (x, inp')) ∧ (¬ shallow x → body head inp = .error .tooDeep)

theorem Head.read_of_splits {head : Head} {p : Bytes} {inp inp' : Input} (h : Head.Spelled p head)
    (hsplits : inp.Splits p inp') : Head.read inp = .ok (head, inp') :=
  (Head.read_recognizes inp head inp').2 ⟨p, h, hsplits⟩

variable {body : BodyReader α} {G : BodyGrammar α} {shallow : α → Prop} {inp inp' : Input}
  {bs : Bytes} {xs : List α}

/-- Things of a given number are given up at the first one that is too deep. -/
theorem readMany_tooDeep (hbody : Settles fuel body G shallow) (h : Sequence (Whole G) bs xs)
    (hdeep : ∃ x ∈ xs, ¬ shallow x) (hsplits : inp.Splits bs inp') (hfuel : inp.rest.length < fuel) :
    readMany body xs.length inp = .error .tooDeep := by
  induction h generalizing inp with
  | nil =>
    obtain ⟨x, hx, -⟩ := hdeep
    cases hx
  | cons hx hxs ih =>
    rename_i x xs
    obtain ⟨head, p, q, hhead, hq, rfl⟩ := hx
    obtain ⟨mid, hfirst, hlater⟩ := Input.splits_append.1 hsplits
    obtain ⟨behind, hp, hq'⟩ := Input.splits_append.1 hfirst
    obtain ⟨hread, hrefuse⟩ := hbody hq hq' (hp.length_lt hfuel)
    rw [List.length_cons, readMany, Head.read_of_splits hhead hp]
    simp only [bind, Except.bind]
    by_cases hshallow : shallow x
    · have hrest := ((List.exists_mem_cons_iff _ _ _).1 hdeep).resolve_left (not_not.2 hshallow)
      simp only [hread hshallow, ih hrest hlater (hfirst.length_lt hfuel)]
    · simp only [hrefuse hshallow]

/-- Things up to a break are given up at the first one that is too deep. -/
theorem readUntilStop_tooDeep (hbody : Settles fuel body G shallow)
    (hstop : ∀ q x, ¬ G .stop q x) (h : Sequence (Whole G) bs xs) (hdeep : ∃ x ∈ xs, ¬ shallow x)
    (hsplits : inp.Splits bs inp') (hfuel : inp.rest.length < fuel) {count : Nat}
    (hcount : inp.rest.length < count) : readUntilStop body count inp = .error .tooDeep := by
  induction h generalizing inp count with
  | nil =>
    obtain ⟨x, hx, -⟩ := hdeep
    cases hx
  | cons hx hxs ih =>
    rename_i x xs
    obtain ⟨head, p, q, hhead, hq, rfl⟩ := hx
    obtain ⟨mid, hfirst, hlater⟩ := Input.splits_append.1 hsplits
    obtain ⟨behind, hp, hq'⟩ := Input.splits_append.1 hfirst
    obtain ⟨hread, hrefuse⟩ := hbody hq hq' (hp.length_lt hfuel)
    obtain ⟨count, rfl⟩ : ∃ k, count = k + 1 := ⟨count - 1, by omega⟩
    have hopen : head ≠ .stop := by
      rintro rfl
      exact hstop _ _ hq
    rw [readUntilStop, Head.read_of_splits hhead hp]
    simp only [bind, Except.bind, if_neg hopen]
    by_cases hshallow : shallow x
    · have hrest := ((List.exists_mem_cons_iff _ _ _).1 hdeep).resolve_left (not_not.2 hshallow)
      have hless := hq'.length_lt (hp.length_lt_of_spelled hhead hcount)
      simp only [hread hshallow, ih hrest hlater (hfirst.length_lt hfuel) hless]
    · simp only [hrefuse hshallow]

/-- **A sequence is given up** at the first thing that is too deep. -/
theorem readSequence_tooDeep (hbody : Settles fuel body G shallow) (hstop : ∀ q x, ¬ G .stop q x)
    {length : Option Nat} (h : SequenceContent (Whole G) length bs xs)
    (hdeep : ∃ x ∈ xs, ¬ shallow x) (hsplits : inp.Splits bs inp') (hfuel : inp.rest.length < fuel) :
    readSequence fuel body length inp = .error .tooDeep := by
  cases length with
  | some n =>
    obtain ⟨hxs, rfl⟩ := h
    exact readMany_tooDeep hbody hxs hdeep hsplits hfuel
  | none =>
    obtain ⟨p, hp, rfl⟩ := h
    obtain ⟨mid, hsplits, -⟩ := Input.splits_append.1 hsplits
    exact readUntilStop_tooDeep hbody hstop hp hdeep hsplits hfuel hfuel

/-- A pair is as deep as the deeper one of its parts. -/
theorem readPair_settles {body : BodyReader Item} {G : BodyGrammar Item} {shallow : Item → Prop}
    (hbody : Settles fuel body G shallow) :
    Settles fuel (readPair body) (PairContent G) fun e => shallow e.1 ∧ shallow e.2 := by
  rintro head _ _ inp inp' ⟨q, r, key, value, hkey, ⟨head', p, q', hhead, hvalue, rfl⟩, rfl, rfl⟩
    hsplits hfuel
  obtain ⟨mid, hq, hr⟩ := Input.splits_append.1 hsplits
  obtain ⟨behind, hp, hq'⟩ := Input.splits_append.1 hr
  obtain ⟨hread, hrefuse⟩ := hbody hkey hq hfuel
  obtain ⟨hread', hrefuse'⟩ := hbody hvalue hq' (hp.length_lt (hq.length_lt hfuel))
  unfold readPair
  simp only [bind, Except.bind]
  constructor
  · rintro ⟨hshallow, hshallow'⟩
    simp only [hread hshallow, Head.read_of_splits hhead hp, hread' hshallow', pure, Except.pure]
  · intro hdeep
    by_cases hshallow : shallow key
    · have hdeep' : ¬ shallow value := fun h => hdeep ⟨hshallow, h⟩
      simp only [hread hshallow, Head.read_of_splits hhead hp, hrefuse' hdeep']
    · simp only [hrefuse hshallow]

theorem not_contentWithin_stop {d : Nat} {q : Bytes} {item : Item} :
    ¬ ContentWithin d .stop q item := by
  cases d with
  | zero => exact not_content_stop
  | succ d => exact not_content_stop

/-- **A reader with some levels left** reads the items that are no deeper, and gives up on the
deeper ones. -/
theorem readBody_settles (fuel depth d : Nat) :
    Settles fuel (readBody fuel depth) (ContentWithin d) fun item => item.depth ≤ depth := by
  intro head q item inp inp' h hsplits hfuel
  beta_reduce
  refine ⟨fun hshallow => ?_, fun hdeep => ?_⟩
  · exact (readBody_recognizes fuel depth head inp hfuel item inp').2
      ⟨q, h.of_depth_le hshallow, hsplits⟩
  -- the levels are used up one by one, on both sides
  induction d generalizing depth head q item inp inp' with
  | zero => exact absurd (h.depth_le.trans (Nat.zero_le depth)) hdeep
  | succ d ih =>
    have hinner : ∀ depth, Settles fuel (readBody fuel depth) (ContentWithin d)
        fun item => item.depth ≤ depth := by
      intro depth head q item inp inp' h hsplits hfuel
      refine ⟨fun hshallow => ?_, ih depth h hsplits hfuel⟩
      exact (readBody_recognizes fuel depth head inp hfuel item inp').2
        ⟨q, h.of_depth_le hshallow, hsplits⟩
    cases h with
    | array hG h =>
      cases hG
      cases depth with
      | zero => rfl
      | succ depth =>
        rw [Item.depth_array_le_iff] at hdeep
        push Not at hdeep
        have hread := readSequence_tooDeep (hinner depth) (fun _ _ => not_contentWithin_stop) h
          (by simpa using hdeep) hsplits hfuel
        simp only [readBody, readWith, bind, Except.bind, hread]
    | map hG h =>
      cases hG
      cases depth with
      | zero => rfl
      | succ depth =>
        rw [Item.depth_map_le_iff] at hdeep
        push Not at hdeep
        have hread := readSequence_tooDeep (readPair_settles (hinner depth))
          (fun _ _ => not_pairContent_stop fun _ _ => not_contentWithin_stop) h
          (by simpa using hdeep) hsplits hfuel
        simp only [readBody, readWith, bind, Except.bind, hread]
    | tag hG hhead hother h =>
      cases hG
      obtain ⟨mid, hp, hq⟩ := Input.splits_append.1 hsplits
      have hread := Head.read_of_splits hhead hp
      cases depth with
      | zero => simp only [readBody, readWith, hread, bind, Except.bind, hother]
      | succ depth =>
        have hcontent : ¬ (_ : Item).depth ≤ depth := fun hle => hdeep (Nat.succ_le_succ hle)
        have hrefuse := ih depth h hq (hp.length_lt hfuel) hcontent
        simp only [readBody, readWith, hread, bind, Except.bind, hother, hrefuse]
    | integer hhead htag hlength hitem =>
      rw [Item.depth_of_bigInteger hitem] at hdeep
      exact absurd (Nat.zero_le depth) hdeep
    | simple hitem =>
      rw [(Item.depth_of_ofSimple? hitem).1] at hdeep
      exact absurd (Nat.zero_le depth) hdeep
    | _ => exact absurd (Nat.zero_le depth) hdeep

/-- **Well-formed bytes are decoded** unless the item is too deep, however deep its strings are in
segments. -/
theorem Item.decode_of_whole {d : Nat} {p : Bytes} {item : Item}
    (h : Whole (ContentWithin d) p item) (hp : p <+: bs) :
    decode bs = if item.depth ≤ maxDepth then .ok item else .error .tooDeep := by
  obtain ⟨head, p, q, hhead, hq, rfl⟩ := h
  obtain ⟨rest, rfl⟩ := hp
  have hsplits : (Input.ofBytes (p ++ q ++ rest)).Splits (p ++ q) ⟨(p ++ q).length, rest⟩ :=
    ⟨rfl, (Nat.zero_add _).symm⟩
  obtain ⟨mid, hp, hq'⟩ := Input.splits_append.1 hsplits
  have hless := hp.length_lt (Nat.lt_succ_self _)
  obtain ⟨hread, hrefuse⟩ := readBody_settles _ maxDepth d hq hq' hless
  unfold decode read
  rw [Head.read_of_splits hhead hp]
  simp only [bind, Except.bind]
  by_cases hshallow : item.depth ≤ maxDepth
  · simp only [hread hshallow, if_pos hshallow, pure, Except.pure]
  · simp only [hrefuse hshallow, if_neg hshallow]

end Refusal

end ObjectStore.Cbor
