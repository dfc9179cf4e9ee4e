import Mathlib
import ObjectStore.Entities
import ObjectStore.Proofs.Database.AwaitedPut
import ObjectStore.Proofs.Database.Lawful

/-!
# Putting a batch

The objects of a batch are put one after the other, and each gets its ID when its turn comes: a new
one if it has none.  A new ID comes after all that were issued up to then, but an object later in
the batch may bring that very ID along; it overtakes the earlier one, which is lost although the
batch succeeds (`overtaken_object_is_lost`).  Nothing else is lost: IDs that differ in what the
objects bring along differ in what is returned, unless one object overtakes another, and every object
that is not overtaken can be loaded under its ID right afterwards (`putAll_stores_unless_overtaken`).

`TypedBox.Batch` lists what happens to the objects of a batch that succeeds; the rest is by induction
on that list.
-/

namespace ObjectStore

open Operation

/-! ## Batches and their IDs -/

section Binding

variable {σ α : Type}

/-- No two objects bring the same ID along. -/
def Binding.OwnIdsDiffer (b : Binding σ α) (objects : List α) : Prop :=
  objects.Pairwise fun object other =>
    ∀ id, id ≠ 0 → b.idOf object = .ok id → b.idOf other ≠ .ok id

/-- The object at place `i` of a batch got a new ID, and the one at place `j`, whose turn came later,
brought that ID along. -/
structure Binding.Overtaken (b : Binding σ α) (objects : List α) (ids : List ObjectId)
    (i j : Nat) : Prop where
  later : i < j
  new : ∃ object, objects[i]? = some object ∧ b.idOf object = .ok 0
  brought : ∃ id object, ids[i]? = some id ∧ objects[j]? = some object ∧ b.idOf object = .ok id

/-- What is overtaken in the rest of a batch is so in the batch. -/
theorem Binding.overtaken_cons {b : Binding σ α} {object : α} {objects : List α} {id : ObjectId}
    {ids : List ObjectId} {i j : Nat} :
    b.Overtaken (object :: objects) (id :: ids) (i + 1) (j + 1) ↔ b.Overtaken objects ids i j := by
  constructor
  · intro h
    exact ⟨Nat.lt_of_succ_lt_succ h.later, h.new, h.brought⟩
  · intro h
    exact ⟨Nat.succ_lt_succ h.later, h.new, h.brought⟩

end Binding

namespace TypedBox

variable {σ α : Type}

/-- A batch that succeeds: every object in its turn is issued an ID and put under it. -/
inductive Batch (b : TypedBox σ α) :
    Store → Overlay → List α → List ObjectId → Store → Overlay → Prop
  | nil (s : Store) (o : Overlay) : Batch b s o [] [] s o
  | cons {s s₁ s' : Store} {o o₁ o' : Overlay} {object : α} {objects : List α}
      {candidate id : ObjectId} {ids : List ObjectId} {bytes : Bytes}
      (hcandidate : b.binding.idOf object = .ok candidate)
      (hissue : s.issueId b.binding.type candidate = .ok (id, s₁))
      (hbytes : b.binding.flatten object id = .ok bytes)
      (hput : o.put b.binding.type id bytes (candidate ≠ 0) = .ok o₁)
      (hrest : Batch b s₁ o₁ objects ids s' o') : Batch b s o (object :: objects) (id :: ids) s' o'

namespace Batch

variable {b : TypedBox σ α} {s s' : Store} {o o' : Overlay} {objects : List α} {ids : List ObjectId}

theorem length_eq (h : b.Batch s o objects ids s' o') : ids.length = objects.length := by
  induction h with
  | nil s o => rfl
  | cons _ _ _ _ _ ih => rw [List.length_cons, List.length_cons, ih]

/-- What one object of a batch does to the last ID: it does not go back and stays within the IDs that
objects can have.  The ID of the object is new or was brought along. -/
theorem issued {candidate id : ObjectId} (hlast : s.lastId b.binding.type ≤ highestId)
    (hissue : s.issueId b.binding.type candidate = .ok (id, s')) :
    s'.lastId b.binding.type ≤ highestId ∧
      s.lastId b.binding.type ≤ s'.lastId b.binding.type ∧ id ≤ s'.lastId b.binding.type ∧
      id ≠ 0 ∧ (candidate = 0 → s.lastId b.binding.type < id) ∧ (candidate ≠ 0 → id = candidate) := by
  obtain ⟨-, t, t', htype, hissued, -⟩ := Store.issueId_eq_ok.1 hissue
  have hlast' : t.lastId ≤ highestId := by
    rw [← Store.lastId_of_get? htype]
    exact hlast
  obtain ⟨-, -, -, -, -, hown⟩ := EntityType.issue_spec hlast' hissued
  obtain ⟨hmax, -, -, hne, hid, hnext⟩ := Store.issueId_spec hlast hissue
  have hmaxNat := congrArg UInt64.toNat hmax
  rw [toNat_max] at hmaxNat
  rw [UInt64.le_iff_toNat_le] at hlast hid
  refine ⟨?_, ?_, ?_, hne, ?_, hown⟩
  · rw [UInt64.le_iff_toNat_le]
    omega
  · rw [UInt64.le_iff_toNat_le]
    omega
  · rw [UInt64.le_iff_toNat_le]
    omega
  · intro hzero
    have hnew := hnext hzero
    rw [UInt64.lt_iff_toNat_lt]
    omega

/-- An ID that was issued before a batch is one of the batch only where an object brings it along. -/
theorem brought_of_le (h : b.Batch s o objects ids s' o') {id : ObjectId} {j : Nat}
    (hlast : s.lastId b.binding.type ≤ highestId) (hid : id ≤ s.lastId b.binding.type)
    (hj : ids[j]? = some id) :
    ∃ object, objects[j]? = some object ∧ b.binding.idOf object = .ok id := by
  induction h generalizing j with
  | nil s o => cases hj
  | @cons s s₁ s' o o₁ o' object objects candidate first ids bytes hcandidate hissue _ _ _ ih =>
    obtain ⟨hbound, hmono, -, -, hnew, hown⟩ := issued hlast hissue
    cases j with
    | zero =>
      obtain rfl : first = id := Option.some.inj hj
      by_cases hzero : candidate = 0
      · -- a new ID would come after the last one
        have hlt := hnew hzero
        rw [UInt64.lt_iff_toNat_lt] at hlt
        rw [UInt64.le_iff_toNat_le] at hid
        omega
      · rw [hown hzero]
        exact ⟨object, rfl, hcandidate⟩
    | succ j => exact ih hbound (UInt64.le_trans hid hmono) hj

/-- Every ID of a batch is new or was brought along. -/
theorem candidate_of_id (h : b.Batch s o objects ids s' o') {id : ObjectId} {i : Nat}
    (hlast : s.lastId b.binding.type ≤ highestId) (hi : ids[i]? = some id) :
    ∃ object candidate, objects[i]? = some object ∧ b.binding.idOf object = .ok candidate ∧
      (candidate = 0 ∧ s.lastId b.binding.type < id ∨ candidate ≠ 0 ∧ candidate = id) := by
  induction h generalizing i with
  | nil s o => cases hi
  | @cons s s₁ s' o o₁ o' object objects candidate first ids bytes hcandidate hissue _ _ _ ih =>
    obtain ⟨hbound, hmono, -, -, hnew, hown⟩ := issued hlast hissue
    cases i with
    | zero =>
      obtain rfl : first = id := Option.some.inj hi
      refine ⟨object, candidate, rfl, hcandidate, ?_⟩
      by_cases hzero : candidate = 0
      · exact Or.inl ⟨hzero, hnew hzero⟩
      · exact Or.inr ⟨hzero, (hown hzero).symm⟩
    | succ i =>
      obtain ⟨other, candidate', hother, hcandidate', hcases⟩ := ih hbound hi
      refine ⟨other, candidate', hother, hcandidate', hcases.imp_left ?_⟩
      rintro ⟨hzero, hlt⟩
      refine ⟨hzero, ?_⟩
      rw [UInt64.lt_iff_toNat_lt] at hlt ⊢
      rw [UInt64.le_iff_toNat_le] at hmono
      omega

/-- **Two objects of a batch share an ID** exactly where the later one overtakes the earlier. -/
theorem same_id_iff (h : b.Batch s o objects ids s' o')
    (hlast : s.lastId b.binding.type ≤ highestId) (hown : b.binding.OwnIdsDiffer objects)
    {i j : Nat} (hlater : i < j) (hj : j < ids.length) :
    ids[i]? = ids[j]? ↔ b.binding.Overtaken objects ids i j := by
  induction h generalizing i j with
  | nil s o => cases hj
  | @cons s s₁ s' o o₁ o' object objects candidate id ids bytes hcandidate hissue _ _ hrest ih =>
    obtain ⟨hbound, -, hid, hne, -, hsupplied⟩ := issued hlast hissue
    obtain ⟨hhead, htail⟩ := List.pairwise_cons.1 hown
    cases j with
    | zero => cases hlater
    | succ j =>
      cases i with
      | succ i =>
        rw [Binding.overtaken_cons, ← ih hbound htail (Nat.lt_of_succ_lt_succ hlater)
          (Nat.lt_of_succ_lt_succ hj)]
        rfl
      | zero =>
        constructor
        · intro heq
          have hsame : ids[j]? = some id := heq.symm
          obtain ⟨other, hother, hbrought⟩ := hrest.brought_of_le hbound hid hsame
          refine ⟨hlater, ⟨object, rfl, ?_⟩, id, other, rfl, hother, hbrought⟩
          by_cases hzero : candidate = 0
          · rw [hcandidate, hzero]
          · -- both would have brought the ID along
            have hcand := hsupplied hzero
            rw [← hcand] at hcandidate hzero
            exact absurd hbrought (hhead other (List.mem_of_getElem? hother) id hzero hcandidate)
        · rintro ⟨-, -, _, other, ⟨⟩, hother, hbrought⟩
          have hplace : j < ids.length := Nat.lt_of_succ_lt_succ hj
          have hget : ids[j]? = some ids[j] := List.getElem?_eq_getElem hplace
          obtain ⟨_, candidate', hother', hcandidate', hcases⟩ := hrest.candidate_of_id hbound hget
          cases hother.symm.trans hother'
          obtain rfl : id = candidate' := Except.ok.inj (hbrought.symm.trans hcandidate')
          rcases hcases with ⟨hzero, -⟩ | ⟨-, heq⟩
          · exact absurd hzero hne
          · show some id = ids[j]?
            rw [hget, heq]

/-- What no object of a batch is put under stays as it is. -/
theorem get?_of_not_mem (h : b.Batch s o objects ids s' o') {id : ObjectId} (hid : id ∉ ids) :
    (o'.payloads b.binding.type).get? id = (o.payloads b.binding.type).get? id := by
  induction h with
  | nil s o => rfl
  | @cons s s₁ s' o o₁ o' object objects candidate first ids bytes _ _ _ hput _ ih =>
    obtain ⟨hne, hrest⟩ := List.ne_and_not_mem_of_not_mem_cons hid
    obtain ⟨-, -, rfl⟩ := Overlay.put_eq_ok.1 hput
    rw [ih hrest, Overlay.payloads_change_apply, if_pos rfl, SortedMap.get?_insert, if_neg hne]

/-- An object whose ID no later one has is there under it in the end. -/
theorem stored (h : b.Batch s o objects ids s' o') {i : Nat} {object : α} {id : ObjectId}
    (hobject : objects[i]? = some object) (hi : ids[i]? = some id)
    (hlast : ∀ j, i < j → ids[j]? ≠ some id) :
    ∃ bytes, b.binding.flatten object id = .ok bytes ∧
      (o'.payloads b.binding.type).get? id = some bytes := by
  induction h generalizing i with
  | nil s o => cases hi
  | @cons s s₁ s' o o₁ o' first objects candidate id' ids bytes _ _ hbytes hput hrest ih =>
    cases i with
    | zero =>
      cases hobject
      cases hi
      have hkept : id ∉ ids := by
        intro hmem
        obtain ⟨j, hj⟩ := List.mem_iff_getElem?.1 hmem
        exact hlast (j + 1) (Nat.succ_pos j) hj
      refine ⟨bytes, hbytes, ?_⟩
      obtain ⟨-, -, rfl⟩ := Overlay.put_eq_ok.1 hput
      rw [hrest.get?_of_not_mem hkept, Overlay.payloads_change_apply, if_pos rfl,
        SortedMap.get?_insert_self]
    | succ i =>
      apply ih hobject hi
      intro j hlater
      exact hlast (j + 1) (Nat.succ_lt_succ hlater)

end Batch

/-! ## Batches in a transaction -/

section Transaction

variable {β : Type} {b : TypedBox σ α} {ctx ctx' : Context σ}

/-- A commit that succeeds installs the changes. -/
theorem commit_of_ok {changes : Overlay} (h : commit changes ctx = .ok () ctx') :
    ctx.db.store.closed = false ∧ ctx' = ctx.withStore (ctx.db.store.install changes) := by
  obtain ⟨r, ctx₁, hattempt, hrest⟩ := ok_of_bind_ok h
  rcases attempt_eq_ok hattempt with ⟨_, rfl, hstore⟩ | ⟨e, rfl, -⟩
  · cases hrest
    obtain ⟨s, hcommit, rfl⟩ := store_eq_ok.1 hstore
    obtain ⟨s', hs', ⟨⟩⟩ := map_eq_ok.1 hcommit
    obtain ⟨hopen, rfl⟩ := Store.commit_eq_ok.1 hs'
    exact ⟨hopen, rfl⟩
  · obtain ⟨_, _, -, hthrow⟩ := ok_of_bind_ok hrest
    cases hthrow

/-- **A write that succeeds** was made on a box that can be used, while nobody else wrote, and has
installed the changes of its work. -/
theorem write_eq_ok {work : Overlay → Operation σ (β × Overlay)} {result : β}
    (h : b.write work ctx = .ok result ctx') :
    b.Usable ctx.db ∧ ctx.db.store.writing = false ∧ ∃ changes ctx₁,
      work (.ofBase ctx.db.store.committed) (writing ctx) = .ok (result, changes) ctx₁ ∧
        ctx' = ctx₁.withStore (ctx₁.db.store.install changes) := by
  obtain ⟨box, _, hrequire, hbegun⟩ := ok_of_bind_ok h
  obtain ⟨hbox, rfl⟩ := query_eq_ok.1 hrequire
  obtain ⟨o, ctx₂, hbegin, hbody⟩ := ok_of_bind_ok hbegun
  obtain ⟨_, _, hopen, hwriter⟩ := ok_of_bind_ok hbegin
  obtain ⟨-, rfl⟩ := query_eq_ok.1 hopen
  obtain ⟨s, hstarted, rfl⟩ := store_eq_ok.1 hwriter
  obtain ⟨hstore, hfree, rfl, rfl⟩ := Store.openWriter_eq_ok.1 hstarted
  obtain ⟨r, ctx₃, hattempt, hend⟩ := ok_of_bind_ok hbody
  rcases attempt_eq_ok hattempt with ⟨⟨result', changes⟩, rfl, hinside⟩ | ⟨e, rfl, -⟩
  · obtain ⟨_, _, hcursor, hwork⟩ := ok_of_bind_ok hinside
    obtain ⟨hrequired, rfl⟩ := query_eq_ok.1 hcursor
    obtain ⟨-, htype⟩ := Store.requireType_eq_ok.1 (mapError_eq_ok.1 hrequired)
    obtain ⟨_, _, hcommit, hresult⟩ := ok_of_bind_ok hend
    obtain ⟨-, rfl⟩ := commit_of_ok hcommit
    cases hresult
    have hisOpen := Database.isOpen_iff.2 ⟨box, Database.requireBox_eq_ok.1 hbox⟩
    exact ⟨⟨hisOpen, hstore, htype⟩, hfree, changes, ctx₃, hwork, rfl⟩
  · obtain ⟨_, _, -, hthrow⟩ := ok_of_bind_ok hend
    cases hthrow

/-- Putting objects one after the other, all with success, is a batch. -/
theorem batch_of_putEachWithin {objects : List α} {o o' : Overlay} {ids : List ObjectId}
    (hquiet : ∀ object ∈ objects, ∀ id, (b.binding.assemble object id).Quiet) {builder : Builder}
    (hidle : builder.isIdle = true)
    (h : b.putEachWithin objects o builder ctx = .ok (ids, o') ctx') :
    b.Batch ctx.db.store o objects ids ctx'.db.store o' ∧
      ctx'.db = { ctx.db with store := ctx'.db.store } := by
  induction objects generalizing o ids builder ctx with
  | nil =>
    cases h
    exact ⟨.nil _ _, rfl⟩
  | cons object objects ih =>
    obtain ⟨⟨id, o₁, builder₁⟩, ctx₁, hone, hothers⟩ := ok_of_bind_ok h
    obtain ⟨⟨ids', o₂⟩, ctx₂, hrest, hresult⟩ := ok_of_bind_ok hothers
    cases hresult
    obtain ⟨user, builder', hidle', hput⟩ :=
      putWithin_of_intent (hquiet object List.mem_cons_self) builder hidle o ctx
    rw [hone] at hput
    -- the object has an intent, and the overlay has taken it
    cases hintent : b.intent object ctx.db.store with
    | mk outcome s =>
      rw [hintent] at hput
      cases outcome with
      | error e => cases hput
      | ok r =>
        obtain ⟨⟨type, candidate, id'⟩, bytes⟩ := r
        dsimp only at hput
        obtain ⟨rfl, hcandidate, hissue, hflatten⟩ := intent_eq_ok hintent
        cases hoverlay : o.put b.binding.type id' bytes (candidate ≠ 0) with
        | error e =>
          rw [hoverlay] at hput
          cases hput
        | ok o' =>
          rw [hoverlay] at hput
          cases hput
          obtain ⟨hbatch, hdb⟩ :=
            ih (fun other hother => hquiet other (List.mem_cons_of_mem _ hother)) hidle' hrest
          exact ⟨.cons hcandidate hissue hflatten hoverlay hbatch, hdb⟩

/-- A batch changes neither what is committed nor what it started from; no type is lost, and an open
store stays open. -/
theorem Batch.frame {s s' : Store} {o o' : Overlay} {objects : List α} {ids : List ObjectId}
    (h : b.Batch s o objects ids s' o') :
    s'.committed = s.committed ∧ s'.closed = s.closed ∧
      (∀ type, s.Registered type → s'.Registered type) ∧ o'.base = o.base := by
  induction h with
  | nil s o => exact ⟨rfl, rfl, fun _ => id, rfl⟩
  | cons _ hissue _ hput _ ih =>
    obtain ⟨hcommitted, hclosed, htypes, hbase⟩ := ih
    obtain ⟨-, _, _, -, -, rfl⟩ := Store.issueId_eq_ok.1 hissue
    refine ⟨hcommitted, hclosed, ?_, hbase.trans (Overlay.base_of_put hput)⟩
    intro type htype
    exact htypes type (Store.registered_insert htype)

/-- **A batch that succeeds** was put object by object, and its changes are committed. -/
theorem batch_of_putAll {objects stored : List α} {ids : List ObjectId}
    (hquiet : ∀ object ∈ objects, ∀ id, (b.binding.assemble object id).Quiet)
    (hsome : objects ≠ []) (h : b.putAll objects ctx = .ok (ids, stored) ctx') :
    b.Usable ctx'.db ∧ ∃ s o,
      b.Batch (writing ctx).db.store (.ofBase ctx.db.store.committed) objects ids s o ∧
        ctx'.db.store.committed.payloads b.binding.type = o.payloads b.binding.type := by
  have hisEmpty : objects.isEmpty = false := by
    cases objects with
    | nil => exact absurd rfl hsome
    | cons object objects => rfl
  unfold putAll at h
  rw [hisEmpty] at h
  obtain ⟨ids', ctx₁, hwrite, hresult⟩ := ok_of_bind_ok h
  cases hresult
  obtain ⟨husable, -, o, ctx₂, hwork, rfl⟩ := write_eq_ok hwrite
  obtain ⟨hbatch, hdb⟩ := batch_of_putEachWithin hquiet rfl hwork
  obtain ⟨hcommitted, hclosed, htypes, hbase⟩ := hbatch.frame
  refine ⟨⟨?_, hclosed.trans husable.store, htypes _ husable.type⟩, ctx₂.db.store, o, hbatch, ?_⟩
  · show ctx₂.db.isOpen b.number = true
    rw [hdb]
    exact husable.box
  · show (o.result ctx₂.db.store.committed).view b.binding.type = _
    rw [Overlay.view_result (hbase.trans hcommitted.symm)]
    rfl

/-- After a batch that succeeds, an object whose ID no later one has is loaded under it. -/
theorem get_of_putAll {Fits : α → Prop} (hb : b.binding.Lawful Fits) {objects stored : List α}
    (hfits : ∀ object ∈ objects, Fits object) {ids : List ObjectId}
    (h : b.putAll objects ctx = .ok (ids, stored) ctx') {i : Nat} {object : α} {id : ObjectId}
    (hobject : objects[i]? = some object) (hi : ids[i]? = some id)
    (hlast : ∀ j, i < j → ids[j]? ≠ some id) :
    b.get id ctx' = .ok (some (b.binding.withId object id)) ctx' := by
  have hmem := List.mem_of_getElem? hobject
  obtain ⟨husable, s, o, hbatch, hpayloads⟩ :=
    batch_of_putAll (fun object hobject => hb.quiet (hfits object hobject))
      (List.ne_nil_of_mem hmem) h
  obtain ⟨bytes, hbytes, hget⟩ := hbatch.stored hobject hi hlast
  have hrestore := hb.restores (hfits object hmem) hbytes
  rw [get, read_eq husable, hpayloads, hget]
  dsimp only
  rw [hrestore]
  rfl

end Transaction

end TypedBox

/-! ## What is stored -/

/-- **A batch that succeeds stores every object that no other overtakes**: the IDs that are returned
differ but where one object overtakes another, and right afterwards every object that is not
overtaken is loaded under its ID.  An ID that overtakes was never issued before. -/
theorem putAll_stores_unless_overtaken {σ α : Type} {x : Activity} (hx : x.Reachable)
    {b : TypedBox σ α} {Fits : α → Prop} (hb : b.binding.Lawful Fits) {objects stored : List α}
    (hfits : ∀ object ∈ objects, Fits object) (hown : b.binding.OwnIdsDiffer objects) {user : σ}
    {ids : List ObjectId} {ctx : Context σ}
    (h : b.putAll objects ⟨x.db, user⟩ = .ok (ids, stored) ctx) :
    ids.length = objects.length ∧
      (∀ i j, i < j → j < ids.length →
        (ids[i]? = ids[j]? ↔ b.binding.Overtaken objects ids i j)) ∧
      (∀ i object id, objects[i]? = some object → ids[i]? = some id →
        (∀ j, ¬ b.binding.Overtaken objects ids i j) →
          b.get id ctx = .ok (some (b.binding.withId object id)) ctx) ∧
      ∀ i j id, b.binding.Overtaken objects ids i j → ids[i]? = some id →
        x.db.store.lastId b.binding.type < id := by
  by_cases hempty : objects = []
  · -- nothing was put
    subst hempty
    cases h
    refine ⟨rfl, fun i j _ hj => ?_, fun i object id hobject => ?_, fun i j id _ hid => ?_⟩
    · cases hj
    · cases hobject
    · cases hid
  obtain ⟨-, s, o, hbatch, -⟩ :=
    TypedBox.batch_of_putAll (fun object hobject => hb.quiet (hfits object hobject)) hempty h
  have hlast : x.db.store.lastId b.binding.type ≤ highestId := hx.covered.last_le _
  refine ⟨hbatch.length_eq, fun i j => hbatch.same_id_iff hlast hown, ?_, ?_⟩
  · intro i object id hobject hi hkept
    apply TypedBox.get_of_putAll hb hfits h hobject hi
    -- a later object with the same ID overtakes this one
    intro j hlater hj
    have hbound : j < ids.length := (List.getElem?_eq_some_iff.1 hj).1
    exact hkept j ((hbatch.same_id_iff hlast hown hlater hbound).1 (hi.trans hj.symm))
  · intro i j id hovertaken hi
    obtain ⟨object, candidate, hobject, hcandidate, hcases⟩ := hbatch.candidate_of_id hlast hi
    obtain ⟨first, hfirst, hzero⟩ := hovertaken.new
    cases hobject.symm.trans hfirst
    cases hcandidate.symm.trans hzero
    rcases hcases with ⟨-, hlt⟩ | ⟨hne, -⟩
    · exact hlt
    · exact absurd rfl hne

/-- The box of records was opened on a database of records. -/
theorem Activity.reachable_recordsOpened : recordsOpened.Reachable := by
  have hfind : Database.ofRecords.findOrOpen 1 = .ok (0, recordsOpened.db) := rfl
  exact reachable_ofRecords.step (.openBox hfind)

/-- Of two new records and one with the ID 1, put in one batch on an empty database, the first is
overtaken by the last, and the second is loaded under its ID. -/
theorem putAll_stores_unless_overtaken_ownIdLast :
    let b : TypedBox Unit Record := ⟨Record.binding, 0⟩
    let objects : List Record := [⟨0, "first", 1⟩, ⟨0, "second", 2⟩, ⟨1, "own", 3⟩]
    ∃ stored ctx, b.putAll objects ⟨Activity.recordsOpened.db, ()⟩ = .ok ([1, 2, 1], stored) ctx ∧
      b.binding.Overtaken objects [1, 2, 1] 0 2 ∧
      b.get 2 ctx = .ok (some ⟨2, "second", 2⟩) ctx := by
  intro b objects
  obtain ⟨stored, ctx, hput⟩ : ∃ stored ctx,
      b.putAll objects ⟨Activity.recordsOpened.db, ()⟩ = .ok ([1, 2, 1], stored) ctx := ⟨_, _, rfl⟩
  have hfits : ∀ object ∈ objects, TextFits object.payload := by decide
  have hown : b.binding.OwnIdsDiffer objects := by
    simp +contextual [Binding.OwnIdsDiffer, b, objects, Record.binding, eq_comm]
  obtain ⟨-, hsame, hstored, -⟩ := putAll_stores_unless_overtaken Activity.reachable_recordsOpened
    Record.binding_lawful.1 hfits hown hput
  refine ⟨stored, ctx, hput, (hsame 0 2 (by decide) (by decide)).1 rfl, ?_⟩
  apply hstored 1 ⟨0, "second", 2⟩ 2 rfl rfl
  intro j hovertaken
  have hlater : 1 < j := hovertaken.later
  obtain ⟨_, object, ⟨⟩, hobject, hid⟩ := hovertaken.brought
  -- only the last record comes later, and its ID is another
  obtain rfl : j = 2 := by
    have hbound : j < 3 := (List.getElem?_eq_some_iff.1 hobject).1
    omega
  cases hobject
  cases hid

/-- **An object that is overtaken is lost**: of a record without an ID and one with the ID 1, put in
one batch on an empty database, both are said to be stored under 1, and only the second is. -/
theorem overtaken_object_is_lost :
    let b : TypedBox Unit Record := ⟨Record.binding, 0⟩
    let objects : List Record := [⟨0, "new", 1⟩, ⟨1, "own", 2⟩]
    Activity.recordsOpened.Reachable ∧ Record.binding.Lawful (σ := Unit) (TextFits ·.payload) ∧
      (∀ object ∈ objects, TextFits object.payload) ∧ b.binding.OwnIdsDiffer objects ∧
      ∃ ids stored ctx, b.putAll objects ⟨Activity.recordsOpened.db, ()⟩ = .ok (ids, stored) ctx ∧
        ids = [1, 1] ∧ ¬ ids.Nodup ∧ b.get 1 ctx = .ok (some ⟨1, "own", 2⟩) ctx := by
  intro b objects
  obtain ⟨stored, ctx, hput⟩ : ∃ stored ctx,
      b.putAll objects ⟨Activity.recordsOpened.db, ()⟩ = .ok ([1, 1], stored) ctx := ⟨_, _, rfl⟩
  have hfits : ∀ object ∈ objects, TextFits object.payload := by decide
  have hown : b.binding.OwnIdsDiffer objects := by
    simp +contextual [Binding.OwnIdsDiffer, b, objects, Record.binding, eq_comm]
  refine ⟨Activity.reachable_recordsOpened, Record.binding_lawful.1, hfits, hown, [1, 1], stored,
    ctx, hput, rfl, by decide, ?_⟩
  apply b.get_of_putAll Record.binding_lawful.1 hfits hput (i := 1) rfl rfl
  intro j hlater hj
  have hbound : j < 2 := (List.getElem?_eq_some_iff.1 hj).1
  omega

end ObjectStore
