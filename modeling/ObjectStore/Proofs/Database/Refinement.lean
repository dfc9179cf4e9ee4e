import Mathlib
import ObjectStore.Proofs.Database.Opening
import ObjectStore.Proofs.Database.ShelfWork

/-!
# Boxes are maps

Every operation through a box has the outcome that it has on the shelf of its type, and leaves the
shelf that it leaves there; what belongs to the other types stays as it was
(`TypedBox.perform_eq`).  Hence a database that serves a program through its boxes gives the replies
that the shelves give (`typedBoxes_refine_maps`), for any entity types with lawful bindings.
-/

namespace ObjectStore

/-! ## Shelves and databases -/

section Served

variable {σ α : Type}

/-- What the store has of a type is a shelf. -/
structure Shelf.ShownBy (s : Shelf α) (b : Binding σ α) (store : Store) : Prop where
  entity : store.types.get? b.type = some (s.entity b)
  payloads : s.Shows b (store.committed.payloads b.type)

/-- After an operation on one type: its shelf is `s`, and everything else is as it was. -/
structure Binding.Served (b : Binding σ α) (ctx ctx' : Context σ) (s : Shelf α) : Prop where
  boxes : ctx'.db.boxes = ctx.db.boxes
  current : ctx'.db.current = ctx.db.current
  closed : ctx'.db.store.closed = false
  free : ctx'.db.store.writing = false
  shown : s.ShownBy b ctx'.db.store
  types : ∀ other, other ≠ b.type →
    ctx'.db.store.types.get? other = ctx.db.store.types.get? other
  payloads : ∀ other, other ≠ b.type →
    ctx'.db.store.committed.payloads other = ctx.db.store.committed.payloads other

/-- A box that can be used and whose type has shelf `s`, between two operations. -/
structure TypedBox.Ready (b : TypedBox σ α) (s : Shelf α) (ctx : Context σ) : Prop where
  box : ctx.db.isOpen b.number = true
  closed : ctx.db.store.closed = false
  free : ctx.db.store.writing = false
  shown : s.ShownBy b.binding ctx.db.store

end Served

namespace TypedBox

open Operation

variable {σ α β : Type} {b : TypedBox σ α} {s s' : Shelf α} {ctx ctx' : Context σ}

namespace Ready

theorem usable (h : b.Ready s ctx) : b.Usable ctx.db :=
  ⟨h.box, h.closed, _, h.shown.entity⟩

/-- An operation that changes nothing. -/
theorem served (h : b.Ready s ctx) : b.binding.Served ctx ctx s :=
  ⟨rfl, rfl, h.closed, h.free, h.shown, fun _ _ => rfl, fun _ _ => rfl⟩

/-- What the work of a write finds. -/
theorem begun (h : b.Ready s ctx) : (writing ctx).db.store.closed = false ∧
    (writing ctx).db.store.types.get? b.binding.type = some (s.entity b.binding) ∧
    s.Shows b.binding ((Overlay.ofBase ctx.db.store.committed).payloads b.binding.type) :=
  ⟨h.closed, h.shown.entity, h.shown.payloads⟩

end Ready

/-! ## Transactions -/

/-- A write whose work succeeds leaves the shelf that the work left. -/
theorem write_commits (h : b.Ready s ctx) (work : Overlay → Operation σ (β × Overlay)) {result : β}
    {changes : Overlay}
    (hwork : work (.ofBase ctx.db.store.committed) (writing ctx) = .ok (result, changes) ctx')
    (hissued : (writing ctx).Issued b.binding.type (s'.entity b.binding) ctx')
    (hwrote : (Overlay.ofBase ctx.db.store.committed).Wrote b.binding.type changes)
    (hs' : s'.Shows b.binding (changes.payloads b.binding.type)) :
    ∃ ctx'', b.write work ctx = .ok result ctx'' ∧ b.binding.Served ctx ctx'' s' := by
  obtain ⟨hboxes, hcurrent⟩ := hissued.boxes_eq
  have hclosed : ctx'.db.store.closed = false := hissued.closed_eq.trans h.closed
  -- the changes are based on what is still committed, so installing them leaves what they show
  have hbase : changes.base = ctx'.db.store.committed :=
    hwrote.base.trans hissued.committed_eq.symm
  have hview : ∀ type, (changes.result ctx'.db.store.committed).payloads type
      = changes.payloads type := fun type => congrFun (Overlay.view_result hbase) type
  refine ⟨_, write_of_ok h.usable h.free hwork hclosed, hboxes, hcurrent, hclosed, rfl,
    ⟨hissued.here, ?_⟩, hissued.others, fun other hother => ?_⟩
  · show s'.Shows b.binding ((changes.result ctx'.db.store.committed).payloads b.binding.type)
    rw [hview]
    exact hs'
  · show (changes.result ctx'.db.store.committed).payloads other = _
    rw [hview, hwrote.others other hother]
    rfl

/-- A write whose work fails leaves the objects as they were; IDs may have been used. -/
theorem write_aborts (h : b.Ready s ctx) (work : Overlay → Operation σ (β × Overlay)) {e : BoxError}
    (hwork : work (.ofBase ctx.db.store.committed) (writing ctx) = .error e ctx')
    (hissued : (writing ctx).Issued b.binding.type (s'.entity b.binding) ctx')
    (hlater : Shelf.Later s s') :
    ∃ ctx'', b.write work ctx = .error e ctx'' ∧
      b.binding.Served ctx ctx'' { s with last := s'.last } := by
  obtain ⟨hboxes, hcurrent⟩ := hissued.boxes_eq
  have hcommitted : ctx'.db.store.committed = ctx.db.store.committed := hissued.committed_eq
  refine ⟨_, write_of_error h.usable h.free hwork, hboxes, hcurrent,
    hissued.closed_eq.trans h.closed, rfl, ⟨hissued.here, ?_⟩, hissued.others, fun other _ => ?_⟩
  · show Shelf.Shows _ b.binding (ctx'.db.store.committed.payloads b.binding.type)
    rw [hcommitted]
    exact h.shown.payloads.withLast hlater
  · show ctx'.db.store.committed.payloads other = ctx.db.store.committed.payloads other
    rw [hcommitted]

/-! ## Operations -/

/-- Reading a list of objects whose bytes all restore. -/
theorem mapM_of_map_eq {f : β → Except BoxError α} {l : List β} {l' : List α}
    (h : l.map f = l'.map .ok) : l.mapM f = .ok l' := by
  induction l generalizing l' with
  | nil =>
    cases l' with
    | nil => rfl
    | cons a l' => cases h
  | cons x l ih =>
    cases l' with
    | nil => cases h
    | cons a l' =>
      obtain ⟨hx, hl⟩ := List.cons.inj h
      rw [List.mapM_cons, hx, ih hl]
      rfl

variable {Fits : α → Prop}

/-- Putting an object does what the shelf says. -/
theorem perform_put (hb : b.binding.Lawful Fits) {object : α} (hobject : Fits object)
    (h : b.Ready s ctx) :
    ∃ ctx', (BoxOp.put object).perform b ctx = lift (s.perform b.binding (.put object)).1 ctx' ∧
      b.binding.Served ctx ctx' (s.perform b.binding (.put object)).2 := by
  obtain ⟨hclosed, htype, hs⟩ := h.begun
  have hnew : Builder.new.isIdle = true := rfl
  obtain ⟨ctx₁, hissued, hone⟩ := putWithin_eq hb hobject hclosed htype hs hnew
  have hlater := Shelf.later_putOne (b := b.binding) h.shown.payloads.last_le object
  rw [BoxOp.perform, Shelf.perform]
  rcases hone with ⟨id, s₁, changes, builder, hput, hwithin, -, hwrote, hs₁⟩ |
    ⟨e, s₁, hput, hwithin⟩
  · rw [hput] at hissued ⊢
    obtain ⟨ctx₂, hwrite, hserved⟩ :=
      write_commits h (b.putWork object) (bind_of_ok hwithin) hissued hwrote hs₁
    have hbox : b.put object ctx = .ok (id, b.binding.withId object id) ctx₂ := bind_of_ok hwrite
    exact ⟨ctx₂, bind_of_ok hbox, hserved⟩
  · rw [hput] at hissued hlater ⊢
    obtain ⟨ctx₂, hwrite, hserved⟩ :=
      write_aborts h (b.putWork object) (bind_of_error hwithin) hissued hlater
    have hbox : b.put object ctx = .error e ctx₂ := bind_of_error hwrite
    exact ⟨ctx₂, bind_of_error hbox, hserved⟩

/-- Putting several objects does what the shelf says. -/
theorem perform_putAll (hb : b.binding.Lawful Fits) {objects : List α}
    (hobjects : ∀ object ∈ objects, Fits object) (h : b.Ready s ctx) :
    ∃ ctx', (BoxOp.putAll objects).perform b ctx
        = lift (s.perform b.binding (.putAll objects)).1 ctx' ∧
      b.binding.Served ctx ctx' (s.perform b.binding (.putAll objects)).2 := by
  rw [BoxOp.perform, Shelf.perform]
  by_cases hnil : objects = []
  · rw [hnil]
    exact ⟨ctx, rfl, h.served⟩
  have hputAll : b.putAll objects = (do
      let ids ← b.write fun changes => b.putEachWithin objects changes .new
      return (ids, List.zipWith b.binding.withId objects ids)) := by
    rw [putAll, if_neg (by simpa using hnil)]
  obtain ⟨hclosed, htype, hs⟩ := h.begun
  have hnew : Builder.new.isIdle = true := rfl
  obtain ⟨ctx₁, hissued, heach⟩ := putEachWithin_eq hb hobjects hclosed htype hs hnew
  have hlater := Shelf.later_putEach (b := b.binding) h.shown.payloads.last_le objects
  rw [hputAll]
  rcases heach with ⟨ids, s₁, changes, hputs, hwithin, hwrote, hs₁⟩ | ⟨e, s₁, hputs, hwithin⟩
  · rw [hputs] at hissued ⊢
    obtain ⟨ctx₂, hwrite, hserved⟩ :=
      write_commits h (b.putEachWithin objects · .new) hwithin hissued hwrote hs₁
    have hbox : (do
        let ids ← b.write fun changes => b.putEachWithin objects changes .new
        return (ids, List.zipWith b.binding.withId objects ids) : Operation σ _) ctx
          = .ok (ids, List.zipWith b.binding.withId objects ids) ctx₂ := bind_of_ok hwrite
    exact ⟨ctx₂, bind_of_ok hbox, hserved⟩
  · rw [hputs] at hissued hlater ⊢
    obtain ⟨ctx₂, hwrite, hserved⟩ :=
      write_aborts h (b.putEachWithin objects · .new) hwithin hissued hlater
    exact ⟨ctx₂, bind_of_error (bind_of_error hwrite), hserved⟩

/-- The work of a removal in its write transaction. -/
def removeWork (b : TypedBox σ α) (id : ObjectId) (changes : Overlay) :
    Operation σ (Unit × Overlay) := do
  let changes ← liftStore (changes.remove b.binding.type id)
  return ((), changes)

/-- Removing an object does what the shelf says. -/
theorem perform_remove (h : b.Ready s ctx) (id : ObjectId) :
    ∃ ctx', (BoxOp.remove id).perform b ctx = lift (s.perform b.binding (.remove id)).1 ctx' ∧
      b.binding.Served ctx ctx' (s.perform b.binding (.remove id)).2 := by
  obtain ⟨-, htype, hs⟩ := h.begun
  have hcontains := hs.contains_eq id
  rw [BoxOp.perform, Shelf.perform]
  cases hfound : s.objects.contains id with
  | true =>
    rw [hfound] at hcontains
    let payloads := ((Overlay.ofBase ctx.db.store.committed).payloads b.binding.type).erase id
    let changes := (Overlay.ofBase ctx.db.store.committed).change b.binding.type payloads
    have hlift : (liftStore ((Overlay.ofBase ctx.db.store.committed).remove b.binding.type id) :
        Operation σ Overlay) (writing ctx) = .ok changes (writing ctx) := by
      rw [Overlay.remove, if_pos hcontains]
      rfl
    have hfewer : ({ s with objects := s.objects.erase id } : Shelf α).Shows b.binding
        payloads := by
      refine hs.fewer ?_ ?_
      · rw [SortedMap.mapValues_erase, SortedMap.mapValues_erase, hs.objects]
      · intro id' object hget
        rw [SortedMap.get?_erase] at hget
        split at hget
        · cases hget
        · exact hget
    rw [← Overlay.payloads_change (.ofBase ctx.db.store.committed) b.binding.type payloads]
      at hfewer
    have hissued : (writing ctx).Issued b.binding.type
        (({ s with objects := s.objects.erase id } : Shelf α).entity b.binding) (writing ctx) :=
      .refl htype
    obtain ⟨ctx₂, hwrite, hserved⟩ :=
      write_commits h (b.removeWork id) (bind_of_ok hlift) hissued (.change _ _ _) hfewer
    have hbox : b.remove id ctx = .ok () ctx₂ := hwrite
    exact ⟨ctx₂, bind_of_ok hbox, hserved⟩
  | false =>
    rw [hfound] at hcontains
    have hlift : (liftStore ((Overlay.ofBase ctx.db.store.committed).remove b.binding.type id) :
        Operation σ Overlay) (writing ctx)
          = .error (.ofStore (.nothingToRemove id b.binding.type)) (writing ctx) := by
      rw [Overlay.remove, if_neg (by rw [hcontains]; decide)]
      rfl
    have hissued : (writing ctx).Issued b.binding.type (s.entity b.binding) (writing ctx) :=
      .refl htype
    obtain ⟨ctx₂, hwrite, hserved⟩ :=
      write_aborts h (b.removeWork id) (bind_of_error hlift) hissued (.refl hs.last_le)
    have hbox : b.remove id ctx = .error (.ofStore (.nothingToRemove id b.binding.type)) ctx₂ :=
      hwrite
    exact ⟨ctx₂, bind_of_error hbox, hserved⟩

/-- Removing all objects does what the shelf says. -/
theorem perform_removeAll (h : b.Ready s ctx) :
    ∃ ctx', BoxOp.removeAll.perform b ctx = lift (s.perform b.binding .removeAll).1 ctx' ∧
      b.binding.Served ctx ctx' (s.perform b.binding .removeAll).2 := by
  obtain ⟨-, htype, hs⟩ := h.begun
  have hissued : (writing ctx).Issued b.binding.type
      (({ s with objects := ∅ } : Shelf α).entity b.binding) (writing ctx) := .refl htype
  have hnone : ({ s with objects := ∅ } : Shelf α).Shows b.binding ∅ := hs.fewer rfl nofun
  rw [← Overlay.payloads_change (.ofBase ctx.db.store.committed) b.binding.type ∅] at hnone
  obtain ⟨ctx₂, hwrite, hserved⟩ := write_commits h
    (fun changes => return ((), (changes.removeAll b.binding.type).2)) rfl hissued (.change _ _ _)
    hnone
  have hbox : b.removeAll ctx = .ok () ctx₂ := hwrite
  exact ⟨ctx₂, bind_of_ok hbox, hserved⟩

/-- **Every operation through a box is an operation on the shelf of its type.** -/
theorem perform_eq (hb : b.binding.Lawful Fits) (h : b.Ready s ctx) (op : BoxOp α)
    (hputs : ∀ object ∈ op.puts, Fits object) :
    ∃ ctx', op.perform b ctx = lift (s.perform b.binding op).1 ctx' ∧
      b.binding.Served ctx ctx' (s.perform b.binding op).2 := by
  have hs := h.shown.payloads
  cases op with
  | put object => exact perform_put hb (hputs object List.mem_cons_self) h
  | putAll objects => exact perform_putAll hb hputs h
  | get id =>
    have hread : b.get id ctx = .ok (s.objects.get? id) ctx := by
      have hget := hs.get?_eq id
      rw [TypedBox.get, read_eq h.usable]
      cases hpayload : (ctx.db.store.committed.payloads b.binding.type).get? id with
      | none =>
        rw [hpayload] at hget
        rw [Option.map_eq_none_iff.1 hget.symm]
        rfl
      | some bytes =>
        rw [hpayload] at hget
        obtain ⟨object, hobject, hrestore⟩ := Option.map_eq_some_iff.1 hget.symm
        rw [hobject]
        simp only [← hrestore]
        rfl
    exact ⟨ctx, bind_of_ok hread, h.served⟩
  | getAll =>
    have hread : b.getAll ctx = .ok s.objects.values ctx := by
      have hvalues := congrArg SortedMap.values hs.objects
      rw [SortedMap.values_mapValues, SortedMap.values_mapValues] at hvalues
      rw [TypedBox.getAll, read_eq h.usable, mapM_of_map_eq hvalues]
      rfl
    exact ⟨ctx, bind_of_ok hread, h.served⟩
  | contains id =>
    have hread : b.contains id ctx = .ok (s.objects.contains id) ctx := by
      rw [TypedBox.contains, read_eq h.usable, hs.contains_eq]
      rfl
    exact ⟨ctx, bind_of_ok hread, h.served⟩
  | count =>
    have hread : b.count ctx = .ok s.objects.size ctx := by
      rw [TypedBox.count, read_eq h.usable, hs.size_eq]
      rfl
    exact ⟨ctx, bind_of_ok hread, h.served⟩
  | remove id => exact perform_remove h id
  | removeAll => exact perform_removeAll h

end TypedBox

/-! ## Programs -/

section Programs

variable {σ : Type} {S : Schema σ}

/-- A desk nobody came to yet. -/
def Desk.opened (db : Database) (user : σ) : Desk S := ⟨⟨db, user⟩, fun _ => []⟩

/-- Between two requests, every box that was given out is open, and what the store has of each kind
is its shelf. -/
structure Desk.Matches (d : Desk S) (m : Reference S) : Prop where
  closed : d.context.db.store.closed = false
  free : d.context.db.store.writing = false
  given : ∀ k, (d.given k).length = m.given k
  isOpen : ∀ k, ∀ n ∈ d.given k, d.context.db.isOpen n = true
  shown : ∀ k, (m.shelf k).ShownBy (S.binding k) d.context.db.store

namespace Desk

variable {d : Desk S} {m : Reference S}

/-- A database that was just opened has empty shelves. -/
theorem matches_opened {plan : DatabasePlan} {db : Database} (hplan : Database.ofPlan plan = .ok db)
    (hkinds : ∀ k, (S.binding k).info ∈ plan.entities) (user : σ) :
    (opened db user : Desk S).Matches .empty := by
  obtain ⟨hfresh, htypes⟩ := Database.ofPlan_fresh hplan
  refine ⟨hfresh.closed, hfresh.free, fun _ => rfl, fun _ => nofun, fun k =>
    ⟨htypes _ (hkinds k), ?_⟩⟩
  show Shelf.empty.Shows (S.binding k) (db.store.committed.payloads (S.binding k).type)
  rw [hfresh.committed]
  refine ⟨rfl, fun {id object} hget => ?_, UInt64.zero_le⟩
  rw [Shelf.empty, SortedMap.get?_empty] at hget
  cases hget

namespace Matches

/-- Giving out one more box. -/
theorem give (h : d.Matches m) {db : Database} (hstore : db.store = d.context.db.store)
    (hkept : ∀ n, d.context.db.isOpen n = true → db.isOpen n = true) (k : S.Kind) {n : BoxNumber}
    (hn : db.isOpen n = true) :
    Desk.Matches ⟨{ d.context with db := db }, Function.update d.given k (d.given k ++ [n])⟩
      { m with given := Function.update m.given k (m.given k + 1) } where
  closed := (congrArg Store.closed hstore).trans h.closed
  free := (congrArg Store.writing hstore).trans h.free
  given := by
    intro k'
    dsimp only
    by_cases hk : k' = k
    · rw [hk, Function.update_self, Function.update_self, List.length_append, h.given k]
      rfl
    · rw [Function.update_of_ne hk, Function.update_of_ne hk, h.given k']
  isOpen := by
    intro k' n' hn'
    dsimp only at hn'
    by_cases hk : k' = k
    · rw [hk, Function.update_self] at hn'
      rcases List.mem_append.1 hn' with hn' | hn'
      · exact hkept n' (h.isOpen k n' hn')
      · rw [List.mem_singleton.1 hn']
        exact hn
    · rw [Function.update_of_ne hk] at hn'
      exact hkept n' (h.isOpen k' n' hn')
  shown := by
    intro k'
    show (m.shelf k').ShownBy (S.binding k') db.store
    rw [hstore]
    exact h.shown k'

/-- An operation on one kind; the shelves of the others stay, since their types are different. -/
theorem change (h : d.Matches m) {k : S.Kind} {ctx : Context σ} {s : Shelf (S.Object k)}
    (hserved : (S.binding k).Served d.context ctx s) :
    Desk.Matches { d with context := ctx } { m with shelf := Function.update m.shelf k s } where
  closed := hserved.closed
  free := hserved.free
  given := h.given
  isOpen := by
    intro k' n hn
    have hopen := h.isOpen k' n hn
    rw [Database.isOpen] at hopen ⊢
    rw [hserved.boxes]
    exact hopen
  shown := by
    intro k'
    dsimp only
    by_cases hk : k' = k
    · subst hk
      rw [Function.update_self]
      exact hserved.shown
    · -- another kind has another type, and of that nothing changed
      have htype : (S.binding k').type ≠ (S.binding k).type := fun heq => hk (S.distinct heq)
      rw [Function.update_of_ne hk]
      have hshown := h.shown k'
      refine ⟨(hserved.types _ htype).trans hshown.entity, ?_⟩
      rw [hserved.payloads _ htype]
      exact hshown.payloads

/-- **One request.** -/
theorem serve (h : d.Matches m) {r : Request S} (hr : r.Fits) :
    (d.serve r).1 = (m.serve r).1 ∧ (d.serve r).2.Matches (m.serve r).2 := by
  cases r with
  | box k =>
    obtain ⟨n, db, hbox, hstore, hn, hkept⟩ :=
      Database.boxOf_eq (S.binding k) h.closed (h.shown k).entity
    rw [Desk.serve, hbox]
    exact ⟨rfl, h.give hstore hkept k hn⟩
  | call k i op =>
    rw [Desk.serve, Reference.serve]
    cases hnumber : (d.given k)[i]? with
    | none =>
      have hlen := List.getElem?_eq_none_iff.1 hnumber
      rw [h.given k] at hlen
      rw [if_neg (by omega)]
      exact ⟨rfl, h⟩
    | some number =>
      obtain ⟨hlt, -⟩ := List.getElem?_eq_some_iff.1 hnumber
      rw [h.given k] at hlt
      have hready : TypedBox.Ready ⟨S.binding k, number⟩ (m.shelf k) d.context :=
        ⟨h.isOpen k number (List.mem_of_getElem? hnumber), h.closed, h.free, h.shown k⟩
      obtain ⟨ctx, hperform, hserved⟩ := TypedBox.perform_eq (S.lawful k) hready op hr
      have hnext := h.change hserved
      rw [if_pos hlt]
      dsimp only
      rw [hperform]
      -- whether the operation succeeds or fails, the context after it is the same
      cases houtcome : ((m.shelf k).perform (S.binding k) op).1 with
      | ok answer => exact ⟨rfl, hnext⟩
      | error e => exact ⟨rfl, hnext⟩

/-- **Any number of requests**, by induction on them. -/
theorem run (h : d.Matches m) {requests : List (Request S)} (hfits : ∀ r ∈ requests, r.Fits) :
    (d.run requests).1 = (m.run requests).1 ∧ (d.run requests).2.Matches (m.run requests).2 := by
  induction requests generalizing d m with
  | nil => exact ⟨rfl, h⟩
  | cons r rs ih =>
    obtain ⟨hreply, hnext⟩ := h.serve (hfits r List.mem_cons_self)
    obtain ⟨hreplies, hlast⟩ := ih hnext fun r' hr' => hfits r' (List.mem_cons_of_mem r hr')
    refine ⟨?_, hlast⟩
    rw [Desk.run, Reference.run, hreply, hreplies]

end Matches

end Desk

/-- **The boxes of a database are maps.**  Served by a database that was just opened with the types
of a schema, a program gets the replies that it gets from a shelf for each kind, and the shelves are
what the store has in the end.  A failing operation leaves the objects of its shelf as they were.
The bindings of records and of listed tasks are lawful, and they accept every text and number. -/
theorem typedBoxes_refine_maps {plan : DatabasePlan} {db : Database}
    (hplan : Database.ofPlan plan = .ok db) (hkinds : ∀ k, (S.binding k).info ∈ plan.entities)
    (user : σ) {requests : List (Request S)} (hfits : ∀ r ∈ requests, r.Fits) :
    ((Desk.opened db user).run requests).1 = (Reference.empty.run requests).1 ∧
      ((Desk.opened db user).run requests).2.Matches (Reference.empty.run requests).2 ∧
      (∀ k (s : Shelf (S.Object k)) op e, (s.perform (S.binding k) op).1 = .error e →
        (s.perform (S.binding k) op).2.objects = s.objects) ∧
      ((Record.binding : Binding σ Record).Lawful (TextFits ·.payload) ∧
        (Record.binding : Binding σ Record).Accepts (TextFits ·.payload)) ∧
      ((TaskList.ListedTask.binding : Binding σ TaskList.ListedTask).Lawful (TextFits ·.title) ∧
        (TaskList.ListedTask.binding : Binding σ TaskList.ListedTask).Accepts
          (TextFits ·.title)) := by
  obtain ⟨hreplies, hlast⟩ := (Desk.matches_opened hplan hkinds user).run hfits
  exact ⟨hreplies, hlast, fun _ _ _ _ => Shelf.objects_perform_of_error, Record.binding_lawful,
    TaskList.ListedTask.binding_lawful⟩

/-- What the schema of records and tags is about. -/
inductive RecordOrTag
  | record
  | tag
  deriving DecidableEq

/-- The objects of either kind. -/
def RecordOrTag.Object : RecordOrTag → Type
  | .record => Record
  | .tag => Tag

/-- Records and tags in one database. -/
def Schema.recordsAndTags : Schema Unit where
  Kind := RecordOrTag
  Object := RecordOrTag.Object
  binding
    | .record => Record.binding
    | .tag => Tag.binding
  Fits
    | .record => (TextFits ·.payload)
    | .tag => (TextFits ·.name)
  lawful
    | .record => Record.binding_lawful.1
    | .tag => Tag.binding_lawful.1
  distinct := by
    rintro (_ | _) (_ | _) h
    · rfl
    · cases h
    · cases h
    · rfl

/-- A plan for a database of records and tags. -/
def Schema.recordsAndTagsPlan : DatabasePlan := { entities := [⟨1, "Record"⟩, ⟨2, "Tag"⟩] }

/-- Two records and a tag are put, and a record is removed twice. -/
def Schema.recordsAndTagsProgram : List (Request recordsAndTags) :=
  [.box .record, .box .tag,
    .call .record 0 (.putAll [(⟨0, "first", -3⟩ : Record), (⟨7, "second", 4⟩ : Record)]),
    .call .tag 0 (.put (⟨0, "urgent"⟩ : Tag)),
    .call .record 0 (.remove 1), .call .record 0 (.remove 1),
    .call .record 0 .getAll, .call .tag 0 (.get 1)]

theorem typedBoxes_refine_maps_recordsAndTags :
    ∃ db, Database.ofPlan Schema.recordsAndTagsPlan = .ok db ∧
      ((Desk.opened db ()).run Schema.recordsAndTagsProgram).1 =
        [.box (.ok ()), .box (.ok ()),
          .call .record (.ok (.storedAll [1, 7]
            [(⟨1, "first", -3⟩ : Record), (⟨7, "second", 4⟩ : Record)])),
          .call .tag (.ok (.stored 1 (⟨1, "urgent"⟩ : Tag))),
          .call .record (.ok .done),
          .call .record (.error (.notFound (StoreError.nothingToRemove 1 1).message)),
          .call .record (.ok (.list [(⟨7, "second", 4⟩ : Record)])),
          .call .tag (.ok (.found (some (⟨1, "urgent"⟩ : Tag))))] := by
  obtain ⟨db, hplan⟩ : ∃ db, Database.ofPlan Schema.recordsAndTagsPlan = .ok db := ⟨_, rfl⟩
  refine ⟨db, hplan, (typedBoxes_refine_maps hplan ?_ () ?_).1.trans rfl⟩
  · rintro (_ | _)
    · decide
    · decide
  · have hrecords : ∀ object ∈ [(⟨0, "first", -3⟩ : Record), ⟨7, "second", 4⟩],
        TextFits object.payload := by decide
    have htag : ∀ object ∈ [(⟨0, "urgent"⟩ : Tag)], TextFits object.name := by decide
    simp only [Schema.recordsAndTagsProgram, List.forall_mem_cons]
    exact ⟨trivial, trivial, hrecords, htag, nofun, nofun, nofun, nofun, nofun⟩

end Programs

end ObjectStore
