import Mathlib
import ObjectStore.Proofs.Store.History
import ObjectStore.Proofs.Store.Ids

/-!
# ID sequences

Requests for IDs come through boxes and cursors, of any number and in any order, and between them
types are registered again, transactions end in either way and objects come and go.  An onlooker who
only writes down which IDs were given out for which type (`Connection.issued`) can tell the answer to
every request: it depends on the largest of these IDs alone.

What is carried through every event is `Connection.Numbered`: the last ID of every type is the
largest one that was given out for it.  Main statement: `Connection.run_idLaw`.
-/

namespace ObjectStore

/-! ## What an onlooker sees -/

/-- The largest of some IDs, zero if there are none. -/
def largest (ids : List ObjectId) : ObjectId := ids.foldl max 0

theorem largest_concat (ids : List ObjectId) (id : ObjectId) :
    largest (ids ++ [id]) = max (largest ids) id := by
  unfold largest
  rw [List.foldl_append]
  rfl

/-- No ID is above the largest one. -/
theorem le_largest {ids : List ObjectId} {id : ObjectId} (h : id ∈ ids) : id ≤ largest ids := by
  induction ids using List.reverseRecOn with
  | nil => cases h
  | append_singleton ids last ih =>
    rw [largest_concat, UInt64.le_iff_toNat_le, toNat_max]
    rcases List.mem_append.1 h with h | h
    · have hle := ih h
      rw [UInt64.le_iff_toNat_le] at hle
      omega
    · obtain rfl := List.mem_singleton.1 h
      omega

/-- The IDs of one type, in the order in which they were given out. -/
def idsOf (type : TypeId) (log : List (TypeId × ObjectId)) : List ObjectId :=
  (log.filter fun entry => entry.1 = type).map Prod.snd

theorem idsOf_append (type : TypeId) (log later : List (TypeId × ObjectId)) :
    idsOf type (log ++ later) = idsOf type log ++ idsOf type later := by
  unfold idsOf
  rw [List.filter_append, List.map_append]

theorem idsOf_self (type : TypeId) (id : ObjectId) : idsOf type [(type, id)] = [id] := by
  simp [idsOf]

theorem idsOf_other {type other : TypeId} (h : other ≠ type) (id : ObjectId) :
    idsOf other [(type, id)] = [] := by
  simp [idsOf, h.symm]

namespace Connection

/-- The type for which a call asks for an ID through a live handle, and the candidate. -/
def request? (conn : Connection) : Call → Option (TypeId × ObjectId)
  | .boxId h candidate => (conn.box h).toOption.map fun type => (type, candidate)
  | .cursorId h candidate => (conn.cursor h).toOption.map fun (c, _) => (c.type, candidate)
  | _ => none

/-- The ID that an event gives out, if it does, and the type for which it does so. -/
def issuing (conn : Connection) : Event → List (TypeId × ObjectId)
  | .call c =>
    match conn.request? c, (conn.call c).1 with
    | some (type, _), .ok (.id id) => [(type, id)]
    | _, _ => []
  | _ => []

/-- The connection after some events. -/
def after (conn : Connection) (events : List Event) : Connection := events.foldl step conn

/-- The IDs that are given out in a run, each with its type. -/
def issued (conn : Connection) : List Event → List (TypeId × ObjectId)
  | [] => []
  | e :: events => conn.issuing e ++ issued (conn.step e) events

/-! ## The invariant -/

/-- The store has counted what was given out, and handles are for registered types. -/
structure Numbered (conn : Connection) (log : List (TypeId × ObjectId)) : Prop where
  last : ∀ type, conn.store.lastId type = largest (idsOf type log)
  bound : ∀ type, conn.store.lastId type ≤ highestId
  boxes : ∀ {h type}, conn.boxes.get? h = some type → conn.store.Registered type
  cursors : ∀ {h c}, conn.cursors.get? h = some c → conn.store.Registered c.type

namespace Numbered

variable {conn conn' : Connection} {log : List (TypeId × ObjectId)}

theorem new (options : Options) : Numbered (.new options) [] where
  last := fun _ => rfl
  bound := fun _ => UInt64.zero_le
  boxes := nofun
  cursors := nofun

/-- What neither issues an ID nor opens a handle keeps the invariant. -/
theorem keep (h : conn.Numbered log) (hlast : ∀ type, conn'.store.lastId type = conn.store.lastId type)
    (htypes : ∀ type, conn.store.Registered type → conn'.store.Registered type)
    (hboxes : ∀ {b type}, conn'.boxes.get? b = some type →
      conn.boxes.get? b = some type ∨ conn.store.Registered type)
    (hcursors : ∀ {b c}, conn'.cursors.get? b = some c →
      conn.cursors.get? b = some c ∨ conn.store.Registered c.type) : conn'.Numbered log where
  last := fun type => (hlast type).trans (h.last type)
  bound := fun type => hlast type ▸ h.bound type
  boxes := fun hb => htypes _ ((hboxes hb).elim h.boxes id)
  cursors := fun hc => htypes _ ((hcursors hc).elim h.cursors id)

/-- What leaves types and handles alone keeps the invariant. -/
theorem congr (h : conn.Numbered log) (htypes : conn'.store.types = conn.store.types)
    (hboxes : conn'.boxes = conn.boxes) (hcursors : conn'.cursors = conn.cursors) :
    conn'.Numbered log := by
  refine h.keep (Store.lastId_congr htypes) (fun type => ?_) (fun hb => .inl ?_) fun hc => .inl ?_
  · rw [Store.Registered, Store.Registered, htypes]
    exact id
  · rwa [hboxes] at hb
  · rwa [hcursors] at hc

/-- **An ID that is given out** is counted. -/
theorem issue (h : conn.Numbered log) {type : TypeId} {candidate id : ObjectId} {store : Store}
    (hissue : conn.store.issueId type candidate = .ok (id, store)) :
    Numbered { conn with store := store } (log ++ [(type, id)]) := by
  obtain ⟨hself, hother, hregistered, -, hle, -⟩ := Store.issueId_spec (h.bound type) hissue
  refine ⟨fun other => ?_, fun other => ?_, fun hb => hregistered _ (h.boxes hb),
    fun hc => hregistered _ (h.cursors hc)⟩
  · rw [idsOf_append]
    by_cases heq : other = type
    · subst heq
      rw [idsOf_self, largest_concat, ← h.last other]
      exact hself
    · rw [idsOf_other heq, List.append_nil, ← h.last other]
      exact hother other heq
  · by_cases heq : other = type
    · subst heq
      have hbound := h.bound other
      show store.lastId other ≤ highestId
      rw [hself, UInt64.le_iff_toNat_le, toNat_max]
      rw [UInt64.le_iff_toNat_le] at hbound hle
      omega
    · exact (hother other heq).symm ▸ h.bound other

end Numbered

/-! ## Events -/

variable {conn conn' : Connection} {log : List (TypeId × ObjectId)} {c : Call}

theorem issuing_of_none (h : conn.request? c = none) : conn.issuing (.call c) = [] := by
  rw [issuing, h]

theorem issuing_of_error {e : StoreError} (h : (conn.call c).1 = .error e) :
    conn.issuing (.call c) = [] := by
  rw [issuing, h]
  split
  · rename_i heq
    cases heq
  · rfl

theorem issuing_of_ok {type : TypeId} {candidate id : ObjectId}
    (h : conn.request? c = some (type, candidate)) (hcall : (conn.call c).1 = .ok (.id id)) :
    conn.issuing (.call c) = [(type, id)] := by
  rw [issuing, h, hcall]

/-- A request through a box. -/
theorem request?_boxId {b : Handle} {type : TypeId} {candidate : ObjectId}
    (h : conn.boxes.get? b = some type) :
    conn.request? (.boxId b candidate) = some (type, candidate) := by
  rw [request?, box_eq_ok.2 h]
  rfl

/-- A request through a cursor. -/
theorem request?_cursorId {b : Handle} {cur : Cursor} {mode : TxnMode} {candidate : ObjectId}
    (h : conn.cursors.get? b = some cur) (htxn : conn.txns.get? cur.txn = some mode) :
    conn.request? (.cursorId b candidate) = some (cur.type, candidate) := by
  rw [request?, cursor_eq_ok.2 ⟨h, htxn⟩]
  rfl

/-- The worker does not touch the types. -/
theorem runWorker_types (s : Store) (n : Nat) : (s.runWorker n).types = s.types := by
  induction n generalizing s with
  | zero => rfl
  | succ n ih =>
    rw [Store.runWorker]
    cases hs : s.workerStep? with
    | none => rfl
    | some s' =>
      show (s'.runWorker n).types = s.types
      rw [ih s']
      rcases Store.workerStep?_eq_some hs with ⟨-, -, rfl⟩ | ⟨_, -, -, rfl⟩ | ⟨_, -, rfl⟩ |
        ⟨-, -, -, rfl⟩ <;> rfl

namespace Numbered

/-- **A call that succeeds** gives out the ID that it answers, or none. -/
theorem success (h : conn.Numbered log) {answer : Answer} (heffect : Effect conn c answer conn')
    (hcall : conn.call c = (.ok answer, conn')) :
    conn'.Numbered (log ++ conn.issuing (.call c)) := by
  -- a call that requests no ID adds nothing to the log
  have hquiet : conn.request? c = none → conn'.Numbered log →
      conn'.Numbered (log ++ conn.issuing (.call c)) := by
    intro hnone h'
    rw [issuing_of_none hnone, List.append_nil]
    exact h'
  have hcall' : (conn.call c).1 = .ok answer := by rw [hcall]
  cases heffect with
  | register hopen hname hstore =>
    obtain ⟨hlast, hregistered⟩ := Store.register_spec hstore
    exact hquiet rfl (h.keep hlast hregistered .inl .inl)
  | awaitIdle hopen hidle => exact hquiet rfl (h.congr (runWorker_types _ _) rfl rfl)
  | close hopen hstopped => exact hquiet rfl (h.congr (runWorker_types _ _) rfl rfl)
  | openBox hopen htype =>
    refine hquiet rfl (h.keep (fun _ => rfl) (fun _ => id) (fun hb => ?_) .inl)
    rw [SortedMap.get?_insert] at hb
    split at hb
    · cases hb
      exact .inr ⟨_, htype⟩
    · exact .inl hb
  | closeBox hbox =>
    refine hquiet rfl (h.keep (fun _ => rfl) (fun _ => id) (fun hb => .inl ?_) .inl)
    rw [SortedMap.get?_erase] at hb
    split at hb
    · cases hb
    · exact hb
  | boxId hbox hissue =>
    rw [issuing_of_ok (request?_boxId hbox) hcall']
    exact h.issue hissue
  | openCursor htxn hopen htype =>
    refine hquiet rfl (h.keep (fun _ => rfl) (fun _ => id) .inl fun hc => ?_)
    rw [SortedMap.get?_insert] at hc
    split at hc
    · cases hc
      exact .inr ⟨_, htype⟩
    · exact .inl hc
  | closeCursor hcursor =>
    refine hquiet rfl (h.keep (fun _ => rfl) (fun _ => id) .inl fun hc => .inl ?_)
    rw [SortedMap.get?_erase] at hc
    split at hc
    · cases hc
    · exact hc
  | cursorId hcursor htxn hissue =>
    rw [issuing_of_ok (request?_cursorId hcursor htxn) hcall']
    exact h.issue hissue
  | _ => exact hquiet rfl (h.congr rfl rfl rfl)

/-- A call that fails gives out nothing and takes nothing back. -/
theorem failure (h : conn.Numbered log) (c : Call) : (conn.afterFailure c).Numbered log := by
  have hleft := conn.leftover_of_failure c
  generalize conn.afterFailure c = conn' at hleft ⊢
  cases hleft with
  | nothing => exact h
  | refusedCommit => exact h.congr rfl rfl rfl
  | refusedPut => exact h.congr rfl rfl rfl

/-- **What one event keeps.** -/
theorem step (h : conn.Numbered log) (e : Event) :
    (conn.step e).Numbered (log ++ conn.issuing e) := by
  cases e with
  | call c =>
    rcases conn.call_cases c with ⟨answer, conn', heffect, hcall⟩ | ⟨e, -, hcall⟩
    · rw [Connection.step, hcall]
      exact h.success heffect hcall
    · rw [Connection.step, hcall, issuing_of_error (by rw [hcall]), List.append_nil]
      exact h.failure c
  | worker =>
    show Numbered _ (log ++ [])
    rw [List.append_nil]
    exact h.congr (runWorker_types _ _) rfl rfl
  | closing =>
    show Numbered _ (log ++ [])
    rw [List.append_nil]
    exact h.congr rfl rfl rfl

/-- **What a run keeps.** -/
theorem after (h : conn.Numbered log) (events : List Event) :
    (conn.after events).Numbered (log ++ conn.issued events) := by
  induction events generalizing conn log with
  | nil =>
    rw [issued, List.append_nil]
    exact h
  | cons e events ih =>
    rw [issued, ← List.append_assoc]
    exact ih (h.step e)

end Numbered

/-! ## The law -/

/-- **The law of ID sequences**, for a connection and the IDs that were given out so far. -/
structure IdLaw (conn : Connection) (log : List (TypeId × ObjectId)) : Prop where
  /-- On an open store the answer depends on the largest ID of the type alone: one more for the
  candidate zero, until there is none, and any other candidate itself, if objects can have it. -/
  answer : ∀ {c type candidate}, conn.request? c = some (type, candidate) →
    conn.store.closed = false →
    (conn.call c).1.mapError StoreError.status
      = (nextId (largest (idsOf type log)) candidate).map Answer.id
  /-- On a closed store every request fails. -/
  closed : ∀ {c type candidate}, conn.request? c = some (type, candidate) →
    conn.store.closed = true → (conn.call c).1 = .error .storeClosed
  /-- An ID that is minted is the number after the largest one, which is no wrap-around, so it
  differs from every ID that the type gave out before and is one that objects can have. -/
  minted : ∀ {c type id}, conn.request? c = some (type, 0) → (conn.call c).1 = .ok (.id id) →
    id.toNat = (largest (idsOf type log)).toNat + 1 ∧ id ≠ 0 ∧ id.toNat < 2 ^ 64 - 1 ∧
      ∀ earlier ∈ idsOf type log, earlier < id
  /-- Whatever happens later, as long as no ID of a type is given out, its answers stay the same. -/
  kept : ∀ later type, idsOf type (conn.issued later) = [] → ∀ {c candidate},
    (conn.after later).request? c = some (type, candidate) →
    (conn.after later).store.closed = false →
    ((conn.after later).call c).1.mapError StoreError.status
      = (nextId (largest (idsOf type log)) candidate).map Answer.id

/-- A request is for a registered type, and it is answered as the store issues the ID. -/
theorem call_of_request (h : conn.Numbered log) {type : TypeId} {candidate : ObjectId}
    (hrequest : conn.request? c = some (type, candidate)) :
    conn.store.Registered type ∧
      (conn.call c).1 = ((conn.store.issueId type candidate).map Prod.fst).map Answer.id := by
  rw [call_fst]
  cases c with
  | boxId b candidate' =>
    rw [request?] at hrequest
    cases hbox : conn.box b with
    | error e =>
      rw [hbox] at hrequest
      cases hrequest
    | ok type' =>
      rw [hbox] at hrequest
      cases hrequest
      refine ⟨h.boxes (box_eq_ok.1 hbox), ?_⟩
      simp only [call?, hbox, bind, Except.bind]
      cases conn.store.issueId type candidate <;> rfl
  | cursorId b candidate' =>
    rw [request?] at hrequest
    cases hcursor : conn.cursor b with
    | error e =>
      rw [hcursor] at hrequest
      cases hrequest
    | ok r =>
      rw [hcursor] at hrequest
      cases hrequest
      refine ⟨h.cursors (cursor_eq_ok.1 hcursor).1, ?_⟩
      simp only [call?, hcursor, bind, Except.bind]
      cases conn.store.issueId r.1.type candidate <;> rfl
  | _ => cases hrequest

/-- The law holds wherever the store has counted what was given out. -/
theorem Numbered.answer (h : conn.Numbered log) {type : TypeId} {candidate : ObjectId}
    (hrequest : conn.request? c = some (type, candidate)) (hopen : conn.store.closed = false) :
    (conn.call c).1.mapError StoreError.status
      = (nextId (largest (idsOf type log)) candidate).map Answer.id := by
  obtain ⟨htype, hcall⟩ := call_of_request h hrequest
  rw [hcall, ← h.last type, ← Store.issueId_fst hopen htype (h.bound type) candidate]
  cases conn.store.issueId type candidate <;> rfl

/-- A request that is answered with an ID was issued it by the store. -/
theorem issueId_of_request (h : conn.Numbered log) {type : TypeId} {candidate id : ObjectId}
    (hrequest : conn.request? c = some (type, candidate)) (hcall : (conn.call c).1 = .ok (.id id)) :
    ∃ store, conn.store.issueId type candidate = .ok (id, store) := by
  rw [(call_of_request h hrequest).2] at hcall
  cases hissue : conn.store.issueId type candidate with
  | error e =>
    rw [hissue] at hcall
    cases hcall
  | ok r =>
    rw [hissue] at hcall
    cases hcall
    exact ⟨r.2, rfl⟩

/-- **ID sequences.**  After every run of a store every request for an ID is answered as the law
says. -/
theorem run_idLaw (options : Options) (events : List Event) :
    IdLaw ((Connection.new options).after events) ((Connection.new options).issued events) := by
  have h : Numbered _ ([] ++ (Connection.new options).issued events) :=
    (Numbered.new options).after events
  rw [List.nil_append] at h
  generalize (Connection.new options).after events = conn at h ⊢
  generalize (Connection.new options).issued events = log at h ⊢
  refine ⟨h.answer, fun hrequest hclosed => ?_, fun hrequest hcall => ?_,
    fun later type hnone c candidate hrequest hopen => ?_⟩
  · rw [(call_of_request h hrequest).2, Store.issueId, Store.requireOpen, hclosed]
    rfl
  · rename_i c type id
    obtain ⟨store, hissue⟩ := issueId_of_request h hrequest hcall
    obtain ⟨-, -, -, hne, hle, hnext⟩ := Store.issueId_spec (h.bound type) hissue
    have hvalue := hnext rfl
    rw [h.last type] at hvalue
    rw [UInt64.le_iff_toNat_le, toNat_highestId] at hle
    refine ⟨hvalue, hne, by omega, fun earlier hearlier => ?_⟩
    have hlargest := le_largest hearlier
    rw [UInt64.le_iff_toNat_le] at hlargest
    rw [UInt64.lt_iff_toNat_lt]
    omega
  · have hlater := (h.after later).answer hrequest hopen
    rwa [idsOf_append, hnone, List.append_nil] at hlater

/-- Two types; the first is asked through a box and through a cursor of a read transaction, and its
registration is repeated in between. -/
example : (Connection.new {}).issued
    [.call (.register 1 (some [0x41])), .call (.register 2 (some [0x42])),
      .call (.openBox 1 true), .call (.openBox 2 true), .call (.boxId 0 41), .call (.boxId 1 0),
      .call (.register 1 (some [0x41])), .call (.begin true true), .call (.openCursor 2 1 true),
      .call (.cursorId 3 0), .call (.boxId 0 0xFFFFFFFFFFFFFFFF), .call (.boxId 0 0)]
    = [(1, 41), (2, 1), (1, 42), (1, 43)] := by
  decide +kernel

end Connection

end ObjectStore
