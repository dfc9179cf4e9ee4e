import Mathlib
import ObjectStore.Proofs.Store.DirectUpdate
import ObjectStore.Proofs.Store.Effects

/-!
# Copies made on the first write

An overlay copies a type when it is first written to: by a put, even if the put is then rejected, by
a removal that finds its object, or by the removal of all objects, even if there are none.  From then
on that type is read from the copy, and all others are still read from the base.

Nobody can tell.  Writes that are made one after the other through an overlay (`Overlay.perform`) have
the outcomes that they have on contents that are changed in place (`Contents.perform`), and after each
of them the overlay shows what the contents then hold.  Main statement: `overlay_writes_are_direct`.
-/

namespace ObjectStore

/-! ## Writes and their outcomes -/

/-- The type that a write is made to. -/
def Write.type : Write → TypeId
  | .put type _ _ _ => type
  | .remove type _ => type
  | .removeAll type => type

/-- The outcome of a write on what is seen: removing all objects answers how many there were. -/
def View.outcome (v : View) (w : Write) : Except StoreError Answer :=
  (v.write w).map fun _ =>
    match w with
    | .removeAll type => .count (v type).size
    | _ => .done

namespace Overlay

/-- Makes a write through an overlay. -/
def perform (o : Overlay) : Write → Except StoreError Answer × Overlay
  | .put type id data mayReplace =>
    match o.put type id data mayReplace with
    | .ok o' => (.ok .done, o')
    | .error e => (.error e, o.afterRefusedPut type id data)
  | .remove type id =>
    match o.remove type id with
    | .ok o' => (.ok .done, o')
    | .error e => (.error e, o)
  | .removeAll type => (.ok (.count (o.removeAll type).1), (o.removeAll type).2)

/-- The overlay after writes, one after the other. -/
def performAll (o : Overlay) (ws : List Write) : Overlay := ws.foldl (fun o w => (o.perform w).2) o

end Overlay

namespace Contents

/-- Makes a write on the contents themselves. -/
def perform (c : Contents) : Write → Except StoreError Answer × Contents
  | .put type id data mayReplace =>
    match checkPut id data with
    | .error e => (.error e, c)
    | .ok () =>
      if !mayReplace && (c.payloads type).contains id then (.error (.alreadyExists id), c)
      else (.ok .done, c.insert type ((c.payloads type).insert id data))
  | .remove type id =>
    if (c.payloads type).contains id then (.ok .done, c.insert type ((c.payloads type).erase id))
    else (.error (.nothingToRemove id type), c)
  | .removeAll type => (.ok (.count (c.payloads type).size), c.insert type ∅)

/-- The contents after writes, one after the other. -/
def performAll (c : Contents) (ws : List Write) : Contents := ws.foldl (fun c w => (c.perform w).2) c

end Contents

/-! ## One write -/

/-- A write that fails on what is seen changes nothing there. -/
theorem View.after_of_outcome_error {v : View} {w : Write} {e : StoreError}
    (h : v.outcome w = .error e) : v.after w = v := by
  unfold outcome at h
  unfold after
  cases hw : v.write w with
  | ok v' =>
    rw [hw] at h
    cases h
  | error e' => rfl

namespace Overlay

/-- **A write through an overlay** has the outcome that it has on what the overlay shows, and the
overlay shows the result of it. -/
theorem perform_spec (o : Overlay) (w : Write) :
    (o.perform w).1 = o.view.outcome w ∧ (o.perform w).2.view = o.view.after w := by
  unfold View.outcome View.after
  cases w with
  | put type id data mayReplace =>
    rcases o.write_cases (.put type id data mayReplace) with ⟨e, ho, hv⟩ | ⟨o', ho, hv⟩
    · have hput : o.put type id data mayReplace = .error e := ho
      rw [perform, hput, hv]
      exact ⟨rfl, o.view_afterRefusedPut type id data⟩
    · have hput : o.put type id data mayReplace = .ok o' := ho
      rw [perform, hput, hv]
      exact ⟨rfl, rfl⟩
  | remove type id =>
    rcases o.write_cases (.remove type id) with ⟨e, ho, hv⟩ | ⟨o', ho, hv⟩
    · have hremove : o.remove type id = .error e := ho
      rw [perform, hremove, hv]
      exact ⟨rfl, rfl⟩
    · have hremove : o.remove type id = .ok o' := ho
      rw [perform, hremove, hv]
      exact ⟨rfl, rfl⟩
  | removeAll type =>
    obtain ⟨hcount, hview⟩ := o.view_removeAll type
    exact ⟨congrArg (fun n => Except.ok (Answer.count n)) hcount, hview⟩

/-- No write changes what the overlay is based on. -/
theorem base_perform (o : Overlay) (w : Write) : (o.perform w).2.base = o.base := by
  cases w with
  | put type id data mayReplace =>
    unfold perform
    dsimp only
    split
    · rename_i hput
      exact base_of_put hput
    · exact o.base_afterRefusedPut type id data
  | remove type id =>
    unfold perform
    dsimp only
    split
    · rename_i hremove
      exact base_of_remove hremove
    · rfl
  | removeAll type => rfl

theorem base_performAll (o : Overlay) (ws : List Write) : (o.performAll ws).base = o.base := by
  induction ws generalizing o with
  | nil => rfl
  | cons w ws ih => exact (ih (o.perform w).2).trans (o.base_perform w)

end Overlay

namespace Contents

/-- Contents of which one type was replaced. -/
theorem view_insert (c : Contents) (type : TypeId) (payloads : Payloads) :
    Contents.view (c.insert type payloads) = c.view.set type payloads := by
  funext other
  unfold view Contents.payloads View.set
  rw [SortedMap.get?_insert, Function.update_apply]
  split <;> rfl

/-- **A write on contents** has the outcome that it has on what they look like, and they look like the
result of it. -/
theorem perform_spec (c : Contents) (w : Write) :
    (c.perform w).1 = c.view.outcome w ∧ (c.perform w).2.view = c.view.after w := by
  unfold View.outcome View.after View.write
  cases w with
  | put type id data mayReplace =>
    unfold perform
    simp only [View.put]
    cases checkPut id data with
    | error e => exact ⟨rfl, rfl⟩
    | ok _ =>
      by_cases hthere : (!mayReplace && (c.payloads type).contains id) = true
      · have hseen : (!mayReplace && (c.view type).contains id) = true := hthere
        simp only [bind, Except.bind, hthere, hseen, if_true]
        exact ⟨rfl, rfl⟩
      · have hseen : ¬ (!mayReplace && (c.view type).contains id) = true := hthere
        simp only [bind, Except.bind, hthere, hseen]
        exact ⟨rfl, c.view_insert type _⟩
  | remove type id =>
    unfold perform
    simp only [View.remove]
    by_cases hthere : (c.payloads type).contains id = true
    · have hseen : (c.view type).contains id = true := hthere
      rw [if_pos hthere, if_pos hseen]
      exact ⟨rfl, c.view_insert type _⟩
    · have hseen : ¬ (c.view type).contains id = true := hthere
      rw [if_neg hthere, if_neg hseen]
      exact ⟨rfl, rfl⟩
  | removeAll type => exact ⟨rfl, c.view_insert type ∅⟩

end Contents

/-! ## Cursors -/

/-- The call that makes a write through a cursor. -/
def Write.call (h : Handle) : Write → Call
  | .put _ id data mayReplace => .put h id (some data) mayReplace
  | .remove _ id => .remove h id
  | .removeAll _ => .removeAll h true

namespace Connection

/-- Changes that stay what they are. -/
theorem setChanges_self {conn : Connection} {txn : Handle} {o : Overlay}
    (h : conn.txns.get? txn = some (.write o)) : conn.setChanges txn o = conn := by
  have hsame : conn.txns.insert txn (.write o) = conn.txns := by
    refine SortedMap.ext_get? fun other => ?_
    rw [SortedMap.get?_insert]
    split
    · rename_i heq
      rw [heq, h]
    · rfl
  rw [setChanges, hsame]

/-- **A write through a cursor** is a write through the overlay of its transaction. -/
theorem call_write {conn : Connection} {h : Handle} {c : Cursor} {o : Overlay} {w : Write}
    (hwriter : conn.writer h = .ok (c, o)) (htype : w.type = c.type) :
    conn.call (w.call h) = ((o.perform w).1, conn.setChanges c.txn (o.perform w).2) := by
  cases w with
  | put type id data mayReplace =>
    obtain rfl : type = c.type := htype
    unfold Write.call call call? afterFailure Overlay.perform
    simp only [given, bind, Except.bind, hwriter]
    cases o.put c.type id data mayReplace <;> rfl
  | remove type id =>
    obtain rfl : type = c.type := htype
    unfold Write.call call call? afterFailure Overlay.perform
    simp only [bind, Except.bind, hwriter]
    cases o.remove c.type id with
    | ok o' => rfl
    | error e => exact congrArg _ (setChanges_self (writer_eq_ok.1 hwriter).2).symm
  | removeAll type =>
    obtain rfl : type = c.type := htype
    unfold Write.call call call? Overlay.perform
    simp only [bind, Except.bind, hwriter]
    rfl

end Connection

/-! ## Many writes -/

/-- An overlay that shows what contents hold shows it after the same writes to both. -/
theorem Overlay.view_performAll {o : Overlay} {c : Contents} (h : o.view = c.view)
    (ws : List Write) : (o.performAll ws).view = (c.performAll ws).view := by
  induction ws generalizing o c with
  | nil => exact h
  | cons w ws ih =>
    refine ih ?_
    rw [(o.perform_spec w).2, (c.perform_spec w).2, h]

/-- **Writes through an overlay are direct.**  Whatever writes were made through an overlay of some
contents, and to a copy of these contents in place,

* both show the same payloads of every type, and so do the contents once the overlay is installed;
* the next write has the same outcome on both;
* if it fails, neither shows anything else than before;
* the contents under the overlay are what they were. -/
theorem overlay_writes_are_direct (base : Contents) (ws : List Write) :
    let o := (Overlay.ofBase base).performAll ws
    let c := base.performAll ws
    (∀ type, o.payloads type = c.payloads type ∧ (o.result base).payloads type = c.payloads type) ∧
      (∀ w, (o.perform w).1 = (c.perform w).1 ∧ ∀ e, (c.perform w).1 = .error e → ∀ type,
        (o.perform w).2.payloads type = o.payloads type ∧
          (c.perform w).2.payloads type = c.payloads type) ∧
      o.base = base := by
  intro o c
  have hview : o.view = c.view := Overlay.view_performAll (Overlay.view_ofBase base) ws
  have hbase : o.base = base := Overlay.base_performAll (.ofBase base) ws
  refine ⟨fun type => ⟨congrFun hview type, ?_⟩, fun w => ?_, hbase⟩
  · exact congrFun ((Overlay.view_result hbase).trans hview) type
  · obtain ⟨houtcome, hafter⟩ := o.perform_spec w
    obtain ⟨houtcome', hafter'⟩ := c.perform_spec w
    refine ⟨by rw [houtcome, houtcome', hview], fun e he type => ⟨?_, ?_⟩⟩
    · have hfails : o.view.outcome w = .error e := by rw [hview, ← houtcome', he]
      rw [View.after_of_outcome_error hfails] at hafter
      exact congrFun hafter type
    · rw [View.after_of_outcome_error (houtcome'.symm.trans he)] at hafter'
      exact congrFun hafter' type

/-- The object 5 is under the overlay.  A new object 5 is rejected, before and after the object 6 was put
to the copy that the first attempt made; a type without objects is emptied in between. -/
theorem overlay_writes_are_direct_rejectedPut :
    let base := (Contents.perform ∅ (.put 1 5 [7] true)).2
    let ws := [Write.put 1 5 [8] false, .removeAll 2, .put 1 6 [9] true]
    let o := (Overlay.ofBase base).performAll ws
    (o.perform (.put 1 5 [8] false)).1 = .error (.alreadyExists 5) ∧
      (o.perform (.put 1 5 [8] false)).2.payloads 1 = o.payloads 1 ∧
      (o.payloads 1).values = [[7], [9]] ∧ o.changed.keys = [1, 2] ∧ o.base = base := by
  intro base ws o
  obtain ⟨hview, hwrite, hbase⟩ := overlay_writes_are_direct base ws
  obtain ⟨houtcome, hleft⟩ := hwrite (.put 1 5 [8] false)
  have hfails : ((base.performAll ws).perform (.put 1 5 [8] false)).1 = .error (.alreadyExists 5) := by
    decide +kernel
  have hpayloads : ((base.performAll ws).payloads 1).values = [[7], [9]] := by decide +kernel
  refine ⟨houtcome.trans hfails, (hleft _ hfails 1).1, ?_, by decide +kernel, hbase⟩
  rw [(hview 1).1, hpayloads]

end ObjectStore
