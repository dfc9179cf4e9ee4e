import Mathlib
import ObjectStore.Proofs.Except
import ObjectStore.Proofs.Object.BuilderProtocol

/-!
# Builders pack their own object

A ticket that was issued elsewhere may be taken for one of a builder's own: all that a builder knows
of a ticket is its generation.  It never matters for what is packed.  Whatever tickets a builder is
shown, an object that it fills, holds complete or has packed is the one that was started last by the
calls made on it, with the fields that they have added since (`BuilderLog.Explains.call`), and its
bytes are all that the builder yields (`Workbench.packsOwn_events`).
-/

namespace ObjectStore

/-- Whether a call starts an object or adds to it if it succeeds. -/
def BuilderCall.fills : BuilderCall → Bool
  | .start _ => true
  | .add _ _ => true
  | _ => false

namespace BuilderLog

/-- The object that was started last, with the fields that were added since. -/
def Describes (log : BuilderLog) (object : Object) : Prop :=
  (∃ since, log.Started object.id since) ∧
    ∀ slot value, object.fields.get? slot = some value ↔ log.Added slot value

/-- How far a builder is, as its log says. -/
def Explains (log : BuilderLog) : BuilderState → Prop
  | .idle => True
  | .filling object => log.Describes object
  | .complete object => log.Describes object
  | .packed bytes => ∃ object : Object, bytes = object.encode ∧ log.Describes object

/-- All bytes that were answered are those of the object that was started last until then, with the
fields that were added to it. -/
def PacksOwn (log : BuilderLog) : Prop :=
  ∀ (before : BuilderLog) bytes after,
    log = before ++ (.packedBytes, .ok (.bytes bytes)) :: after →
    ∃ object : Object, bytes = object.encode ∧ before.Describes object

variable {log : BuilderLog} {e : BuilderEvent}

/-! ## Descriptions -/

/-- An object that was just started has no fields. -/
theorem describes_start (log : BuilderLog) (id : ObjectId) :
    Describes (log ++ [(.start id, .ok .done)]) ⟨id, ∅⟩ :=
  ⟨⟨[], started_start log id⟩, fun _ _ => ⟨nofun, fun hadded => absurd hadded not_added_start⟩⟩

/-- A field in a free slot is one field more. -/
theorem Describes.add {object : Object} (h : log.Describes object) {slot : Slot}
    (hfree : object.fields.contains slot = false) (value : Value) :
    Describes (log ++ [(.add slot value, .ok .done)])
      { object with fields := object.fields.insert slot value } := by
  have hother : ∀ id, ((.add slot value, .ok .done) : BuilderEvent) ≠ (.start id, .ok .done) :=
    nofun
  obtain ⟨⟨since, hstarted⟩, hfields⟩ := h
  refine ⟨⟨_, (started_concat hother).2 ⟨since, rfl, hstarted⟩⟩, fun slot' value' => ?_⟩
  show (object.fields.insert slot value).get? slot' = some value' ↔ _
  rw [added_concat hother, SortedMap.get?_insert]
  split
  · rename_i hslot
    subst hslot
    -- nothing was added in this slot before
    have hnone : ¬ log.Added slot' value' := by
      intro hadded
      rw [SortedMap.contains, (hfields slot' value').2 hadded] at hfree
      cases hfree
    constructor
    · rintro ⟨⟩
      exact Or.inr ⟨rfl, object.id, since, hstarted⟩
    · rintro (hadded | ⟨heq, -⟩)
      · exact absurd hadded hnone
      · cases heq
        rfl
  · rename_i hslot
    rw [hfields]
    constructor
    · exact Or.inl
    · rintro (hadded | ⟨heq, -⟩)
      · exact hadded
      · cases heq
        exact absurd rfl hslot

/-- A call that fails, or that starts and adds nothing. -/
theorem Describes.keep {object : Object} (h : log.Describes object)
    (he : ∀ a, e.2 = .ok a → e.1.fills = false) : Describes (log ++ [e]) object := by
  have hother : ∀ (c : BuilderCall) (a : BuilderAnswer), c.fills = true → e ≠ (c, .ok a) := by
    rintro c a hc rfl
    rw [he a rfl] at hc
    cases hc
  have hstart : ∀ id, e ≠ (.start id, .ok .done) := fun id => hother _ _ rfl
  have hadd : ∀ slot value, e ≠ (.add slot value, .ok .done) := fun slot value => hother _ _ rfl
  obtain ⟨⟨since, hstarted⟩, hfields⟩ := h
  refine ⟨⟨_, (started_concat hstart).2 ⟨since, rfl, hstarted⟩⟩, fun slot value => ?_⟩
  rw [added_concat_of_ne hstart hadd, hfields]

theorem Explains.keep {state : BuilderState} (h : log.Explains state)
    (he : ∀ a, e.2 = .ok a → e.1.fills = false) : Explains (log ++ [e]) state := by
  cases state with
  | idle => trivial
  | filling object => exact Describes.keep h he
  | complete object => exact Describes.keep h he
  | packed bytes =>
    obtain ⟨object, hbytes, hobject⟩ := h
    exact ⟨object, hbytes, hobject.keep he⟩

/-! ## Calls -/

/-- **The log goes on explaining the builder**, whatever is called and whatever tickets there
are. -/
theorem Explains.call {w : Workbench} (h : log.Explains w.builder.state) (c : BuilderCall) :
    Explains (log ++ [(c, (w.call c).1)]) (w.call c).2.builder.state := by
  cases hcall : w.call? c with
  | error e =>
    -- a call that fails leaves the builder alone
    rw [Workbench.call_of_error hcall]
    refine h.keep fun a ha => ?_
    cases ha
  | ok r =>
    obtain ⟨answer, w'⟩ := r
    rw [Workbench.call_of_ok hcall]
    obtain ⟨⟨state, generation⟩, tickets⟩ := w
    cases c with
    | start id =>
      simp only [Workbench.call?, bind_eq_ok, pure_eq_ok] at hcall
      obtain ⟨b, hb, heq⟩ := hcall
      cases heq
      cases state with
      | idle =>
        cases hb
        exact describes_start log id
      | _ => cases hb
    | add slot value =>
      simp only [Workbench.call?, bind_eq_ok, pure_eq_ok] at hcall
      obtain ⟨b, hb, heq⟩ := hcall
      cases heq
      cases state with
      | filling object =>
        rw [Builder.add] at hb
        dsimp only at hb
        split at hb
        · cases hb
        · rename_i hfree
          cases hb
          exact Describes.add h (Bool.eq_false_iff.2 hfree) value
      | _ => cases hb
    | complete =>
      simp only [Workbench.call?, bind_eq_ok, pure_eq_ok, Builder.complete_eq] at hcall
      obtain ⟨⟨ticket, b⟩, hb, heq⟩ := hcall
      cases heq
      cases state with
      | filling object =>
        cases hb
        exact Describes.keep h fun _ _ => rfl
      | _ => cases hb
    | pack number =>
      simp only [Workbench.call?, bind_eq_ok, pure_eq_ok, Builder.pack_eq] at hcall
      obtain ⟨ticket, -, b, hb, heq⟩ := hcall
      cases heq
      -- the ticket only decides whether the complete object is packed, not which one
      split at hb
      · cases hb
      · cases state with
        | complete object =>
          cases hb
          exact ⟨object, rfl, Describes.keep h fun _ _ => rfl⟩
        | _ => cases hb
    | packedBytes =>
      simp only [Workbench.call?, bind_eq_ok, pure_eq_ok] at hcall
      obtain ⟨bytes, -, heq⟩ := hcall
      cases heq
      exact h.keep fun _ _ => rfl
    | isIdle =>
      cases hcall
      exact h.keep fun _ _ => rfl
    | reset =>
      -- nothing is claimed of an idle builder
      cases hcall
      trivial
    | decode =>
      simp only [Workbench.call?, bind_eq_ok, pure_eq_ok] at hcall
      obtain ⟨bytes, -, object, -, heq⟩ := hcall
      cases heq
      exact h.keep fun _ _ => rfl
    | sameTicket i j =>
      simp only [Workbench.call?, bind_eq_ok, pure_eq_ok] at hcall
      obtain ⟨t, -, t', -, heq⟩ := hcall
      cases heq
      exact h.keep fun _ _ => rfl

/-- Bytes are answered by a builder that has packed them. -/
theorem Explains.packedBytes {w : Workbench} (h : log.Explains w.builder.state) {bytes : Bytes}
    (hanswer : (w.call .packedBytes).1 = .ok (.bytes bytes)) :
    ∃ object : Object, bytes = object.encode ∧ log.Describes object := by
  obtain ⟨⟨state, generation⟩, tickets⟩ := w
  cases state with
  | packed bs =>
    cases hanswer
    exact h
  | _ => cases hanswer

end BuilderLog

/-! ## Runs -/

namespace Workbench

variable {w : Workbench}

/-- The log of a run explains the builder, by induction from the right. -/
theorem explains_events (hidle : w.builder.isIdle = true) (cs : List BuilderCall) :
    BuilderLog.Explains (w.events cs) (w.run cs).2.builder.state := by
  induction cs using List.reverseRecOn with
  | nil =>
    obtain ⟨⟨state, generation⟩, tickets⟩ := w
    cases state with
    | idle => trivial
    | _ => cases hidle
  | append_singleton cs c ih =>
    rw [events_concat, run_append]
    exact ih.call c

/-- **A builder packs its own object**, whatever tickets there are. -/
theorem packsOwn_events (hidle : w.builder.isIdle = true) (cs : List BuilderCall) :
    BuilderLog.PacksOwn (w.events cs) := by
  induction cs using List.reverseRecOn with
  | nil =>
    intro before bytes after hlog
    cases before <;> cases hlog
  | append_singleton cs c ih =>
    intro before bytes after hlog
    rw [events_concat] at hlog
    rcases BuilderLog.concat_eq_iff.1 hlog with ⟨-, rfl, hlast⟩ | ⟨since, -, hearlier⟩
    · obtain ⟨rfl, hanswer⟩ := Prod.mk.inj hlast
      exact (explains_events hidle cs).packedBytes hanswer
    · exact ih before bytes since hearlier

end Workbench

end ObjectStore
