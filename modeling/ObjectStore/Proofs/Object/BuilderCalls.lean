import Mathlib
import ObjectStore.Object.Workbench

/-!
# Builder calls that fail

A builder that is told to complete or to pack takes its state out and gives it back if it is not the
one that is asked for.  So a failing call leaves no trace (`Workbench.afterFailure_eq`), and no call
of a run can tell whether a failing one was made before it.
-/

namespace ObjectStore

namespace Builder

/-- Only an object that is being filled is completed. -/
theorem complete_eq (b : Builder) :
    b.complete = match b.state with
      | .filling object => .ok (⟨b.generation⟩, { b with state := .complete object })
      | _ => .error (.invalidState .notStarted) := by
  obtain ⟨state, generation⟩ := b
  cases state <;> rfl

/-- Only a complete object is packed, and only with a ticket of the generation. -/
theorem pack_eq (b : Builder) (ticket : Ticket) :
    b.pack ticket =
      if ticket.generation ≠ b.generation then .error (.invalidState .staleTicket)
      else
        match b.state with
        | .complete object => .ok { b with state := .packed object.encode }
        | _ => .error (.invalidState .notComplete) := by
  obtain ⟨state, generation⟩ := b
  by_cases h : ticket.generation ≠ generation
  · rw [if_pos h]
    simp only [pack, BuilderStep.result, packInPlace, bind, EStateM.bind, get, getThe,
      MonadStateOf.get, EStateM.get, if_pos h]
    rfl
  · rw [if_neg h]
    simp only [pack, BuilderStep.result, packInPlace, bind, EStateM.bind, get, getThe,
      MonadStateOf.get, EStateM.get, if_neg h]
    cases state <;> rfl

/-- What is not completed is put back. -/
theorem left_complete {b : Builder} {e : ObjectError} (h : b.complete = .error e) :
    completeInPlace.left b = b := by
  obtain ⟨state, generation⟩ := b
  cases state with
  | filling object => cases h
  | _ => rfl

/-- What is not packed is put back. -/
theorem left_pack {b : Builder} {ticket : Ticket} {e : ObjectError}
    (h : b.pack ticket = .error e) : (packInPlace ticket).left b = b := by
  obtain ⟨state, generation⟩ := b
  by_cases hstale : ticket.generation ≠ generation
  · -- the state was not taken out
    simp only [BuilderStep.left, packInPlace, bind, EStateM.bind, get, getThe, MonadStateOf.get,
      EStateM.get, if_pos hstale]
    rfl
  · cases state with
    | complete object =>
      rw [pack_eq, if_neg hstale] at h
      cases h
    | _ =>
      simp only [BuilderStep.left, packInPlace, bind, EStateM.bind, get, getThe, MonadStateOf.get,
        EStateM.get, if_neg hstale]
      rfl

end Builder

namespace Workbench

variable {w w' : Workbench} {c : BuilderCall}

/-- **A call that fails leaves no trace.** -/
theorem afterFailure_eq {e : ObjectError} (h : w.call? c = .error e) : w.afterFailure c = w := by
  obtain ⟨b, tickets⟩ := w
  cases c with
  | complete =>
    cases hcomplete : b.complete with
    | ok r =>
      simp only [call?, hcomplete] at h
      cases h
    | error e => simp only [afterFailure, Builder.left_complete hcomplete]
  | pack number =>
    cases hticket : ticket ⟨b, tickets⟩ number with
    | error e => simp only [afterFailure, hticket]
    | ok ticket =>
      simp only [afterFailure, hticket]
      cases hpack : b.pack ticket with
      | ok packed =>
        simp only [call?, hticket, bind, Except.bind, hpack] at h
        cases h
      | error e => rw [Builder.left_pack hpack]
  | _ => rfl

theorem call_of_ok {answer : BuilderAnswer} (h : w.call? c = .ok (answer, w')) :
    w.call c = (.ok answer, w') := by
  rw [call, h]

theorem call_of_error {e : ObjectError} (h : w.call? c = .error e) : w.call c = (.error e, w) := by
  rw [call, h]
  exact congrArg _ (afterFailure_eq h)

end Workbench

end ObjectStore
