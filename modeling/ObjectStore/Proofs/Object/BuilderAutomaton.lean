import Mathlib
import ObjectStore.Proofs.Object.BuilderCalls
import ObjectStore.Proofs.SortedMap

/-!
# The automaton of a builder

A builder is an automaton: it is empty, building an object, done with it, or finished with its bytes,
in this order, and a reset makes it empty from wherever it is.  `BuilderHistory` is what one has to
know of the calls so far to say what the next one answers, and `BuilderHistory.answer` says it,
without a builder.  Calls that fail do not count.

A builder that has come along a history gives these answers and goes on along it
(`BuilderHistory.call_workbench`).  A generation is a number of 64 bits, so a ticket is known again
after as many resets as there are such numbers; up to there none is taken for another
(`BuilderHistory.Sound`).
-/

namespace ObjectStore

/-! ## The automaton -/

/-- A call on a builder together with its answer. -/
abbrev BuilderEvent := BuilderCall × Except ObjectError BuilderAnswer

/-- Where a builder is in its protocol. -/
inductive BuilderPhase
  | empty
  | building
  | ended
  | finished
  deriving DecidableEq

/-- What the calls so far have come to. -/
structure BuilderHistory where
  phase : BuilderPhase
  /-- The ID of the object that was started last. -/
  started : ObjectId
  /-- The fields that were added since. -/
  added : List (Slot × Value)
  resets : Nat
  /-- For every ticket by number, how many resets there were before it. -/
  tickets : List Nat

namespace BuilderHistory

/-- Nothing was called. -/
def new : BuilderHistory := ⟨.empty, 0, [], 0, []⟩

/-- The object that was started last, with the fields that were added since. -/
def object (h : BuilderHistory) : Object := ⟨h.started, .ofList h.added⟩

/-- A ticket was issued, and there was no reset since. -/
def Fresh (h : BuilderHistory) (number : Nat) : Prop := h.tickets[number]? = some h.resets

instance (h : BuilderHistory) (number : Nat) : Decidable (h.Fresh number) :=
  inferInstanceAs (Decidable (h.tickets[number]? = some h.resets))

/-- **What a call answers.** -/
def answer (h : BuilderHistory) : BuilderCall → Except ObjectError BuilderAnswer
  | .start _ =>
    if h.phase = .empty then .ok .done else .error (.invalidState .objectInProgress)
  | .add slot _ =>
    if h.phase = .building then
      if slot ∈ h.added.map Prod.fst then .error (.duplicateSlot slot) else .ok .done
    else .error (.invalidState .noObjectInProgress)
  | .complete =>
    if h.phase = .building then .ok (.ticket h.tickets.length)
    else .error (.invalidState .notStarted)
  | .pack number =>
    if h.Fresh number then
      if h.phase = .ended then .ok .done else .error (.invalidState .notComplete)
    else .error (.invalidState .staleTicket)
  | .packedBytes =>
    if h.phase = .finished then .ok (.bytes h.object.encode)
    else .error (.invalidState .notPacked)
  | .isIdle => .ok (.flag (h.phase = .empty))
  | .reset => .ok .done
  | .decode =>
    if h.phase = .finished then (Object.decode h.object.encode).map .object
    else .error (.invalidState .notPacked)
  | .sameTicket a b =>
    match h.tickets[a]?, h.tickets[b]? with
    | some resets, some resets' => .ok (.flag (resets = resets'))
    | _, _ => .error (.invalidState .staleTicket)

/-- What a call adds to the history; one that fails adds nothing. -/
def note (h : BuilderHistory) : BuilderEvent → BuilderHistory
  | (_, .error _) => h
  | (.start id, .ok _) => { h with phase := .building, started := id, added := [] }
  | (.add slot value, .ok _) => { h with added := h.added ++ [(slot, value)] }
  | (.complete, .ok _) => { h with phase := .ended, tickets := h.tickets ++ [h.resets] }
  | (.pack _, .ok _) => { h with phase := .finished }
  | (.reset, .ok _) => { h with phase := .empty, resets := h.resets + 1 }
  | (_, .ok _) => h

/-- The history of some calls. -/
def of (events : List BuilderEvent) : BuilderHistory := events.foldl note new

theorem of_concat (events : List BuilderEvent) (event : BuilderEvent) :
    of (events ++ [event]) = (of events).note event := by
  rw [of, List.foldl_concat]
  rfl

/-! ## Builders and histories -/

/-- How far a builder is. -/
def state (h : BuilderHistory) : BuilderState :=
  match h.phase with
  | .empty => .idle
  | .building => .filling h.object
  | .ended => .complete h.object
  | .finished => .packed h.object.encode

/-- The workbench that calls lead to. -/
def workbench (h : BuilderHistory) : Workbench :=
  ⟨⟨h.state, .ofNat h.resets⟩, h.tickets.map fun resets => ⟨.ofNat resets⟩⟩

/-- No slot was added twice, tickets are from before, and generations are still told apart. -/
structure Sound (h : BuilderHistory) : Prop where
  slots : (h.added.map Prod.fst).Nodup
  tickets_le : ∀ resets ∈ h.tickets, resets ≤ h.resets
  resets_lt : h.resets < 2 ^ 64

theorem sound_new : new.Sound where
  slots := List.nodup_nil
  tickets_le := nofun
  resets_lt := by decide

variable {h : BuilderHistory}

/-- Generations tell the numbers of resets apart. -/
theorem Sound.generation_inj (hs : h.Sound) {resets : Nat} (hresets : resets ∈ h.tickets)
    {resets' : Nat} (hle : resets' ≤ h.resets) :
    (Ticket.mk (.ofNat resets) = ⟨.ofNat resets'⟩) ↔ resets = resets' := by
  have hlt := Nat.lt_of_le_of_lt (hs.tickets_le resets hresets) hs.resets_lt
  have hlt' := Nat.lt_of_le_of_lt hle hs.resets_lt
  constructor
  · intro heq
    have hnat := congrArg (fun t => t.generation.toNat) heq
    simp only [UInt64.toNat_ofNat'] at hnat
    omega
  · rintro rfl
    rfl

/-- A slot is taken if it was added. -/
theorem Sound.contains_iff (hs : h.Sound) (slot : Slot) :
    h.object.fields.contains slot = true ↔ slot ∈ h.added.map Prod.fst := by
  rw [SortedMap.contains, Option.isSome_iff_exists]
  constructor
  · rintro ⟨value, hvalue⟩
    have hmem : (slot, value) ∈ h.added := (SortedMap.get?_ofList hs.slots).1 hvalue
    exact List.mem_map_of_mem hmem
  · intro hmem
    obtain ⟨⟨slot', value⟩, hadded, rfl⟩ := List.mem_map.1 hmem
    exact ⟨value, (SortedMap.get?_ofList hs.slots).2 hadded⟩

theorem ticket_workbench (h : BuilderHistory) (number : Nat) :
    h.workbench.ticket number = match h.tickets[number]? with
      | some resets => .ok ⟨.ofNat resets⟩
      | none => .error (.invalidState .staleTicket) := by
  unfold Workbench.ticket workbench
  rw [List.getElem?_map]
  cases h.tickets[number]? <;> rfl

/-- One more field. -/
theorem object_concat (h : BuilderHistory) (slot : Slot) (value : Value) :
    { h.object with fields := h.object.fields.insert slot value }
      = object { h with added := h.added ++ [(slot, value)] } := by
  have hfields : SortedMap.ofList (h.added ++ [(slot, value)])
      = (SortedMap.ofList h.added).insert slot value := by
    rw [SortedMap.ofList, List.foldl_concat]
    rfl
  rw [object, object, hfields]

/-- A field is added to the object that is being built. -/
theorem add_workbench (hs : h.Sound) (slot : Slot) (value : Value) :
    h.workbench.call? (.add slot value)
      = (h.answer (.add slot value)).map fun a => (a, (h.note (.add slot value, .ok a)).workbench) := by
  have hcontains := hs.contains_iff slot
  have hobject := h.object_concat slot value
  obtain ⟨phase, started, added, resets, tickets⟩ := h
  cases phase with
  | building =>
    simp only [Workbench.call?, workbench, state, Builder.add, answer, if_true]
    by_cases hslot : slot ∈ added.map Prod.fst
    · rw [if_pos hslot, if_pos (hcontains.2 hslot)]
      rfl
    · rw [if_neg hslot, if_neg (fun hc => hslot (hcontains.1 hc)), hobject]
      rfl
  | _ => rfl

/-- The object that is being built is taken as it is, and its ticket gets the next number. -/
theorem complete_workbench (h : BuilderHistory) :
    h.workbench.call? .complete
      = (h.answer .complete).map fun a => (a, (h.note (.complete, .ok a)).workbench) := by
  have hlength : h.workbench.tickets.length = h.tickets.length := List.length_map _
  have htickets : (h.tickets ++ [h.resets]).map (fun resets => Ticket.mk (.ofNat resets))
      = h.workbench.tickets ++ [⟨.ofNat h.resets⟩] := List.map_append
  simp only [Workbench.call?, answer, Builder.complete_eq, hlength]
  obtain ⟨phase, started, added, resets, tickets⟩ := h
  cases phase with
  | building => exact congrArg (fun ts => Except.ok (_, Workbench.mk _ ts)) htickets.symm
  | _ => rfl

/-- The object that was built is encoded, if the ticket is one of this generation. -/
theorem pack_workbench (hs : h.Sound) (number : Nat) :
    h.workbench.call? (.pack number)
      = (h.answer (.pack number)).map fun a => (a, (h.note (.pack number, .ok a)).workbench) := by
  simp only [Workbench.call?, answer, ticket_workbench]
  cases hticket : h.tickets[number]? with
  | none =>
    have hfresh : ¬ h.Fresh number := by
      rw [Fresh, hticket]
      intro hissued
      cases hissued
    rw [if_neg hfresh]
    rfl
  | some resets =>
    have hinj := hs.generation_inj (List.mem_of_getElem? hticket) (Nat.le_refl h.resets)
    have hgeneration : (Ticket.mk (.ofNat resets)).generation ≠ h.workbench.builder.generation ↔
        ¬ h.Fresh number := by
      rw [Fresh, hticket, Option.some_inj, ← hinj, Ticket.mk.injEq]
      rfl
    simp only [bind, Except.bind, Builder.pack_eq]
    by_cases hfresh : h.Fresh number
    · rw [if_neg (fun hne => hgeneration.1 hne hfresh), if_pos hfresh]
      obtain ⟨phase, started, added, resets', tickets⟩ := h
      cases phase <;> rfl
    · rw [if_pos (hgeneration.2 hfresh), if_neg hfresh]
      rfl

/-- Tickets are the same if there was no reset between them. -/
theorem sameTicket_workbench (hs : h.Sound) (i j : Nat) :
    h.workbench.call? (.sameTicket i j)
      = (h.answer (.sameTicket i j)).map fun a => (a, (h.note (.sameTicket i j, .ok a)).workbench) := by
  simp only [Workbench.call?, answer, ticket_workbench]
  cases hi : h.tickets[i]? with
  | none => rfl
  | some resets =>
    cases hj : h.tickets[j]? with
    | none => rfl
    | some resets' =>
      have hinj := hs.generation_inj (List.mem_of_getElem? hi)
        (hs.tickets_le resets' (List.mem_of_getElem? hj))
      have hflag : (Ticket.mk (.ofNat resets) == ⟨.ofNat resets'⟩) = decide (resets = resets') := by
        rw [Bool.eq_iff_iff, beq_iff_eq, decide_eq_true_iff]
        exact hinj
      simp only [bind, Except.bind, hflag]
      rfl

/-- **A workbench answers as its history says**, and goes on to the workbench of the history with
this call. -/
theorem call?_workbench (hs : h.Sound) (c : BuilderCall) :
    h.workbench.call? c = (h.answer c).map fun a => (a, (h.note (c, .ok a)).workbench) := by
  cases c with
  | add slot value => exact add_workbench hs slot value
  | pack number => exact pack_workbench hs number
  | sameTicket i j => exact sameTicket_workbench hs i j
  | complete => exact h.complete_workbench
  | reset =>
    have hnext : UInt64.ofNat (h.resets + 1) = .ofNat h.resets + 1 := UInt64.ofNat_add _ _
    exact congrArg (fun g => Except.ok (_, Workbench.mk ⟨_, g⟩ _)) hnext.symm
  | decode =>
    obtain ⟨phase, started, added, resets, tickets⟩ := h
    cases phase with
    | finished =>
      simp only [Workbench.call?, workbench, state, Builder.packedBytes, answer, if_true, bind,
        Except.bind, object]
      cases Object.decode (Object.mk started (.ofList added)).encode <;> rfl
    | _ => rfl
  | _ =>
    obtain ⟨phase, started, added, resets, tickets⟩ := h
    cases phase <;> rfl

/-- A slot that may be added was not added before. -/
theorem not_mem_of_answer_add {slot : Slot} {value : Value} {a : BuilderAnswer}
    (h' : h.answer (.add slot value) = .ok a) :
    h.phase = .building ∧ slot ∉ h.added.map Prod.fst ∧ a = .done := by
  rw [answer] at h'
  split at h'
  · rename_i hphase
    split at h'
    · cases h'
    · rename_i hslot
      cases h'
      exact ⟨hphase, hslot, rfl⟩
  · cases h'

/-- The next history is sound while the generations are told apart. -/
theorem Sound.note (hs : h.Sound) (c : BuilderCall)
    (hlt : (h.note (c, h.answer c)).resets < 2 ^ 64) : (h.note (c, h.answer c)).Sound := by
  cases hanswer : h.answer c with
  | error e => exact hs
  | ok a =>
    rw [hanswer] at hlt
    cases c with
    | start id => exact ⟨List.nodup_nil, hs.tickets_le, hs.resets_lt⟩
    | add slot value =>
      obtain ⟨-, hslot, -⟩ := not_mem_of_answer_add hanswer
      refine ⟨?_, hs.tickets_le, hs.resets_lt⟩
      show ((h.added ++ [(slot, value)]).map Prod.fst).Nodup
      rw [List.map_append]
      exact List.nodup_append.2 ⟨hs.slots, List.nodup_singleton _, by
        intro other hother slot' hslot' heq
        rw [List.map_singleton, List.mem_singleton] at hslot'
        rw [heq, hslot'] at hother
        exact hslot hother⟩
    | complete =>
      refine ⟨hs.slots, ?_, hs.resets_lt⟩
      intro resets hresets
      rcases List.mem_append.1 hresets with hold | hnew
      · exact hs.tickets_le resets hold
      · rw [List.mem_singleton.1 hnew]
        exact Nat.le_refl _
    | reset =>
      refine ⟨hs.slots, ?_, hlt⟩
      intro resets hresets
      exact Nat.le_succ_of_le (hs.tickets_le resets hresets)
    | _ => exact ⟨hs.slots, hs.tickets_le, hs.resets_lt⟩

/-- Only a reset counts as one. -/
theorem resets_note (h : BuilderHistory) (c : BuilderCall) :
    (h.note (c, h.answer c)).resets = h.resets + [c].count .reset := by
  cases c with
  | reset => rfl
  | _ => cases h.answer _ <;> rfl

/-- **A call on the workbench of a history** is answered and noted. -/
theorem call_workbench (hs : h.Sound) (c : BuilderCall) :
    h.workbench.call c = (h.answer c, (h.note (c, h.answer c)).workbench) := by
  have hcall := call?_workbench hs c
  cases hanswer : h.answer c with
  | error e =>
    rw [hanswer] at hcall
    rw [Workbench.call_of_error hcall]
    rfl
  | ok a =>
    rw [hanswer] at hcall
    exact Workbench.call_of_ok hcall

end BuilderHistory

/-! ## Runs -/

namespace Workbench

variable {w : Workbench} {cs cs' : List BuilderCall}

theorem run_cons (w : Workbench) (c : BuilderCall) (cs : List BuilderCall) :
    w.run (c :: cs) = ((w.call c).1 :: ((w.call c).2.run cs).1, ((w.call c).2.run cs).2) := rfl

/-- Runs come one after the other. -/
theorem run_append (w : Workbench) (cs cs' : List BuilderCall) :
    w.run (cs ++ cs') = ((w.run cs).1 ++ ((w.run cs).2.run cs').1, ((w.run cs).2.run cs').2) := by
  induction cs generalizing w with
  | nil => rfl
  | cons c cs ih =>
    rw [List.cons_append, run_cons, run_cons, ih]
    rfl

theorem length_run (w : Workbench) (cs : List BuilderCall) : (w.run cs).1.length = cs.length := by
  induction cs generalizing w with
  | nil => rfl
  | cons c cs ih =>
    rw [run_cons, List.length_cons, List.length_cons, ih]

/-- The calls of a run with their answers. -/
def events (w : Workbench) (cs : List BuilderCall) : List BuilderEvent := cs.zip (w.run cs).1

/-- The calls of a run that succeed. -/
def succeeding (w : Workbench) (cs : List BuilderCall) : List BuilderCall :=
  ((w.events cs).filter fun e => e.2.isOk).map Prod.fst

/-- **Without the calls that fail** a run gives the other answers, and ends in the same way. -/
theorem run_succeeding (w : Workbench) (cs : List BuilderCall) :
    w.run (w.succeeding cs) = ((w.run cs).1.filter Except.isOk, (w.run cs).2) := by
  induction cs generalizing w with
  | nil => rfl
  | cons c cs ih =>
    cases hcall : w.call? c with
    | error e =>
      have hc := call_of_error hcall
      have hskip : w.succeeding (c :: cs) = w.succeeding cs := by
        rw [succeeding, events, run_cons, hc]
        rfl
      rw [hskip, ih, run_cons, hc]
      rfl
    | ok r =>
      have hc := call_of_ok hcall
      have hkeep : w.succeeding (c :: cs) = c :: r.2.succeeding cs := by
        rw [succeeding, events, run_cons, hc]
        rfl
      rw [hkeep, run_cons, run_cons, hc, ih]
      rfl

theorem events_concat (w : Workbench) (cs : List BuilderCall) (c : BuilderCall) :
    w.events (cs ++ [c]) = w.events cs ++ [(c, ((w.run cs).2.call c).1)] := by
  have hlength : cs.length = (w.run cs).1.length := (w.length_run cs).symm
  rw [events, run_append, List.zip_append hlength]
  rfl

end Workbench

end ObjectStore
