import Mathlib
import ObjectStore.Proofs.Object.BuilderAutomaton

/-!
# The protocol of a builder

What the automaton of a builder answers, in terms of the calls that were made and of their answers:
which slots are duplicates, which tickets are good, and which object the bytes are the encoding of
(`BuilderLog.Answers`).  `builder_keeps_protocol` says that a builder answers so, whatever is called
and in whatever order, and that nobody can tell from the other answers whether calls that fail were
made.

The history of a run accounts for its log (`BuilderHistory.Accounts`), by induction from the right,
with one lemma for each call that changes something.
-/

namespace ObjectStore

/-! ## What was called -/

/-- Whether a call starts, adds, issues or resets something if it succeeds. -/
def BuilderCall.isMark : BuilderCall → Bool
  | .start _ => true
  | .add _ _ => true
  | .complete => true
  | .reset => true
  | _ => false

/-- Calls with their answers, the last one at the end. -/
abbrev BuilderLog := List BuilderEvent

namespace BuilderLog

/-- The object that was started last has this ID, and this happened since. -/
def Started (log : BuilderLog) (id : ObjectId) (since : BuilderLog) : Prop :=
  (∃ earlier, log = earlier ++ (.start id, .ok .done) :: since) ∧
    ∀ id', (.start id', .ok .done) ∉ since

/-- The field was added since the last object was started. -/
def Added (log : BuilderLog) (slot : Slot) (value : Value) : Prop :=
  ∃ id since, log.Started id since ∧ (.add slot value, .ok .done) ∈ since

/-- The ticket was issued, and there was no reset since. -/
def Issued (log : BuilderLog) (number : Nat) : Prop :=
  ∃ earlier since, log = earlier ++ (.complete, .ok (.ticket number)) :: since ∧
    (.reset, .ok .done) ∉ since

variable {log : BuilderLog} {e : BuilderEvent}

/-- An event of a longer log is the last one, or one of the log. -/
theorem concat_eq_iff {earlier since : BuilderLog} {e' : BuilderEvent} :
    log ++ [e] = earlier ++ e' :: since ↔
      (since = [] ∧ log = earlier ∧ e = e') ∨
        ∃ since', since = since' ++ [e] ∧ log = earlier ++ e' :: since' := by
  constructor
  · intro h
    rcases List.eq_nil_or_concat' since with rfl | ⟨since', last, rfl⟩
    · obtain ⟨hlog, hlast⟩ := List.append_inj' h rfl
      exact Or.inl ⟨rfl, hlog, List.singleton_inj.1 hlast⟩
    · rw [← List.cons_append, ← List.append_assoc] at h
      obtain ⟨hlog, hlast⟩ := List.append_inj' h rfl
      exact Or.inr ⟨since', by rw [List.singleton_inj.1 hlast], hlog⟩
  · rintro (⟨rfl, rfl, rfl⟩ | ⟨since', rfl, rfl⟩)
    · rfl
    · rw [← List.cons_append, List.append_assoc]

/-- Nothing has happened since an object was started. -/
theorem started_start (log : BuilderLog) (id : ObjectId) :
    Started (log ++ [(.start id, .ok .done)]) id [] := ⟨⟨log, rfl⟩, nofun⟩

/-- Other calls are made after the last start. -/
theorem started_concat (he : ∀ id, e ≠ (.start id, .ok .done)) {id : ObjectId}
    {since : BuilderLog} :
    Started (log ++ [e]) id since ↔ ∃ since', since = since' ++ [e] ∧ log.Started id since' := by
  constructor
  · rintro ⟨⟨earlier, hlog⟩, hnone⟩
    rcases concat_eq_iff.1 hlog with ⟨-, -, heq⟩ | ⟨since', rfl, hlog'⟩
    · exact absurd heq (he id)
    · refine ⟨since', rfl, ⟨earlier, hlog'⟩, ?_⟩
      intro id' hmem
      exact hnone id' (List.mem_append_left _ hmem)
  · rintro ⟨since', rfl, ⟨earlier, rfl⟩, hnone⟩
    refine ⟨⟨earlier, by rw [← List.cons_append, List.append_assoc]⟩, ?_⟩
    intro id' hmem
    rcases List.mem_append.1 hmem with hold | hnew
    · exact hnone id' hold
    · exact he id' (List.mem_singleton.1 hnew).symm

/-- Right after the start of an object no field was added. -/
theorem not_added_start {id : ObjectId} {slot : Slot} {value : Value} :
    ¬ Added (log ++ [(.start id, .ok .done)]) slot value := by
  rintro ⟨id', since, ⟨⟨earlier, hlog⟩, hnone⟩, hmem⟩
  rcases concat_eq_iff.1 hlog with ⟨rfl, -, -⟩ | ⟨since', rfl, -⟩
  · cases hmem
  · exact hnone id (List.mem_append_right _ (List.mem_singleton.2 rfl))

/-- What was added was added before, or just now. -/
theorem added_concat (he : ∀ id, e ≠ (.start id, .ok .done)) {slot : Slot} {value : Value} :
    Added (log ++ [e]) slot value ↔ log.Added slot value ∨
      (e = (.add slot value, .ok .done) ∧ ∃ id since, log.Started id since) := by
  constructor
  · rintro ⟨id, since, hstarted, hmem⟩
    obtain ⟨since', rfl, hstarted'⟩ := (started_concat he).1 hstarted
    rcases List.mem_append.1 hmem with hold | hnew
    · exact Or.inl ⟨id, since', hstarted', hold⟩
    · exact Or.inr ⟨(List.mem_singleton.1 hnew).symm, id, since', hstarted'⟩
  · rintro (⟨id, since, hstarted, hmem⟩ | ⟨rfl, id, since, hstarted⟩)
    · exact ⟨id, since ++ [e], (started_concat he).2 ⟨since, rfl, hstarted⟩,
        List.mem_append_left _ hmem⟩
    · exact ⟨id, _, (started_concat he).2 ⟨since, rfl, hstarted⟩,
        List.mem_append_right _ (List.mem_singleton.2 rfl)⟩

theorem added_concat_of_ne (he : ∀ id, e ≠ (.start id, .ok .done))
    (hadd : ∀ slot value, e ≠ (.add slot value, .ok .done)) {slot : Slot} {value : Value} :
    Added (log ++ [e]) slot value ↔ log.Added slot value := by
  rw [added_concat he]
  constructor
  · rintro (hold | ⟨heq, -⟩)
    · exact hold
    · exact absurd heq (hadd slot value)
  · exact Or.inl

/-- A reset makes every ticket stale. -/
theorem not_issued_reset {number : Nat} : ¬ Issued (log ++ [(.reset, .ok .done)]) number := by
  rintro ⟨earlier, since, hlog, hnone⟩
  rcases concat_eq_iff.1 hlog with ⟨-, -, heq⟩ | ⟨since', rfl, -⟩
  · cases heq
  · exact hnone (List.mem_append_right _ (List.mem_singleton.2 rfl))

/-- What was issued was issued before, or just now. -/
theorem issued_concat (he : e ≠ (.reset, .ok .done)) {number : Nat} :
    Issued (log ++ [e]) number ↔ log.Issued number ∨ e = (.complete, .ok (.ticket number)) := by
  constructor
  · rintro ⟨earlier, since, hlog, hnone⟩
    rcases concat_eq_iff.1 hlog with ⟨-, -, heq⟩ | ⟨since', rfl, hlog'⟩
    · exact Or.inr heq
    · exact Or.inl ⟨earlier, since', hlog', fun hmem => hnone (List.mem_append_left _ hmem)⟩
  · rintro (⟨earlier, since, rfl, hnone⟩ | rfl)
    · refine ⟨earlier, since ++ [e], by rw [← List.cons_append, List.append_assoc], ?_⟩
      intro hmem
      rcases List.mem_append.1 hmem with hold | hnew
      · exact hnone hold
      · exact he (List.mem_singleton.1 hnew).symm
    · exact ⟨log, [], rfl, nofun⟩

theorem issued_concat_of_ne (he : e ≠ (.reset, .ok .done))
    (hcomplete : ∀ number, e ≠ (.complete, .ok (.ticket number))) {number : Nat} :
    Issued (log ++ [e]) number ↔ log.Issued number := by
  rw [issued_concat he]
  constructor
  · rintro (hold | heq)
    · exact hold
    · exact absurd heq (hcomplete number)
  · exact Or.inl

end BuilderLog

namespace BuilderHistory

variable {log : BuilderLog} {h : BuilderHistory}

/-- A history accounts for a log: it has the object that was started last and what was added to it,
and it knows the tickets that were issued since the last reset. -/
structure Accounts (log : BuilderLog) (h : BuilderHistory) : Prop where
  started : h.phase ≠ .empty → ∃ since, log.Started h.started since
  added : h.phase ≠ .empty → ∀ slot value, (slot, value) ∈ h.added ↔ log.Added slot value
  issued : ∀ number, h.Fresh number ↔ log.Issued number
  tickets_le : ∀ resets ∈ h.tickets, resets ≤ h.resets

theorem accounts_new : Accounts [] new where
  started := fun hphase => absurd rfl hphase
  added := fun hphase => absurd rfl hphase
  issued := by
    intro number
    constructor
    · exact nofun
    · rintro ⟨earlier, since, hlog, -⟩
      cases earlier <;> cases hlog
  tickets_le := nofun

/-- The last start stays the last one where nothing is started. -/
theorem Accounts.started_concat (ha : Accounts log h) (hphase : h.phase ≠ .empty) {e : BuilderEvent}
    (he : ∀ id, e ≠ (.start id, .ok .done)) :
    ∃ since, BuilderLog.Started (log ++ [e]) h.started since := by
  obtain ⟨since, hsince⟩ := ha.started hphase
  exact ⟨_, (BuilderLog.started_concat he).2 ⟨since, rfl, hsince⟩⟩

/-- A call that fails, or that starts, adds, issues and resets nothing. -/
theorem Accounts.keep (ha : Accounts log h) {e : BuilderEvent} {h' : BuilderHistory}
    (he : ∀ a, e.2 = .ok a → e.1.isMark = false) (hphase : h'.phase ≠ .empty → h.phase ≠ .empty)
    (hrest : h'.started = h.started ∧ h'.added = h.added ∧ h'.resets = h.resets ∧
      h'.tickets = h.tickets) : Accounts (log ++ [e]) h' := by
  have hother : ∀ (c : BuilderCall) (a : BuilderAnswer), c.isMark = true → e ≠ (c, .ok a) := by
    rintro c a hc rfl
    rw [he a rfl] at hc
    cases hc
  have hstart : ∀ id, e ≠ (.start id, .ok .done) := fun id => hother _ _ rfl
  have hadd : ∀ slot value, e ≠ (.add slot value, .ok .done) := fun slot value => hother _ _ rfl
  have hcomplete : ∀ number, e ≠ (.complete, .ok (.ticket number)) := fun number => hother _ _ rfl
  have hreset : e ≠ (.reset, .ok .done) := hother _ _ rfl
  obtain ⟨hstarted, hadded, hresets, htickets⟩ := hrest
  refine ⟨?_, ?_, ?_, ?_⟩
  · intro hne
    rw [hstarted]
    exact ha.started_concat (hphase hne) hstart
  · intro hne slot value
    rw [hadded, ha.added (hphase hne), BuilderLog.added_concat_of_ne hstart hadd]
  · intro number
    have hissued := ha.issued number
    rw [Fresh] at hissued
    rw [Fresh, htickets, hresets, hissued, BuilderLog.issued_concat_of_ne hreset hcomplete]
  · rw [htickets, hresets]
    exact ha.tickets_le

/-- An object is started. -/
theorem Accounts.start (ha : Accounts log h) (id : ObjectId) :
    Accounts (log ++ [(.start id, .ok .done)]) (h.note (.start id, .ok .done)) where
  started := fun _ => ⟨[], BuilderLog.started_start log id⟩
  added := by
    intro _ slot value
    constructor
    · exact nofun
    · intro hadded
      exact absurd hadded BuilderLog.not_added_start
  issued := by
    intro number
    have hreset : ((.start id, .ok .done) : BuilderEvent) ≠ (.reset, .ok .done) := nofun
    rw [BuilderLog.issued_concat_of_ne hreset nofun, ← ha.issued number]
    rfl
  tickets_le := ha.tickets_le

/-- A field is added to the object that is being built. -/
theorem Accounts.add (ha : Accounts log h) (hphase : h.phase = .building) (slot : Slot)
    (value : Value) :
    Accounts (log ++ [(.add slot value, .ok .done)]) (h.note (.add slot value, .ok .done)) := by
  have hne : h.phase ≠ .empty := by
    rw [hphase]
    decide
  have hother : ∀ id, ((.add slot value, .ok .done) : BuilderEvent) ≠ (.start id, .ok .done) := nofun
  refine ⟨fun _ => ha.started_concat hne hother, ?_, ?_, ha.tickets_le⟩
  · intro _ slot' value'
    obtain ⟨since, hsince⟩ := ha.started hne
    rw [BuilderLog.added_concat hother, ← ha.added hne]
    show (slot', value') ∈ h.added ++ [(slot, value)] ↔ _
    rw [List.mem_append, List.mem_singleton]
    refine or_congr_right ?_
    constructor
    · rintro ⟨rfl, rfl⟩
      exact ⟨rfl, h.started, since, hsince⟩
    · rintro ⟨heq, -⟩
      cases heq
      rfl
  · intro number
    have hreset : ((.add slot value, .ok .done) : BuilderEvent) ≠ (.reset, .ok .done) := nofun
    rw [BuilderLog.issued_concat_of_ne hreset nofun, ← ha.issued number]
    rfl

/-- A ticket is issued for the object that is being built. -/
theorem Accounts.complete (ha : Accounts log h) (hphase : h.phase = .building) :
    Accounts (log ++ [(.complete, .ok (.ticket h.tickets.length))])
      (h.note (.complete, .ok (.ticket h.tickets.length))) := by
  have hne : h.phase ≠ .empty := by
    rw [hphase]
    decide
  have hother : ∀ id, ((.complete, .ok (.ticket h.tickets.length)) : BuilderEvent)
      ≠ (.start id, .ok .done) := nofun
  refine ⟨fun _ => ha.started_concat hne hother, ?_, ?_, ?_⟩
  · intro _ slot value
    rw [BuilderLog.added_concat_of_ne hother nofun, ← ha.added hne]
    rfl
  · intro number
    have hreset : ((.complete, .ok (.ticket h.tickets.length)) : BuilderEvent)
        ≠ (.reset, .ok .done) := nofun
    rw [BuilderLog.issued_concat hreset, ← ha.issued number]
    show (h.tickets ++ [h.resets])[number]? = some h.resets ↔ h.tickets[number]? = some h.resets ∨ _
    -- tickets are numbered in order: the new one comes behind all others
    rcases Nat.lt_trichotomy number h.tickets.length with hlt | heq | hgt
    · rw [List.getElem?_append_left hlt]
      constructor
      · exact Or.inl
      · rintro (hold | heq)
        · exact hold
        · cases heq
          exact absurd hlt (Nat.lt_irrefl _)
    · rw [heq, List.getElem?_concat_length]
      exact ⟨fun _ => Or.inr rfl, fun _ => rfl⟩
    · have hlonger : (h.tickets ++ [h.resets])[number]? = none := by
        rw [List.getElem?_eq_none_iff, List.length_append]
        exact hgt
      have hnone : h.tickets[number]? = none := List.getElem?_eq_none_iff.2 (Nat.le_of_lt hgt)
      rw [hlonger, hnone]
      constructor
      · exact nofun
      · rintro (hold | heq)
        · cases hold
        · cases heq
          exact absurd hgt (Nat.lt_irrefl _)
  · intro resets hresets
    rcases List.mem_append.1 hresets with hold | hnew
    · exact ha.tickets_le resets hold
    · rw [List.mem_singleton.1 hnew]
      exact Nat.le_refl _

/-- A reset makes the builder empty and every ticket stale. -/
theorem Accounts.reset (ha : Accounts log h) :
    Accounts (log ++ [(.reset, .ok .done)]) (h.note (.reset, .ok .done)) where
  started := fun hphase => absurd rfl hphase
  added := fun hphase => absurd rfl hphase
  issued := by
    intro number
    constructor
    · intro hfresh
      have hle := ha.tickets_le _ (List.mem_of_getElem? hfresh)
      exact absurd hle (Nat.not_succ_le_self _)
    · intro hissued
      exact absurd hissued BuilderLog.not_issued_reset
  tickets_le := fun resets hresets => Nat.le_succ_of_le (ha.tickets_le resets hresets)

/-- **The history goes on accounting for the log**, whatever is called. -/
theorem Accounts.call (ha : Accounts log h) (c : BuilderCall) :
    Accounts (log ++ [(c, h.answer c)]) (h.note (c, h.answer c)) := by
  cases hanswer : h.answer c with
  | error e =>
    refine ha.keep (fun a ha => ?_) id ⟨rfl, rfl, rfl, rfl⟩
    cases ha
  | ok a =>
    cases c with
    | start id =>
      rw [answer] at hanswer
      split at hanswer
      · cases hanswer
        exact ha.start id
      · cases hanswer
    | add slot value =>
      obtain ⟨hphase, -, rfl⟩ := not_mem_of_answer_add hanswer
      exact ha.add hphase slot value
    | complete =>
      rw [answer] at hanswer
      split at hanswer
      · rename_i hphase
        cases hanswer
        exact ha.complete hphase
      · cases hanswer
    | pack number =>
      have hended : h.phase = .ended := by
        rw [answer] at hanswer
        split at hanswer
        · split at hanswer
          · assumption
          · cases hanswer
        · cases hanswer
      have hne : h.phase ≠ .empty := by
        rw [hended]
        decide
      exact ha.keep (fun _ _ => rfl) (fun _ => hne) ⟨rfl, rfl, rfl, rfl⟩
    | reset =>
      cases hanswer
      exact ha.reset
    | _ => exact ha.keep (fun _ _ => rfl) id ⟨rfl, rfl, rfl, rfl⟩

end BuilderHistory

/-! ## The protocol -/

namespace Workbench

/-- **A run of a new workbench** leads to the workbench of its history. -/
theorem run_new {cs : List BuilderCall} (hresets : cs.count .reset < 2 ^ 64) :
    (new.run cs).2 = (BuilderHistory.of (new.events cs)).workbench ∧
      (BuilderHistory.of (new.events cs)).Sound ∧
      BuilderHistory.Accounts (new.events cs) (.of (new.events cs)) ∧
      (BuilderHistory.of (new.events cs)).resets = cs.count .reset := by
  induction cs using List.reverseRecOn with
  | nil => exact ⟨rfl, BuilderHistory.sound_new, BuilderHistory.accounts_new, rfl⟩
  | append_singleton cs c ih =>
    rw [List.count_append] at hresets
    obtain ⟨hworkbench, hsound, haccounts, hcount⟩ := ih (by omega)
    have hcall := BuilderHistory.call_workbench hsound c
    rw [events_concat, BuilderHistory.of_concat, hworkbench, hcall, run_append]
    have hnext : ((BuilderHistory.of (new.events cs)).note
        (c, (BuilderHistory.of (new.events cs)).answer c)).resets = (cs ++ [c]).count .reset := by
      rw [BuilderHistory.resets_note, hcount, List.count_append]
    refine ⟨?_, hsound.note c ?_, haccounts.call c, hnext⟩
    · rw [hworkbench, run_cons, hcall]
      rfl
    · rw [hnext, List.count_append]
      exact hresets

end Workbench

/-- The answer to a call on a builder, where these calls were made before. -/
structure BuilderLog.Answers (log : BuilderLog) (c : BuilderCall)
    (answer : Except ObjectError BuilderAnswer) : Prop where
  /-- It is the answer of the automaton. -/
  automaton : answer = (BuilderHistory.of log).answer c
  /-- A slot is a duplicate if it was added since the object that is being built was started. -/
  duplicate : ∀ slot value, c = .add slot value →
    (answer = .error (.duplicateSlot slot) ↔
      (BuilderHistory.of log).phase = .building ∧ ∃ value', log.Added slot value')
  /-- A ticket is good for the object that was ended if it was issued since the last reset. -/
  pack : ∀ number, c = .pack number →
    (answer = .ok .done ↔ (BuilderHistory.of log).phase = .ended ∧ log.Issued number)
  /-- The bytes are the encoding of the object that was started last, with the fields that were added
  since. -/
  bytes : ∀ bs, c = .packedBytes → answer = .ok (.bytes bs) →
    ∃ object : Object, bs = object.encode ∧ (∃ since, log.Started object.id since) ∧
      ∀ slot value, object.fields.get? slot = some value ↔ log.Added slot value

/-- The answers of the automaton are as it is said, if the history accounts for the log. -/
theorem BuilderLog.answers_of {log : BuilderLog} (hs : (BuilderHistory.of log).Sound)
    (ha : BuilderHistory.Accounts log (.of log)) (c : BuilderCall) :
    log.Answers c ((BuilderHistory.of log).answer c) := by
  refine ⟨rfl, ?_, ?_, ?_⟩
  · -- a field is refused for its slot exactly if the slot was filled before
    rintro slot value rfl
    constructor
    · intro hanswer
      rw [BuilderHistory.answer] at hanswer
      split at hanswer
      · rename_i hphase
        split at hanswer
        · rename_i hslot
          obtain ⟨⟨_, value'⟩, hadded, rfl⟩ := List.mem_map.1 hslot
          have hne : (BuilderHistory.of log).phase ≠ .empty := by
            rw [hphase]
            decide
          exact ⟨hphase, value', (ha.added hne _ _).1 hadded⟩
        · cases hanswer
      · cases hanswer
    · rintro ⟨hphase, value', hadded⟩
      have hne : (BuilderHistory.of log).phase ≠ .empty := by
        rw [hphase]
        decide
      have hslot : slot ∈ (BuilderHistory.of log).added.map Prod.fst :=
        List.mem_map_of_mem ((ha.added hne slot value').2 hadded)
      rw [BuilderHistory.answer, if_pos hphase, if_pos hslot]
  · -- a ticket is taken exactly if it is one of the object that is complete
    rintro number rfl
    rw [← ha.issued number]
    constructor
    · intro hanswer
      rw [BuilderHistory.answer] at hanswer
      split at hanswer
      · rename_i hfresh
        split at hanswer
        · rename_i hphase
          exact ⟨hphase, hfresh⟩
        · cases hanswer
      · cases hanswer
    · rintro ⟨hphase, hfresh⟩
      rw [BuilderHistory.answer, if_pos hfresh, if_pos hphase]
  · rintro bs rfl hanswer
    rw [BuilderHistory.answer] at hanswer
    split at hanswer
    · rename_i hphase
      cases hanswer
      have hne : (BuilderHistory.of log).phase ≠ .empty := by
        rw [hphase]
        decide
      refine ⟨(BuilderHistory.of log).object, rfl, ha.started hne, ?_⟩
      intro slot value
      rw [← ha.added hne slot value]
      exact SortedMap.get?_ofList hs.slots
    · cases hanswer

/-- **A builder keeps its protocol**: in every run of calls on a new builder with fewer resets than
there are generations, every call is answered by the automaton, and without the calls that fail the
others are answered as before. -/
theorem builder_keeps_protocol {cs : List BuilderCall} (hresets : cs.count .reset < 2 ^ 64) :
    (∀ before c after, cs = before ++ c :: after →
      ∃ answer, (Workbench.new.run cs).1[before.length]? = some answer ∧
        BuilderLog.Answers (Workbench.new.events before) c answer) ∧
    Workbench.new.run (Workbench.new.succeeding cs)
      = ((Workbench.new.run cs).1.filter Except.isOk, (Workbench.new.run cs).2) := by
  refine ⟨?_, Workbench.run_succeeding _ cs⟩
  rintro before c after rfl
  have hbefore : before.count .reset < 2 ^ 64 := by
    rw [List.count_append] at hresets
    omega
  obtain ⟨hworkbench, hsound, haccounts, -⟩ := Workbench.run_new hbefore
  refine ⟨_, ?_, BuilderLog.answers_of hsound haccounts c⟩
  have hplace : before.length = (Workbench.new.run before).1.length :=
    (Workbench.length_run _ before).symm
  rw [Workbench.run_append, Workbench.run_cons, hworkbench,
    BuilderHistory.call_workbench hsound c, hplace, List.getElem?_append_right (Nat.le_refl _),
    Nat.sub_self]
  rfl

/-- A ticket is kept over a reset and presented for the next object, which then is packed with its
own; a slot is filled twice, and an object is started before the one in progress is done. -/
def misusedBuilder : List BuilderCall :=
  [.start 7, .add 2 (.int 5), .start 8, .complete, .reset, .start 9, .add 2 .null, .add 2 (.int 6),
    .complete, .pack 0, .pack 1, .packedBytes]

/-- The ticket from before the reset is refused although the object is ended, and the bytes are those
of the second object. -/
theorem builder_keeps_protocol_misusedBuilder :
    misusedBuilder.count .reset < 2 ^ 64 ∧
      (Workbench.new.run misusedBuilder).1[9]? = some (.error (.invalidState .staleTicket)) ∧
      ¬ BuilderLog.Issued (Workbench.new.events (misusedBuilder.take 9)) 0 ∧
      ∃ object : Object, (Workbench.new.run misusedBuilder).1[11]? = some (.ok (.bytes object.encode)) ∧
        ∀ slot value, object.fields.get? slot = some value ↔
          BuilderLog.Added (Workbench.new.events (misusedBuilder.take 11)) slot value := by
  have hresets : misusedBuilder.count .reset < 2 ^ 64 := by decide
  obtain ⟨hanswers, -⟩ := builder_keeps_protocol hresets
  have hstale : (Workbench.new.run misusedBuilder).1[9]? = some (.error (.invalidState .staleTicket)) :=
    rfl
  refine ⟨hresets, hstale, ?_, ?_⟩
  · obtain ⟨answer, hanswer, hprotocol⟩ := hanswers (misusedBuilder.take 9) (.pack 0) _ rfl
    intro hissued
    have hdone := (hprotocol.pack 0 rfl).2 ⟨rfl, hissued⟩
    rw [hdone] at hanswer
    cases hstale.symm.trans hanswer
  · obtain ⟨answer, hanswer, hprotocol⟩ := hanswers (misusedBuilder.take 11) .packedBytes _ rfl
    obtain ⟨bs, hbs⟩ : ∃ bs, (Workbench.new.run misusedBuilder).1[11]? = some (.ok (.bytes bs)) :=
      ⟨_, rfl⟩
    obtain rfl : answer = .ok (.bytes bs) := Option.some.inj (hanswer.symm.trans hbs)
    obtain ⟨object, rfl, -, hfields⟩ := hprotocol.bytes bs rfl rfl
    exact ⟨object, hbs, hfields⟩

end ObjectStore
