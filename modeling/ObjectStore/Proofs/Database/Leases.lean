import Mathlib
import ObjectStore.Proofs.Database.Generations
import ObjectStore.Proofs.Object.OwnObject

/-!
# Leases of one builder

A lender has one builder, and any number of callers acquire leases of it, make calls through them
and drop them, in whatever order.  A shared loan is no copy: whoever holds it works on the lender's
builder in its place, where everybody else who held one would find it.  Dropping a lease takes two
steps, for the builder is reset first and free only then, and others may come in between.

A `Lending` is a lender with all leases that were acquired so far, and `Lending.step` is one step of
one caller.  `Lending.Exclusive` is what every step keeps: at most one lease has the lender's
builder, which counts as lent while there is such a lease and is idle whenever it can be lent.  So
what is behind a lease is what the calls made through it have left there.

A ticket may be shown to another builder than the one that issued it, and its generation is all that
counts then.  Hence a lease that was told of tickets from elsewhere is answered as a new builder
answers that is shown these tickets with their generations moved by some number.

Main statement: `leases_are_exclusive`.
-/

namespace ObjectStore

/-! ## Leases -/

/-- How far a lease is. -/
inductive LeasePhase
  /-- Calls are made through it. -/
  | held
  /-- It is being dropped: the builder was put back in its place, but is not free yet. -/
  | returned
  /-- It was dropped. -/
  | over
  deriving DecidableEq

/-- A loan in use. -/
structure Lease where
  /-- The loan, with the builder as the calls made through this lease have left it. -/
  loan : Loan
  /-- Tickets from elsewhere that the caller knows. -/
  brought : List Ticket
  /-- The tickets that calls can name: those from elsewhere, and those issued since. -/
  tickets : List Ticket
  /-- The calls made through the lease. -/
  log : BuilderLog
  phase : LeasePhase

/-- The number of a lease, in the order in which they were acquired. -/
abbrev LeaseNumber := Nat

/-- A step of some caller. -/
inductive LeaseEvent
  /-- A lease is acquired by a caller who knows these tickets from elsewhere. -/
  | acquire (tickets : List Ticket)
  | call (n : LeaseNumber) (c : BuilderCall)
  /-- The first half of dropping a lease: the builder is put back, reset. -/
  | putBack (n : LeaseNumber)
  /-- The second half: the builder is free again. -/
  | free (n : LeaseNumber)

/-- A lender with the leases that were acquired so far. -/
structure Lending where
  lender : Lender
  leases : List Lease

/-- Whether the loan is the builder of the lender. -/
def Loan.isShared : Loan → Bool
  | shared _ => true
  | spare _ => false

/-- The builder behind a loan as it is now.  A shared loan stands for the one of the lender. -/
def Lender.behind (l : Lender) : Loan → Builder
  | .shared _ => l.builder
  | .spare builder => builder

/-- The lender after work on the builder behind a loan. -/
def Lender.afterWork (l : Lender) : Loan → Builder → Lender
  | .shared _, builder => { l with builder := builder }
  | .spare _, _ => l

namespace Lease

/-- A lease that was just acquired. -/
def ofLoan (loan : Loan) (tickets : List Ticket) : Lease := ⟨loan, tickets, tickets, [], .held⟩

/-- The calls made through a lease. -/
def calls (lease : Lease) : List BuilderCall := lease.log.map Prod.fst

/-- The lease has the builder of the lender, from its acquisition until it was dropped. -/
def Shares (lease : Lease) : Prop := lease.loan.isShared = true ∧ lease.phase ≠ .over

/-- A builder, with the tickets that the caller knew from the start. -/
def start (lease : Lease) (b : Builder) : Workbench := ⟨b, lease.brought⟩

/-- The builder behind a lease as it is now, with the tickets that can be named. -/
def bench (l : Lender) (lease : Lease) : Workbench := ⟨l.behind lease.loan, lease.tickets⟩

/-- A call is made through a lease. -/
def call (c : BuilderCall) (l : Lender) (lease : Lease) : Lender × Lease :=
  let (answer, w) := (lease.bench l).call c
  (l.afterWork lease.loan w.builder,
    { lease with
      loan := lease.loan.withBuilder w.builder
      tickets := w.tickets
      log := lease.log ++ [(c, answer)] })

/-- The builder that is behind a lease now is put back. -/
def putBack (l : Lender) (lease : Lease) : Lender × Lease :=
  (l.putBack (lease.loan.withBuilder (l.behind lease.loan)), { lease with phase := .returned })

/-- The builder is free again. -/
def free (l : Lender) (lease : Lease) : Lender × Lease :=
  (l.free lease.loan, { lease with phase := .over })

end Lease

namespace Lending

/-- Nothing was lent yet. -/
def new : Lending := ⟨.new, []⟩

/-- A step through a lease that is in this phase; without such a lease nothing happens. -/
def through (x : Lending) (n : LeaseNumber) (phase : LeasePhase)
    (f : Lender → Lease → Lender × Lease) : Lending :=
  match x.leases[n]? with
  | some lease =>
    if lease.phase = phase then ⟨(f x.lender lease).1, x.leases.set n (f x.lender lease).2⟩ else x
  | none => x

/-- One step of one caller.  A step that cannot be made, such as a call through a lease that is
over, changes nothing. -/
def step (x : Lending) : LeaseEvent → Lending
  | .acquire tickets =>
    let (loan, lender) := x.lender.lend
    ⟨lender, x.leases ++ [.ofLoan loan tickets]⟩
  | .call n c => x.through n .held (Lease.call c)
  | .putBack n => x.through n .held Lease.putBack
  | .free n => x.through n .returned Lease.free

/-- Steps of any callers, one after the other in the order in which they happen. -/
def run (x : Lending) (events : List LeaseEvent) : Lending := events.foldl step x

/-- The lease with this number has the builder of the lender. -/
def Shares (x : Lending) (n : LeaseNumber) : Prop :=
  ∃ lease, x.leases[n]? = some lease ∧ lease.Shares

end Lending

/-! ## What is behind a lease -/

theorem Loan.isShared_withBuilder (loan : Loan) (b : Builder) :
    (loan.withBuilder b).isShared = loan.isShared := by
  cases loan <;> rfl

theorem Loan.builder_withBuilder (loan : Loan) (b : Builder) :
    (loan.withBuilder b).builder = b := by
  cases loan <;> rfl

theorem Loan.withBuilder_builder (loan : Loan) : loan.withBuilder loan.builder = loan := by
  cases loan <;> rfl

theorem Lender.behind_of_not_isShared {loan : Loan} (h : loan.isShared = false) (l : Lender) :
    l.behind loan = loan.builder := by
  cases loan with
  | shared b => cases h
  | spare b => rfl

theorem Lender.afterWork_of_not_isShared {loan : Loan} (h : loan.isShared = false) (l : Lender)
    (b : Builder) : l.afterWork loan b = l := by
  cases loan with
  | shared b => cases h
  | spare b => rfl

/-- What was worked on is what is there. -/
theorem Lender.behind_afterWork (l : Lender) (loan : Loan) (b : Builder) :
    (l.afterWork loan b).behind (loan.withBuilder b) = b := by
  cases loan <;> rfl

/-- Work on a builder does not make it free. -/
theorem Lender.isLent_afterWork (l : Lender) (loan : Loan) (b : Builder) :
    (l.afterWork loan b).isLent = l.isLent := by
  cases loan <;> rfl

namespace Lease

variable {l : Lender} {lease : Lease}

theorem not_isShared (hshares : ¬ lease.Shares) (hheld : lease.phase = .held) :
    lease.loan.isShared = false := by
  refine Bool.eq_false_iff.2 fun hshared => hshares ⟨hshared, ?_⟩
  rw [hheld]
  decide

/-- The builder was idle at first, and is as the calls made through the lease have left it. -/
def Faithful (lease : Lease) : Prop :=
  ∃ b : Builder, b.isIdle = true ∧ lease.log = (lease.start b).events lease.calls ∧
    ((lease.start b).run lease.calls).2 = ⟨lease.loan.builder, lease.tickets⟩

/-- A call comes after the earlier ones, if it is made on the builder as they have left it. -/
theorem Faithful.call (h : lease.Faithful) (hbehind : l.behind lease.loan = lease.loan.builder)
    (c : BuilderCall) : (lease.call c l).2.Faithful := by
  obtain ⟨b, hidle, hlog, hrun⟩ := h
  have hbench : ((lease.start b).run lease.calls).2 = lease.bench l := by
    rw [hrun, bench, hbehind]
  have hstart : (lease.call c l).2.start b = lease.start b := rfl
  have hcalls : (lease.call c l).2.calls = lease.calls ++ [c] := List.map_append
  refine ⟨b, hidle, ?_, ?_⟩
  · rw [hstart, hcalls, Workbench.events_concat, ← hlog, hbench]
    rfl
  · rw [hstart, hcalls, Workbench.run_append, hbench]
    show ((lease.bench l).call c).2 = ⟨(lease.loan.withBuilder _).builder, _⟩
    rw [Loan.builder_withBuilder]
    rfl

/-- A lease fits its lender: what is behind it is as its calls have left it, and idle once it was
put back. -/
structure Fits (l : Lender) (lease : Lease) : Prop where
  faithful : lease.Faithful
  held : lease.phase = .held → l.behind lease.loan = lease.loan.builder
  returned : lease.phase = .returned → lease.Shares → l.builder.isIdle = true

/-- A new lease of an idle builder fits. -/
theorem fits_ofLoan {loan : Loan} (hidle : loan.builder.isIdle = true)
    (hbehind : l.behind loan = loan.builder) (tickets : List Ticket) :
    (ofLoan loan tickets).Fits l where
  faithful := ⟨loan.builder, hidle, rfl, rfl⟩
  held := fun _ => hbehind
  returned := nofun

/-- A lease that does not have the builder of the lender fits whatever happens to that. -/
theorem Fits.of_not_shares (h : lease.Fits l) (hshares : ¬ lease.Shares) (l' : Lender) :
    lease.Fits l' where
  faithful := h.faithful
  held := fun hheld => Lender.behind_of_not_isShared (not_isShared hshares hheld) l'
  returned := fun _ h => absurd h hshares

/-- What a step through a lease may do to the lender and to the lease. -/
structure Follows (l : Lender) (lease : Lease) (r : Lender × Lease) : Prop where
  /-- The builder of the lender is not gotten later. -/
  shares : r.2.Shares → lease.Shares
  /-- Who does not have it leaves the lender alone. -/
  aside : ¬ lease.Shares → r.1 = l
  /-- Who has it keeps it lent until the lease is over. -/
  lent : lease.Shares → (r.1.isLent = true ↔ r.2.Shares)
  idle : lease.Shares → r.1.isLent = false → r.1.builder.isIdle = true
  fits : r.2.Fits r.1

/-- A call works on the builder as the earlier calls have left it, and keeps it lent. -/
theorem follows_call (hfits : lease.Fits l) (hlent : lease.Shares → l.isLent = true)
    (hheld : lease.phase = .held) (c : BuilderCall) : lease.Follows l (lease.call c l) := by
  have hshares : (lease.call c l).2.Shares ↔ lease.Shares := by
    show (lease.loan.withBuilder _).isShared = true ∧ lease.phase ≠ .over ↔ lease.Shares
    rw [Loan.isShared_withBuilder, Shares]
  have hstill : (lease.call c l).1.isLent = l.isLent := Lender.isLent_afterWork l lease.loan _
  refine ⟨hshares.1, ?_, ?_, ?_, hfits.faithful.call (hfits.held hheld) c, ?_, ?_⟩
  · intro hspare
    exact Lender.afterWork_of_not_isShared (not_isShared hspare hheld) l _
  · intro h
    rw [hstill, hshares]
    exact iff_of_true (hlent h) h
  · intro h hfree
    rw [hstill, hlent h] at hfree
    cases hfree
  · intro _
    show (l.afterWork lease.loan _).behind (lease.loan.withBuilder _)
      = (lease.loan.withBuilder _).builder
    rw [Lender.behind_afterWork, Loan.builder_withBuilder]
  · intro hreturned
    cases hheld.symm.trans hreturned

/-- A builder that is put back is idle, and still lent. -/
theorem follows_putBack (hfits : lease.Fits l) (hlent : lease.Shares → l.isLent = true)
    (hheld : lease.phase = .held) : lease.Follows l (lease.putBack l) := by
  obtain ⟨loan, brought, tickets, log, phase⟩ := lease
  obtain rfl : phase = .held := hheld
  have hfaithful := hfits.faithful
  cases loan with
  | shared b =>
    -- the lease has the builder until it is free, though nobody calls it any more
    have hshares : Lease.Shares ⟨.shared b, brought, tickets, log, .held⟩ := ⟨rfl, nofun⟩
    have hshares' : Lease.Shares ⟨.shared b, brought, tickets, log, .returned⟩ := ⟨rfl, nofun⟩
    exact ⟨fun _ => hshares, absurd hshares, fun _ => iff_of_true (hlent hshares) hshares',
      fun _ _ => rfl, hfaithful, nofun, fun _ _ => rfl⟩
  | spare b => exact ⟨nofun, fun _ => rfl, nofun, nofun, hfaithful, nofun, nofun⟩

/-- A builder is free only after it was put back. -/
theorem follows_free (hfits : lease.Fits l) (hreturned : lease.phase = .returned) :
    lease.Follows l (lease.free l) := by
  obtain ⟨loan, brought, tickets, log, phase⟩ := lease
  obtain rfl : phase = .returned := hreturned
  have hfaithful := hfits.faithful
  cases loan with
  | shared b =>
    have hshares : Lease.Shares ⟨.shared b, brought, tickets, log, .returned⟩ := ⟨rfl, nofun⟩
    have hover : ¬ Lease.Shares ⟨.shared b, brought, tickets, log, .over⟩ := fun h => h.2 rfl
    exact ⟨fun _ => hshares, absurd hshares, fun _ => iff_of_false nofun hover,
      fun _ _ => hfits.returned rfl hshares, hfaithful, nofun, nofun⟩
  | spare b => exact ⟨nofun, fun _ => rfl, nofun, nofun, hfaithful, nofun, nofun⟩

end Lease

/-! ## Any number of callers -/

namespace Lending

variable {x : Lending}

/-- **What every step keeps**: one lease at most has the builder of the lender, which counts as lent
while there is one and is idle otherwise; and every lease fits. -/
structure Exclusive (x : Lending) : Prop where
  unique : ∀ {m n : LeaseNumber}, x.Shares m → x.Shares n → m = n
  lent : x.lender.isLent = true ↔ ∃ n, x.Shares n
  idle : x.lender.isLent = false → x.lender.builder.isIdle = true
  fits : ∀ {n : LeaseNumber} {lease : Lease}, x.leases[n]? = some lease → lease.Fits x.lender

/-- Nobody has the builder at first. -/
theorem exclusive_new : Exclusive .new where
  unique := by
    rintro m n ⟨lease, hlease, -⟩
    cases hlease
  lent := by
    constructor
    · exact nofun
    · rintro ⟨n, lease, hlease, -⟩
      cases hlease
  idle := fun _ => rfl
  fits := nofun

/-! ### Who has the builder -/

variable {l : Lender} {lease lease' other : Lease} {m n : LeaseNumber}

theorem getElem?_concat : (x.leases ++ [lease])[m]? = some other ↔
    x.leases[m]? = some other ∨ (m = x.leases.length ∧ lease = other) := by
  grind

theorem getElem?_set (hlease : x.leases[n]? = some lease) :
    (x.leases.set n lease')[m]? = some other ↔
      (m = n ∧ lease' = other) ∨ (m ≠ n ∧ x.leases[m]? = some other) := by
  grind

theorem shares_concat :
    Shares ⟨l, x.leases ++ [lease]⟩ m ↔ x.Shares m ∨ (m = x.leases.length ∧ lease.Shares) := by
  simp only [Shares, getElem?_concat, or_and_right, exists_or, and_assoc, exists_and_left,
    exists_eq_left']

theorem shares_set (hlease : x.leases[n]? = some lease) :
    Shares ⟨l, x.leases.set n lease'⟩ m ↔ (m = n ∧ lease'.Shares) ∨ (m ≠ n ∧ x.Shares m) := by
  simp only [Shares, getElem?_set hlease, or_and_right, exists_or, and_assoc, exists_and_left,
    exists_eq_left']

theorem through_of_phase {phase : LeasePhase} {f : Lender → Lease → Lender × Lease}
    (hlease : x.leases[n]? = some lease) (hphase : lease.phase = phase) :
    x.through n phase f = ⟨(f x.lender lease).1, x.leases.set n (f x.lender lease).2⟩ := by
  unfold through
  rw [hlease]
  exact if_pos hphase

namespace Exclusive

/-- Who acquires a lease gets an idle builder. -/
theorem isIdle_lend (h : x.Exclusive) : x.lender.lend.1.builder.isIdle = true := by
  unfold Lender.lend
  cases hlent : x.lender.isLent with
  | true => rfl
  | false => exact h.idle hlent

/-- While somebody has the builder of the lender, a new lease is one of a spare builder. -/
theorem acquire_of_lent (h : x.Exclusive) (tickets : List Ticket) :
    Exclusive ⟨x.lender, x.leases ++ [.ofLoan (.spare .new) tickets]⟩ := by
  have hspare : ¬ (Lease.ofLoan (.spare .new) tickets).Shares := nofun
  have hsame : ∀ m, x.Shares m ↔
      Shares ⟨x.lender, x.leases ++ [.ofLoan (.spare .new) tickets]⟩ m := fun m =>
    (shares_concat.trans (or_iff_left fun hnew => hspare hnew.2)).symm
  refine ⟨fun hm hn => h.unique ((hsame _).2 hm) ((hsame _).2 hn),
    h.lent.trans (exists_congr hsame), h.idle, ?_⟩
  intro n lease hlease
  rcases getElem?_concat.1 hlease with hold | ⟨-, rfl⟩
  · exact h.fits hold
  · exact Lease.fits_ofLoan rfl rfl tickets

/-- While nobody has the builder of the lender, a new lease is the only one to get it. -/
theorem acquire_of_free (h : x.Exclusive) (hfree : x.lender.isLent = false)
    (tickets : List Ticket) :
    Exclusive ⟨{ x.lender with isLent := true },
      x.leases ++ [.ofLoan (.shared x.lender.builder) tickets]⟩ := by
  -- leases that are over or spare may be there, but none with the builder
  have hnobody : ∀ m, ¬ x.Shares m := by
    intro m hm
    rw [h.lent.2 ⟨m, hm⟩] at hfree
    cases hfree
  have hnew : (Lease.ofLoan (.shared x.lender.builder) tickets).Shares := ⟨rfl, nofun⟩
  have honly : ∀ {m}, Shares ⟨{ x.lender with isLent := true },
      x.leases ++ [.ofLoan (.shared x.lender.builder) tickets]⟩ m → m = x.leases.length :=
    fun hm => ((shares_concat.1 hm).resolve_left (hnobody _)).1
  refine ⟨fun hm hn => (honly hm).trans (honly hn).symm, ?_, nofun, ?_⟩
  · exact iff_of_true rfl ⟨_, shares_concat.2 (Or.inr ⟨rfl, hnew⟩)⟩
  · intro n lease hlease
    rcases getElem?_concat.1 hlease with hold | ⟨-, rfl⟩
    · exact (h.fits hold).of_not_shares (fun hshares => hnobody n ⟨lease, hold, hshares⟩) _
    · have hidle : (Loan.shared x.lender.builder).builder.isIdle = true := h.idle hfree
      have hbehind : Lender.behind { x.lender with isLent := true } (.shared x.lender.builder)
          = x.lender.builder := rfl
      exact Lease.fits_ofLoan hidle hbehind tickets

theorem acquire (h : x.Exclusive) (tickets : List Ticket) :
    (x.step (.acquire tickets)).Exclusive := by
  unfold Lending.step Lender.lend
  cases hlent : x.lender.isLent with
  | true => exact h.acquire_of_lent tickets
  | false => exact h.acquire_of_free hlent tickets

/-- A step through a lease gives the builder of the lender to nobody, so who had it alone still
does. -/
theorem shares_of_follows (hlease : x.leases[n]? = some lease)
    (hfollows : lease.Follows x.lender (l, lease'))
    (hm : Shares ⟨l, x.leases.set n lease'⟩ m) : x.Shares m := by
  rcases (shares_set hlease).1 hm with ⟨rfl, hnew⟩ | ⟨-, hold⟩
  · exact ⟨lease, hlease, hfollows.shares hnew⟩
  · exact hold

/-- A step through the lease that has the builder of the lender: the others do not have it. -/
theorem follow_of_shares (h : x.Exclusive) (hlease : x.leases[n]? = some lease)
    (hfollows : lease.Follows x.lender (l, lease')) (hshares : lease.Shares) :
    Exclusive ⟨l, x.leases.set n lease'⟩ := by
  have hothers : ∀ m, m ≠ n → ¬ x.Shares m :=
    fun m hne hm => hne (h.unique hm ⟨lease, hlease, hshares⟩)
  -- somebody has the builder afterwards only if this lease still does
  have hstill : lease'.Shares ↔ ∃ m, Shares ⟨l, x.leases.set n lease'⟩ m := by
    constructor
    · intro hnew
      exact ⟨n, (shares_set hlease).2 (Or.inl ⟨rfl, hnew⟩)⟩
    · rintro ⟨m, hm⟩
      rcases (shares_set hlease).1 hm with ⟨-, hnew⟩ | ⟨hne, hold⟩
      · exact hnew
      · exact absurd hold (hothers m hne)
  refine ⟨fun hm hk => h.unique (shares_of_follows hlease hfollows hm)
      (shares_of_follows hlease hfollows hk),
    (hfollows.lent hshares).trans hstill, hfollows.idle hshares, ?_⟩
  intro m other hother
  rcases (getElem?_set hlease).1 hother with ⟨-, rfl⟩ | ⟨hne, hold⟩
  · exact hfollows.fits
  · exact (h.fits hold).of_not_shares (fun ho => hothers m hne ⟨other, hold, ho⟩) l

/-- A step through any other lease: nothing happens to the builder of the lender. -/
theorem follow_aside (h : x.Exclusive) (hlease : x.leases[n]? = some lease)
    (hfollows : lease.Follows x.lender (l, lease')) (hspare : ¬ lease.Shares) :
    Exclusive ⟨l, x.leases.set n lease'⟩ := by
  obtain rfl : l = x.lender := hfollows.aside hspare
  have hsame : ∀ m, x.Shares m ↔ Shares ⟨x.lender, x.leases.set n lease'⟩ m := by
    intro m
    refine ⟨fun hm => (shares_set hlease).2 (Or.inr ⟨?_, hm⟩), shares_of_follows hlease hfollows⟩
    rintro rfl
    obtain ⟨_, hget, hold⟩ := hm
    cases hlease.symm.trans hget
    exact hspare hold
  refine ⟨fun hm hk => h.unique ((hsame _).2 hm) ((hsame _).2 hk),
    h.lent.trans (exists_congr hsame), h.idle, ?_⟩
  intro m other hother
  rcases (getElem?_set hlease).1 hother with ⟨-, rfl⟩ | ⟨-, hold⟩
  · exact hfollows.fits
  · exact h.fits hold

/-- **What follows through one lease** leaves the others as they are: if it has the builder of the
lender, they do not, and if not, nothing happens to that builder. -/
theorem follow (h : x.Exclusive) (hlease : x.leases[n]? = some lease) {r : Lender × Lease}
    (hfollows : lease.Follows x.lender r) : Exclusive ⟨r.1, x.leases.set n r.2⟩ := by
  by_cases hshares : lease.Shares
  · exact h.follow_of_shares hlease hfollows hshares
  · exact h.follow_aside hlease hfollows hshares

theorem through (h : x.Exclusive) (n : LeaseNumber) (phase : LeasePhase)
    {f : Lender → Lease → Lender × Lease}
    (hf : ∀ {lease : Lease}, lease.Fits x.lender → (lease.Shares → x.lender.isLent = true) →
      lease.phase = phase → lease.Follows x.lender (f x.lender lease)) :
    (x.through n phase f).Exclusive := by
  unfold Lending.through
  cases hlease : x.leases[n]? with
  | none => exact h
  | some lease =>
    dsimp only
    split
    · rename_i hphase
      have hlent : lease.Shares → x.lender.isLent = true :=
        fun hshares => h.lent.2 ⟨n, lease, hlease, hshares⟩
      exact h.follow hlease (hf (h.fits hlease) hlent hphase)
    · exact h

/-- **A step keeps the invariant**, whoever makes it. -/
theorem step (h : x.Exclusive) (e : LeaseEvent) : (x.step e).Exclusive := by
  cases e with
  | acquire tickets => exact h.acquire tickets
  | call n c =>
    exact h.through n .held fun hfits hlent hheld => Lease.follows_call hfits hlent hheld c
  | putBack n => exact h.through n .held Lease.follows_putBack
  | free n => exact h.through n .returned fun hfits _ => Lease.follows_free hfits

/-- **Any steps of any callers keep it**, by induction on the steps. -/
theorem run (h : x.Exclusive) (events : List LeaseEvent) : (x.run events).Exclusive := by
  induction events generalizing x with
  | nil => exact h
  | cons e events ih => exact ih (h.step e)

end Exclusive

/-- A lease that is dropped without anybody coming in between is taken back at once. -/
theorem lender_dropped (h : x.Exclusive) (hlease : x.leases[n]? = some lease)
    (hheld : lease.phase = .held) :
    ((x.step (.putBack n)).step (.free n)).lender = x.lender.takeBack lease.loan := by
  -- what is put back is the builder that the loan carries
  have hbehind : lease.loan.withBuilder (x.lender.behind lease.loan) = lease.loan := by
    rw [(h.fits hlease).held hheld, Loan.withBuilder_builder]
  let returned : Lease := { lease with phase := .returned }
  have hput : x.step (.putBack n) = ⟨x.lender.putBack lease.loan, x.leases.set n returned⟩ := by
    rw [step, through_of_phase hlease hheld, Lease.putBack, hbehind]
  have hget : (x.leases.set n returned)[n]? = some returned :=
    (getElem?_set hlease).2 (Or.inl ⟨rfl, rfl⟩)
  have hreturned : returned.phase = .returned := rfl
  rw [hput, step, through_of_phase hget hreturned]
  rfl

end Lending

/-! ## The main theorem -/

namespace Workbench

theorem run_shift (k : UInt64) (w : Workbench) (cs : List BuilderCall) :
    (w.shift k).run cs = ((w.run cs).1, (w.run cs).2.shift k) := by
  induction cs generalizing w with
  | nil => rfl
  | cons c cs ih =>
    rw [run_cons, run_cons, call_shift, ih]

theorem events_shift (k : UInt64) (w : Workbench) (cs : List BuilderCall) :
    (w.shift k).events cs = w.events cs := by
  rw [events, run_shift]
  rfl

/-- A builder that is idle answers like a new one, tickets from elsewhere being moved with it. -/
theorem events_of_isIdle {b : Builder} (hidle : b.isIdle = true) (tickets : List Ticket) :
    ∃ k, ∀ cs, (mk b tickets).events cs = (mk .new (tickets.map (Ticket.shift k))).events cs := by
  obtain ⟨k, rfl⟩ : ∃ k, b = Builder.new.shift k := by
    apply Builder.eq_shift
    obtain ⟨state, generation⟩ := b
    cases state with
    | idle => rfl
    | _ => cases hidle
  -- moving the tickets the other way first makes up for moving all of it
  have htickets : (tickets.map (Ticket.shift (-k))).map (Ticket.shift k) = tickets := by
    rw [List.map_map]
    refine List.map_id'' (fun t => ?_) tickets
    exact congrArg Ticket.mk (neg_add_cancel_right t.generation k)
  refine ⟨-k, fun cs => ?_⟩
  rw [← events_shift k (mk .new _), shift, htickets]

end Workbench

/-- **Leases are exclusive.**  Let any number of callers acquire leases of one builder, make any
calls through them and drop them, one step coming after the other in any order, where dropping a
lease takes two steps.  At every moment

* at most one lease has the lender's builder, which counts as lent exactly from the acquisition of
  such a lease until that was dropped;
* whoever acquires a lease next gets an idle builder;
* the calls made through a lease were answered as a new builder answers them, to which tickets from
  elsewhere, if there are any, are shown with their generations moved by some number;
* all bytes that a lease yielded are those of the object that was started last by calls made through
  it, with the fields that these have added since, whatever tickets there are;
* the builder behind a lease that is held is as the calls made through it have left it. -/
theorem leases_are_exclusive (events : List LeaseEvent) :
    let x := Lending.new.run events
    (∀ m n, x.Shares m → x.Shares n → m = n) ∧ (x.lender.isLent = true ↔ ∃ n, x.Shares n) ∧
      x.lender.lend.1.builder.isIdle = true ∧
      ∀ (n : LeaseNumber) (lease : Lease), x.leases[n]? = some lease →
        (∃ k, lease.log
          = (Workbench.mk .new (lease.brought.map (Ticket.shift k))).events lease.calls) ∧
        lease.log.PacksOwn ∧
        (lease.phase = .held → x.lender.behind lease.loan = lease.loan.builder) := by
  intro x
  have hx : x.Exclusive := Lending.exclusive_new.run events
  refine ⟨fun m n => hx.unique, hx.lent, hx.isIdle_lend, fun n lease hlease => ?_⟩
  have hfits := hx.fits hlease
  obtain ⟨b, hidle, hlog, -⟩ := hfits.faithful
  -- the builder may have any generation, according to how often it was lent before
  obtain ⟨k, hnew⟩ := Workbench.events_of_isIdle hidle lease.brought
  refine ⟨⟨k, hlog.trans (hnew lease.calls)⟩, ?_, hfits.held⟩
  rw [hlog]
  exact Workbench.packsOwn_events hidle lease.calls

/-- The first caller gives up an object that it has completed.  Others acquire leases before and
while the builder is put back, and after it is free, and two of them show the ticket for that
object. -/
def overlappingLeases : List LeaseEvent :=
  [.acquire [], .call 0 (.start 7), .call 0 (.add 1 (.text "given up")), .call 0 .complete,
    .acquire [⟨0⟩], .call 1 (.start 8), .call 1 .complete, .call 1 (.pack 0), .call 1 .packedBytes,
    .putBack 0, .acquire [], .free 0,
    .acquire [⟨0⟩], .call 3 (.start 9), .call 3 .complete, .call 3 (.pack 0), .call 3 (.pack 1),
    .call 3 .packedBytes]

/-- The spare builder takes the ticket for its own and the reset one refuses it; each of them packs
its own object. -/
theorem leases_are_exclusive_overlappingLeases :
    let x := Lending.new.run overlappingLeases
    x.Shares 3 ∧ (∀ m, x.Shares m → m = 3) ∧ x.lender.isLent = true ∧
      ∃ spare shared : Lease, x.leases[1]? = some spare ∧ x.leases[3]? = some shared ∧
        spare.log.map Prod.snd
          = [.ok .done, .ok (.ticket 1), .ok .done, .ok (.bytes (Object.encode ⟨8, ∅⟩))] ∧
        shared.log.map Prod.snd
          = [.ok .done, .ok (.ticket 1), .error (.invalidState .staleTicket), .ok .done,
            .ok (.bytes (Object.encode ⟨9, ∅⟩))] ∧
        spare.log.PacksOwn ∧ shared.log.PacksOwn := by
  intro x
  obtain ⟨hunique, hlent, -, hleases⟩ := leases_are_exclusive overlappingLeases
  have hshares : x.Shares 3 := ⟨_, rfl, rfl, by decide⟩
  exact ⟨hshares, fun m hm => hunique m 3 hm hshares, hlent.2 ⟨3, hshares⟩, _, _, rfl, rfl, rfl,
    rfl, (hleases 1 _ rfl).2.1, (hleases 3 _ rfl).2.1⟩

end ObjectStore
