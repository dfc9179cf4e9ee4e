import ObjectStore.Object.Builder

/-!
# Lending a builder

Every open box has a builder that it lends to one asynchronous put at a time.  A put that comes
while the builder is lent gets a spare one, which is used once and forgotten.  A builder that is
taken back is reset before it is lent again.
-/

namespace ObjectStore

/-- A builder that is lent to one borrower at a time. -/
structure Lender where
  /-- The builder as it is kept. -/
  builder : Builder
  /-- Whether it is lent. -/
  isLent : Bool
  deriving DecidableEq

/-- A builder on loan. -/
inductive Loan
  /-- The builder of the lender. -/
  | shared (builder : Builder)
  /-- A builder that nobody else will see. -/
  | spare (builder : Builder)
  deriving DecidableEq

namespace Loan

/-- The builder on loan. -/
def builder : Loan → Builder
  | shared builder => builder
  | spare builder => builder

/-- The loan after its builder was used. -/
def withBuilder : Loan → Builder → Loan
  | shared _, builder => shared builder
  | spare _, builder => spare builder

end Loan

namespace Lender

/-- A lender of a new builder. -/
def new : Lender := ⟨.new, false⟩

/-- Lends the builder, or a spare one while it is lent. -/
def lend (l : Lender) : Loan × Lender :=
  if l.isLent then (.spare .new, l) else (.shared l.builder, { l with isLent := true })

/-- Puts a builder back in its place, reset.  It counts as lent until `free`. -/
def putBack (l : Lender) : Loan → Lender
  | .shared builder => { l with builder := builder.reset }
  | .spare _ => l

/-- Makes the builder available again if it was the one on loan. -/
def free (l : Lender) : Loan → Lender
  | .shared _ => { l with isLent := false }
  | .spare _ => l

/-- Takes a builder back: it is reset first and available only then. -/
def takeBack (l : Lender) (loan : Loan) : Lender := (l.putBack loan).free loan

end Lender

end ObjectStore
