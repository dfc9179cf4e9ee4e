import ObjectStore.Duration

/-!
# Store options

How many asynchronous puts may wait, how many of them are committed at once, and how long a put may
wait for room.
-/

namespace ObjectStore

/-- The options of a store. -/
structure Options where
  /-- How many asynchronous puts may wait. -/
  queueCapacity : Nat := 1024
  /-- How many asynchronous puts are committed at once. -/
  maxBatch : Nat := 256
  /-- How many milliseconds an asynchronous put may wait for room. -/
  enqueueTimeoutMs : Nat := 1000
  deriving DecidableEq, Repr

namespace Options

/-- How long an asynchronous put may wait for room. -/
def enqueueTimeout (o : Options) : Duration := .ofMilliseconds o.enqueueTimeoutMs

/-- There is room for at least one put in the queue and in a batch. -/
def withMinimums (o : Options) : Options :=
  { o with queueCapacity := max o.queueCapacity 1, maxBatch := max o.maxBatch 1 }

end Options

end ObjectStore
