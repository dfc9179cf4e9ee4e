import ObjectStore.Store.Options
import ObjectStore.Store.Error
import ObjectStore.Text.Quoted

/-!
# Configuration of a database

The options of the store in finer time units, the entity types to register, and their texts.
-/

namespace ObjectStore

/-- The configuration of a database. -/
structure Config where
  /-- How many asynchronous puts may wait. -/
  queueCapacity : Nat := 1024
  /-- How many asynchronous puts are committed at once. -/
  maxBatch : Nat := 256
  /-- How long an asynchronous put may wait for room. -/
  enqueueTimeout : Duration := .ofMilliseconds 1000
  deriving DecidableEq, Repr

namespace Config

/-- The options of the store; the waiting time counts in whole milliseconds. -/
def options (c : Config) : Options :=
  { queueCapacity := c.queueCapacity
    maxBatch := c.maxBatch
    enqueueTimeoutMs := min c.enqueueTimeout.milliseconds 0xFFFFFFFFFFFFFFFF }

/-- The text of a configuration. -/
def text (c : Config) : String :=
  "Config \x7b async_queue_capacity: " ++ toString c.queueCapacity ++
    ", async_max_batch: " ++ toString c.maxBatch ++
    ", async_enqueue_timeout: " ++ c.enqueueTimeout.text ++ " \x7d"

end Config

/-! ## Entity types -/

/-- The short name of a type. -/
def TypeId.text (type : TypeId) : String := "type:" ++ toString type

/-- The text of a type in descriptions. -/
def TypeId.description (type : TypeId) : String := "EntityTypeId(" ++ toString type ++ ")"

/-- An entity type to be registered. -/
structure EntityInfo where
  type : TypeId
  name : String
  deriving DecidableEq, Repr

/-- The text of an entity type to be registered. -/
def EntityInfo.text (e : EntityInfo) : String :=
  "(" ++ TypeId.description e.type ++ ", " ++ Text.quoted e.name ++ ")"

/-- A database to be opened. -/
structure DatabasePlan where
  config : Config := {}
  /-- The entity types in the order of their registration. -/
  entities : List EntityInfo := []
  deriving DecidableEq, Repr

/-- The text of a database to be opened. -/
def DatabasePlan.text (p : DatabasePlan) : String :=
  "ObjectBoxBuilder \x7b config: " ++ p.config.text ++
    ", entities: [" ++ ", ".intercalate (p.entities.map EntityInfo.text) ++ "] \x7d"

end ObjectStore
