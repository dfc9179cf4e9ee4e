import ObjectStore.Scenario.Model

/-!
# Running scenarios

`Step.run` makes one step, after which the worker goes as far as it can.  `run` opens a database and
makes all steps, and tells of each how it ended and how the steps inside it ended.
-/

namespace ObjectStore.Scenario

/-- Where the database and the desk of a scenario stand. -/
abbrev Table := Context Desk

/-- An operation's end. -/
def conclude {α : Type} (x : Operation Desk α) (ok : α → Outcome) (ctx : Table) :
    Outcome × Table :=
  match x ctx with
  | .ok a ctx => (ok a, ctx)
  | .error e ctx => (.failed e, ctx)

/-- Does something with the box that has a name. -/
def withBox (name : String) (ctx : Table)
    (f : (m : Model) → TypedBox Desk m.Carrier → Outcome × Table) : Outcome × Table :=
  match ctx.user.boxes.get? name with
  | some (entity, number) => f entity.model ⟨entity.model.binding, number⟩
  | none => (.unknownBox name, ctx)

/-- Names a box. -/
def nameBox (name : String) (entity : Entity) (number : BoxNumber) (ctx : Table) : Table :=
  { ctx with user := { ctx.user with boxes := ctx.user.boxes.insert name (entity, number) } }

/-- Opens the box of an entity type under a name; if that fails, the name stays as it was. -/
def openBox (entity : Entity) (name : String) (ctx : Table) : Outcome × Table :=
  match Database.boxOf entity.model.binding ctx with
  | .ok box ctx => (.done, nameBox name entity box.number ctx)
  | .error e ctx => (.failed e, ctx)

/-- Puts an object and tells the ID that it has afterwards. -/
def store (m : Model) (object : m.Carrier)
    (put : m.Carrier → Operation Desk (ObjectId × m.Carrier)) (ctx : Table) : Outcome × Table :=
  match put object ctx with
  | .ok (id, object) ctx => (.stored (.ok id) (m.idOf object), ctx)
  | .error e ctx => (.stored (.error e) (m.idOf object), ctx)

/-- Puts objects and tells the IDs that they have afterwards. -/
def storeAll (m : Model) (objects : List m.Carrier) (box : TypedBox Desk m.Carrier)
    (ctx : Table) : Outcome × Table :=
  match box.putAll objects ctx with
  | .ok (ids, objects) ctx => (.storedAll (.ok ids) (objects.map m.idOf), ctx)
  | .error e ctx => (.storedAll (.error e) (objects.map m.idOf), ctx)

/-- Keeps how an inner step ended. -/
def note (ending : Outcome × Table) : Table :=
  { ending.2 with user := { ending.2.user with inner := ending.2.user.inner ++ [ending.1] } }

/-- After a step the worker goes as far as it can. -/
def settled (ending : Outcome × Table) : Outcome × Table :=
  (ending.1, { ending.2 with db := ending.2.db.settle })

mutual

/-- Makes a step. -/
def Step.run : Step → Table → Outcome × Table
  | .openBox entity box, ctx => settled (openBox entity box ctx)
  | .cloneBox box copy, ctx =>
    match ctx.user.boxes.get? box with
    | some (entity, number) => (.done, nameBox copy entity number ctx)
    | none => (.unknownBox box, ctx)
  | .dropBox box, ctx =>
    (.done, { ctx with user := { ctx.user with boxes := ctx.user.boxes.erase box } })
  | .put box draft, ctx =>
    settled (withBox box ctx fun m b => store m (m.ofDraft draft.prepare) b.put ctx)
  | .putAsync box draft, ctx =>
    settled (withBox box ctx fun m b => store m (m.ofDraft draft.prepare) b.putAsync ctx)
  | .putAll box drafts, ctx =>
    settled (withBox box ctx fun m b => storeAll m ((prepareAll drafts).map m.ofDraft) b ctx)
  | .get box id, ctx =>
    withBox box ctx fun m b => conclude (b.get id) (fun o => .found (o.map m.shown)) ctx
  | .getAll box, ctx =>
    withBox box ctx fun m b => conclude b.getAll (fun os => .listed (os.map m.shown)) ctx
  | .contains box id, ctx => withBox box ctx fun _ b => conclude (b.contains id) .truth ctx
  | .count box, ctx => withBox box ctx fun _ b => conclude b.count .number ctx
  | .remove box id, ctx =>
    settled (withBox box ctx fun _ b => conclude (b.remove id) (fun _ => .done) ctx)
  | .removeAll box, ctx =>
    settled (withBox box ctx fun _ b => conclude b.removeAll (fun _ => .done) ctx)
  | .close box, ctx => withBox box ctx fun _ b => conclude b.close (fun _ => .done) ctx
  | .awaitIdle, ctx => conclude Database.awaitPuts (fun _ => .done) ctx
  | .closeDatabase, ctx => conclude Database.closeAll (fun _ => .done) ctx
  | .isClosed box, ctx => withBox box ctx fun _ b => (.closed (b.isClosed ctx.db), ctx)
  | .databaseClosed, ctx => (.closed ctx.db.isClosed, ctx)
  | .typeId box, ctx => withBox box ctx fun _ b => (.type b.binding.type, ctx)
  | .describe box, ctx => withBox box ctx fun _ b => (.text (b.text ctx.db), ctx)
  | .describeDatabase, ctx => (.text ctx.db.text, ctx)

/-- Makes the script of a draft ready to run. -/
def Draft.prepare : Draft → Prepared
  | .mk sheet script => ⟨sheet, fun id => assemble script id⟩

/-- Makes the scripts of drafts ready to run. -/
def prepareAll : List Draft → List Prepared
  | [] => []
  | draft :: drafts => draft.prepare :: prepareAll drafts

/-- What a script does for an object with an ID. -/
def assemble : List Action → ObjectId → Assembly Desk
  | [], _ => .done (.ok ())
  | .build call :: rest, id => .andThen call (assemble rest id)
  | .start :: rest, id => .andThen (.start id) (assemble rest id)
  | .fail text :: _, _ => .fail text
  | .perform step :: rest, id => .act (fun ctx => note (step.run ctx)) (assemble rest id)

end

/-- Makes steps one after the other; each comes with the ends of the steps inside it. -/
def runSteps : List Step → Table → List (List Outcome × Outcome)
  | [], _ => []
  | step :: steps, ctx =>
    let (outcome, ctx) := step.run { ctx with user := { ctx.user with inner := [] } }
    (ctx.user.inner, outcome) :: runSteps steps ctx

/-- Opens a database and makes steps. -/
def run (plan : DatabasePlan) (steps : List Step) :
    Except BoxError (List (List Outcome × Outcome)) := do
  let db ← Database.ofPlan plan
  return runSteps steps ⟨db, ⟨∅, []⟩⟩

end ObjectStore.Scenario
