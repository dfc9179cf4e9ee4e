import ObjectStore.Database.TypedBox

/-!
# A task list

A small program on top of boxes: it puts tasks one by one, in a batch and through the queue, lists
the open ones by priority, and clears the list.  What it says is its `transcript`.
-/

namespace ObjectStore.TaskList

/-- A task on the list. -/
structure ListedTask where
  id : ObjectId := 0
  title : String
  priority : Int64
  completed : Bool := false
  deriving DecidableEq, Repr

/-- The task that an object holds. -/
def ListedTask.ofObject (o : Object) : Except ObjectError ListedTask := do
  let title ← o.text 1
  let priority ← o.int 2
  let completed ← o.bool 3
  return ⟨o.id, title, priority, completed⟩

/-- How tasks on the list are stored. -/
def ListedTask.binding {σ : Type} : Binding σ ListedTask where
  type := 1
  name := "Task"
  idOf t := .ok t.id
  withId t id := { t with id := id }
  assemble t id :=
    .fields id [(1, .text t.title), (2, .int t.priority), (3, .bool t.completed)]
  restore := restoreWith ListedTask.ofObject

/-- A program that says lines of text. -/
abbrev Program := Operation (List String)

/-- Says a line. -/
def say (line : String) : Program Unit :=
  modify fun ctx => { ctx with user := ctx.user ++ [line] }

/-- The order in which open tasks are listed: by priority, then by ID. -/
def ListedTask.before (a b : ListedTask) : Bool :=
  a.priority < b.priority || (a.priority == b.priority && a.id ≤ b.id)

/-- The text of a list of IDs. -/
def idsText (ids : List ObjectId) : String := "[" ++ ", ".intercalate (ids.map toString) ++ "]"

/-- The line of an open task. -/
def ListedTask.line (t : ListedTask) : String :=
  "  [P" ++ toString t.priority ++ "] #" ++ toString t.id ++ " " ++ t.title

/-- Queues a task for each chapter. -/
def queueChapters (tasks : TypedBox (List String) ListedTask) : List Nat → Program Unit
  | [] => return ()
  | n :: ns => do
    let _ ← tasks.putAsync { title := "Read chapter " ++ toString n, priority := 3 }
    queueChapters tasks ns

/-- Says the lines of tasks. -/
def sayTasks : List ListedTask → Program Unit
  | [] => return ()
  | t :: ts => do
    say t.line
    sayTasks ts

/-- The program. -/
def program : Program Unit := do
  let tasks ← Database.boxOf ListedTask.binding
  say "=== ObjBox Task List ==="
  say ""
  -- one put: the ID is assigned
  let (id, groceries) ← tasks.put { title := "Buy groceries", priority := 2 }
  say ("Added task #" ++ toString id ++ ": " ++ groceries.title)
  -- several puts in one transaction
  let (ids, _) ← tasks.putAll [
    { title := "Write report", priority := 1 },
    { title := "Call plumber", priority := 3 },
    { title := "Book flights", priority := 2 }]
  say ("Added " ++ toString ids.length ++ " tasks in one batch: " ++ idsText ids)
  -- queued puts
  queueChapters tasks [1, 2, 3, 4, 5]
  Database.awaitPuts
  -- a task that has an ID is replaced
  let _ ← tasks.put { groceries with completed := true }
  let all ← tasks.getAll
  say ""
  say "Open tasks by priority:"
  sayTasks ((all.filter fun t => !t.completed).mergeSort ListedTask.before)
  tasks.remove id
  let left ← tasks.count
  say ""
  say ("Removed #" ++ toString id ++ "; " ++ toString left ++ " tasks left")
  if (← tasks.get id).isNone then say ("#" ++ toString id ++ " is gone")
  tasks.removeAll
  let left ← tasks.count
  say ("Cleared list; " ++ toString left ++ " tasks left")
  Database.closeAll

/-- The database of the program. -/
def plan : DatabasePlan :=
  { config := { queueCapacity := 256 }
    entities := [(ListedTask.binding : Binding Unit ListedTask).info] }

/-- What the program says, and the error that ends it, if one does. -/
def transcript : List String × Option BoxError :=
  match Database.ofPlan plan with
  | .error e => ([], some e)
  | .ok db =>
    match program ⟨db, []⟩ with
    | .ok () ctx => (ctx.user, none)
    | .error e ctx => (ctx.user, some e)

/-- The lines of the program as one text. -/
def output : String := String.join (transcript.1.map (· ++ "\n"))

end ObjectStore.TaskList
