import ObjectStore.TaskList

/-!
# The task list as a command

Prints what the task list program says.
-/

/-- Prints the transcript; an error goes to the other stream and into the exit code. -/
def main : IO UInt32 := do
  IO.print ObjectStore.TaskList.output
  match ObjectStore.TaskList.transcript.2 with
  | none => return 0
  | some e =>
    IO.eprintln ("Error: " ++ e.message)
    return 1
