import Mathlib
import ObjectStore.Scenario.Run
import ObjectStore.Proofs.Database.NewObjects

/-!
# Scenarios keep the database at work

Whatever a scenario does, with bindings that make further steps on the same database while an object
is put together, its database is one at work (`Scenario.Step.run_at`, by recursion on the steps and
the scripts in them).  So what holds of every `Activity.Reachable` state holds of each state that a
scenario gets to, and wherever a scenario is cut, the rest of its answers are given in such a state
(`run_append`).
-/

namespace ObjectStore.Scenario

open Operation

variable {w : Option Writer} {ps : List Intent} {ctx : Table} {m : Model}

/-! ## Ends of operations -/

/-- The desk is no part of the database. -/
theorem at_of_db {ctx' : Table} (hdb : ctx'.db = ctx.db) (h : ctx.At w ps) : ctx'.At w ps := by
  unfold Context.At at h ⊢
  rw [hdb]
  exact h

theorem settled_at {ending : Outcome × Table} (h : ending.2.At w ps) :
    (settled ending).2.At w ps :=
  Activity.Reachable.runWorker h _

/-- Whatever is made of the result of an orderly operation, the database is at work if it is left as
the operation left it. -/
theorem end_at {α : Type} {x : Operation Desk α} (hx : x.Orderly) (h : ctx.At w ps)
    {ending : Outcome × Table}
    (hok : ∀ a ctx', x ctx = .ok a ctx' → ending.2.db = ctx'.db)
    (herror : ∀ e ctx', x ctx = .error e ctx' → ending.2.db = ctx'.db) : ending.2.At w ps := by
  have hend := hx w ps ctx h
  cases hrun : x ctx with
  | ok a ctx' =>
    rw [hrun] at hend
    exact at_of_db (hok a ctx' hrun) hend
  | error e ctx' =>
    rw [hrun] at hend
    exact at_of_db (herror e ctx' hrun) hend

theorem conclude_at {α : Type} {x : Operation Desk α} (hx : x.Orderly) (ok : α → Outcome)
    (h : ctx.At w ps) : (conclude x ok ctx).2.At w ps :=
  end_at hx h (fun a ctx' hrun => by rw [conclude, hrun]) fun e ctx' hrun => by rw [conclude, hrun]

theorem store_at {object : m.Carrier} {put : m.Carrier → Operation Desk (ObjectId × m.Carrier)}
    (hput : (put object).Orderly) (h : ctx.At w ps) : (store m object put ctx).2.At w ps :=
  end_at hput h (fun a ctx' hrun => by rw [store, hrun]) fun e ctx' hrun => by rw [store, hrun]

theorem storeAll_at {objects : List m.Carrier} {box : TypedBox Desk m.Carrier}
    (hput : (box.putAll objects).Orderly) (h : ctx.At w ps) :
    (storeAll m objects box ctx).2.At w ps :=
  end_at hput h (fun a ctx' hrun => by rw [storeAll, hrun]) fun e ctx' hrun => by
    rw [storeAll, hrun]

theorem openBox_at (entity : Entity) (name : String) (h : ctx.At w ps) :
    (openBox entity name ctx).2.At w ps :=
  end_at (Database.orderly_boxOf entity.model.binding) h
    (fun a ctx' hrun => by rw [openBox, hrun]; rfl) fun e ctx' hrun => by rw [openBox, hrun]

theorem withBox_at {name : String} (h : ctx.At w ps)
    {f : (m : Model) → TypedBox Desk m.Carrier → Outcome × Table}
    (hf : ∀ (entity : Entity) (n : BoxNumber),
      (f entity.model ⟨entity.model.binding, n⟩).2.At w ps) :
    (withBox name ctx f).2.At w ps := by
  unfold withBox
  cases ctx.user.boxes.get? name with
  | none => exact h
  | some place => exact hf place.1 place.2

/-! ## Drafts -/

/-- A builder call after which it goes on in an orderly way. -/
theorem orderly_andThen {σ : Type} (c : BuilderCall) {next : Assembly σ} (h : next.Orderly) :
    (Assembly.andThen c next).Orderly := by
  refine .call fun answer => ?_
  cases answer with
  | ok _ => exact h
  | error e => exact .done _

theorem orderly_calls {σ : Type} (cs : List BuilderCall) : (Assembly.calls cs : Assembly σ).Orderly :=
  (Assembly.quiet_calls cs).orderly

/-- A draft is put together by its script, or by builder calls alone. -/
theorem orderly_ofDraft (entity : Entity) {p : Prepared} (hscript : ∀ id, (p.script id).Orderly) :
    entity.model.binding.Orderly (entity.model.ofDraft p) := by
  intro id
  cases entity with
  | task =>
    show (if p.sheet.priority < 0 then Assembly.fail "priority must not be negative"
      else .fields id _).Orderly
    split
    · exact .done _
    · exact orderly_calls _
  | tag => exact orderly_calls _
  | note =>
    refine orderly_andThen _ ?_
    show (if p.sheet.text = "" then Assembly.fail "note text must not be empty"
      else .calls [.add 1 (.text p.sheet.text)]).Orderly
    split
    · exact .done _
    · exact orderly_calls _
  | record => exact orderly_calls _
  -- these have no builder calls of their own, but whatever their scripts do
  | _ => exact hscript id

mutual

/-- **A step of a scenario** leaves the database at work. -/
theorem Step.run_at : ∀ (step : Step) {writer : Option Writer} {puts : List Intent} {ctx : Table},
    ctx.At writer puts → (step.run ctx).2.At writer puts
  | .openBox entity box, _, _, _, h => by
    rw [Step.run]
    exact settled_at (openBox_at entity box h)
  | .cloneBox box copy, _, _, ctx, h => by
    rw [Step.run]
    cases ctx.user.boxes.get? box with
    | none => exact h
    | some place => exact h
  | .dropBox box, _, _, _, h => by
    rw [Step.run]
    exact h
  | .put box draft, _, _, _, h => by
    rw [Step.run]
    refine settled_at (withBox_at h fun entity n => store_at ?_ h)
    exact TypedBox.orderly_put _ (orderly_ofDraft entity (Draft.prepare_orderly draft))
  | .putAsync box draft, _, _, _, h => by
    rw [Step.run]
    refine settled_at (withBox_at h fun entity n => store_at ?_ h)
    exact TypedBox.orderly_putAsync _ (orderly_ofDraft entity (Draft.prepare_orderly draft))
  | .putAll box drafts, _, _, _, h => by
    rw [Step.run]
    refine settled_at (withBox_at h fun entity n => storeAll_at ?_ h)
    refine TypedBox.orderly_putAll _ fun object hobject => ?_
    obtain ⟨p, hp, rfl⟩ := List.mem_map.1 hobject
    exact orderly_ofDraft entity (prepareAll_orderly drafts p hp)
  | .get box id, _, _, _, h => by
    rw [Step.run]
    exact withBox_at h fun _ _ => conclude_at (TypedBox.orderly_read _ _) _ h
  | .getAll box, _, _, _, h => by
    rw [Step.run]
    exact withBox_at h fun _ _ => conclude_at (TypedBox.orderly_read _ _) _ h
  | .contains box id, _, _, _, h => by
    rw [Step.run]
    exact withBox_at h fun _ _ => conclude_at (TypedBox.orderly_read _ _) _ h
  | .count box, _, _, _, h => by
    rw [Step.run]
    exact withBox_at h fun _ _ => conclude_at (TypedBox.orderly_read _ _) _ h
  | .remove box id, _, _, _, h => by
    rw [Step.run]
    exact settled_at (withBox_at h fun _ _ => conclude_at (TypedBox.orderly_remove _ _) _ h)
  | .removeAll box, _, _, _, h => by
    rw [Step.run]
    exact settled_at (withBox_at h fun _ _ => conclude_at (TypedBox.orderly_removeAll _) _ h)
  | .close box, _, _, _, h => by
    rw [Step.run]
    exact withBox_at h fun _ _ => conclude_at (TypedBox.orderly_close _) _ h
  | .awaitIdle, _, _, _, h => by
    rw [Step.run]
    exact conclude_at Database.orderly_awaitPuts _ h
  | .closeDatabase, _, _, _, h => by
    rw [Step.run]
    exact conclude_at Database.orderly_closeAll _ h
  | .isClosed box, _, _, _, h => by
    rw [Step.run]
    exact withBox_at h fun _ _ => h
  | .databaseClosed, _, _, _, h => by
    rw [Step.run]
    exact h
  | .typeId box, _, _, _, h => by
    rw [Step.run]
    exact withBox_at h fun _ _ => h
  | .describe box, _, _, _, h => by
    rw [Step.run]
    exact withBox_at h fun _ _ => h
  | .describeDatabase, _, _, _, h => by
    rw [Step.run]
    exact h

/-- What a draft does while it is put together is orderly. -/
theorem Draft.prepare_orderly : ∀ (draft : Draft) (id : ObjectId), (draft.prepare.script id).Orderly
  | .mk sheet script, id => by
    rw [Draft.prepare]
    exact assemble_orderly script id

theorem prepareAll_orderly :
    ∀ (drafts : List Draft), ∀ p ∈ prepareAll drafts, ∀ id, (p.script id).Orderly
  | [], p, hp => by
    rw [prepareAll] at hp
    cases hp
  | draft :: drafts, p, hp => by
    rw [prepareAll] at hp
    rcases List.mem_cons.1 hp with rfl | hp
    · exact Draft.prepare_orderly draft
    · exact prepareAll_orderly drafts p hp

/-- The steps in a script leave the database at work, and its other actions do not touch it. -/
theorem assemble_orderly : ∀ (script : List Action) (id : ObjectId), (assemble script id).Orderly
  | [], id => by
    rw [assemble]
    exact .done _
  | .build call :: rest, id => by
    rw [assemble]
    exact orderly_andThen call (assemble_orderly rest id)
  | .start :: rest, id => by
    rw [assemble]
    exact orderly_andThen (.start id) (assemble_orderly rest id)
  | .fail text :: _, id => by
    rw [assemble]
    exact .done _
  | .perform step :: rest, id => by
    rw [assemble]
    refine .act (fun w ps ctx h => ?_) (assemble_orderly rest id)
    exact at_of_db rfl (Step.run_at step h)

end

/-! ## Runs -/

/-- Where the steps of a scenario lead. -/
def tableAfter (steps : List Step) (ctx : Table) : Table :=
  steps.foldl (fun ctx step => (step.run { ctx with user := { ctx.user with inner := [] } }).2) ctx

/-- Later steps go on from where the earlier ones led. -/
theorem runSteps_append (steps later : List Step) (ctx : Table) :
    runSteps (steps ++ later) ctx = runSteps steps ctx ++ runSteps later (tableAfter steps ctx) := by
  induction steps generalizing ctx with
  | nil => rfl
  | cons step steps ih =>
    rw [List.cons_append, runSteps, runSteps]
    exact congrArg (List.cons _) (ih _)

/-- **A scenario keeps its database at work**, by induction on the steps. -/
theorem tableAfter_at {plan : DatabasePlan} {db : Database} (hplan : Database.ofPlan plan = .ok db)
    (steps : List Step) (desk : Desk) : (tableAfter steps ⟨db, desk⟩).At none [] := by
  -- the desk is cleared before each step, which is no change of the database
  have hrun : ∀ (steps : List Step) {ctx : Table}, ctx.At none [] →
      (tableAfter steps ctx).At none [] := by
    intro steps
    induction steps with
    | nil => exact id
    | cons step steps ih => exact fun h => ih (Step.run_at step (at_of_db rfl h))
  exact hrun steps (.start hplan)

/-- **No new object collides** in a scenario, wherever it has got to. -/
theorem tableAfter_noCollision {plan : DatabasePlan} {db : Database}
    (hplan : Database.ofPlan plan = .ok db) (steps : List Step) (desk : Desk) :
    Activity.NoCollision ⟨(tableAfter steps ⟨db, desk⟩).db, none, []⟩ :=
  Activity.Reachable.noCollision (tableAfter_at hplan steps desk)

/-- **Wherever a scenario is cut**, the answers given so far are those of its first part, and the
rest are given by a database at work, in which no new object collides. -/
theorem run_append {plan : DatabasePlan} {steps later : List Step}
    {answers : List (List Outcome × Outcome)} (hrun : run plan (steps ++ later) = .ok answers) :
    ∃ earlier table, run plan steps = .ok earlier ∧ answers = earlier ++ runSteps later table ∧
      table.At none [] ∧ Activity.NoCollision ⟨table.db, none, []⟩ := by
  obtain ⟨db, hplan, hanswers⟩ := bind_eq_ok.1 hrun
  let desk : Desk := ⟨∅, []⟩
  have hearlier : run plan steps = .ok (runSteps steps ⟨db, desk⟩) := by
    rw [run, hplan]
    rfl
  -- the database that was planned is the one both runs begin with
  cases hanswers
  exact ⟨_, tableAfter steps ⟨db, desk⟩, hearlier, runSteps_append steps later ⟨db, desk⟩,
    tableAfter_at hplan steps desk, tableAfter_noCollision hplan steps desk⟩

end ObjectStore.Scenario
