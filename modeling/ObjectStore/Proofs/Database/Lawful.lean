import Mathlib
import ObjectStore.Entities
import ObjectStore.TaskList
import ObjectStore.Proofs.Database.Flatten

/-!
# Lawful bindings

A binding is lawful for some objects if what it makes of such an object under an ID is read back as
the object with that ID, and if it leaves the database alone meanwhile.  It may refuse objects.

Bindings that start an object and add fields are lawful as soon as they can take their own fields
apart (`Binding.lawful_of_fields`); records, listed tasks and tags are such.
-/

namespace ObjectStore

/-- What is made of an object under an ID is the object with that ID. -/
structure Binding.Lawful {σ α : Type} (b : Binding σ α) (Fits : α → Prop) : Prop where
  quiet : ∀ {object}, Fits object → ∀ id, (b.assemble object id).Quiet
  restores : ∀ {object id bytes}, Fits object → b.flatten object id = .ok bytes →
    b.restore bytes = .ok (b.withId object id)

/-- A binding makes something of every object that it is meant for. -/
def Binding.Accepts {σ α : Type} (b : Binding σ α) (Fits : α → Prop) : Prop :=
  ∀ object id, Fits object → ∃ bytes, b.flatten object id = .ok bytes

/-! ## Bindings by fields -/

namespace Assembly

variable {σ : Type}

/-- Adding fields to the object of a builder. -/
theorem build_adds {fields : List (Slot × Value)} {b filled : Builder}
    (h : b.addAll fields = .ok filled) (tickets : List Ticket) :
    (calls (fields.map fun f => .add f.1 f.2) : Assembly σ).build ⟨b, tickets⟩
      = (.ok (), ⟨filled, tickets⟩) := by
  induction fields generalizing b with
  | nil =>
    cases h
    rfl
  | cons f fields ih =>
    rw [Builder.addAll, List.foldlM_cons, bind_eq_ok] at h
    obtain ⟨next, hnext, hrest⟩ := h
    have hcall : Workbench.call ⟨b, tickets⟩ (.add f.1 f.2) = (.ok .done, ⟨next, tickets⟩) := by
      simp only [Workbench.call, Workbench.call?, hnext, bind, Except.bind, pure, Except.pure]
    rw [List.map_cons, calls, List.foldr_cons, andThen, build, hcall]
    exact ih hrest

/-- An object of fields with distinct slots is put together. -/
theorem build_fields (id : ObjectId) {fields : List (Slot × Value)}
    (hslots : (fields.map Prod.fst).Nodup) :
    (Assembly.fields id fields : Assembly σ).build .new
      = (.ok (), ⟨⟨.filling ⟨id, .ofList fields⟩, 0⟩, []⟩) :=
  build_adds (Builder.addAll_filling id 0 hslots) []

end Assembly

/-- **A binding by fields is lawful** if the slots are distinct, the values fit, and it reads the
object that it made. -/
theorem Binding.lawful_of_fields {σ α : Type} {b : Binding σ α} {Fits : α → Prop}
    (take : Object → Except ObjectError α) (fields : α → List (Slot × Value))
    (hassemble : ∀ object id, b.assemble object id = .fields id (fields object))
    (hrestore : b.restore = restoreWith take)
    (hslots : ∀ object, ((fields object).map Prod.fst).Nodup)
    (hvalues : ∀ object, Fits object → ∀ f ∈ fields object, f.2.Fits)
    (htake : ∀ object id, take ⟨id, .ofList (fields object)⟩ = .ok (b.withId object id)) :
    b.Lawful Fits ∧ b.Accepts Fits := by
  have hflatten : ∀ object id,
      b.flatten object id = .ok (Object.mk id (.ofList (fields object))).encode := by
    intro object id
    rw [flatten, hassemble, Assembly.build_fields id (hslots object)]
    rfl
  refine ⟨⟨fun {object} _ id => ?_, fun {object id bytes} hobject hbytes => ?_⟩,
    fun object id _ => ⟨_, hflatten object id⟩⟩
  · rw [hassemble]
    exact Assembly.quiet_calls _
  · rw [hflatten object id] at hbytes
    cases hbytes
    have hfits : (Object.mk id (.ofList (fields object))).Fits := by
      rintro ⟨slot, value⟩ hf
      have hmem := SortedMap.mem_entries_iff.1 hf
      exact hvalues object hobject _ ((SortedMap.get?_ofList (hslots object)).1 hmem)
    have hdecode := Object.decode_encode hfits []
    rw [List.append_nil] at hdecode
    rw [hrestore, restoreWith, hdecode]
    simp only [bind, Except.bind, htake]
    rfl

/-! ## Instances -/

/-- A text whose length in bytes is a 64-bit number. -/
def TextFits (s : String) : Prop := (Value.text s).Fits

instance (s : String) : Decidable (TextFits s) := inferInstanceAs (Decidable (Value.text s).Fits)

variable {σ : Type}

/-- Records are stored, whatever the payload and the counter. -/
theorem Record.binding_lawful :
    (Record.binding : Binding σ Record).Lawful (TextFits ·.payload) ∧
      (Record.binding : Binding σ Record).Accepts (TextFits ·.payload) := by
  refine Binding.lawful_of_fields Record.ofObject
    (fun r => [(1, .text r.payload), (2, .int r.counter)]) (fun _ _ => rfl) rfl
    (fun _ => by simp) ?_ (fun _ _ => rfl)
  intro r hr f hf
  simp only [List.mem_cons, List.not_mem_nil, or_false] at hf
  rcases hf with rfl | rfl
  · exact hr
  · trivial

/-- Tasks on a list are stored, whatever they say. -/
theorem TaskList.ListedTask.binding_lawful :
    (ListedTask.binding : Binding σ ListedTask).Lawful (TextFits ·.title) ∧
      (ListedTask.binding : Binding σ ListedTask).Accepts (TextFits ·.title) := by
  refine Binding.lawful_of_fields ListedTask.ofObject
    (fun t => [(1, .text t.title), (2, .int t.priority), (3, .bool t.completed)])
    (fun _ _ => rfl) rfl (fun _ => by simp) ?_ (fun _ _ => rfl)
  intro t ht f hf
  simp only [List.mem_cons, List.not_mem_nil, or_false] at hf
  rcases hf with rfl | rfl | rfl
  · exact ht
  · trivial
  · trivial

/-- Tags are stored, whatever the name. -/
theorem Tag.binding_lawful :
    (Tag.binding : Binding σ Tag).Lawful (TextFits ·.name) ∧
      (Tag.binding : Binding σ Tag).Accepts (TextFits ·.name) := by
  refine Binding.lawful_of_fields Tag.ofObject (fun t => [(1, .text t.name)]) (fun _ _ => rfl) rfl
    (fun _ => by simp) ?_ (fun _ _ => rfl)
  intro t ht f hf
  rw [List.mem_singleton] at hf
  rw [hf]
  exact ht

end ObjectStore
