import Mathlib.Data.List.Basic

/-! Tasks that change a store in atomic steps. A task may fail, and it may stop between any two of its steps. -/
namespace Gail.Library
variable {σ ε α β : Type}

/-- What a task does to a store: the stores it passes, one for each step, and the result and the store at its end. -/
structure Course (σ ε α : Type) where
  passed : List σ
  last : σ
  result : Except ε α

def Task (σ ε α : Type) : Type := σ → Course σ ε α

namespace Task

def bind (task : Task σ ε α) (rest : α → Task σ ε β) : Task σ ε β := fun store =>
  let course := task store
  match course.result with
  | .error error => ⟨course.passed, course.last, .error error⟩
  | .ok value =>
    let next := rest value course.last
    ⟨course.passed ++ next.passed, next.last, next.result⟩

instance : Monad (Task σ ε) where
  pure value store := ⟨[], store, .ok value⟩
  bind := Task.bind

def fail (error : ε) : Task σ ε α := fun store => ⟨[], store, .error error⟩

theorem bind_error {task : Task σ ε α} {rest : α → Task σ ε β} {store : σ} {error : ε}
    (h : (task store).result = .error error) :
    (task >>= rest) store = ⟨(task store).passed, (task store).last, .error error⟩ := by
  change Task.bind task rest store = _
  simp only [Task.bind, h]

theorem bind_ok {task : Task σ ε α} {rest : α → Task σ ε β} {store : σ} {value : α}
    (h : (task store).result = .ok value) :
    (task >>= rest) store =
      ⟨(task store).passed ++ (rest value (task store).last).passed, (rest value (task store).last).last,
        (rest value (task store).last).result⟩ := by
  change Task.bind task rest store = _
  simp only [Task.bind, h]

/-- The store as it is. -/
def look : Task σ ε σ := fun store => ⟨[], store, .ok store⟩

/-- One atomic step. -/
def write (change : σ → σ) : Task σ ε Unit := fun store => ⟨[change store], change store, .ok ()⟩

def ofExcept (result : Except ε α) : Task σ ε α := fun store => ⟨[], store, result⟩

/-- A task whose failure is a result like another. -/
def attempt (task : Task σ ε α) : Task σ ε (Except ε α) := fun store =>
  let course := task store
  ⟨course.passed, course.last, .ok course.result⟩

/-- What is left of a store when the task stops after a number of steps. -/
def stopped (task : Task σ ε α) (steps : Nat) (store : σ) : σ :=
  (store :: (task store).passed)[steps]?.getD (task store).last

/-- From a store with the precondition every step leads to a safe store, and the end has the postcondition. -/
def Spec (safe pre : σ → Prop) (task : Task σ ε α) (post : Except ε α → σ → Prop) : Prop :=
  ∀ store, pre store → (∀ passed ∈ (task store).passed, safe passed) ∧ post (task store).result (task store).last

/-- A task that keeps a condition at every step. -/
def Keeps (safe : σ → Prop) (task : Task σ ε α) : Prop := Spec safe safe task fun _ => safe

section Rules
variable {safe pre : σ → Prop}

theorem Spec.weaken {safe' pre' : σ → Prop} {task : Task σ ε α} {post post' : Except ε α → σ → Prop}
    (h : Spec safe pre task post) (hsafe : ∀ store, safe store → safe' store) (hpre : ∀ store, pre' store → pre store)
    (hpost : ∀ result store, post result store → post' result store) : Spec safe' pre' task post' :=
  fun store hstore =>
    have hcourse := h store (hpre store hstore)
    ⟨fun passed hpassed => hsafe passed (hcourse.1 passed hpassed), hpost _ _ hcourse.2⟩

theorem Spec.imp {task : Task σ ε α} {post post' : Except ε α → σ → Prop} (h : Spec safe pre task post)
    (hpost : ∀ result store, post result store → post' result store) : Spec safe pre task post' :=
  h.weaken (fun _ h => h) (fun _ h => h) hpost

theorem Spec.start {pre' : σ → Prop} {task : Task σ ε α} {post : Except ε α → σ → Prop} (h : Spec safe pre task post)
    (hpre : ∀ store, pre' store → pre store) : Spec safe pre' task post :=
  h.weaken (fun _ h => h) hpre fun _ _ h => h

theorem Keeps.spec {task : Task σ ε α} (h : Keeps safe task) : Spec (fun _ => True) safe task fun _ => safe :=
  h.weaken (fun _ _ => trivial) (fun _ h => h) fun _ _ h => h

theorem spec_pure {value : α} {post : Except ε α → σ → Prop} (h : ∀ store, pre store → post (.ok value) store) :
    Spec safe pre (pure value : Task σ ε α) post :=
  fun store hstore => ⟨fun _ hpassed => absurd hpassed List.not_mem_nil, h store hstore⟩

theorem spec_fail {error : ε} {post : Except ε α → σ → Prop} (h : ∀ store, pre store → post (.error error) store) :
    Spec safe pre (fail error : Task σ ε α) post :=
  fun store hstore => ⟨fun _ hpassed => absurd hpassed List.not_mem_nil, h store hstore⟩

theorem spec_look {post : Except ε σ → σ → Prop} (h : ∀ store, pre store → post (.ok store) store) :
    Spec safe pre (look : Task σ ε σ) post :=
  fun store hstore => ⟨fun _ hpassed => absurd hpassed List.not_mem_nil, h store hstore⟩

theorem spec_ofExcept {result : Except ε α} {post : Except ε α → σ → Prop}
    (h : ∀ store, pre store → post result store) : Spec safe pre (ofExcept result : Task σ ε α) post :=
  fun store hstore => ⟨fun _ hpassed => absurd hpassed List.not_mem_nil, h store hstore⟩

theorem spec_write {change : σ → σ} {post : Except ε Unit → σ → Prop}
    (hsafe : ∀ store, pre store → safe (change store)) (h : ∀ store, pre store → post (.ok ()) (change store)) :
    Spec safe pre (write change : Task σ ε Unit) post :=
  fun store hstore => ⟨fun _ hpassed => List.mem_singleton.mp hpassed ▸ hsafe store hstore, h store hstore⟩

/-- The rule of sequence. `M` holds between the two tasks, and a failure of the first one is one of both. -/
theorem Spec.bind {task : Task σ ε α} {rest : α → Task σ ε β} {M : α → σ → Prop}
    {post : Except ε β → σ → Prop}
    (h : Spec safe pre task fun result store => match result with
      | .ok value => M value store
      | .error error => post (.error error) store)
    (hrest : ∀ value, Spec safe (M value) (rest value) post) : Spec safe pre (task >>= rest) post := by
  intro store hstore
  obtain ⟨hpassed, hend⟩ := h store hstore
  cases hresult : (task store).result with
  | error error =>
    rw [hresult] at hend
    rw [bind_error hresult]
    exact ⟨hpassed, hend⟩
  | ok value =>
    rw [hresult] at hend
    obtain ⟨hnext, hlast⟩ := hrest value _ hend
    rw [bind_ok hresult]
    refine ⟨fun passed hmem => ?_, hlast⟩
    rcases List.mem_append.mp hmem with hmem | hmem
    · exact hpassed passed hmem
    · exact hnext passed hmem

/-- The rule of sequence for tasks that leave `R` also when they fail. -/
theorem Spec.andThen {task : Task σ ε Unit} {rest : Unit → Task σ ε α} {M R : σ → Prop} {post : α → σ → Prop}
    (h : Spec safe pre task fun result store => R store ∧ (result = .ok () → M store))
    (hrest : Spec safe M (rest ()) fun result store => R store ∧ ∀ value, result = .ok value → post value store) :
    Spec safe pre (task >>= rest) fun result store => R store ∧ ∀ value, result = .ok value → post value store := by
  refine Spec.bind (M := fun _ => M) (h.imp fun result store hstore => ?_)
    fun _ => hrest
  cases result with
  | error error => exact ⟨hstore.1, fun _ hvalue => nomatch hvalue⟩
  | ok value => exact hstore.2 rfl

theorem Spec.attempt {task : Task σ ε α} {post : Except ε (Except ε α) → σ → Prop}
    (h : Spec safe pre task fun result => post (.ok result)) : Spec safe pre task.attempt post :=
  h

theorem keeps_pure (value : α) : Keeps safe (pure value : Task σ ε α) := spec_pure fun _ h => h

theorem keeps_fail (error : ε) : Keeps safe (fail error : Task σ ε α) := spec_fail fun _ h => h

theorem keeps_look : Keeps safe (look : Task σ ε σ) := spec_look fun _ h => h

theorem keeps_ofExcept (result : Except ε α) : Keeps safe (ofExcept result : Task σ ε α) := spec_ofExcept fun _ h => h

theorem keeps_write {change : σ → σ} (h : ∀ store, safe store → safe (change store)) :
    Keeps safe (write change : Task σ ε Unit) :=
  spec_write h h

theorem Keeps.bind {task : Task σ ε α} {rest : α → Task σ ε β} (h : Keeps safe task)
    (hrest : ∀ value, Keeps safe (rest value)) : Keeps safe (task >>= rest) :=
  Spec.bind (M := fun _ => safe) (h.imp fun result _ h => by cases result <;> exact h)
    hrest

/-- What follows a look at the store may use what the look shows. -/
theorem spec_look_bind {rest : σ → Task σ ε α} {post : Except ε α → σ → Prop}
    (h : ∀ seen, Spec safe (fun store => store = seen ∧ pre store) (rest seen) post) :
    Spec safe pre (look >>= rest) post :=
  Spec.bind (M := fun seen store => store = seen ∧ pre store) (spec_look fun _ h => ⟨rfl, h⟩) h

theorem Keeps.attempt {task : Task σ ε α} (h : Keeps safe task) : Keeps safe task.attempt :=
  Spec.attempt (h : Spec safe safe task fun _ => safe)

theorem keeps_forM {items : List β} {task : β → Task σ ε PUnit} (h : ∀ item ∈ items, Keeps safe (task item)) :
    Keeps safe (forM items task) := by
  induction items with
  | nil => exact keeps_pure _
  | cons item items ih =>
    rw [List.forM_cons]
    exact (h item List.mem_cons_self).bind fun _ => ih fun other hother => h other (List.mem_cons_of_mem _ hother)

/-- A loop over a list, with what holds for the items that are still to come. -/
theorem spec_forM {items : List β} {task : β → Task σ ε PUnit} {I : List β → σ → Prop}
    {post : Except ε PUnit → σ → Prop} (hend : ∀ store, I [] store → post (.ok ⟨⟩) store)
    (h : ∀ item rest, item ∈ items → Spec safe (I (item :: rest)) (task item) fun result store => match result with
      | .ok _ => I rest store
      | .error error => post (.error error) store) :
    Spec safe (I items) (forM items task) post := by
  induction items with
  | nil => exact spec_pure hend
  | cons item items ih =>
    rw [List.forM_cons]
    have hitem := h item items List.mem_cons_self
    exact Spec.bind (M := fun _ => I items) (hitem.imp fun result _ h => by
      cases result <;> exact h) fun _ => ih fun other rest hother => h other rest (List.mem_cons_of_mem _ hother)

/-- Wherever a task stops, the store it leaves is safe. -/
theorem Spec.stopped {task : Task σ ε α} {post : Except ε α → σ → Prop} (h : Spec safe pre task post) {store : σ}
    (hpre : pre store) (hstart : safe store) (hend : safe (task store).last) (steps : Nat) :
    safe (task.stopped steps store) := by
  unfold Task.stopped
  cases hpassed : (store :: (task store).passed)[steps]? with
  | none => exact hend
  | some passed =>
    rcases List.mem_cons.mp (List.mem_of_getElem? hpassed) with rfl | hmem
    · exact hstart
    · exact (h store hpre).1 passed hmem

theorem Keeps.stopped {task : Task σ ε α} (h : Keeps safe task) {store : σ} (hstore : safe store) (steps : Nat) :
    safe (task.stopped steps store) :=
  Spec.stopped h hstore hstore (h store hstore).2 steps

end Rules

end Task

end Gail.Library
