import Gail.Library.Run

/-! Programs that ask their environment and go on with its answers: the rules that prove a law of
every event of a program, and what many of them show when they run side by side. -/
namespace Gail.Library
universe u v w x

/-- A program over the questions `Q`, of which each has answers of its own. -/
inductive Interaction (Q : Type u) (A : Q → Type v) (α : Type w) where
  | done (value : α)
  | ask (question : Q) (next : A question → Interaction Q A α)

/-- A question with the answer it got. -/
abbrev Answered (Q : Type u) (A : Q → Type v) := (question : Q) × A question

namespace Interaction
variable {Q : Type u} {A : Q → Type v} {α β : Type w}

protected def bind : Interaction Q A α → (α → Interaction Q A β) → Interaction Q A β
  | .done value, f => f value
  | .ask question next, f => .ask question fun answer => (next answer).bind f

instance : Monad (Interaction Q A) where
  pure := .done
  bind := Interaction.bind

/-- The program that asks one question and returns its answer. -/
def query (question : Q) : Interaction Q A (A question) := .ask question .done

variable (law : List (Answered Q A) → Answered Q A → Prop)

/-- Whatever the answers, every event keeps the law of what went before it, and what is returned
meets the postcondition. -/
def Keeps (post : α → List (Answered Q A) → Prop) :
    Interaction Q A α → List (Answered Q A) → Prop
  | .done value, history => post value history
  | .ask question next, history => ∀ answer, law history ⟨question, answer⟩ ∧
      (next answer).Keeps post (history ++ [⟨question, answer⟩])

/-- Every question that the program may come to ask is of the given kind. -/
def Asks (kind : Q → Prop) : Interaction Q A α → Prop
  | .done _ => True
  | .ask question next => kind question ∧ ∀ answer, (next answer).Asks kind

variable {law} {post : α → List (Answered Q A) → Prop} {history : List (Answered Q A)}

@[simp] theorem keeps_pure {value : α} :
    Keeps law post (pure value : Interaction Q A α) history ↔ post value history := Iff.rfl

@[simp] theorem keeps_query {question : Q} {post : A question → List (Answered Q A) → Prop} :
    Keeps law post (query question) history ↔
      ∀ answer, law history ⟨question, answer⟩ ∧ post answer (history ++ [⟨question, answer⟩]) :=
  Iff.rfl

/-- The rule of consequence. -/
theorem Keeps.imp {other : α → List (Answered Q A) → Prop} {program : Interaction Q A α}
    (hp : ∀ value history, post value history → other value history)
    (h : Keeps law post program history) : Keeps law other program history := by
  induction program generalizing history with
  | done value => exact hp value history h
  | ask question next ih => exact fun answer => ⟨(h answer).1, ih answer (h answer).2⟩

/-- The rule of sequence. -/
theorem keeps_bind {other : β → List (Answered Q A) → Prop} {program : Interaction Q A α}
    {f : α → Interaction Q A β} :
    Keeps law other (program >>= f) history ↔
      Keeps law (fun value => Keeps law other (f value)) program history := by
  induction program generalizing history with
  | done value => exact Iff.rfl
  | ask question next ih => exact forall_congr' fun answer => and_congr Iff.rfl (ih answer)

@[simp] theorem asks_pure {kind : Q → Prop} {value : α} :
    Asks kind (pure value : Interaction Q A α) := trivial

theorem Asks.imp {kind other : Q → Prop} {program : Interaction Q A α}
    (hk : ∀ question, kind question → other question) (h : Asks kind program) :
    Asks other program := by
  induction program with
  | done value => trivial
  | ask question next ih => exact ⟨hk question h.1, fun answer => ih answer (h.2 answer)⟩

theorem asks_bind {kind : Q → Prop} {program : Interaction Q A α} {f : α → Interaction Q A β}
    (hp : Asks kind program) (hf : ∀ value, Asks kind (f value)) : Asks kind (program >>= f) := by
  induction program with
  | done value => exact hf value
  | ask question next ih => exact ⟨hp.1, fun answer => ih answer (hp.2 answer)⟩

/-- The rule of invariance, for a program that only asks questions which keep the invariant. -/
theorem Asks.keeps {kind : Q → Prop} {I : List (Answered Q A) → Prop} {program : Interaction Q A α}
    (hkind : ∀ history question answer, I history → kind question →
      law history ⟨question, answer⟩ ∧ I (history ++ [⟨question, answer⟩]))
    (hp : Asks kind program) (hi : I history) : Keeps law (fun _ => I) program history := by
  induction program generalizing history with
  | done value => exact hi
  | ask question next ih =>
    intro answer
    obtain ⟨hlaw, hnext⟩ := hkind history question answer hi hp.1
    exact ⟨hlaw, ih answer (hp.2 answer) hnext⟩

section Failing
variable {ε : Type w} {value : α} {task : ExceptT ε (Interaction Q A) α}

/-- The law for a program that may fail, with a postcondition of what it returns otherwise. -/
def Ensures (law : List (Answered Q A) → Answered Q A → Prop)
    (post : α → List (Answered Q A) → Prop) (task : ExceptT ε (Interaction Q A) α)
    (history : List (Answered Q A)) : Prop :=
  Keeps law (fun result history => ∀ value, result = .ok value → post value history) task.run history

theorem ensures_pure (h : post value history) :
    Ensures law post (pure value : ExceptT ε (Interaction Q A) α) history := by
  rintro _ ⟨rfl⟩
  exact h

theorem ensures_throw {error : ε} :
    Ensures law post (throw error : ExceptT ε (Interaction Q A) α) history := by
  rintro _ ⟨⟩

theorem ensures_result {result : Except ε α} (h : ∀ value, result = .ok value → post value history) :
    Ensures law post (ExceptT.mk (pure result) : ExceptT ε (Interaction Q A) α) history := h

theorem ensures_lift {program : Interaction Q A α} (h : Keeps law post program history) :
    Ensures law post (ExceptT.lift program : ExceptT ε (Interaction Q A) α) history := by
  refine keeps_bind.mpr (h.imp ?_)
  rintro value history hp _ ⟨rfl⟩
  exact hp

theorem Ensures.bind {other : β → List (Answered Q A) → Prop} {f : α → ExceptT ε (Interaction Q A) β}
    (h : Ensures law (fun value => Ensures law other (f value)) task history) :
    Ensures law other (task >>= f) history := by
  refine keeps_bind.mpr (Keeps.imp ?_ h)
  rintro (error | value) history hp
  · rintro _ ⟨⟩
  · exact hp value rfl

theorem Ensures.adapt {ε' : Type w} {f : ε → ε'} (h : Ensures law post task history) :
    Ensures law post (task.adapt f) history := by
  refine keeps_bind.mpr (Keeps.imp ?_ h)
  rintro (error | value) history hp
  · rintro _ ⟨⟩
  · rintro _ ⟨rfl⟩
    exact hp value rfl

theorem Ensures.imp {other : α → List (Answered Q A) → Prop}
    (hp : ∀ value history, post value history → other value history)
    (h : Ensures law post task history) : Ensures law other task history :=
  Keeps.imp (fun _ _ hr value he => hp value _ (hr value he)) h

/-- A program that may fail, and that only asks questions of the given kind. -/
def Confined (kind : Q → Prop) (task : ExceptT ε (Interaction Q A) α) : Prop := Asks kind task.run

variable {kind : Q → Prop}

theorem confined_pure : Confined kind (pure value : ExceptT ε (Interaction Q A) α) := trivial

theorem confined_result {result : Except ε α} :
    Confined kind (ExceptT.mk (pure result) : ExceptT ε (Interaction Q A) α) := trivial

theorem confined_lift {program : Interaction Q A α} (h : Asks kind program) :
    Confined kind (ExceptT.lift program : ExceptT ε (Interaction Q A) α) :=
  asks_bind h fun _ => trivial

theorem Confined.bind {f : α → ExceptT ε (Interaction Q A) β} (h : Confined kind task)
    (hf : ∀ value, Confined kind (f value)) : Confined kind (task >>= f) := by
  refine asks_bind h ?_
  rintro (error | value)
  · trivial
  · exact hf value

/-- The rule of invariance. -/
theorem Confined.ensures {law : List (Answered Q A) → Answered Q A → Prop}
    {I : List (Answered Q A) → Prop}
    (hkind : ∀ history question answer, I history → kind question →
      law history ⟨question, answer⟩ ∧ I (history ++ [⟨question, answer⟩]))
    (h : Confined kind task) (hi : I history) : Ensures law (fun _ => I) task history :=
  (Asks.keeps hkind h hi).imp fun _ _ hafter _ _ => hafter

end Failing
end Interaction

/-- A task under way: what it has been answered so far, and what it will do next. -/
structure Session (ι : Type x) (Q : Type u) (A : Q → Type v) (α : Type w) where
  task : ι
  history : List (Answered Q A)
  rest : Interaction Q A α

/-- What may happen to the tasks; one that is never answered again has been dropped. -/
inductive SessionMove (ι : Type x) (Q : Type u) (A : Q → Type v) where
  | start (task : ι)
  | answer (index : Nat) (choose : (question : Q) → A question)

namespace Session
variable {ι : Type x} {Q : Type u} {A : Q → Type v} {α : Type w} (program : ι → Interaction Q A α)

/-- The task's next question is answered. -/
def answered (choose : (question : Q) → A question) (session : Session ι Q A α) : Session ι Q A α :=
  match session.rest with
  | .done _ => session
  | .ask question next => { session with
      history := session.history ++ [⟨question, choose question⟩], rest := next (choose question) }

/-- The sessions after one move. -/
def step (sessions : List (Session ι Q A α)) : SessionMove ι Q A → List (Session ι Q A α)
  | .start task => sessions ++ [⟨task, [], program task⟩]
  | .answer index choose => sessions.modify index (answered choose)

variable (law : ι → List (Answered Q A) → Answered Q A → Prop)

/-- Every event of the task so far kept the law, and so will those to come. -/
def Lawful (session : Session ι Q A α) : Prop :=
  (∀ before event after, session.history = before ++ event :: after →
    law session.task before event) ∧
  session.rest.Keeps (law session.task) (fun _ _ => True) session.history

variable {law program}

theorem Lawful.answered {session : Session ι Q A α} (h : session.Lawful law)
    (choose : (question : Q) → A question) : (session.answered choose).Lawful law := by
  obtain ⟨task, history, rest⟩ := session
  obtain ⟨hpast, hrest⟩ := h
  cases rest with
  | done value => exact ⟨hpast, hrest⟩
  | ask question next =>
    refine ⟨fun before event after he => ?_, (hrest (choose question)).2⟩
    rcases List.eq_nil_or_concat after with rfl | ⟨front, last, rfl⟩
    · obtain ⟨rfl, hlast⟩ := List.append_inj' he rfl
      obtain rfl := (List.cons.inj hlast).1
      exact (hrest (choose question)).1
    · rw [List.concat_eq_append, ← List.cons_append, ← List.append_assoc] at he
      exact hpast before event front (List.append_inj' he rfl).1

/-- One move keeps the law in every task. -/
theorem step_lawful (hp : ∀ task, (program task).Keeps (law task) (fun _ _ => True) [])
    {sessions : List (Session ι Q A α)} {move : SessionMove ι Q A}
    (hs : ∀ session ∈ sessions, session.Lawful law) :
    ∀ session ∈ step program sessions move, session.Lawful law := by
  intro session hm
  cases move with
  | start task =>
    rcases List.mem_append.mp hm with hold | hnew
    · exact hs session hold
    · rw [List.mem_singleton.mp hnew]
      exact ⟨fun before event after he => by simp at he, hp task⟩
  | answer index choose =>
    obtain ⟨i, hi, rfl⟩ := List.mem_iff_getElem.mp hm
    have hlen : i < sessions.length := by simpa [step] using hi
    have hold : (sessions[i]).Lawful law := hs _ (List.getElem_mem hlen)
    simp only [step, List.getElem_modify]
    split
    · exact hold.answered choose
    · exact hold

/-- Side by side, in any order of starts and answers, all tasks keep the law. -/
theorem run_lawful (hp : ∀ task, (program task).Keeps (law task) (fun _ _ => True) [])
    (moves : List (SessionMove ι Q A)) :
    ∀ session ∈ run (step program) [] moves, session.Lawful law := by
  induction moves using List.reverseRecOn with
  | nil => exact fun session hm => absurd hm List.not_mem_nil
  | append_singleton moves move ih =>
    rw [run_append]
    exact step_lawful hp ih

end Session
end Gail.Library
