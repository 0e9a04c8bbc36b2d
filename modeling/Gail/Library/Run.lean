import Mathlib.Data.List.Chain

/-! Runs of a deterministic machine, and the rules that turn a step lemma into a run lemma. -/
namespace Gail.Library
variable {σ α : Type*} (step : σ → α → σ)

/-- The state reached by taking the inputs in order. -/
def run (state : σ) (inputs : List α) : σ := inputs.foldl step state

/-- A condition on every step of a run, asked of the state before the step and its input. -/
def Along (guard : σ → α → Prop) : σ → List α → Prop
  | _, [] => True
  | state, input :: inputs => guard state input ∧ Along guard (step state input) inputs

instance Along.decidable (guard : σ → α → Prop) [∀ s a, Decidable (guard s a)] (state : σ) :
    (inputs : List α) → Decidable (Along step guard state inputs)
  | [] => isTrue trivial
  | input :: inputs =>
    have := Along.decidable guard (step state input) inputs
    inferInstanceAs (Decidable (guard state input ∧ _))

/-- How often an event happens over a run. -/
def countAlong (event : σ → α → Bool) : σ → List α → Nat
  | _, [] => 0
  | state, input :: inputs =>
    (if event state input then 1 else 0) + countAlong event (step state input) inputs

/-- What a run lets an observer see, in order. -/
def trace {β : Type*} (observe : σ → α → Option β) : σ → List α → List β
  | _, [] => []
  | state, input :: inputs =>
    (observe state input).toList ++ trace observe (step state input) inputs

@[simp] theorem run_nil (state : σ) : run step state [] = state := rfl

@[simp] theorem run_cons (state : σ) (input : α) (inputs : List α) :
    run step state (input :: inputs) = run step (step state input) inputs := rfl

theorem run_append (state : σ) (before after : List α) :
    run step state (before ++ after) = run step (run step state before) after :=
  List.foldl_append

theorem trace_append {β : Type*} {observe : σ → α → Option β} (state : σ) (before after : List α) :
    trace step observe state (before ++ after) =
      trace step observe state before ++ trace step observe (run step state before) after := by
  induction before generalizing state with
  | nil => rfl
  | cons input before ih =>
    rw [List.cons_append, trace, trace, ih, run_cons, List.append_assoc]

theorem along_append {guard : σ → α → Prop} {state : σ} {before after : List α} :
    Along step guard state (before ++ after) ↔
      Along step guard state before ∧ Along step guard (run step state before) after := by
  induction before generalizing state with
  | nil => simp [Along]
  | cons input before ih => simp only [List.cons_append, Along, ih, run_cons, and_assoc]

theorem Along.mono {guard weaker : σ → α → Prop} (h : ∀ s a, guard s a → weaker s a)
    {state : σ} {inputs : List α} (ha : Along step guard state inputs) :
    Along step weaker state inputs := by
  induction inputs generalizing state with
  | nil => trivial
  | cons input inputs ih => exact ⟨h _ _ ha.1, ih ha.2⟩

/-- What is true of every input is true along the run. -/
theorem along_of_forall {guard : σ → α → Prop} {state : σ} {inputs : List α}
    (h : ∀ a ∈ inputs, ∀ s, guard s a) : Along step guard state inputs := by
  induction inputs generalizing state with
  | nil => trivial
  | cons input inputs ih =>
    obtain ⟨hinput, hrest⟩ := List.forall_mem_cons.mp h
    exact ⟨hinput state, ih hrest⟩

theorem Along.and {guard other : σ → α → Prop} {state : σ} {inputs : List α}
    (ha : Along step guard state inputs) (hb : Along step other state inputs) :
    Along step (fun s a => guard s a ∧ other s a) state inputs := by
  induction inputs generalizing state with
  | nil => trivial
  | cons input inputs ih => exact ⟨⟨ha.1, hb.1⟩, ih ha.2 hb.2⟩

/-- An invariant kept by every guarded step holds at the end of a guarded run. -/
theorem run_invariant {I : σ → Prop} {guard : σ → α → Prop}
    (hstep : ∀ s a, I s → guard s a → I (step s a)) {state : σ} {inputs : List α}
    (hi : I state) (ha : Along step guard state inputs) : I (run step state inputs) := by
  induction inputs generalizing state with
  | nil => exact hi
  | cons input inputs ih => exact ih (hstep _ _ hi ha.1) ha.2

/-- It holds before every step of the run too. -/
theorem along_invariant {I : σ → Prop} {guard : σ → α → Prop}
    (hstep : ∀ s a, I s → guard s a → I (step s a)) {state : σ} {inputs : List α}
    (hi : I state) (ha : Along step guard state inputs) : Along step (fun s _ => I s) state inputs := by
  induction inputs generalizing state with
  | nil => trivial
  | cons input inputs ih => exact ⟨hi, ih (hstep _ _ hi ha.1) ha.2⟩

/-- A relation between the events so far and the state, kept by every guarded step, holds at the end
of a guarded run. -/
theorem countAlong_invariant {I : Nat → σ → Prop} {guard : σ → α → Prop} {event : σ → α → Bool}
    (hstep : ∀ n s a, I n s → guard s a → I (n + if event s a then 1 else 0) (step s a))
    {n : Nat} {state : σ} {inputs : List α} (hi : I n state) (ha : Along step guard state inputs) :
    I (n + countAlong step event state inputs) (run step state inputs) := by
  induction inputs generalizing n state with
  | nil => exact hi
  | cons input inputs ih =>
    rw [run_cons, countAlong, ← Nat.add_assoc]
    exact ih (hstep n state input hi ha.1) ha.2

/-- Where every step pays for its events with what it takes from a store or with a grant, so does every run. -/
theorem countAlong_paid {I : σ → Prop} {event grant : σ → α → Bool} (store : σ → Nat)
    (hstep : ∀ s a, I s → I (step s a) ∧
      (if event s a then 1 else 0) + store (step s a) ≤ store s + if grant s a then 1 else 0)
    {state : σ} (hi : I state) (inputs : List α) :
    countAlong step event state inputs + store (run step state inputs) ≤
      store state + countAlong step grant state inputs := by
  induction inputs generalizing state with
  | nil => exact (Nat.zero_add _).le
  | cons input inputs ih =>
    have hrest := ih (hstep state input hi).1
    have hhead := (hstep state input hi).2
    rw [run_cons, countAlong, countAlong]
    omega

/-- The same with all inputs so far, and a guard that may look back at them. -/
theorem run_history {I : List α → σ → Prop} {guard : List α → σ → α → Prop} {state : σ}
    (hstep : ∀ before s a, I before s → guard before s a → I (before ++ [a]) (step s a))
    {inputs : List α} (hi : I [] state)
    (hg : ∀ before a after, inputs = before ++ a :: after → guard before (run step state before) a) :
    I inputs (run step state inputs) := by
  induction inputs using List.reverseRecOn with
  | nil => exact hi
  | append_singleton inputs input ih =>
    rw [run_append]
    apply hstep inputs _ input _ (hg inputs input [] rfl)
    apply ih
    intro before a after he
    exact hg before a (after ++ [input]) (by rw [he, List.append_assoc]; rfl)

/-- A condition on every input and the ones before it, asked of each position. -/
theorem forall_split_iff {P : List α → α → Prop} {inputs : List α} :
    (∀ before a after, inputs = before ++ a :: after → P before a) ↔
      ∀ i (h : i < inputs.length), P (inputs.take i) inputs[i] := by
  constructor
  · intro h i hi
    exact h _ _ (inputs.drop (i + 1)) (by rw [← List.drop_eq_getElem_cons hi, List.take_append_drop])
  · rintro h before a after rfl
    have hi : before.length < (before ++ a :: after).length := by simp
    simpa using h before.length hi

/-- Where every step of a run shows something or lowers a measure, it is shown within that many steps. -/
theorem run_shows {guard shows : σ → α → Prop} {measure : σ → Nat}
    (hstep : ∀ s a, guard s a → shows s a ∨ measure (step s a) < measure s) {state : σ}
    {inputs : List α} (ha : Along step guard state inputs) (hlen : measure state < inputs.length) :
    ∃ before input after, inputs = before ++ input :: after ∧ shows (run step state before) input := by
  induction inputs generalizing state with
  | nil => exact absurd hlen (Nat.not_lt_zero _)
  | cons input inputs ih =>
    rcases hstep state input ha.1 with hs | hlt
    · exact ⟨[], input, inputs, rfl, hs⟩
    · have hrest : measure (step state input) < inputs.length := by
        rw [List.length_cons] at hlen
        omega
      obtain ⟨before, next, after, rfl, hs⟩ := ih ha.2 hrest
      exact ⟨input :: before, next, after, rfl, hs⟩

/-- What holds at the end of a run and not at its start began to hold at one of its steps. -/
theorem run_enters {P : σ → Prop} {state : σ} {inputs : List α} (hs : ¬ P state)
    (h : P (run step state inputs)) :
    ∃ before input after, inputs = before ++ input :: after ∧ ¬ P (run step state before) ∧
      P (step (run step state before) input) := by
  induction inputs generalizing state with
  | nil => exact absurd h hs
  | cons input inputs ih =>
    by_cases hn : P (step state input)
    · exact ⟨[], input, inputs, rfl, hs, hn⟩
    · obtain ⟨before, next, after, rfl, hb, ha⟩ := ih hn h
      exact ⟨input :: before, next, after, rfl, hb, ha⟩

/-- Two machines agree in all that a run goes through exactly when the run meets a guard that keeps
them in step and whose failure is seen at once. -/
theorem along_iff_agree {τ : Type*} (other : τ → α → τ) {R P : σ → τ → Prop} {guard : σ → α → Prop}
    (hkeep : ∀ s t a, R s t → guard s a → R (step s a) (other t a)) (hP : ∀ s t, R s t → P s t)
    (hfail : ∀ s t a, R s t → ¬ guard s a → ¬ P (step s a) (other t a)) {state : σ} {twin : τ}
    {inputs : List α} (hr : R state twin) :
    Along step guard state inputs ↔
      ∀ before, before <+: inputs → P (run step state before) (run other twin before) := by
  induction inputs generalizing state twin with
  | nil =>
    refine iff_of_true trivial fun before hb => ?_
    rw [List.prefix_nil.mp hb]
    exact hP state twin hr
  | cons input inputs ih =>
    constructor
    · rintro ⟨hg, ha⟩ before hb
      match before with
      | [] => exact hP state twin hr
      | next :: before =>
        obtain ⟨rfl, htail⟩ := List.cons_prefix_cons.mp hb
        exact (ih (hkeep _ _ _ hr hg)).mp ha before htail
    · intro h
      by_cases hg : guard state input
      · refine ⟨hg, (ih (hkeep _ _ _ hr hg)).mpr fun before hb => ?_⟩
        exact h (input :: before) (List.cons_prefix_cons.mpr ⟨rfl, hb⟩)
      · refine absurd (h [input] ?_) (hfail _ _ _ hr hg)
        exact List.cons_prefix_cons.mpr ⟨rfl, List.nil_prefix⟩

/-- A guard whose failure is seen at once is exactly the condition for a property of every state that
a run goes through. -/
theorem along_iff_prefixes {I P : σ → Prop} {guard : σ → α → Prop}
    (hkeep : ∀ s a, I s → guard s a → I (step s a)) (hP : ∀ s, I s → P s)
    (hfail : ∀ s a, I s → ¬ guard s a → ¬ P (step s a)) {state : σ} {inputs : List α}
    (hi : I state) :
    Along step guard state inputs ↔ ∀ before, before <+: inputs → P (run step state before) := by
  have hunit : I state ∧ () = () := ⟨hi, rfl⟩
  exact along_iff_agree step (fun (t : Unit) _ => t) (R := fun s t => I s ∧ t = ())
    (P := fun s _ => P s) (fun s _ a h hg => ⟨hkeep s a h.1 hg, h.2⟩) (fun s _ h => hP s h.1)
    (fun s _ a h hg => hfail s a h.1 hg) hunit

section Observed
variable {β τ : Type*} {observe : σ → α → Option β} {part : σ → τ} {I : σ → Prop}

/-- What a run shows first it shows after some of its inputs. -/
theorem trace_split {front rest : List β} {state : σ} {inputs : List α}
    (h : trace step observe state inputs = front ++ rest) :
    ∃ before after, inputs = before ++ after ∧ trace step observe state before = front := by
  induction inputs generalizing state front with
  | nil =>
    obtain ⟨rfl, -⟩ := List.append_eq_nil_iff.mp h.symm
    exact ⟨[], [], rfl, rfl⟩
  | cons input inputs ih =>
    match front with
    | [] => exact ⟨[], input :: inputs, rfl, rfl⟩
    | b :: front =>
      rw [trace] at h
      cases ho : observe state input with
      | none =>
        rw [ho] at h
        obtain ⟨before, after, rfl, hb⟩ := ih h
        refine ⟨input :: before, after, rfl, ?_⟩
        rw [trace, ho, hb]
        rfl
      | some c =>
        rw [ho] at h
        obtain ⟨rfl, hrest⟩ := List.cons.inj h
        obtain ⟨before, after, rfl, hb⟩ := ih hrest
        refine ⟨input :: before, after, rfl, ?_⟩
        rw [trace, ho, hb]
        rfl

/-- An invariant of every step holds at the end of a run. -/
theorem run_keeps (hkeep : ∀ s a, I s → I (step s a)) {state : σ} (inputs : List α) (hi : I state) :
    I (run step state inputs) := by
  induction inputs generalizing state with
  | nil => exact hi
  | cons input inputs ih => exact ih (hkeep state input hi)

/-- What holds of every observation from an invariant state holds of all that a run shows. -/
theorem trace_forall {P : β → Prop} (hkeep : ∀ s a, I s → I (step s a))
    (hobserve : ∀ s a b, I s → observe s a = some b → P b) {state : σ} (inputs : List α)
    (hi : I state) : ∀ b ∈ trace step observe state inputs, P b := by
  induction inputs generalizing state with
  | nil => intro b hb; cases hb
  | cons input inputs ih =>
    intro b hb
    rcases List.mem_append.mp hb with hb | hb
    · exact hobserve _ _ b hi (Option.mem_toList.mp hb)
    · exact ih (hkeep state input hi) b hb

section Congruence
variable {other : σ → α → σ} {seen : σ → α → Option β}

/-- Two machines that agree on the states a run goes through reach the same state. -/
theorem run_congr (hkeep : ∀ s a, I s → I (step s a)) (hstep : ∀ s a, I s → step s a = other s a)
    {state : σ} (inputs : List α) (hi : I state) :
    run step state inputs = run other state inputs := by
  induction inputs generalizing state with
  | nil => rfl
  | cons input inputs ih =>
    rw [run_cons, run_cons, ih (hkeep state input hi), hstep state input hi]

theorem trace_congr (hkeep : ∀ s a, I s → I (step s a)) (hstep : ∀ s a, I s → step s a = other s a)
    (hseen : ∀ s a, I s → observe s a = seen s a) {state : σ} (inputs : List α) (hi : I state) :
    trace step observe state inputs = trace other seen state inputs := by
  induction inputs generalizing state with
  | nil => rfl
  | cons input inputs ih =>
    rw [trace, trace, ih (hkeep state input hi), hstep state input hi, hseen state input hi]

theorem along_congr {guard : σ → α → Prop} (hkeep : ∀ s a, I s → I (step s a))
    (hstep : ∀ s a, I s → step s a = other s a) {state : σ} (inputs : List α) (hi : I state) :
    Along step guard state inputs ↔ Along other guard state inputs := by
  induction inputs generalizing state with
  | nil => rfl
  | cons input inputs ih =>
    rw [Along, Along, ih (hkeep state input hi), hstep state input hi]

end Congruence

/-- A part of the state that only changes by what is observed is a fold of the observations. -/
theorem run_foldl_trace {apply : τ → β → τ} (hkeep : ∀ s a, I s → I (step s a))
    (hstep : ∀ s a, I s → part (step s a) = (observe s a).elim (part s) (apply (part s)))
    {state : σ} (inputs : List α) (hi : I state) :
    part (run step state inputs) = (trace step observe state inputs).foldl apply (part state) := by
  induction inputs generalizing state with
  | nil => rfl
  | cons input inputs ih =>
    rw [run_cons, ih (hkeep _ _ hi), hstep _ _ hi, trace, List.foldl_append]
    cases observe state input <;> rfl

/-- Observations that tell a part of the state before and after them fit together over a run. -/
theorem trace_isChain {pre post : β → τ} (part : σ → τ) (hkeep : ∀ s a, I s → I (step s a))
    (hnone : ∀ s a, I s → observe s a = none → part (step s a) = part s)
    (hsome : ∀ s a b, I s → observe s a = some b → pre b = part s ∧ part (step s a) = post b)
    {state : σ} (inputs : List α) (hi : I state) :
    (trace step observe state inputs).IsChain (fun a b => pre b = post a) ∧
      ∀ b ∈ (trace step observe state inputs).head?, pre b = part state := by
  induction inputs generalizing state with
  | nil => exact ⟨List.isChain_nil, fun b hb => by cases hb⟩
  | cons input inputs ih =>
    obtain ⟨hc, hh⟩ := ih (hkeep state input hi)
    rw [trace]
    cases ho : observe state input with
    | none =>
      rw [hnone _ _ hi ho] at hh
      exact ⟨hc, hh⟩
    | some b =>
      obtain ⟨hpre, hpost⟩ := hsome _ _ _ hi ho
      refine ⟨List.isChain_cons.mpr ⟨?_, hc⟩, ?_⟩
      · intro c hm
        rw [hh c hm, hpost]
      · intro c hm
        rw [← Option.some.inj hm]
        exact hpre

end Observed

/-- An event that needs room under a bound and uses one unit of it each time happens at most as
often as there was room, and the level at the end accounts for every occurrence. -/
theorem countAlong_bounded {I : σ → Prop} {guard : σ → α → Prop} {event : σ → α → Bool}
    {level : σ → Nat} {bound : Nat} (hkeep : ∀ s a, I s → guard s a → I (step s a))
    (hmono : ∀ s a, I s → guard s a → level s ≤ level (step s a))
    (hevent : ∀ s a, I s → guard s a → event s a = true →
      level s < bound ∧ level (step s a) = level s + 1)
    {state : σ} {inputs : List α} (hi : I state) (ha : Along step guard state inputs) :
    level state + countAlong step event state inputs ≤ max bound (level state) ∧
      level state + countAlong step event state inputs ≤ level (run step state inputs) := by
  induction inputs generalizing state with
  | nil =>
    simp only [countAlong, run_nil]
    omega
  | cons input inputs ih =>
    obtain ⟨hbound, hlevel⟩ := ih (hkeep state input hi ha.1) ha.2
    have hle := hmono state input hi ha.1
    rw [run_cons, countAlong]
    cases he : event state input with
    | true =>
      obtain ⟨hlt, hsucc⟩ := hevent state input hi ha.1 he
      rw [if_pos rfl]
      omega
    | false =>
      rw [if_neg (by simp)]
      omega

end Gail.Library
