import Gail.Ledger.LedgerRuns
import Gail.Library.CountedAttempts

/-! The mirror workers. Each reads a batch of rows and works through it with what it read; the statements of all of
them, of the gateway and of the trainer fall in any order. -/
namespace Gail.Ledger
open Gail.Library
variable {Value F ω : Type}

inductive AarnnMirrorDirection
  | input
  | output
  deriving DecidableEq, Repr

structure AarnnMirrorCandidate where
  replyText : Option String
  usable : Bool
  source : Option String

/-- The answer of the bridge, as far as the worker reads it. -/
structure AarnnMirrorInvocationTrace where
  direction : AarnnMirrorDirection
  accepted : Bool
  candidate : Option AarnnMirrorCandidate
  error : Option String

def isBlank (text : String) : Bool := (trim text).isEmpty

/-- That the exchange was accepted is not enough: an output needs a usable candidate with a reply. -/
def mirrorSemanticError (trace : AarnnMirrorInvocationTrace) : Option String :=
  match trace.error with
  | some error => some error
  | none =>
    if !trace.accepted then some "AARNN transport response was not accepted"
    else if trace.direction = .output then
      match trace.candidate with
      | none => some "output candidate missing after accepted transport"
      | some candidate =>
        if !candidate.usable then
          some ("output candidate unusable: " ++ candidate.source.getD "network_output_unavailable")
        else if candidate.replyText.all isBlank then some "output candidate has no reply text"
        else none
    else none

/-- How far a worker is with the first row that it has in hand. -/
inductive MirrorPhase
  | fetched
  /-- The prompt was replayed, unless nothing of it was to be sent. -/
  | inputDone (sent : Bool) (errors : List String)
  | outputDone (sent : Bool) (errors : List String)

structure MirrorWorker (Value F : Type) where
  entries : List (LedgerInteraction Value F)
  phase : MirrorPhase

def MirrorWorker.idle : MirrorWorker Value F := ⟨[], .fetched⟩

/-- The settings of the bridge and of the workers, and the order that the advisor puts a batch in. -/
structure MirrorConfig (Value F : Type) extends LedgerConfig where
  mirrorInput : Bool
  mirrorOutput : Bool
  batchSize : Nat
  orderBatch : List (LedgerInteraction Value F) → List (LedgerInteraction Value F)
  orderBatch_perm : ∀ entries, (orderBatch entries).Perm entries

/-- What a worker does next, with what the bridge answers and whether its statement is executed. -/
inductive MirrorAction
  | poll (now : Nat)
  | deliverInput (trace : AarnnMirrorInvocationTrace)
  | deliverOutput (trace : AarnnMirrorInvocationTrace)
  | mark (executed : Bool) (now : Nat)
  | crash

inductive MirrorEvent (Value F ω : Type)
  | worker (worker : ω) (action : MirrorAction)
  /-- A statement of the gateway or the trainer, or a validation. -/
  | elsewhere (statement : Statement Value F) (other : statement.marksMirror = false)

structure MirrorWorld (Value F ω : Type) where
  table : LedgerTable Value F
  workers : ω → MirrorWorker Value F

def MirrorWorld.start : MirrorWorld Value F ω := ⟨.empty, fun _ => .idle⟩

/-- The row was open when it was read. -/
def LedgerInteraction.mirrorPending (entry : LedgerInteraction Value F) : Bool :=
  entry.mirror.status != some .mirrored && entry.mirror.status != some .failed

namespace MirrorWorker
variable (config : MirrorConfig Value F)

/-- The prompt of the row is to be sent. -/
def sendsInput (entry : LedgerInteraction Value F) : Bool :=
  entry.mirrorPending && config.mirrorInput && !isBlank entry.record.promptText

def sendsOutput (entry : LedgerInteraction Value F) : Bool :=
  config.mirrorOutput && entry.record.responseText.any (!isBlank ·)

def inputErrors (entry : LedgerInteraction Value F) (trace : AarnnMirrorInvocationTrace) : List String :=
  if sendsInput config entry then (mirrorSemanticError trace).toList.map ("input mirror: " ++ ·) else []

def outputErrors (entry : LedgerInteraction Value F) (trace : AarnnMirrorInvocationTrace) : List String :=
  if sendsOutput config entry && entry.mirrorPending then
    (mirrorSemanticError trace).toList.map ("output mirror: " ++ ·) else []

/-- The statement that ends the work on a row. -/
def markStatement (entry : LedgerInteraction Value F) (errors : List String) (now : Nat) : Statement Value F :=
  if errors.isEmpty then .mirrorSuccess entry.id now
  else .mirrorRetry entry.id (String.intercalate " | " errors) now

end MirrorWorker

namespace MirrorWorld
variable [DecidableEq ω] (config : MirrorConfig Value F)
open MirrorWorker

def setWorker (world : MirrorWorld Value F ω) (w : ω) (worker : MirrorWorker Value F) : MirrorWorld Value F ω :=
  { world with workers := Function.update world.workers w worker }

@[simp] theorem setWorker_table (world : MirrorWorld Value F ω) (w : ω) (worker : MirrorWorker Value F) :
    (world.setWorker w worker).table = world.table := rfl

@[simp] theorem setWorker_self (world : MirrorWorld Value F ω) (w : ω) (worker : MirrorWorker Value F) :
    (world.setWorker w worker).workers w = worker := by simp [setWorker]

theorem setWorker_of_ne (world : MirrorWorld Value F ω) {w v : ω} (h : v ≠ w) (worker : MirrorWorker Value F) :
    (world.setWorker w worker).workers v = world.workers v := by simp [setWorker, h]

/-- An action that does not fit the worker's place in its work changes nothing. -/
def act (world : MirrorWorld Value F ω) (w : ω) : MirrorAction → MirrorWorld Value F ω
  | .crash => world.setWorker w .idle
  | .poll now =>
    match (world.workers w).entries with
    | [] => world.setWorker w ⟨config.orderBatch (world.table.fetchPendingMirror config.batchSize now), .fetched⟩
    | _ :: _ => world
  | .deliverInput trace =>
    match world.workers w with
    | ⟨entry :: entries, .fetched⟩ =>
      world.setWorker w ⟨entry :: entries, .inputDone (sendsInput config entry) (inputErrors config entry trace)⟩
    | _ => world
  | .deliverOutput trace =>
    match world.workers w with
    | ⟨entry :: entries, .inputDone sent errors⟩ =>
      world.setWorker w ⟨entry :: entries, .outputDone sent (errors ++ outputErrors config entry trace)⟩
    | _ => world
  | .mark executed now =>
    match world.workers w with
    | ⟨entry :: entries, .outputDone _ errors⟩ =>
      { world.setWorker w ⟨entries, .fetched⟩ with
        table := if executed then world.table.step config.toLedgerConfig (markStatement entry errors now)
          else world.table }
    | _ => world

def step (world : MirrorWorld Value F ω) : MirrorEvent Value F ω → MirrorWorld Value F ω
  | .worker w action => world.act config w action
  | .elsewhere statement _ => { world with table := world.table.step config.toLedgerConfig statement }

/-- The event sends the prompt of a row to the bridge. -/
def sendsPrompt (id : Nat) (world : MirrorWorld Value F ω) : MirrorEvent Value F ω → Bool
  | .worker w (.deliverInput _) =>
    match world.workers w with
    | ⟨entry :: _, .fetched⟩ => entry.id = id && sendsInput config entry
    | _ => false
  | _ => false

/-- The event ends an attempt at a row, whose prompt was sent, without marking the row. -/
def losesAttempt (id : Nat) (world : MirrorWorld Value F ω) : MirrorEvent Value F ω → Bool
  | .worker w .crash =>
    match world.workers w with
    | ⟨entry :: _, .inputDone sent _⟩ => entry.id = id && sent
    | ⟨entry :: _, .outputDone sent _⟩ => entry.id = id && sent
    | _ => false
  | .worker w (.mark false _) =>
    match world.workers w with
    | ⟨entry :: _, .outputDone sent _⟩ => entry.id = id && sent
    | _ => false
  | _ => false

end MirrorWorld

/-- How often the row of an id has been marked. -/
def LedgerTable.attemptsOf (id : Nat) (table : LedgerTable Value F) : Nat :=
  ((rowOf LedgerInteraction.id id table.rows).map (·.mirror.attempts)).getD 0

namespace LedgerTable
variable {config : LedgerConfig} {table : LedgerTable Value F}

/-- An update that keeps the attempts of the rows. -/
private theorem attemptsOf_update {chosen : LedgerInteraction Value F → Bool}
    {change : LedgerInteraction Value F → LedgerInteraction Value F}
    (h : ∀ row, (change row).id = row.id ∧ (change row).mirror = row.mirror) (id : Nat) :
    attemptsOf id (table.update chosen change) = attemptsOf id table := by
  rw [attemptsOf, LedgerTable.update, rowOf_updateWhere fun row _ => (h row).1, Option.map_map, attemptsOf]
  congr 2
  funext row
  rw [Function.comp_apply]
  split
  · rw [(h row).2]
  · rfl

theorem attemptsOf_elsewhere {statement : Statement Value F} (h : statement.marksMirror = false) (id : Nat) :
    attemptsOf id (table.step config statement) = attemptsOf id table := by
  by_cases hs : ∃ record, statement = .persist record
  · obtain ⟨record, rfl⟩ := hs
    rcases persist_cases record table with ⟨_, he⟩ | ⟨_, he⟩ <;> rw [LedgerTable.step, he]
    · rw [attemptsOf, rowOf_append, rowOf_singleton, attemptsOf]
      cases rowOf LedgerInteraction.id id table.rows with
      | some row => rfl
      | none =>
        rw [Option.none_or]
        split <;> rfl
    · have hkeep (row : LedgerInteraction Value F) :
          ({ row with record := record.stored } : LedgerInteraction Value F).id = row.id ∧
            ({ row with record := record.stored } : LedgerInteraction Value F).mirror = row.mirror := ⟨rfl, rfl⟩
      exact attemptsOf_update hkeep id
  · obtain ⟨chosen, change, he, hk, _, hm, _⟩ := step_worker config table (not_exists.mp hs)
    rw [he]
    exact attemptsOf_update (fun row => ⟨(hk row).1, hm h row⟩) id

/-- The mark of a row counts one attempt, of that row alone. -/
theorem attemptsOf_mark (entry : LedgerInteraction Value F) (errors : List String) (now id : Nat)
    (hrow : entry.id ∈ table.rows.map LedgerInteraction.id) :
    attemptsOf id (table.step config (MirrorWorker.markStatement entry errors now)) =
      attemptsOf id table + if entry.id = id then 1 else 0 := by
  have hmark : ∃ change : LedgerInteraction Value F → LedgerInteraction Value F,
      table.step config (MirrorWorker.markStatement entry errors now) = table.update (·.id = entry.id) change ∧
        ∀ row, (change row).id = row.id ∧ (change row).mirror.attempts = row.mirror.attempts + 1 := by
    unfold MirrorWorker.markStatement
    split
    · exact ⟨_, rfl, fun _ => ⟨rfl, rfl⟩⟩
    · exact ⟨_, rfl, fun _ => ⟨rfl, rfl⟩⟩
  obtain ⟨change, he, hc⟩ := hmark
  rw [he, attemptsOf, LedgerTable.update, rowOf_updateWhere fun row _ => (hc row).1, Option.map_map, attemptsOf]
  cases hr : rowOf LedgerInteraction.id id table.rows with
  | none =>
    obtain ⟨row, hmem, hid⟩ := List.mem_map.mp hrow
    rw [if_neg fun heq => rowOf_eq_none.mp hr row hmem (hid.trans heq)]
    rfl
  | some row =>
    have hid := (rowOf_some hr).2
    by_cases heq : entry.id = id
    · simp [heq, hid, (hc row).2]
    · simp [heq, hid, Ne.symm heq]

theorem mem_fetchPendingMirror {batchSize now : Nat} {row : LedgerInteraction Value F}
    (h : row ∈ table.fetchPendingMirror batchSize now) : row ∈ table.rows ∧ row.pendingMirror now = true := by
  have hsorted := (sortByKey_perm _).mem_iff.mp (List.mem_of_mem_take h)
  exact List.mem_filter.mp hsorted

theorem Keyed.fetchPendingMirror_ids (h : table.Keyed) (batchSize now : Nat) :
    ((table.fetchPendingMirror batchSize now).map LedgerInteraction.id).Nodup := by
  have hfilter := h.ids.sublist (List.filter_sublist (p := (·.pendingMirror now)).map LedgerInteraction.id)
  have hperm : (sortByKey LedgerInteraction.id (table.rows.filter (·.pendingMirror now))).Perm _ := sortByKey_perm _
  have hsorted := ((hperm.map LedgerInteraction.id).nodup_iff).mpr hfilter
  exact hsorted.sublist ((List.take_sublist _ _).map _)

end LedgerTable

/-- An open row has attempts left. -/
theorem LedgerInteraction.Sound.attempts_lt {maxAttempts : Nat} {row : LedgerInteraction Value F}
    (h : row.Sound maxAttempts) (hp : row.mirrorPending = true) : row.mirror.attempts < maxAttempts := by
  apply h.mirror.below
  rw [← Option.not_isSome_iff_eq_none, h.mirror.closed]
  simpa [LedgerInteraction.mirrorPending, not_or] using hp

namespace MirrorWorker
variable (config : MirrorConfig Value F) (id : Nat)

/-- A worker still has to begin with the row, which it read when it was open. -/
def holds (entries : List (LedgerInteraction Value F)) : Bool :=
  entries.any fun entry => entry.id = id && entry.mirrorPending

/-- The worker has sent the prompt of the row and has not ended its work on it. -/
def underway : MirrorWorker Value F → Bool
  | ⟨entry :: _, .inputDone sent _⟩ => entry.id = id && sent
  | ⟨entry :: _, .outputDone sent _⟩ => entry.id = id && sent
  | _ => false

/-- What the worker has yet to begin with. -/
def ahead : MirrorWorker Value F → List (LedgerInteraction Value F)
  | ⟨entries, .fetched⟩ => entries
  | ⟨entries, _⟩ => entries.tail

/-- How far the worker is with mirroring one row. -/
def attemptPhase (worker : MirrorWorker Value F) : AttemptPhase :=
  if worker.underway id then .underway else if holds id worker.ahead then .claimed else .idle

section Phases
variable {id : Nat} {entry : LedgerInteraction Value F} {entries : List (LedgerInteraction Value F)}

theorem attemptPhase_fetched : attemptPhase id ⟨entries, .fetched⟩ = if holds id entries then .claimed else .idle := by
  cases entries <;> rfl

theorem attemptPhase_inputDone (sent : Bool) (errors : List String) :
    attemptPhase id ⟨entry :: entries, .inputDone sent errors⟩ =
      if entry.id = id && sent then .underway else if holds id entries then .claimed else .idle := rfl

theorem attemptPhase_nil (phase : MirrorPhase) : attemptPhase id (⟨[], phase⟩ : MirrorWorker Value F) = .idle := by
  cases phase <;> rfl

theorem attemptPhase_eq_underway {worker : MirrorWorker Value F} :
    worker.attemptPhase id = .underway ↔ worker.underway id = true := by
  unfold attemptPhase
  split
  · rename_i h
    exact iff_of_true rfl h
  · rename_i h
    refine iff_of_false (fun he => ?_) h
    split at he <;> cases he

/-- Of a batch that has every row once, the first row is not among the others. -/
theorem holds_tail (hn : ((entry :: entries).map LedgerInteraction.id).Nodup) (h : entry.id = id) :
    holds id entries = false := by
  rw [List.map_cons, List.nodup_cons] at hn
  rw [holds, List.any_eq_false]
  intro other ho hholds
  have hid : other.id = id := by simpa using (Bool.and_eq_true_iff.mp hholds).1
  exact hn.1 (List.mem_map.mpr ⟨other, ho, hid.trans h.symm⟩)

end Phases

end MirrorWorker

namespace MirrorWorld
open MirrorWorker
variable [DecidableEq ω] {config : MirrorConfig Value F} {world : MirrorWorld Value F ω}

/-- The table is in order, and what the workers have in hand are rows of it, each once. -/
structure Sound (config : MirrorConfig Value F) (world : MirrorWorld Value F ω) : Prop where
  keyed : world.table.Keyed
  rows : world.table.Sound config.mirrorMaxAttempts
  nodup : ∀ w, ((world.workers w).entries.map LedgerInteraction.id).Nodup
  known : ∀ w, ∀ entry ∈ (world.workers w).entries, entry.id ∈ world.table.rows.map LedgerInteraction.id

/-- The attempts of all workers at one row, with how many prompts were sent and how many attempts were lost. -/
def attempts (id : Nat) (sent lost : Nat) (world : MirrorWorld Value F ω) : Attempts ω :=
  ⟨fun w => (world.workers w).attemptPhase id, world.table.attemptsOf id, sent, lost⟩

omit [DecidableEq ω] in
theorem Sound.setTable (h : world.Sound config) (statement : Statement Value F) :
    Sound config { world with table := world.table.step config.toLedgerConfig statement } where
  keyed := h.keyed.step _ statement
  rows := h.rows.step _ statement
  nodup := h.nodup
  known w entry he := LedgerTable.mem_ids_step _ (h.known w entry he)

theorem Sound.setWorker (h : world.Sound config) (w : ω) {worker : MirrorWorker Value F}
    (hn : (worker.entries.map LedgerInteraction.id).Nodup)
    (hk : ∀ entry ∈ worker.entries, entry.id ∈ world.table.rows.map LedgerInteraction.id) :
    (world.setWorker w worker).Sound config where
  keyed := h.keyed
  rows := h.rows
  nodup v := by
    by_cases hv : v = w
    · subst hv
      rwa [setWorker_self]
    · rw [setWorker_of_ne world hv]
      exact h.nodup v
  known v entry he := by
    by_cases hv : v = w
    · subst hv
      rw [setWorker_self] at he
      exact hk entry he
    · rw [setWorker_of_ne world hv] at he
      exact h.known v entry he

/-- The attempts at a row when one worker has moved on. -/
theorem attempts_setWorker (id sent lost : Nat) (w : ω) (worker : MirrorWorker Value F) :
    (world.setWorker w worker).attempts id sent lost =
      { world.attempts id sent lost with
        phase := Function.update (world.attempts id sent lost).phase w (worker.attemptPhase id) } := by
  rw [attempts, setWorker_table, attempts]
  congr 1
  funext v
  by_cases hv : v = w
  · subst hv
    rw [setWorker_self, Function.update_self]
  · rw [setWorker_of_ne world hv, Function.update_of_ne hv]

theorem attempts_same {id sent lost : Nat} {w : ω} {worker : MirrorWorker Value F}
    (h : worker.attemptPhase id = (world.workers w).attemptPhase id) :
    (world.setWorker w worker).attempts id sent lost = world.attempts id sent lost := by
  rw [attempts_setWorker, h]
  exact congrArg (fun phase => Attempts.mk phase _ _ _) (Function.update_eq_self w _)

/-- Every action of a worker keeps the world in order. -/
theorem Sound.act (h : world.Sound config) (w : ω) (action : MirrorAction) :
    (world.act config w action).Sound config := by
  have hn := h.nodup w
  have hk := h.known w
  cases action with
  | crash => exact h.setWorker w List.nodup_nil (fun _ he => absurd he List.not_mem_nil)
  | poll now =>
    rw [MirrorWorld.act]
    split
    · have hperm := config.orderBatch_perm (world.table.fetchPendingMirror config.batchSize now)
      refine h.setWorker w ?_ fun entry he => ?_
      · exact ((hperm.map LedgerInteraction.id).nodup_iff).mpr (h.keyed.fetchPendingMirror_ids _ _)
      · exact List.mem_map_of_mem (LedgerTable.mem_fetchPendingMirror (hperm.mem_iff.mp he)).1
    · exact h
  | deliverInput trace =>
    rw [MirrorWorld.act]
    split
    · rename_i entry entries hw
      rw [hw] at hn hk
      exact h.setWorker w hn hk
    · exact h
  | deliverOutput trace =>
    rw [MirrorWorld.act]
    split
    · rename_i entry entries sent errors hw
      rw [hw] at hn hk
      exact h.setWorker w hn hk
    · exact h
  | mark executed now =>
    rw [MirrorWorld.act]
    split
    · rename_i entry entries sent errors hw
      rw [hw] at hn hk
      have hrest : (world.setWorker w ⟨entries, .fetched⟩).Sound config :=
        h.setWorker w (List.nodup_cons.mp hn).2 fun other ho => hk other (List.mem_cons_of_mem _ ho)
      cases executed with
      | false => exact hrest
      | true => exact hrest.setTable _
    · exact h

theorem Sound.step (h : world.Sound config) (event : MirrorEvent Value F ω) :
    (world.step config event).Sound config := by
  cases event with
  | worker w action => exact h.act w action
  | elsewhere statement other => exact h.setTable statement

/-- What the step of a worker that has moved on means for one row. -/
theorem attempts_move {id sent lost sent' lost' : Nat} {w : ω} {worker : MirrorWorker Value F}
    (hm : Attempts.Step config.mirrorMaxAttempts (world.attempts id sent lost)
        ⟨Function.update (world.attempts id sent lost).phase w (worker.attemptPhase id), world.table.attemptsOf id,
          sent', lost'⟩ ∨
      (worker.attemptPhase id = (world.workers w).attemptPhase id ∧ sent' = sent ∧ lost' = lost)) :
    Relation.ReflTransGen (Attempts.Step config.mirrorMaxAttempts) (world.attempts id sent lost)
      ((world.setWorker w worker).attempts id sent' lost') := by
  rcases hm with hm | ⟨hp, rfl, rfl⟩
  · rw [attempts_setWorker]
    exact .single hm
  · rw [attempts_same hp]

section Simulation
variable {id sent lost : Nat} {w : ω}

/-- How the prompts that were sent and the attempts that were lost add up at an event. -/
def Follows (config : MirrorConfig Value F) (id sent lost : Nat) (world : MirrorWorld Value F ω)
    (event : MirrorEvent Value F ω) : Prop :=
  Relation.ReflTransGen (Attempts.Step config.mirrorMaxAttempts) (world.attempts id sent lost)
    ((world.step config event).attempts id (sent + if world.sendsPrompt config id event then 1 else 0)
      (lost + if world.losesAttempt id event then 1 else 0))

theorem follows_crash : Follows config id sent lost world (.worker w .crash) := by
  have hlost : world.losesAttempt id (.worker w .crash) = (world.workers w).underway id := rfl
  refine attempts_move ?_
  rw [hlost]
  cases hu : (world.workers w).underway id with
  | true => exact .inl (.lose w (attemptPhase_eq_underway.mpr hu))
  | false =>
    refine .inl (.release w fun he => ?_)
    rw [attemptPhase_eq_underway.mp he] at hu
    cases hu

theorem follows_poll (h : world.Sound config) (now : Nat) :
    Follows config id sent lost world (.worker w (.poll now)) := by
  cases hw : world.workers w with
  | mk entries phase =>
    cases entries with
    | cons entry entries =>
      have hstay : world.act config w (.poll now) = world := by rw [act, hw]
      rw [Follows, MirrorWorld.step, hstay]
      exact .refl
    | nil =>
      have hact : world.act config w (.poll now) = world.setWorker w
          ⟨config.orderBatch (world.table.fetchPendingMirror config.batchSize now), .fetched⟩ := by rw [act, hw]
      rw [Follows, MirrorWorld.step, hact]
      have hidle : (world.workers w).attemptPhase id = .idle := hw ▸ attemptPhase_nil phase
      refine attempts_move ?_
      rw [attemptPhase_fetched]
      split
      · rename_i hholds
        obtain ⟨entry, he, hentry⟩ := List.any_eq_true.mp hholds
        obtain ⟨hid, hpending⟩ := Bool.and_eq_true_iff.mp hentry
        have hrow := (LedgerTable.mem_fetchPendingMirror ((config.orderBatch_perm _).mem_iff.mp he)).1
        have hcount : world.table.attemptsOf id < config.mirrorMaxAttempts := by
          rw [LedgerTable.attemptsOf, ← of_decide_eq_true hid, rowOf_eq_some h.keyed.ids hrow]
          exact (h.rows.each entry hrow).attempts_lt hpending
        exact .inl (.claim w hidle hcount)
      · exact .inr ⟨hidle.symm, rfl, rfl⟩

/-- Nothing is sent and nothing is lost where an action does not fit. -/
theorem follows_stay {event : MirrorEvent Value F ω} (hstep : world.step config event = world)
    (hs : world.sendsPrompt config id event = false) (hl : world.losesAttempt id event = false) :
    Follows config id sent lost world event := by
  rw [Follows, hstep, hs, hl]
  exact .refl

theorem follows_deliverInput (trace : AarnnMirrorInvocationTrace) :
    Follows config id sent lost world (.worker w (.deliverInput trace)) := by
  match hw : world.workers w with
  | ⟨[], phase⟩ => exact follows_stay (by simp [step, act, hw]) (by simp [sendsPrompt, hw]) rfl
  | ⟨entry :: entries, .inputDone _ _⟩ => exact follows_stay (by simp [step, act, hw]) (by simp [sendsPrompt, hw]) rfl
  | ⟨entry :: entries, .outputDone _ _⟩ => exact follows_stay (by simp [step, act, hw]) (by simp [sendsPrompt, hw]) rfl
  | ⟨entry :: entries, .fetched⟩ =>
    have hact : world.act config w (.deliverInput trace) = world.setWorker w ⟨entry :: entries,
        .inputDone (sendsInput config entry) (inputErrors config entry trace)⟩ := by rw [act, hw]
    have hsends : world.sendsPrompt config id (.worker w (.deliverInput trace)) =
        (entry.id = id && sendsInput config entry) := by rw [sendsPrompt, hw]
    rw [Follows, MirrorWorld.step, hact, hsends]
    refine attempts_move ?_
    have hphase : (world.workers w).attemptPhase id =
        if holds id (entry :: entries) then .claimed else .idle := hw ▸ attemptPhase_fetched
    rw [attemptPhase_inputDone]
    by_cases hsent : (entry.id = id && sendsInput config entry) = true
    · rw [if_pos hsent, if_pos hsent]
      obtain ⟨hid, hinput⟩ := Bool.and_eq_true_iff.mp hsent
      have hpending : entry.mirrorPending = true := by
        rw [sendsInput, Bool.and_eq_true_iff, Bool.and_eq_true_iff] at hinput
        exact hinput.1.1
      have hclaimed : (world.workers w).attemptPhase id = .claimed := by
        rw [hphase, if_pos (by rw [holds, List.any_cons, hid, hpending]; rfl)]
      exact .inl (.begin w hclaimed)
    · rw [if_neg hsent, if_neg hsent]
      by_cases hrest : holds id entries = true
      · refine .inr ⟨?_, rfl, rfl⟩
        rw [if_pos hrest, hphase, if_pos (by rw [holds, List.any_cons, ← holds, hrest, Bool.or_true])]
      · rw [if_neg hrest]
        refine .inl (.release w fun he => ?_)
        have he := hphase.symm.trans he
        split at he <;> cases he

theorem follows_deliverOutput (trace : AarnnMirrorInvocationTrace) :
    Follows config id sent lost world (.worker w (.deliverOutput trace)) := by
  match hw : world.workers w with
  | ⟨[], phase⟩ => exact follows_stay (by simp [step, act, hw]) rfl rfl
  | ⟨entry :: entries, .fetched⟩ => exact follows_stay (by simp [step, act, hw]) rfl rfl
  | ⟨entry :: entries, .outputDone _ _⟩ => exact follows_stay (by simp [step, act, hw]) rfl rfl
  | ⟨entry :: entries, .inputDone sent' errors⟩ =>
    have hact : world.act config w (.deliverOutput trace) = world.setWorker w ⟨entry :: entries,
        .outputDone sent' (errors ++ outputErrors config entry trace)⟩ := by rw [act, hw]
    rw [Follows, MirrorWorld.step, hact]
    refine attempts_move (.inr ⟨?_, rfl, rfl⟩)
    rw [hw]
    rfl

theorem follows_mark (h : world.Sound config) (executed : Bool) (now : Nat) :
    Follows config id sent lost world (.worker w (.mark executed now)) := by
  match hw : world.workers w with
  | ⟨[], phase⟩ =>
    exact follows_stay (by simp [step, act, hw]) rfl (by cases executed <;> simp [losesAttempt, hw])
  | ⟨entry :: entries, .fetched⟩ =>
    exact follows_stay (by simp [step, act, hw]) rfl (by cases executed <;> simp [losesAttempt, hw])
  | ⟨entry :: entries, .inputDone _ _⟩ =>
    exact follows_stay (by simp [step, act, hw]) rfl (by cases executed <;> simp [losesAttempt, hw])
  | ⟨entry :: entries, .outputDone sent' errors⟩ =>
    have hphase : (world.workers w).attemptPhase id =
        if entry.id = id && sent' then .underway else if holds id entries then .claimed else .idle := by
      rw [hw]
      rfl
    have hn : ((entry :: entries).map LedgerInteraction.id).Nodup := by
      have hn := h.nodup w
      rwa [hw] at hn
    have hnext : attemptPhase id ⟨entries, .fetched⟩ = if holds id entries then .claimed else .idle :=
      attemptPhase_fetched
    cases executed with
    | false =>
      have hact : world.act config w (.mark false now) = world.setWorker w ⟨entries, .fetched⟩ := by
        rw [act, hw]
        rfl
      have hloses : world.losesAttempt id (.worker w (.mark false now)) = (entry.id = id && sent') := by
        rw [losesAttempt, hw]
      rw [Follows, MirrorWorld.step, hact, hloses]
      refine attempts_move ?_
      by_cases hsent : (entry.id = id && sent') = true
      · have hid : entry.id = id := of_decide_eq_true (Bool.and_eq_true_iff.mp hsent).1
        rw [hnext, holds_tail hn hid, if_pos hsent]
        exact .inl (.lose w (hphase.trans (if_pos hsent)))
      · rw [if_neg hsent]
        exact .inr ⟨by rw [hnext, hphase, if_neg hsent], rfl, rfl⟩
    | true =>
      have hact : (world.act config w (.mark true now)).attempts id sent lost =
          ⟨Function.update (world.attempts id sent lost).phase w (attemptPhase id ⟨entries, .fetched⟩),
            world.table.attemptsOf id + if entry.id = id then 1 else 0, sent, lost⟩ := by
        have hknown := h.known w entry (by rw [hw]; exact List.mem_cons_self)
        rw [act, hw, ← LedgerTable.attemptsOf_mark entry errors now id hknown]
        exact congrArg (fun s => Attempts.mk s.phase _ sent lost) (attempts_setWorker id sent lost w _)
      rw [Follows, MirrorWorld.step]
      refine Eq.subst (motive := fun s => Relation.ReflTransGen _ _ s) hact.symm ?_
      by_cases hid : entry.id = id
      · rw [if_pos hid, hnext, holds_tail hn hid]
        exact .single (.count w)
      · have hsame : attemptPhase id ⟨entries, .fetched⟩ = (world.attempts id sent lost).phase w := by
          rw [decide_eq_false hid] at hphase
          exact hnext.trans hphase.symm
        rw [if_neg hid, hsame, Function.update_eq_self]
        exact .refl

theorem follows (h : world.Sound config) (event : MirrorEvent Value F ω) : Follows config id sent lost world event := by
  cases event with
  | elsewhere statement other =>
    have hsame :
        (world.step config (.elsewhere statement other)).attempts id sent lost = world.attempts id sent lost := by
      rw [MirrorWorld.step, attempts, LedgerTable.attemptsOf_elsewhere other]
      rfl
    exact Eq.subst (motive := fun s => Relation.ReflTransGen _ _ s) hsame.symm .refl
  | worker w action =>
    cases action with
    | crash => exact follows_crash
    | poll now => exact follows_poll h now
    | deliverInput trace => exact follows_deliverInput trace
    | deliverOutput trace => exact follows_deliverOutput trace
    | mark executed now => exact follows_mark h executed now

end Simulation

/-- A run of all workers is a run of their attempts at any one row. -/
theorem attempts_run (h : world.Sound config) (id sent lost : Nat) (events : List (MirrorEvent Value F ω)) :
    Relation.ReflTransGen (Attempts.Step config.mirrorMaxAttempts) (world.attempts id sent lost)
      ((run (step config) world events).attempts id
        (sent + countAlong (step config) (sendsPrompt config id) world events)
        (lost + countAlong (step config) (losesAttempt id) world events)) := by
  induction events generalizing world sent lost with
  | nil => exact .refl
  | cons event events ih =>
    have hrest := ih (h.step event) (sent + if world.sendsPrompt config id event then 1 else 0)
      (lost + if world.losesAttempt id event then 1 else 0)
    rw [Nat.add_assoc, Nat.add_assoc] at hrest
    exact (follows h event).trans hrest

omit [DecidableEq ω] in
theorem sound_start (config : MirrorConfig Value F) : (start : MirrorWorld Value F ω).Sound config where
  keyed := LedgerTable.keyed_empty
  rows := LedgerTable.sound_empty
  nodup _ := List.nodup_nil
  known _ _ he := absurd he List.not_mem_nil

/-- In every order of events the prompt of a row is sent at most as often as attempts are allowed, and once more for
each further worker and for each attempt that was lost. -/
theorem prompts_bounded [Fintype ω] (config : MirrorConfig Value F) (id : Nat) (events : List (MirrorEvent Value F ω)) :
    countAlong (step config) (sendsPrompt config id) start events <
      config.mirrorMaxAttempts + Fintype.card ω + countAlong (step config) (losesAttempt id) start events := by
  have hrun := attempts_run (sound_start config) id 0 0 events
  have hbound := (Attempts.bounded_start config.mirrorMaxAttempts_pos).steps hrun
  have hlt := hbound.begun_lt
  simp only [attempts, Nat.zero_add] at hlt
  exact Nat.lt_of_le_of_lt (Nat.le_add_right _ _) hlt

end MirrorWorld

end Gail.Ledger
