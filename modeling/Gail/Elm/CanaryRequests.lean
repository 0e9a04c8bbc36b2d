import Gail.Elm.Advisory
import Gail.Elm.RegistryRuns
import Mathlib.Data.Finset.Card

/-! The canary budget, whose count lives in the durable index, so that stage changes, restarts and stale copies of other
processes do not reset it; and requests that ask for a model's decision while the registry changes under them.
Admission, claim and prediction are separate steps, and the admission reads the registry three times. -/
namespace Gail.Elm
section Budget
open Gail.Library
variable {Bytes : Type} {serde : Serde Bytes} {w : World Bytes} {input : Nat × Action}
  {modelId : String} {maximum : UInt64}

/-- The step is a claim on the model with this maximum, and it is granted. -/
def World.grants (serde : Serde Bytes) (modelId : String) (maximum : UInt64) (w : World Bytes)
    (input : Nat × Action) : Bool :=
  match input.2 with
  | .call (.claimCanaryDecision model limit _) _ =>
    model == modelId && limit == maximum && w.answer serde input == some (.ok (.claimed true))
  | _ => false

/-- The durable number of decisions claimed for a model. -/
def World.claimed (serde : Serde Bytes) (w : World Bytes) (modelId : String) : Nat :=
  match durable serde w.disk with
  | none => 0
  | some file => file.canaryCount modelId

/-- A granted claim has written its count, and the last permitted one returns the model to shadow. -/
theorem World.Coherent.granted (h : w.Coherent serde)
    (hg : w.grants serde modelId maximum input = true) :
    ∃ file next, durable serde w.disk = some file ∧
      durable serde (w.next serde input).disk = some next ∧
      file.canaryCount modelId < maximum.toNat ∧
      next.canaryCount modelId = file.canaryCount modelId + 1 ∧
      (maximum.toNat ≤ next.canaryCount modelId →
        ∃ record, next.record modelId = some record ∧ record.stage = .shadow) := by
  obtain ⟨p, action⟩ := input
  simp only [grants] at hg
  split at hg
  swap
  · cases hg
  rename_i model limit fault now
  simp only [Bool.and_eq_true, beq_iff_eq] at hg
  obtain ⟨⟨rfl, rfl⟩, hanswer⟩ := hg
  obtain ⟨process, hs, -⟩ := w.next_steps serde (p, .call (.claimCanaryDecision model limit fault) now)
  rcases hs.quiet_or_called with ⟨-, hnone, -⟩ | ⟨maxBytes, state, call, now', hi, ha, -, he, hsome⟩
  · rw [hnone] at hanswer
    cases hanswer
  obtain ⟨rfl, rfl⟩ := Action.call.inj ha
  have hresult := Option.some.inj (hsome.symm.trans hanswer)
  rcases (Call.effect serde maxBytes now _ w.disk state).of_ok hresult with
    ⟨hc, -⟩ | ⟨adopted, fresh, -, hr, ⟨hd, -⟩ | hw⟩
  · obtain ⟨_, _, -, hrefused⟩ := Call.precheck_ok hc
    cases hrefused
  · exfalso
    simp only [Call.decision, claimDecision] at hd
    repeat' split at hd
    all_goals cases hd
  · obtain ⟨granted, hdecision, -⟩ := map_eq_write hw.decided
    obtain ⟨index, record, hp, -, -, hm, hnext, -⟩ := claimDecision_write hdecision
    have hcount : (claimedFile fresh.file index model limit now).canaryCount model =
        fresh.file.canaryCount model + 1 := by
      rw [canaryCount_claimedFile, if_pos rfl, saturatingSucc_of_lt_maximum hm]
    have hdurable := hw.durable
    rw [hnext] at hdurable
    refine ⟨fresh.file, _, h.fresh hi hr, he ▸ hdurable, hm, hcount, ?_⟩
    intro hlast
    have hrecords : (claimedFile fresh.file index model limit now).records =
        fresh.file.records.modify index (fun record =>
          record.moveTo .shadow canaryExhausted now (saturatingSucc fresh.file.revision)) := by
      rw [hcount, ← saturatingSucc_of_lt_maximum hm] at hlast
      simp only [claimedFile, if_pos hlast]
    exact ⟨_, RegistryFile.record_modify_self hrecords (fun _ => rfl) hp, rfl⟩

/-- No step takes a claim back. -/
theorem World.Coherent.claimed_mono (h : w.Coherent serde) (input : Nat × Action)
    (modelId : String) : w.claimed serde modelId ≤ (w.next serde input).claimed serde modelId := by
  unfold claimed
  cases hd : durable serde w.disk with
  | none => exact Nat.zero_le _
  | some file =>
    rcases h.durable_next input hd with hn | ⟨maxBytes, state, written, rfl, hw, hn⟩
    · rw [hn]
    · rw [hn]
      exact hw.extends.counts modelId

/-- Over any run below the largest revision a model is granted at most the maximum; every grant has
written its count, and the one that reaches the maximum leaves the model in shadow. -/
theorem canary_budget {disk : Disk Bytes} {inputs : List (Nat × Action)}
    (hb : (World.start disk).RunsBelow serde inputs) (modelId : String) (maximum : UInt64) :
    countAlong (World.next serde) (World.grants serde modelId maximum) (World.start disk) inputs ≤
      maximum.toNat ∧
    ∀ before input after, inputs = before ++ input :: after →
      let w := run (World.next serde) (World.start disk) before
      w.grants serde modelId maximum input = true →
      ∃ file next, durable serde w.disk = some file ∧
        durable serde (w.next serde input).disk = some next ∧
        next.canaryCount modelId = file.canaryCount modelId + 1 ∧
        (countAlong (World.next serde) (World.grants serde modelId maximum) (World.start disk)
            before + 1 = maximum.toNat →
          ∃ record, next.record modelId = some record ∧ record.stage = .shadow) := by
  have hlevel : ∀ (w : World Bytes) input, w.Coherent serde → w.BelowMax serde →
      w.grants serde modelId maximum input = true →
      w.claimed serde modelId < maximum.toNat ∧
        (w.next serde input).claimed serde modelId = w.claimed serde modelId + 1 := by
    intro w input hc _ hg
    obtain ⟨file, next, hd, hn, hlt, hcount, -⟩ := hc.granted hg
    simp only [World.claimed, hd, hn]
    exact ⟨hlt, hcount⟩
  have hkeep : ∀ (w : World Bytes) input, w.Coherent serde → w.BelowMax serde →
      (w.next serde input).Coherent serde := fun _ input hc hm => hc.next hm input
  have hmono : ∀ (w : World Bytes) input, w.Coherent serde → w.BelowMax serde →
      w.claimed serde modelId ≤ (w.next serde input).claimed serde modelId :=
    fun _ input hc _ => hc.claimed_mono input modelId
  have hstart := World.coherent_start serde disk
  constructor
  · have hcount := (countAlong_bounded (World.next serde) hkeep hmono hlevel hstart hb).1
    omega
  · rintro before input after rfl w hg
    have hbefore := ((along_append (World.next serde)).mp hb).1
    have hcount : _ + _ ≤ w.claimed serde modelId :=
      (countAlong_bounded (World.next serde) hkeep hmono hlevel hstart hbefore).2
    obtain ⟨file, next, hd, hn, hlt, hsucc, hlast⟩ :=
      (World.Coherent.run hstart hbefore).granted hg
    refine ⟨file, next, hd, hn, hsucc, ?_⟩
    intro hmax
    have hclaimed : w.claimed serde modelId = file.canaryCount modelId := by
      simp only [World.claimed, w, hd]
    apply hlast
    rw [hsucc, ← hclaimed]
    omega

/-- Two processes claim the only decision of a model in canary. -/
def canaryRun : List (Nat × Action) :=
  openRegistry 0 ++ openRegistry 1 ++ enterShadow 0 (plainArtifact "a" "t" "s" false) 0 ++
    [(0, .call (.promote "a" .canary 4 "authorised test stage" none) 0),
      (0, .call (.claimCanaryDecision "a" 1 none) 0), (1, .call (.claimCanaryDecision "a" 1 none) 0)]

private theorem canaryRun_below :
    (World.start fun _ => none).RunsBelow plainSerde canaryRun := by
  decide +kernel

theorem canary_budget_canaryRun :
    countAlong (World.next plainSerde) (World.grants plainSerde "a" 1) World.empty canaryRun ≤
      (1 : UInt64).toNat :=
  (canary_budget canaryRun_below "a" 1).1

/-- At the largest revision a stale copy passes for the index, and a budget of one is granted to two
processes. -/
theorem canary_budget_exceeded :
    ¬ countAlong (World.next plainSerde) (World.grants plainSerde "a" 1)
      (World.start saturatedDisk) (openRegistry 0 ++ openRegistry 1 ++
        [(0, .call (.claimCanaryDecision "a" 1 none) 0),
          (1, .call (.claimCanaryDecision "a" 1 none) 0)]) ≤ (1 : UInt64).toNat := by
  decide +kernel

end Budget

section Service
open Gail.Library Gail.Trading
variable {Bytes F : Type}

/-- What an admitted request carries to its claim and its prediction. -/
structure Ticket (F : Type) where
  process : Nat
  request : ElmRequest F
  artifact : ElmArtifact
  /-- The stage that the admission read. -/
  stage : LifecycleStage
  gated : GatedModel F

def Ticket.modelId (ticket : Ticket F) : String := ticket.artifact.metadata.modelId

inductive RequestPhase (F : Type) where
  | absent
  | championRead (process : Nat) (request : ElmRequest F) (champion : ElmArtifact)
  | recordRead (process : Nat) (request : ElmRequest F) (champion : ElmArtifact)
    (record : RegistryRecord)
  | admitted (ticket : Ticket F)
  /-- The claim has read stage canary and waits for the registry. -/
  | claiming (ticket : Ticket F) (maximum : UInt64)
  | predicting (ticket : Ticket F)
  | finished (outcome : ElmOutcome F)
  /-- The caller has gone. -/
  | dropped

/-- The registries of all processes, and the requests of their services under their numbers. -/
structure Service (Bytes F : Type) where
  world : World Bytes
  request : Nat → RequestPhase F

inductive ServiceAction (F : Type) where
  /-- Any step of a registry that no request takes. -/
  | registry (process : Nat) (action : Action)
  | start (number process : Nat) (request : ElmRequest F)
  /-- The next read of the registry by an admission or by `claim_elm_canary_decision`. -/
  | read (number : Nat)
  | claim (number now : Nat) (fault : Option IoFault)
  | predict (number : Nat) (prediction : Except ElmError (InferenceResult F))
  | drop (number : Nat)

section Steps
variable [Scalar F] (serde : Serde Bytes) (config : ElmConfig F) (liveExecution : Bool)
  (details : ElmArtifact → ModelDetails F)

/-- The admission begins with the champion of the task. -/
def beginAdmission (process : Nat) (request : ElmRequest F) (state : RegistryState) : RequestPhase F :=
  match state.champion request.context.taskId with
  | some champion => .championRead process request champion
  | none => .finished (request.baseline (admitRequest config details none none 0 request.context))

/-- The admission ends with the count of decisions. -/
def endAdmission (process : Nat) (request : ElmRequest F) (champion : ElmArtifact)
    (record : RegistryRecord) (state : RegistryState) : RequestPhase F :=
  let gated := admitRequest config details (some champion) (some record)
    (state.canaryDecisions champion.metadata.modelId) request.context
  match gated.artifact with
  | none => .finished (request.baseline gated)
  | some artifact =>
    match request.mismatch artifact (details artifact) with
    | some outcome => .finished outcome
    | none => .admitted { process, request, artifact, stage := record.stage, gated }

/-- `claim_elm_canary_decision` up to its call: only a model in canary needs a claim. -/
def beginClaim (ticket : Ticket F) (state : RegistryState) : RequestPhase F :=
  match state.record ticket.modelId with
  | none => .finished (ticket.request.unclaimed ticket.artifact)
  | some record =>
    if record.stage ≠ .canary then .predicting ticket
    else .claiming ticket (config.canaryMaximum record.taskId)

def RequestPhase.process : RequestPhase F → Option Nat
  | .championRead process _ _ | .recordRead process _ _ _ => some process
  | .admitted ticket => some ticket.process
  | _ => none

def RequestPhase.read (phase : RequestPhase F) (state : RegistryState) : RequestPhase F :=
  match phase with
  | .championRead process request champion =>
    match state.record champion.metadata.modelId with
    | some record => .recordRead process request champion record
    | none =>
      .finished (request.baseline (admitRequest config details (some champion) none 0 request.context))
  | .recordRead process request champion record =>
    endAdmission config details process request champion record state
  | .admitted ticket => beginClaim config ticket state
  | phase => phase

namespace Service

def setRequest (s : Service Bytes F) (number : Nat) (phase : RequestPhase F) : Service Bytes F :=
  { s with request := Function.update s.request number phase }

def memory (s : Service Bytes F) (process : Nat) : Option RegistryState :=
  (s.world.process process).memory

/-- The registry step of a claim. -/
def claimInput (ticket : Ticket F) (maximum : UInt64) (now : Nat) (fault : Option IoFault) :
    Nat × Action :=
  (ticket.process, .call (.claimCanaryDecision ticket.modelId maximum fault) now)

/-- A step that does not fit the phase of its request does nothing. -/
def next (s : Service Bytes F) : ServiceAction F → Service Bytes F
  | .registry process action => { s with world := s.world.next serde (process, action) }
  | .start number process request =>
    match s.request number, s.memory process with
    | .absent, some state =>
      s.setRequest number (beginAdmission config details process request state)
    | _, _ => s
  | .read number =>
    match (s.request number).process.bind s.memory with
    | some state => s.setRequest number ((s.request number).read config details state)
    | none => s
  | .claim number now fault =>
    match s.request number with
    | .claiming ticket maximum =>
      let input := claimInput ticket maximum now fault
      match s.world.answer serde input with
      | none => s
      | some answer =>
        let claimed := if answer = .ok (.claimed true) then .predicting ticket
          else .finished (ticket.request.unclaimed ticket.artifact)
        { s.setRequest number claimed with world := s.world.next serde input }
    | _ => s
  | .predict number prediction =>
    match s.request number with
    | .predicting ticket =>
      s.setRequest number (.finished (ticket.request.decide config liveExecution ticket.gated
        ticket.artifact (details ticket.artifact) prediction).1)
    | _ => s
  | .drop number => s.setRequest number .dropped

/-- The services of a directory that no process has opened yet. -/
def start (disk : Disk Bytes) : Service Bytes F :=
  { world := World.start disk, request := fun _ => .absent }

/-- The step applies a prediction of the model that was admitted at stage canary. -/
def applies (modelId : String) (s : Service Bytes F) : ServiceAction F → Bool
  | .predict number prediction =>
    match s.request number with
    | .predicting ticket =>
      ticket.stage = .canary && ticket.modelId == modelId &&
        (ticket.request.decide config liveExecution ticket.gated ticket.artifact
          (details ticket.artifact) prediction).1.applied
    | _ => false
  | _ => false

end Service

end Steps

namespace Service

/-- The request is past its claim, with a ticket that lets an admission at canary take effect. -/
def Holds (modelId : String) (s : Service Bytes F) (number : Nat) : Prop :=
  ∃ ticket, s.request number = .predicting ticket ∧ ticket.stage = .canary ∧
    ticket.modelId = modelId ∧ ticket.gated.shadow = false

/-- A request with authority from an admission at canary finds its model still in canary when it
comes to claim. -/
def StillCanary (s : Service Bytes F) : ServiceAction F → Prop
  | .read number =>
    match s.request number with
    | .admitted ticket =>
      ticket.stage = .canary → ticket.gated.shadow = false → ∀ state ∈ s.memory ticket.process,
        ∀ record ∈ state.record ticket.modelId, record.stage = .canary
    | _ => True
  | _ => True

/-- Claims on the model are made with this maximum. -/
def Asks (modelId : String) (maximum : UInt64) (s : Service Bytes F) : ServiceAction F → Prop
  | .claim number _ _ =>
    match s.request number with
    | .claiming ticket asked => ticket.modelId = modelId → asked = maximum
    | _ => True
  | _ => True

instance (s : Service Bytes F) : (action : ServiceAction F) → Decidable (s.StillCanary action)
  | .read number =>
    match h : s.request number with
    | .admitted ticket =>
      decidable_of_iff (ticket.stage = .canary → ticket.gated.shadow = false →
        ∀ state ∈ s.memory ticket.process, ∀ record ∈ state.record ticket.modelId,
          record.stage = .canary) (by simp only [StillCanary, h])
    | .absent | .championRead .. | .recordRead .. | .claiming .. | .predicting _ | .finished _
    | .dropped => isTrue (by simp only [StillCanary, h])
  | .registry .. | .start .. | .claim .. | .predict .. | .drop _ => isTrue trivial

instance (modelId : String) (maximum : UInt64) (s : Service Bytes F) :
    (action : ServiceAction F) → Decidable (s.Asks modelId maximum action)
  | .claim number _ _ =>
    match h : s.request number with
    | .claiming ticket asked =>
      decidable_of_iff (ticket.modelId = modelId → asked = maximum) (by simp only [Asks, h])
    | .absent | .championRead .. | .recordRead .. | .admitted _ | .predicting _ | .finished _
    | .dropped => isTrue (by simp only [Asks, h])
  | .registry .. | .start .. | .read _ | .predict .. | .drop _ => isTrue trivial

/-- The request is granted a decision in this step. -/
def Granted (serde : Serde Bytes) (s : Service Bytes F) (action : ServiceAction F) (number : Nat)
    (ticket : Ticket F) : Prop :=
  ∃ now fault asked, action = .claim number now fault ∧ s.request number = .claiming ticket asked ∧
    s.world.answer serde (claimInput ticket asked now fault) = some (.ok (.claimed true))

/-- The applied decisions and the requests that may still apply one are within what was claimed. -/
def Covered (serde : Serde Bytes) (modelId : String) (maximum : UInt64) (applied : Nat)
    (s : Service Bytes F) : Prop :=
  s.world.Coherent serde ∧ ∃ holders : Finset Nat, (∀ number, s.Holds modelId number → number ∈ holders) ∧
    applied + holders.card ≤ maximum.toNat ∧ applied + holders.card ≤ s.world.claimed serde modelId

theorem covered_start {serde : Serde Bytes} {modelId : String} {maximum : UInt64}
    {disk : Disk Bytes} : Covered serde modelId maximum 0 (start disk : Service Bytes F) := by
  refine ⟨World.coherent_start serde disk, ∅, ?_, Nat.zero_le _, Nat.zero_le _⟩
  rintro number ⟨ticket, hp, -⟩
  cases hp

theorem setRequest_request (s : Service Bytes F) (number other : Nat) (phase : RequestPhase F) :
    (s.setRequest number phase).request other =
      if other = number then phase else s.request other := by
  simp only [setRequest, Function.update_apply]

section Requests
variable [Scalar F] {serde : Serde Bytes} {config : ElmConfig F} {liveExecution : Bool}
  {details : ElmArtifact → ModelDetails F} {s : Service Bytes F} {action : ServiceAction F}
  {modelId : String} {maximum : UInt64} {number : Nat} {ticket : Ticket F}

theorem beginAdmission_ne_predicting {process : Nat} {request : ElmRequest F} {state : RegistryState} :
    beginAdmission config details process request state ≠ .predicting ticket := by
  unfold beginAdmission
  intro h
  split at h <;> cases h

theorem endAdmission_ne_predicting {process : Nat} {request : ElmRequest F} {champion : ElmArtifact}
    {record : RegistryRecord} {state : RegistryState} :
    endAdmission config details process request champion record state ≠ .predicting ticket := by
  unfold endAdmission
  dsimp only
  intro h
  split at h
  · cases h
  · split at h <;> cases h

/-- Only a claim that finds its model out of canary lets a request predict without a decision. -/
theorem read_predicting {phase : RequestPhase F} {state : RegistryState}
    (h : phase.read config details state = .predicting ticket) :
    phase = .predicting ticket ∨ phase = .admitted ticket ∧
      ∃ record, state.record ticket.modelId = some record ∧ record.stage ≠ .canary := by
  cases phase with
  | championRead process request champion =>
    simp only [RequestPhase.read] at h
    split at h <;> cases h
  | recordRead process request champion record => exact absurd h endAdmission_ne_predicting
  | admitted held =>
    simp only [RequestPhase.read, beginClaim] at h
    split at h
    · cases h
    · next record hr =>
      split at h
      · next hs =>
        cases h
        exact .inr ⟨rfl, record, hr, hs⟩
      · cases h
  | absent => cases h
  | claiming => cases h
  | predicting => exact .inl h
  | finished => cases h
  | dropped => cases h

variable (serde config liveExecution details) in
/-- The registry takes one step or none. -/
theorem next_world (s : Service Bytes F) (action : ServiceAction F) :
    (s.next serde config liveExecution details action).world = s.world ∨
      ∃ input, (s.next serde config liveExecution details action).world = s.world.next serde input := by
  cases action with
  | registry process action => exact .inr ⟨_, rfl⟩
  | start number process request =>
    simp only [next]
    split <;> exact .inl rfl
  | read number =>
    simp only [next]
    split <;> exact .inl rfl
  | claim number now fault =>
    simp only [next]
    split
    · split
      · exact .inl rfl
      · exact .inr ⟨_, rfl⟩
    · exact .inl rfl
  | predict number prediction =>
    simp only [next]
    split <;> exact .inl rfl
  | drop number => exact .inl rfl

/-- While models are found in canary, a request that was admitted there predicts only once it has been
granted a decision. -/
theorem predicting_next (hc : s.StillCanary action) (hs : ticket.stage = .canary)
    (hauthority : ticket.gated.shadow = false)
    (h : (s.next serde config liveExecution details action).request number = .predicting ticket) :
    s.request number = .predicting ticket ∨ s.Granted serde action number ticket := by
  cases action with
  | registry process action => exact .inl h
  | start other process request =>
    simp only [next] at h
    split at h
    · rw [setRequest_request] at h
      split at h
      · exact absurd h beginAdmission_ne_predicting
      · exact .inl h
    · exact .inl h
  | read other =>
    simp only [next] at h
    split at h
    swap
    · exact .inl h
    rename_i state hm
    rw [setRequest_request] at h
    split at h
    swap
    · exact .inl h
    rename_i he
    subst he
    rcases read_predicting h with hp | ⟨ha, record, hr, hne⟩
    · exact .inl hp
    · rw [ha] at hm
      simp only [StillCanary, ha] at hc
      exact absurd (hc hs hauthority state hm record hr) hne
  | claim other now fault =>
    simp only [next] at h
    split at h
    swap
    · exact .inl h
    rename_i held asked hp
    split at h
    · exact .inl h
    rename_i answer ha
    change (s.setRequest other _).request number = _ at h
    rw [setRequest_request] at h
    split at h
    swap
    · exact .inl h
    rename_i he
    subst he
    split at h
    · next hgranted =>
      cases h
      exact .inr ⟨now, fault, asked, rfl, hp, hgranted ▸ ha⟩
    · cases h
  | predict other prediction =>
    simp only [next] at h
    split at h
    · rw [setRequest_request] at h
      split at h
      · cases h
      · exact .inl h
    · exact .inl h
  | drop other =>
    simp only [next] at h
    rw [setRequest_request] at h
    split at h
    · cases h
    · exact .inl h

theorem holds_next (hc : s.StillCanary action)
    (h : (s.next serde config liveExecution details action).Holds modelId number) :
    s.Holds modelId number ∨
      ∃ ticket, ticket.modelId = modelId ∧ s.Granted serde action number ticket := by
  obtain ⟨ticket, hp, hs, hm, hauthority⟩ := h
  rcases predicting_next hc hs hauthority hp with hp | hg
  · exact .inl ⟨ticket, hp, hs, hm, hauthority⟩
  · exact .inr ⟨ticket, hm, hg⟩

variable (config liveExecution details) in
/-- A granted decision had room in the durable budget and has used one unit of it. -/
theorem Granted.room (hg : s.Granted serde action number ticket) (hw : s.world.Coherent serde)
    (ha : s.Asks ticket.modelId maximum action) :
    s.world.claimed serde ticket.modelId < maximum.toNat ∧
      (s.next serde config liveExecution details action).world.claimed serde ticket.modelId =
        s.world.claimed serde ticket.modelId + 1 := by
  obtain ⟨now, fault, asked, rfl, hp, hanswer⟩ := hg
  simp only [Asks, hp] at ha
  obtain rfl := ha trivial
  have hgrants : s.world.grants serde ticket.modelId asked (claimInput ticket asked now fault) = true := by
    simp only [World.grants, claimInput, beq_self_eq_true, Bool.true_and, beq_iff_eq]
    exact hanswer
  obtain ⟨file, next, hd, hn, hlt, hcount, -⟩ := hw.granted hgrants
  have hworld : (s.next serde config liveExecution details (.claim number now fault)).world =
      s.world.next serde (claimInput ticket asked now fault) := by
    simp only [Service.next, hp, hanswer]
  simp only [hworld, World.claimed, hd, hn]
  exact ⟨hlt, hcount⟩

theorem applies_holds (h : s.applies config liveExecution details modelId action = true) :
    ∃ number prediction ticket, action = .predict number prediction ∧
      s.request number = .predicting ticket ∧ ticket.stage = .canary ∧ ticket.modelId = modelId ∧
      ticket.gated.shadow = false := by
  cases action with
  | predict number prediction =>
    simp only [applies] at h
    split at h
    · next ticket hp =>
      simp only [Bool.and_eq_true, decide_eq_true_eq, beq_iff_eq] at h
      exact ⟨number, prediction, ticket, rfl, hp, h.1.1, h.1.2, (ElmRequest.decide_applied h.2).1⟩
    · cases h
  | _ => cases h

theorem Covered.next {applied : Nat} (h : Covered serde modelId maximum applied s)
    (hb : s.world.BelowMax serde) (hc : s.StillCanary action) (ha : s.Asks modelId maximum action) :
    Covered serde modelId maximum
      (applied + if s.applies config liveExecution details modelId action then 1 else 0)
      (s.next serde config liveExecution details action) := by
  obtain ⟨hw, holders, hholders, hmax, hclaimed⟩ := h
  have hmono : s.world.claimed serde modelId ≤
      (s.next serde config liveExecution details action).world.claimed serde modelId := by
    rcases next_world serde config liveExecution details s action with he | ⟨input, he⟩
    · rw [he]
    · rw [he]
      exact hw.claimed_mono input modelId
  refine ⟨?_, ?_⟩
  · rcases next_world serde config liveExecution details s action with he | ⟨input, he⟩
    · rw [he]; exact hw
    · rw [he]; exact hw.next hb input
  by_cases happlied : s.applies config liveExecution details modelId action = true
  · -- The request that applies its prediction gives up its place among the holders.
    rw [if_pos happlied]
    obtain ⟨number, prediction, ticket, rfl, hp, hs, hm, hauthority⟩ := applies_holds happlied
    have hmem := hholders number ⟨ticket, hp, hs, hm, hauthority⟩
    have hcard := Finset.card_erase_add_one hmem
    refine ⟨holders.erase number, ?_, by omega, by omega⟩
    intro other ho
    rcases holds_next hc ho with hh | ⟨_, _, _, _, _, he, -⟩
    · refine Finset.mem_erase.mpr ⟨?_, hholders other hh⟩
      rintro rfl
      obtain ⟨_, hfinished, -⟩ := ho
      simp only [Service.next, hp, setRequest_request, if_pos] at hfinished
      cases hfinished
    · cases he
  rw [if_neg happlied]
  by_cases hg : ∃ number ticket, ticket.modelId = modelId ∧ s.Granted serde action number ticket
  · obtain ⟨number, ticket, rfl, hg⟩ := hg
    obtain ⟨hlt, hsucc⟩ := hg.room config liveExecution details hw ha
    have hcard := Finset.card_insert_le number holders
    refine ⟨insert number holders, ?_, by omega, by omega⟩
    intro other ho
    rcases holds_next hc ho with hh | ⟨held, -, hgranted⟩
    · exact Finset.mem_insert_of_mem (hholders other hh)
    · obtain ⟨_, _, _, he, -⟩ := hg
      obtain ⟨_, _, _, he', -⟩ := hgranted
      rw [he] at he'
      cases he'
      exact Finset.mem_insert_self number holders
  · refine ⟨holders, ?_, by omega, by omega⟩
    intro other ho
    rcases holds_next hc ho with hh | ⟨ticket, hm, hgranted⟩
    · exact hholders other hh
    · exact absurd ⟨other, ticket, hm, hgranted⟩ hg

/-- The steps of a run in which the budget does its work: the durable revision can grow, claims ask
with one maximum, and every claim after an admission at canary still finds the model there. -/
abbrev Orderly (serde : Serde Bytes) (modelId : String) (maximum : UInt64) (s : Service Bytes F)
    (action : ServiceAction F) : Prop :=
  s.world.BelowMax serde ∧ s.Asks modelId maximum action ∧ s.StillCanary action

theorem covered_run {disk : Disk Bytes} {actions : List (ServiceAction F)}
    (h : Along (next serde config liveExecution details) (Orderly serde modelId maximum) (start disk)
      actions) :
    Covered serde modelId maximum
      (countAlong (next serde config liveExecution details)
        (applies config liveExecution details modelId) (start disk) actions)
      (run (next serde config liveExecution details) (start disk) actions) := by
  have hstep : ∀ applied s action, Covered serde modelId maximum applied s →
      Orderly serde modelId maximum s action →
      Covered serde modelId maximum
        (applied + if applies config liveExecution details modelId s action then 1 else 0)
        (next serde config liveExecution details s action) :=
    fun applied s action hs hg => hs.next hg.1 hg.2.2 hg.2.1
  have hrun := countAlong_invariant (next serde config liveExecution details)
    (I := Covered serde modelId maximum) hstep covered_start h
  rwa [Nat.zero_add] at hrun

/-- In an orderly run the decisions applied after an admission at canary stay within the budget, and
each was granted to its own request while the budget had room. -/
theorem canary_applied {disk : Disk Bytes} {actions : List (ServiceAction F)}
    (h : Along (next serde config liveExecution details) (Orderly serde modelId maximum) (start disk)
      actions) :
    countAlong (next serde config liveExecution details)
      (applies config liveExecution details modelId) (start disk) actions ≤ maximum.toNat ∧
    ∀ before action after, actions = before ++ action :: after →
      (run (next serde config liveExecution details) (start disk) before).applies config liveExecution
        details modelId action = true →
      ∃ number prediction ticket earlier claim later, action = .predict number prediction ∧
        before = earlier ++ claim :: later ∧
        let s := run (next serde config liveExecution details) (start disk) earlier
        s.Granted serde claim number ticket ∧ ticket.modelId = modelId ∧
          s.world.claimed serde modelId < maximum.toNat := by
  constructor
  · obtain ⟨-, holders, -, hmax, -⟩ := covered_run h
    omega
  · rintro before action after rfl happlies
    obtain ⟨number, prediction, ticket, rfl, hp, hs, hm, hauthority⟩ := applies_holds happlies
    have hbefore := ((along_append _).mp h).1
    -- The request began to predict at one step, and that step is its claim.
    obtain ⟨earlier, claim, later, rfl, hnot, henters⟩ := run_enters
      (next serde config liveExecution details)
      (P := fun s : Service Bytes F => s.request number = .predicting ticket)
      (by intro hstart; cases hstart) hp
    obtain ⟨hearlier, hclaim⟩ := (along_append _).mp hbefore
    obtain ⟨-, hasks, hstill⟩ := hclaim.1
    rcases predicting_next hstill hs hauthority henters with hheld | hgranted
    · exact absurd hheld hnot
    · refine ⟨number, prediction, ticket, earlier, claim, later, rfl, rfl, hgranted, hm, ?_⟩
      have hroom := hgranted.room config liveExecution details (covered_run hearlier).1 (hm ▸ hasks)
      exact hm ▸ hroom.1

end Requests

section Sample

def canaryPolicy : PromotionPolicy ℚ where
  taskObjective := some "edge"
  direction := some .higher
  baseline := some "existing path"
  minimumEffectiveSamples := some 1
  minimumSubgroupSamples := some 1
  minimumObservationSeconds := some 1
  confidenceLevel := some 0.9
  minimumPracticalImprovement := some 0
  nonInferiorityTolerance := some 0
  maximumCalibrationError := some 1
  minimumIntervalCoverage := some 0
  maximumP95OverheadMs := some 10
  maximumP99OverheadMs := some 10
  maximumInputAgeSeconds := some 10
  maximumLabelAgeSeconds := some 10
  maximumDriftScore := some 1
  maximumOodScore := some 4
  canaryFraction := some 1
  canaryMaxDecisions := some 1
  expirySeconds := some 100
  rollbackRegression := some 1
  cooldownSeconds := some 1
  retrainBudgetPerDay := some 1
  authorisedInfluence := some 0.5

/-- One task, whose models may serve up to canary for one decision. -/
def canaryConfig : ElmConfig ℚ where
  mode := .auto
  tasks := (∅ : Std.TreeMap String (ElmTaskConfig ℚ)).insert "t"
    { mode := none, maxStage := .canary, promotionPolicy := "p", allowed := true
      rolloutFraction := 1, influenceCap := 0.5 }
  promotionPolicies := (∅ : Std.TreeMap String (PromotionPolicy ℚ)).insert "p" canaryPolicy
  automaticRollback := true
  trading := { allowLiveInfluence := false, maximumInfluence := 0.5 }
  maximumFeatureAgeSeconds := 10

def plainDetails (_ : ElmArtifact) : ModelDetails ℚ where
  taskKind := .regression
  targetUnits := ["bps"]
  expiryUnixSeconds := none
  trainingCutoff := 0
  preprocessor := { means := [0], scales := [1] }
  calibration := some { temperature := 1, residualRadius := some 0.1 }

def plainRequest : ElmRequest ℚ :=
  .advisory
    { taskId := "t", tenantScope := "local"
      featureSchema := (plainArtifact "a" "t" "s" false).featureSchema, featureValues := [1]
      featureTimestamp := 0, now := 0, remainingDeadlineMs := 1, hardPolicyEligible := true
      resourceAvailable := true, rolloutBucket := 0 } "bps"

def plainPrediction : Except ElmError (InferenceResult ℚ) := .ok { values := [2], elapsedMs := 1 }

/-- A process takes its model to canary. -/
def enterCanary : List (ServiceAction ℚ) :=
  let inputs : List (Nat × Action) :=
    openRegistry 0 ++ enterShadow 0 (plainArtifact "a" "t" "s" false) 0 ++
      [(0, .call (.promote "a" .canary 4 "authorised test stage" none) 0)]
  inputs.map fun input => .registry input.1 input.2

def admission (number : Nat) : List (ServiceAction ℚ) :=
  [.start number 0 plainRequest, .read number, .read number]

def claimAndPredict (number : Nat) : List (ServiceAction ℚ) :=
  [.read number, .claim number 0 none, .predict number plainPrediction]

abbrev plainNext : Service StoredFile ℚ → ServiceAction ℚ → Service StoredFile ℚ :=
  next plainSerde canaryConfig false plainDetails

/-- How many decisions of the model a run applies after an admission at canary. -/
def appliedDecisions (actions : List (ServiceAction ℚ)) : Nat :=
  countAlong plainNext (applies canaryConfig false plainDetails "a") (start fun _ => none) actions

/-- The second request comes when the first one has used the budget. -/
theorem canary_applied_in_turn :
    appliedDecisions (enterCanary ++ admission 0 ++ claimAndPredict 0 ++ admission 1 ++
      claimAndPredict 1) ≤ (1 : UInt64).toNat := by
  have horderly : Along plainNext (Orderly plainSerde "a" 1) (start fun _ => none)
      (enterCanary ++ admission 0 ++ claimAndPredict 0 ++ admission 1 ++ claimAndPredict 1) := by
    decide +kernel
  exact (canary_applied horderly).1

/-- Both requests are admitted at canary. The first one's claim exhausts the budget and returns the
model to shadow, so the second one needs no claim any more. -/
theorem canary_applied_twice :
    ¬ appliedDecisions (enterCanary ++ admission 0 ++ admission 1 ++ claimAndPredict 0 ++
      claimAndPredict 1) ≤ (1 : UInt64).toNat := by
  decide +kernel

end Sample

end Service

end Service

end Gail.Elm
