import Gail.Library.Text

/-! One evaluation by Aria: what an answer has to be to count as a verdict, and what governance makes
of it in each mode. -/
namespace Gail.Governance

abbrev Bytes := List UInt8

/-- Compared as numbers: the hyphenated text of an id determines it. -/
abbrev Uuid := BitVec 128

/-- The hyphenated text: groups of 8, 4, 4, 4 and 12 hexadecimal digits. -/
def Uuid.text (id : Uuid) : String :=
  let digits := (Nat.toDigits 16 id.toNat).leftpad 32 '0'
  let groups := [(0, 8), (8, 4), (12, 4), (16, 4), (20, 12)].map fun (start, length) =>
    (digits.drop start).take length
  String.ofList (['-'].intercalate groups)

example : Uuid.text 1 = "00000000-0000-0000-0000-000000000001" := by decide

inductive Mode where
  | disabled
  | monitor
  | enforce
  deriving DecidableEq

structure GovernanceConfig where
  mode : Mode := .disabled
  assessmentToken : String := ""
  maxBodyBytes : Nat := 262144
  failOpen : Bool := false

inductive Action where
  | allow
  | alert
  | block
  deriving DecidableEq

structure Verdict where
  protocolVersion : Nat
  id : Uuid
  requestId : Uuid
  phase : String
  action : Action
  deriving DecidableEq

/-- What Aria is asked about one phase of an exchange. -/
structure Evaluation where
  requestId : Uuid
  phase : String
  source : String
  route : String
  content : String
  bodyBytes : Nat
  inspectionComplete : Bool
  deriving DecidableEq

/-- A call to Aria fails in transport, or brings a status and a stream of chunks that may break. -/
inductive AriaReply where
  | failed
  | answered (status : Nat) (chunks : List (Option Bytes))
  deriving DecidableEq

/-- A stream read to its end, unless it breaks or grows over the limit. -/
def collect (limit : Nat) (body : Bytes) : List (Option Bytes) → Option Bytes
  | [] => some body
  | none :: _ => none
  | some chunk :: chunks =>
    if body.length + chunk.length > limit then none else collect limit (body ++ chunk) chunks

theorem collect_eq_some {limit : Nat} {body out : Bytes} {chunks : List (Option Bytes)}
    (h : collect limit body chunks = some out) :
    ∃ parts : List Bytes, chunks = parts.map some ∧ out = body ++ parts.flatten ∧
      (body.length ≤ limit → out.length ≤ limit) := by
  induction chunks generalizing body with
  | nil =>
    obtain rfl := Option.some.inj h
    exact ⟨[], rfl, (List.append_nil body).symm, id⟩
  | cons chunk chunks ih =>
    cases chunk with
    | none => exact absurd h (by simp [collect])
    | some chunk =>
      rw [collect, ite_eq_iff] at h
      obtain ⟨_, hn⟩ | ⟨hle, h⟩ := h
      · exact absurd hn (by simp)
      · obtain ⟨parts, rfl, rfl, hlen⟩ := ih h
        refine ⟨chunk :: parts, rfl, by simp, fun _ => hlen ?_⟩
        rw [List.length_append]
        omega

section Check
variable (parse : Bytes → Option Verdict) (config : GovernanceConfig)

/-- The verdict of an answer that is one about this phase of this request. -/
def evaluate (input : Evaluation) : AriaReply → Option Verdict
  | .failed => none
  | .answered status chunks =>
    if 400 ≤ status ∧ status < 600 then none
    else ((collect 65536 [] chunks).bind parse).filter fun verdict =>
      verdict.protocolVersion = 1 ∧ verdict.requestId = input.requestId ∧ verdict.phase = input.phase

/-- A refusal by governance itself. -/
structure Rejection where
  status : Nat
  code : String
  decisionId : Option Uuid := none
  deriving DecidableEq

/-- The refusal when no verdict was had, if there is one. -/
def failure : Option Rejection :=
  if config.mode = .enforce ∧ config.failOpen = false then
    some { status := 503, code := "governance_unavailable" }
  else none

inductive AriaStatus where
  | checked
  | wouldBlock
  | unavailable
  deriving DecidableEq

/-- The value of the header `x-aria-status`. -/
def AriaStatus.text : AriaStatus → String
  | .checked => "checked"
  | .wouldBlock => "would_block"
  | .unavailable => "unavailable"

/-- Whether the exchange may go on after Aria's answer. -/
def check (input : Evaluation) (reply : AriaReply) : Except Rejection AriaStatus :=
  match evaluate parse input reply with
  | some verdict =>
    if verdict.action = .block ∧ config.mode = .enforce then
      .error { status := 403, code := "governance_blocked", decisionId := some verdict.id }
    else .ok (if verdict.action = .block then .wouldBlock else .checked)
  | none =>
    match failure config with
    | some rejection => .error rejection
    | none => .ok .unavailable

/-- Aria answered this phase of this request, whole and in the known protocol, and does not block. -/
def Permits (id : Uuid) (phase : String) (reply : AriaReply) : Prop :=
  ∃ status, ∃ parts : List Bytes, ∃ verdict, reply = .answered status (parts.map some) ∧
    ¬ (400 ≤ status ∧ status < 600) ∧ parts.flatten.length ≤ 65536 ∧
    parse parts.flatten = some verdict ∧ verdict.protocolVersion = 1 ∧ verdict.requestId = id ∧
    verdict.phase = phase ∧ verdict.action ≠ .block

variable {parse config} {input : Evaluation} {reply : AriaReply}

theorem evaluate_eq_some {verdict : Verdict} (h : evaluate parse input reply = some verdict) :
    ∃ status, ∃ parts : List Bytes, reply = .answered status (parts.map some) ∧
      ¬ (400 ≤ status ∧ status < 600) ∧ parts.flatten.length ≤ 65536 ∧
      parse parts.flatten = some verdict ∧ verdict.protocolVersion = 1 ∧
      verdict.requestId = input.requestId ∧ verdict.phase = input.phase := by
  cases reply with
  | failed => exact absurd h (by simp [evaluate])
  | answered status chunks =>
    rw [evaluate, ite_eq_iff] at h
    obtain ⟨_, hn⟩ | ⟨hstatus, h⟩ := h
    · exact absurd hn (by simp)
    · obtain ⟨hv, hmatch⟩ := Option.filter_eq_some_iff.mp h
      obtain ⟨body, hc, hparse⟩ := Option.bind_eq_some_iff.mp hv
      obtain ⟨parts, rfl, rfl, hlen⟩ := collect_eq_some hc
      exact ⟨status, parts, rfl, hstatus, hlen (Nat.zero_le _), hparse, of_decide_eq_true hmatch⟩

/-- With enforcement and no failing open, nothing but a verdict that does not block lets an exchange
go on. -/
theorem check_permits (he : config.mode = .enforce) (hf : config.failOpen = false)
    {status : AriaStatus} (h : check parse config input reply = .ok status) :
    Permits parse input.requestId input.phase reply := by
  cases hv : evaluate parse input reply with
  | none => simp [check, hv, failure, he, hf] at h
  | some verdict =>
    obtain ⟨status, parts, hr, hstatus, hlen, hparse, hversion, hid, hphase⟩ := evaluate_eq_some hv
    have hallowed : verdict.action ≠ .block := by
      intro hblock
      simp [check, hv, hblock, he] at h
    exact ⟨status, parts, verdict, hr, hstatus, hlen, hparse, hversion, hid, hphase, hallowed⟩

end Check
end Gail.Governance
