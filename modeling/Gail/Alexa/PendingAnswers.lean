import Gail.Library.Run
import Gail.Library.Text
import Mathlib.Algebra.Group.Nat.Defs
import Mathlib.Data.List.MinMax

/-! The spoken side of the service: what a verified request asks for, the answers that are parked for a
later yes, and the background tasks that produce them. -/
namespace Gail.Alexa
open Gail.Library

def maxPendingAnswers : Nat := 64

/-- In nanoseconds. -/
def pendingAnswerTtl : Nat := 120 * 10 ^ 9

def maxHistoryTurns : Nat := 3

def maxHistoryChars : Nat := 400

inductive AskError where
  | blocked
  | failed
  deriving DecidableEq

/-- How a background task ends, if it does not panic. -/
abbrev Outcome := Option (Except AskError String)

structure Turn where
  q : String
  a : String
  deriving DecidableEq

/-- The parts of a verified request that are read. -/
structure Envelope where
  requestType : String
  intent : String
  query : Option String
  sessionId : Option String
  history : List Turn

structure PendingAnswer where
  handle : Nat
  query : String
  history : List Turn
  created : Nat
  deriving DecidableEq

inductive AlexaResponse where
  | empty
  | speech (text : String) (reprompt : Option String) (endSession : Bool)
      (attributes : Option (List Turn))
  deriving DecidableEq

def greeting : String := "Hi, I'm Aaron. What would you like to ask?"
def reprompt : String := "You can ask me anything. What would you like to know?"
def followUpReprompt : String := "Anything else you'd like to ask?"
def help : String :=
  "Ask me a question in your own words, for example, what is the tallest mountain in Scotland? " ++
    "Say stop when you're finished. What would you like to ask?"
def fallback : String := "Sorry, I didn't catch that. Try asking me a question in your own words."
def goodbye : String := "Goodbye."
def emptyQuery : String := "What would you like to ask?"
def stillThinking : String :=
  "I'm still thinking about that one. Say yes to hear the answer when it's ready, " ++
    "or ask me something else."
def stillThinkingReprompt : String := "Say yes to hear my answer, or ask me something else."
def nothingPending : String := "I don't have an answer waiting. What would you like to ask?"
def blocked : String := "Sorry, I can't help with that one. Is there something else you'd like to ask?"
def failed : String := "Sorry, I couldn't get an answer just now. Please try again in a moment."

def questionIntents : List (String × String) :=
  [("AskAaronIntent", ""), ("AskAaronTellMeIntent", "tell me"), ("AskAaronExplainIntent", "explain"),
    ("AskAaronDefineIntent", "define"), ("AskAaronWhatIntent", "what"),
    ("AskAaronWhatIsIntent", "what is"), ("AskAaronWhoIntent", "who"),
    ("AskAaronWhoIsIntent", "who is"), ("AskAaronWhereIntent", "where"),
    ("AskAaronWhereIsIntent", "where is"), ("AskAaronWhenIntent", "when"),
    ("AskAaronWhyIntent", "why"), ("AskAaronHowIntent", "how"), ("AskAaronHowIsIntent", "how is"),
    ("AskAaronWhichIntent", "which"), ("AskAaronIsIntent", "is"), ("AskAaronAreIntent", "are"),
    ("AskAaronWhetherIntent", "whether"), ("AskAaronCanIntent", "can"),
    ("AskAaronCouldIntent", "could"), ("AskAaronDoIntent", "do"), ("AskAaronDoesIntent", "does"),
    ("AskAaronDidIntent", "did"), ("AskAaronShouldIntent", "should"), ("AskAaronWillIntent", "will"),
    ("AskAaronWouldIntent", "would")]

def questionPrefix (intent : String) : Option String :=
  (questionIntents.find? fun entry => entry.1 = intent).map Prod.snd

def truncateChars (text : String) (limit : Nat) : String := String.ofList (text.toList.take limit)

/-- The last turns that the session brings back, cut to size. -/
def historyFrom (envelope : Envelope) : List Turn :=
  (envelope.history.reverse.take maxHistoryTurns).reverse.map fun turn =>
    { q := truncateChars turn.q maxHistoryChars, a := truncateChars turn.a maxHistoryChars }

/-- What a request asks for: a response at once, the end of what is pending, an answer to a question,
or the answer that is pending. -/
inductive Wish where
  | reply (response : AlexaResponse)
  | clear (response : AlexaResponse)
  | ask (query : String)
  | yes
  deriving DecidableEq

def intent (name : String) (slot : Option String) (history : List Turn) : Wish :=
  match questionPrefix name with
  | some front =>
    let slot := ((slot.map trim).getD "")
    if slot = "" then .reply (.speech emptyQuery (some reprompt) false (some history))
    else .ask (if front = "" then slot else front ++ " " ++ slot)
  | none =>
    if name = "AMAZON.YesIntent" then .yes
    else if name = "AMAZON.NoIntent" then
      .clear (.speech "Okay. What else would you like to ask?" (some reprompt) false (some history))
    else if name = "AMAZON.HelpIntent" then .reply (.speech help (some reprompt) false (some history))
    else if name = "AMAZON.NavigateHomeIntent" then
      .reply (.speech greeting (some reprompt) false (some history))
    else if name = "AMAZON.StopIntent" ∨ name = "AMAZON.CancelIntent" then
      .clear (.speech goodbye none true none)
    else .reply (.speech fallback (some reprompt) false (some history))

def respond (envelope : Envelope) : Wish :=
  let history := historyFrom envelope
  if envelope.requestType = "LaunchRequest" then
    .reply (.speech greeting (some reprompt) false (some history))
  else if envelope.requestType = "IntentRequest" then intent envelope.intent envelope.query history
  else if envelope.requestType = "SessionEndedRequest" then .clear .empty
  else if envelope.requestType = "System.ExceptionEncountered" then .reply .empty
  else .reply (.speech fallback (some reprompt) false (some history))

/-- What is said once the task has ended. -/
def answerReply (spokenText : String → String) (query : String) (history : List Turn) :
    Outcome → AlexaResponse
  | some (.ok text) =>
    let spoken := if spokenText text = "" then failed else spokenText text
    let turn : Turn := { q := truncateChars query maxHistoryChars
                         a := truncateChars spoken maxHistoryChars }
    let history := history ++ [turn]
    .speech spoken (some followUpReprompt) false
      (some (history.drop (history.length - maxHistoryTurns)))
  | some (.error .blocked) => .speech blocked (some reprompt) false (some history)
  | some (.error .failed) | none => .speech failed (some reprompt) false (some history)

/-- The map of pending answers, in the order in which it is iterated. -/
abbrev PendingMap := List (String × PendingAnswer)

def PendingMap.remove (pending : PendingMap) (session : String) : PendingMap :=
  pending.filter fun entry => entry.1 ≠ session

/-- Whether an entry is younger than the limit. -/
def PendingAnswer.fresh (now : Nat) (entry : PendingAnswer) : Bool :=
  now - entry.created < pendingAnswerTtl

def PendingMap.handles (pending : PendingMap) : List Nat := pending.map fun entry => entry.2.handle

/-- A full map gives up its oldest entry; the handles of what goes are aborted. -/
def PendingMap.evict (pending : PendingMap) : PendingMap × List Nat :=
  if pending.length ≥ maxPendingAnswers then
    match pending.argmin fun entry => entry.2.created with
    | some oldest => (pending.remove oldest.1, [oldest.2.handle])
    | none => (pending, [])
  else (pending, [])

/-- The map with a new entry, and the handles that are aborted for it. -/
def storePending (now : Nat) (pending : PendingMap) (session : String) (entry : PendingAnswer) :
    PendingMap × List Nat :=
  let kept := pending.filter fun entry => entry.2.fresh now
  let expired := pending.filter fun entry => !entry.2.fresh now
  let (room, evicted) := PendingMap.evict kept
  let previous := room.filter fun entry => entry.1 = session
  (room.remove session ++ [(session, entry)],
    PendingMap.handles expired ++ evicted ++ PendingMap.handles previous)

/-- The session's entry, unless it has expired; it leaves the map in either case. -/
def takePending (now : Nat) (pending : PendingMap) (session : Option String) :
    PendingMap × Option PendingAnswer :=
  match session with
  | none => (pending, none)
  | some session =>
    (pending.remove session,
      ((pending.find? fun entry => entry.1 = session).map Prod.snd).filter (PendingAnswer.fresh now))

inductive TaskState where
  | absent
  | running
  | finished (outcome : Outcome)
  | aborted
  deriving DecidableEq

/-- Aborting a task that has ended does nothing. -/
def abortAll (handles : List Nat) (task : Nat → TaskState) (handle : Nat) : TaskState :=
  if handle ∈ handles ∧ task handle = .running then .aborted else task handle

inductive RequestState where
  | absent
  /-- In `await_answer`, with the deadline running. -/
  | waiting (session : Option String) (handle : Nat) (query : String) (history : List Turn)
  /-- The response is built and not yet with the client. -/
  | replying (answer : Option Nat) (response : AlexaResponse)
  | delivered (response : AlexaResponse)
  | gone
  deriving DecidableEq

/-- The process; the last four fields only keep account of a run. -/
structure AlexaWorld where
  now : Nat
  pending : PendingMap
  task : Nat → TaskState
  /-- So many tasks have been spawned, with the numbers below. -/
  spawned : Nat
  request : Nat → RequestState
  /-- The session of the request for which a task was spawned. -/
  asker : Nat → Option String
  /-- The answers that have been parked, at whatever time. -/
  parked : List Nat
  /-- The answers that have been spoken, each with the session it was spoken to. -/
  spoken : List (Nat × Option String)
  /-- The parked answer whose client went away in the last step before it was delivered. -/
  undelivered : Option Nat

def AlexaWorld.start : AlexaWorld where
  now := 0
  pending := []
  task := fun _ => .absent
  spawned := 0
  request := fun _ => .absent
  asker := fun _ => none
  parked := []
  spoken := []
  undelivered := none

inductive AlexaEvent where
  | tick (elapsed : Nat)
  /-- The order of iteration of the map is any. -/
  | reorder (order : PendingMap)
  /-- A background task ends. -/
  | finish (handle : Nat) (outcome : Outcome)
  | arrive (request : Nat) (envelope : Envelope)
  /-- A waiting request sees the end of its task, or its deadline. -/
  | answer (request : Nat)
  | deadline (request : Nat)
  | deliver (request : Nat)
  /-- The client goes away and the request is dropped. -/
  | disconnect (request : Nat)

namespace AlexaWorld
variable (spokenText : String → String) (w : AlexaWorld)

def setRequest (request : Nat) (state : RequestState) : AlexaWorld :=
  { w with request := Function.update w.request request state }

/-- `clear_pending`. -/
def clear (session : Option String) : AlexaWorld :=
  let (pending, taken) := takePending w.now w.pending session
  { w with pending, task := abortAll (taken.map PendingAnswer.handle).toList w.task }

/-- The question goes to a background task, and the request waits for it. -/
def ask (request : Nat) (session : Option String) (query : String) (history : List Turn) :
    AlexaWorld :=
  { w with
    task := Function.update w.task w.spawned .running
    spawned := w.spawned + 1
    asker := Function.update w.asker w.spawned session }.setRequest request
      (.waiting session w.spawned query history)

/-- A yes waits for what is pending. -/
def yes (request : Nat) (session : Option String) (history : List Turn) : AlexaWorld :=
  let (pending, taken) := takePending w.now w.pending session
  { w with pending }.setRequest request <|
    match taken with
    | some entry => .waiting session entry.handle entry.query entry.history
    | none => .replying none (.speech nothingPending (some reprompt) false (some history))

/-- What a request does before it first waits. -/
def arrive (request : Nat) (envelope : Envelope) : AlexaWorld :=
  match respond envelope with
  | .reply response => w.setRequest request (.replying none response)
  | .clear response => (w.clear envelope.sessionId).setRequest request (.replying none response)
  | .ask query =>
    (w.clear envelope.sessionId).ask request envelope.sessionId query (historyFrom envelope)
  | .yes => w.yes request envelope.sessionId (historyFrom envelope)

/-- The outcome that a waiting request sees, when its task has ended; an aborted one reads as failed. -/
def outcome (handle : Nat) : Option Outcome :=
  match w.task handle with
  | .finished outcome => some outcome
  | .aborted => some none
  | .running | .absent => none

/-- The answer is spoken. -/
def speak (request : Nat) (session : Option String) (handle : Nat) (response : AlexaResponse) :
    AlexaWorld :=
  { w with spoken := w.spoken ++ [(handle, session)] }.setRequest request
    (.replying (some handle) response)

/-- The deadline passes: the answer is parked under its session, or given up where there is none. -/
def park (request : Nat) (session : Option String) (entry : PendingAnswer) : AlexaWorld :=
  let response := .speech stillThinking (some stillThinkingReprompt) false (some entry.history)
  match session with
  | some session =>
    let (pending, aborted) := storePending w.now w.pending session entry
    { w with
      pending, task := abortAll aborted w.task
      parked := w.parked ++ [entry.handle] }.setRequest request (.replying none response)
  | none =>
    { w with task := abortAll [entry.handle] w.task }.setRequest request (.replying none response)

/-- The answer that a request holds or is about to deliver. -/
def inReach (request : Nat) : Option Nat :=
  match w.request request with
  | .waiting _ handle _ _ => some handle
  | .replying answer _ => answer
  | _ => none

def act (event : AlexaEvent) : AlexaWorld :=
  match event with
  | .tick elapsed => { w with now := w.now + elapsed }
  | .reorder order => if order.Perm w.pending then { w with pending := order } else w
  | .finish handle outcome =>
    if w.task handle = .running then
      { w with task := Function.update w.task handle (.finished outcome) }
    else w
  | .arrive request envelope =>
    if w.request request = .absent then w.arrive request envelope else w
  | .answer request =>
    match w.request request with
    | .waiting session handle query history =>
      match w.outcome handle with
      | some outcome =>
        w.speak request session handle (answerReply spokenText query history outcome)
      | none => w
    | _ => w
  | .deadline request =>
    match w.request request with
    | .waiting session handle query history =>
      w.park request session { handle, query, history, created := w.now }
    | _ => w
  | .deliver request =>
    match w.request request with
    | .replying _ response => w.setRequest request (.delivered response)
    | _ => w
  | .disconnect request =>
    { w.setRequest request .gone with
      undelivered := (w.inReach request).filter fun answer => answer ∈ w.parked }

def next (event : AlexaEvent) : AlexaWorld := { w with undelivered := none }.act spokenText event

end AlexaWorld
end Gail.Alexa
