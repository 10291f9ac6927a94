import Mathlib.Algebra.Order.Field.Rat
import TokenFoundry.Framework.Interleaving

/-!
# The usage feed of a hub (`hub/eventhub.py`)

A hub sends one usage record for each request to an Event Hub.  A record that the producer refuses,
or takes and hands back, is parked in a bounded queue, and a background task sends the parked
records again.  What is given up on is counted.

The module is cooperative code: between two awaits nothing else runs.  Here a stretch of code
without an await is a function on the state of the module, and one call of the program; the awaits
are calls as well.  A stretch that may raise gives its outcome with the state that it has left.  The
drain step that `aclose` waits for is a task of its own, as every other drain
step.  The handle of the drainer, the texts of `/api/status` and the log are left out.

Every record carries the task that has emitted it (`origin`); the code does not see it.
-/

set_option autoImplicit false

namespace TokenFoundry
namespace Eventhub

/-! ## The state of the module -/

/-- The settings of the queue: how long it may be, and how often and how soon a record is tried
again. -/
structure Settings where
  /-- `eventhub_enabled`. -/
  enabled : Bool
  retryMaxQueue : ℤ
  retryMaxAttempts : ℤ
  retryBaseSeconds : ℚ

/-- `_Pending`: one parked event, with the attempts it has had and when the next one is due. -/
structure Pending (ι : Type) where
  origin : Option ι
  body : String
  attempts : ℤ
  nextAt : ℚ
  deriving DecidableEq

/-- The globals: the producer, the counters, the records that are lost and those that are parked.  A
record is known by the task that made it. -/
structure Hub (ι : Type) where
  /-- `_producer is not None`. -/
  producer : Bool
  disabled : Bool
  initFailed : Bool
  lastInitTry : ℚ
  failedSend : ℕ
  failedEnqueue : ℕ
  failedInit : ℕ
  failedRetry : ℕ
  failedSerialize : ℕ
  retried : ℕ
  /-- `_lost`, with an entry for every event counted. -/
  lost : List (Option ι)
  retryQ : List (Pending ι)

/-- What may be raised: an `Exception`, or the cancellation at an await. -/
inductive HubErr
  | exception
  | cancelled
  deriving DecidableEq

/-! ## Events -/

/-- The value of an application property, as far as it is looked at. -/
inductive PropValue
  | int (n : ℤ)
  | bool (b : Bool)
  | other
  deriving DecidableEq

/-- The property `tf-attempt`, under a text key and under a bytes key. -/
structure Properties where
  text : Option PropValue
  bytes : Option PropValue
  deriving DecidableEq

/-- `ev.properties or {}`: reading it may raise, and what is read need not be a mapping. -/
inductive PropertiesValue
  /-- Reading them raises. -/
  | raising
  | mapping (props : Properties)
  /-- Something else that is not empty: a list, a text, a number. -/
  | other
  deriving DecidableEq

/-- What the producer may hand back as an event: whose it is, and what can be read of it. -/
structure EventData (ι : Type) where
  origin : Option ι
  /-- `body_as_str()`, or `none` where it raises or gives no string. -/
  body : Option String
  properties : PropertiesValue
  deriving DecidableEq

section Functions

variable {ι : Type}

/-- `_body_text`: the body of an event, if it can be read and is not empty. -/
def bodyText (ev : EventData ι) : Option String :=
  match ev.body with
  | some body => if body ≠ "" then some body else none
  | none => none

/-- `_attempt_of`; `none` where it raises: what is no mapping has no `get`. -/
def attemptOf (ev : EventData ι) : Option ℤ :=
  match ev.properties with
  | .raising => some 0
  | .other => none
  | .mapping props =>
      match props.text, props.bytes with
      | some (.int n), _ => some n
      | _, some (.int n) => some n
      | _, _ => some 0

/-- `_make_event`: an event with the number of its attempts as a property, which a new one does not
have. -/
def makeEvent (origin : Option ι) (body : String) (attempts : ℤ) : EventData ι where
  origin := origin
  body := some body
  properties := .mapping ⟨if attempts ≠ 0 then some (.int attempts) else none, none⟩

/-- What is passed to the error callback: events, or something that cannot be listed, with a
`TypeError` or with another exception. -/
inductive Batch (ι : Type)
  | events (evs : List (EventData ι))
  | notIterable (origins : List (Option ι))
  | raising (origins : List (Option ι))

/-- The records that a batch hands back, whether or not it can be listed. -/
def Batch.origins : Batch ι → List (Option ι)
  | .events evs => evs.map EventData.origin
  | .notIterable origins => origins
  | .raising origins => origins

/-! ## The retry queue -/

/-- A reading of the clock, and the factor `random.uniform(0.8, 1.2)`, with which a delay is
computed. -/
structure Reading where
  now : ℚ
  jitter : ℚ

/-- `_RETRY_CAP_SECONDS` and `_INIT_RETRY_SECONDS`: the longest delay between two attempts. -/
def retryCapSeconds : ℚ := 60

/-- The time that has to pass before the producer is built again. -/
def initRetrySeconds : ℚ := 60

/-- `_backoff_seconds`; `none` where it raises `OverflowError`: the power is an integer, and from
`2 ** 1024` on it is too large for a float. -/
def backoffSeconds (attempts : ℤ) (base cap : ℚ) : Option ℚ :=
  if 1024 ≤ attempts - 1 then none else some (min cap (base * 2 ^ (attempts - 1).toNat))

/-- `_delay`: the backoff of an attempt, with a factor that spreads the attempts. -/
def delay (st : Settings) (attempts : ℤ) (jitter : ℚ) : Option ℚ :=
  (backoffSeconds attempts st.retryBaseSeconds retryCapSeconds).map (· * jitter)

/-- `while len(_retry_q) >= cap`: the oldest events make room, and are counted. -/
def evict (cap : ℕ) : List (Pending ι) → List (Option ι) → List (Pending ι) × List (Option ι)
  | [], lost => ([], lost)
  | item :: rest, lost =>
      if cap ≤ (item :: rest).length then evict cap rest (item.origin :: lost)
      else (item :: rest, lost)

/-- `_requeue`.  The delay is computed last, when room has been made. -/
def requeue (st : Settings) (t : Reading) (origin : Option ι) (body : String) (attempts : ℤ)
    (h : Hub ι) : Except HubErr Unit × Hub ι :=
  if st.retryMaxAttempts < attempts then (.ok (), { h with lost := origin :: h.lost })
  else
    let (kept, lost) := evict (max st.retryMaxQueue 1).toNat h.retryQ h.lost
    match delay st attempts t.jitter with
    | none => (.error .exception, { h with retryQ := kept, lost := lost })
    | some seconds => (.ok (), { h with
        retryQ := kept ++ [⟨origin, body, attempts, t.now + seconds⟩]
        lost := lost })

/-- `_give_up_all`: what is parked is counted as lost. -/
def giveUpAll (h : Hub ι) : Hub ι :=
  { h with retryQ := [], lost := h.lost ++ h.retryQ.map Pending.origin }

/-- `_on_error` for one event of the batch: what cannot be read cannot be sent again. -/
def parkOne (st : Settings) (t : Reading) (ev : EventData ι) (h : Hub ι) :
    Except HubErr Unit × Hub ι :=
  match bodyText ev with
  | none => (.ok (), { h with lost := ev.origin :: h.lost })
  | some body =>
      match attemptOf ev with
      | none => (.error .exception, h)
      | some attempts => requeue st t ev.origin body (attempts + 1) h

/-- The loop of `_on_error` over the batch, from the `k`-th reading of the clock on. -/
def park (st : Settings) (clock : ℕ → Reading) :
    ℕ → List (EventData ι) → Hub ι → Except HubErr Unit × Hub ι
  | _, [], h => (.ok (), h)
  | k, ev :: evs, h =>
      match parkOne st (clock k) ev h with
      | (.ok (), h) => park st clock (k + 1) evs h
      | (.error e, h) => (.error e, h)

/-- `_on_error`: the events that are handed back are parked, one by one.  What it raises ends in the
producer. -/
def onError (st : Settings) (clock : ℕ → Reading) (h : Hub ι) :
    Batch ι → Except HubErr Unit × Hub ι
  | .events evs => park st clock 0 evs { h with failedSend := h.failedSend + max evs.length 1 }
  | .notIterable _ => (.ok (), { h with failedSend := h.failedSend + 1 })
  | .raising _ => (.error .exception, h)

/-! ## The producer and the drain -/

/-- `_get_producer`: whether there is one; `built` tells whether its construction succeeds. -/
def getProducer (st : Settings) (built : Bool) (h : Hub ι) : Bool × Hub ι :=
  if h.producer then (true, h)
  else if h.disabled ∨ h.initFailed then (false, h)
  else if ¬ st.enabled then (false, { h with disabled := true })
  else if built then (true, { h with producer := true })
  else (false, { h with initFailed := true })

/-- `_drain_once` up to its loop: the due items leave the queue. -/
def drainBegin (st : Settings) (built : Bool) (now : ℚ) (h : Hub ι) : List (Pending ι) × Hub ι :=
  if h.retryQ.isEmpty then ([], h)
  else
    match getProducer st built h with
    | (true, h) =>
        (h.retryQ.filter (fun item => item.nextAt ≤ now),
          { h with retryQ := h.retryQ.filter (fun item => ¬ item.nextAt ≤ now) })
    | (false, h) => if h.disabled then ([], giveUpAll h) else ([], h)

/-- `_maybe_reinit`: a producer that could not be built is built again, if there is something to
send and enough time has passed. -/
def maybeReinit (st : Settings) (built : Bool) (now : ℚ) (h : Hub ι) : Hub ι :=
  if ¬ (h.initFailed ∧ ¬ h.retryQ.isEmpty) then h
  else if now - h.lastInitTry < initRetrySeconds then h
  else (getProducer st built { h with lastInitTry := now, initFailed := false }).2

end Functions

/-! ## The calls -/

/-- What `_get_producer` has found: a producer, or the flag of a failed construction. -/
structure Found where
  producer : Bool
  initFailed : Bool

inductive Client
  | producer
  | credential

/-- The points at which another task may run, and the changes of the globals in between. -/
inductive Call (ι : Type)
  /-- `_failed_serialize += 1`, `_lost += 1`. -/
  | failSerialize
  | getProducer
  /-- `_failed_init += 1`, `_lost += 1`. -/
  | failInit
  /-- `producer.send_event` of a new record. -/
  | send (body : String)
  /-- `_failed_enqueue += 1` and `_requeue(body, 1)`. -/
  | failEnqueue (body : String)
  | drainBegin
  /-- `_retried += 1`. -/
  | countRetried
  /-- `producer.send_event` of a parked event. -/
  | resend (item : Pending ι)
  /-- `_failed_retry += 1` and `_requeue(item.body, item.attempts + 1)`. -/
  | failRetry (item : Pending ι)
  | maybeReinit
  /-- The producer calls `_on_error`. -/
  | onError
  /-- `drainer.cancel()` and the wait for its end. -/
  | cancelDrainer
  /-- `_producer is not None and _retry_q`; then everything is due. -/
  | makeAllDue
  /-- `asyncio.wait_for(_drain_once(), …)`. -/
  | waitForDrain
  /-- `_producer = _credential = None`, and the flags; answers whether there was a producer. -/
  | takeClients
  | close (client : Client)
  /-- What is left in the queue is counted. -/
  | loseRest

@[reducible] def Call.Answer {ι : Type} : Call ι → Type
  | .getProducer => Found
  | .drainBegin => List (Pending ι)
  | .onError => Batch ι
  | .makeAllDue => Bool
  | .takeClients => Bool
  | _ => Unit

abbrev hubApi (ι : Type) : Interface HubErr := ⟨Call ι, Call.Answer⟩

abbrev Task (ι α : Type) := Prog.Raising (hubApi ι) α

section Tasks

variable {ι : Type}

def ask (o : Call ι) : Task ι o.Answer := @Prog.ask _ (hubApi ι) o

/-- `except Exception`: a cancellation goes on, since it is none. -/
def catchException (p handler : Task ι Unit) : Task ι Unit :=
  tryCatch p (fun exc => match exc with
    | .exception => handler
    | .cancelled => throw .cancelled)

/-- `emit`; `dumps` is `json.dumps(_envelope(record), default=str)`, and `none` where it raises.  A
record that cannot be sent is parked, and one that cannot be written is lost. -/
def emit {Record : Type} (dumps : Record → Option String) (record : Record) : Task ι Unit := do
  match dumps record with
  | none => ask .failSerialize
  | some body =>
      let found ← ask .getProducer
      if found.producer then
        catchException (ask (.send body)) (ask (.failEnqueue body))
      else if found.initFailed then ask .failInit
      else return ()

/-- `_drain_once`: the events that are due are taken out of the queue and sent; one that cannot be
sent is parked again. -/
def drainOnce : Task ι Unit := do
  let due ← ask .drainBegin
  due.forM (fun item => catchException (do
    ask .countRetried
    ask (.resend item)) (ask (.failRetry item)))

/-- One round of `_drain_loop`, between two sleeps; an exception does not end the loop. -/
def drainRound : Task ι Unit :=
  catchException (do
    drainOnce
    ask .maybeReinit) (return ())

/-- `aclose`: the drainer is cancelled, what is parked gets one more step within a time limit, and
what is then left is counted as lost. -/
def aclose : Task ι Unit := do
  ask .cancelDrainer
  if ← ask .makeAllDue then
    catchException (ask .waitForDrain) (return ())
  if ← ask .takeClients then
    catchException (ask (.close .producer)) (return ())
    catchException (ask (.close .credential)) (return ())
  ask .loseRest

end Tasks

end Eventhub
end TokenFoundry
