import Mathlib.Data.List.Sort
import RustHouse.Transition
import RustHouse.Wal

/-!
# Concurrent listeners

A listener accepts connections and hands each to a worker thread. Workers send
their completions over a channel, and the listener records them in a report.
One listener runs until its connection budget is spent, the other also until
it sees a stop request. What the system answers and when workers finish is
left open.
-/

namespace RustHouse.Http

/-! ## Reports -/

/-- A failed exchange, with its one-based position in the run. -/
structure HttpConnectionFailure (ε : Type) where
  connection : Nat
  source : ε
  deriving DecidableEq

structure HttpListenerReport (ε : Type) where
  acceptedConnections : Nat
  successfulExchanges : Nat
  connectionFailures : List (HttpConnectionFailure ε)
  deriving DecidableEq

inductive HttpListenerError (ε : Type) where
  | accept (report : HttpListenerReport ε) (source : IoError)
  deriving DecidableEq

abbrev HttpListenerResult (ε : Type) := Except (HttpListenerError ε) (HttpListenerReport ε)

variable {ε : Type}

def HttpListenerReport.default : HttpListenerReport ε := ⟨0, 0, []⟩

def reportOf : HttpListenerResult ε → HttpListenerReport ε
  | .ok report => report
  | .error (.accept report _) => report

def recordHttpListenerExchange (report : HttpListenerReport ε) (connection : Nat) :
    Except ε Unit → HttpListenerReport ε
  | .ok () => { report with successfulExchanges := report.successfulExchanges + 1 }
  | .error source => { report with connectionFailures := report.connectionFailures ++ [⟨connection, source⟩] }

/-- The report with its failures in acceptance order. -/
def HttpListenerReport.sorted (report : HttpListenerReport ε) : HttpListenerReport ε :=
  { report with connectionFailures :=
      report.connectionFailures.insertionSort fun earlier later => earlier.connection ≤ later.connection }

/-! ## Workers -/

/-- A connection and what its exchange returned, or nothing where the exchange panicked. -/
abbrev HttpListenerCompletion (ε : Type) := Nat × Option (Except ε Unit)

/-- How far a worker thread is: it sends one completion, and then ends or goes on unwinding. -/
inductive WorkerThread where
  | running
  | sent (panicking : Bool)
  | ended (panicked : Bool)
  deriving DecidableEq

def WorkerThread.reported : WorkerThread → Option Bool
  | running => none
  | sent panicking => some panicking
  | ended panicked => some panicked

inductive ListenerPanic where
  /-- Every sender of the channel is gone. -/
  | disconnected
  | unknownConnection (connection : Nat)
  /-- The panic of a worker, resumed. -/
  | worker (connection : Nat)
  | noExchange (connection : Nat)
  /-- The system refuses a thread. -/
  | spawn
  deriving DecidableEq

/-- `Vec::swap_remove`: the last element takes the place of the one removed. -/
def swapRemove {α : Type} (elements : List α) (index : Nat) : List α :=
  match elements.getLast? with
  | none => []
  | some last => (elements.set index last).dropLast

/-- Joins the worker of a completion and records its exchange; nothing while the worker has not ended. -/
def finishHttpListenerCompletion (completion : HttpListenerCompletion ε) (workers : List (Nat × WorkerThread))
    (report : HttpListenerReport ε) :
    Option (Except ListenerPanic (List (Nat × WorkerThread) × HttpListenerReport ε)) :=
  let (connection, exchange) := completion
  match workers.findIdx? fun worker => worker.1 == connection with
  | none => some (.error (.unknownConnection connection))
  | some position =>
    match workers[position]? with
    | some (_, .ended true) => some (.error (.worker connection))
    | some (_, .ended false) =>
      match exchange with
      | none => some (.error (.noExchange connection))
      | some exchange =>
        some (.ok (swapRemove workers position, recordHttpListenerExchange report connection exchange))
    | _ => none

/-! ## The state of a listener -/

inductive ListenerPoint (ε : Type) where
  | entering | configuring | looping | waiting | accepting | admitting | dispatching | draining
  | returned (result : HttpListenerResult ε)
  | panicked (panic : ListenerPanic)
  deriving DecidableEq

/-- The listener's own state, the channel and the stop flag. What it has seen, recorded and which
exchanges panicked is kept for the record. -/
structure Listening (ε : Type) where
  point : ListenerPoint ε
  stopRequested : Bool
  acceptFailure : Option IoError
  workers : List (Nat × WorkerThread)
  completions : List (HttpListenerCompletion ε)
  senders : Nat
  report : HttpListenerReport ε
  stopObserved : Bool
  recorded : List Nat
  panicked : List Nat
  deriving DecidableEq

namespace Listening

def start (point : ListenerPoint ε) (stopRequested : Bool) : Listening ε :=
  { point, stopRequested, acceptFailure := none, workers := [], completions := [], senders := 1,
    report := .default, stopObserved := false, recorded := [], panicked := [] }

/-- `recv` fails: the channel is empty and no sender is left. -/
def disconnected (s : Listening ε) : Bool := s.completions.isEmpty && s.senders == 0

def receive (s : Listening ε) (next : ListenerPoint ε) : Option (Listening ε) :=
  match s.completions with
  | [] => none
  | completion :: completions =>
    match finishHttpListenerCompletion completion s.workers s.report with
    | none => none
    | some (.error panic) => some { s with point := .panicked panic, completions }
    | some (.ok (workers, report)) =>
      some { s with point := next, completions, workers, report, recorded := s.recorded ++ [completion.1] }

def countAccepted (s : Listening ε) : HttpListenerReport ε :=
  { s.report with acceptedConnections := s.report.acceptedConnections + 1 }

def dispatch (s : Listening ε) : Listening ε :=
  { s with point := .looping, report := s.countAccepted, senders := s.senders + 1,
           workers := s.workers ++ [(s.countAccepted.acceptedConnections, .running)] }

/-- A load of the stop flag, and where the listener goes on if it is not set. -/
def checkStop (s : Listening ε) (stopped next : ListenerPoint ε) : Listening ε :=
  if s.stopRequested then { s with point := stopped, stopObserved := true } else { s with point := next }

/-- Where a listener goes on that may accept another connection. -/
def capacity (s : Listening ε) (maxInFlight : Nat) : ListenerPoint ε :=
  if s.workers.length = maxInFlight then .waiting else .accepting

def fail (s : Listening ε) (source : IoError) : Listening ε :=
  { s with point := .draining, acceptFailure := some source }

def result (s : Listening ε) : HttpListenerResult ε :=
  match s.acceptFailure with
  | some source => .error (.accept s.report.sorted source)
  | none => .ok s.report.sorted

/-! ## Steps -/

/-- What happens beside the listener. -/
inductive WorkerStep : Listening ε → Listening ε → Prop
  /-- A worker's exchange is over, and it sends what came of it. -/
  | send (s : Listening ε) (before after : List (Nat × WorkerThread)) (connection : Nat)
      (exchange : Option (Except ε Unit)) :
      s.workers = before ++ (connection, .running) :: after →
      WorkerStep s { s with
        workers := before ++ (connection, .sent exchange.isNone) :: after
        completions := s.completions ++ [(connection, exchange)]
        panicked := if exchange.isNone then connection :: s.panicked else s.panicked }
  /-- A worker's thread ends and drops its sender. -/
  | exit (s : Listening ε) (before after : List (Nat × WorkerThread)) (connection : Nat) (panicking : Bool) :
      s.workers = before ++ (connection, .sent panicking) :: after →
      WorkerStep s { s with
        workers := before ++ (connection, .ended panicking) :: after, senders := s.senders - 1 }
  | store (s : Listening ε) (value : Bool) : WorkerStep s { s with stopRequested := value }

inductive SharedStep : Listening ε → Listening ε → Prop
  | beside (s s' : Listening ε) : WorkerStep s s' → SharedStep s s'
  | disconnected (s : Listening ε) : s.point = .waiting ∨ s.point = .draining ∧ s.workers ≠ [] →
      s.disconnected = true → SharedStep s { s with point := .panicked .disconnected }
  | dispatch (s : Listening ε) : s.point = .dispatching → SharedStep s s.dispatch
  | spawnFails (s : Listening ε) : s.point = .dispatching →
      SharedStep s { s with point := .panicked .spawn, report := s.countAccepted }
  | drain (s s' : Listening ε) : s.point = .draining → s.workers ≠ [] → s.receive .draining = some s' →
      SharedStep s s'
  | finish (s : Listening ε) : s.point = .draining → s.workers = [] →
      SharedStep s { s with point := .returned s.result }

/-- `serve_http_concurrently`. -/
inductive ConcurrentStep (maxConnections maxInFlight : Nat) : Listening ε → Listening ε → Prop
  | shared (s s' : Listening ε) : SharedStep s s' → ConcurrentStep maxConnections maxInFlight s s'
  | loop (s : Listening ε) : s.point = .looping → ConcurrentStep maxConnections maxInFlight s { s with
      point := if s.report.acceptedConnections < maxConnections then s.capacity maxInFlight else .draining }
  | receive (s s' : Listening ε) : s.point = .waiting → s.receive .accepting = some s' →
      ConcurrentStep maxConnections maxInFlight s s'
  | accepted (s : Listening ε) : s.point = .accepting →
      ConcurrentStep maxConnections maxInFlight s { s with point := .dispatching }
  | interrupted (s : Listening ε) : s.point = .accepting → ConcurrentStep maxConnections maxInFlight s s
  | acceptFails (s : Listening ε) (source : IoError) : s.point = .accepting → source.kind ≠ .interrupted →
      ConcurrentStep maxConnections maxInFlight s (s.fail source)

/-- `serve_http_concurrently_until_cancelled`. -/
inductive CancellableStep (maxConnections maxInFlight : Nat) : Listening ε → Listening ε → Prop
  | shared (s s' : Listening ε) : SharedStep s s' → CancellableStep maxConnections maxInFlight s s'
  | enter (s : Listening ε) : s.point = .entering → CancellableStep maxConnections maxInFlight s
      (if maxConnections = 0 then { s with point := .returned (.ok s.report) }
       else s.checkStop (.returned (.ok s.report)) .configuring)
  | configured (s : Listening ε) : s.point = .configuring →
      CancellableStep maxConnections maxInFlight s { s with point := .looping }
  | configureFails (s : Listening ε) (source : IoError) : s.point = .configuring →
      CancellableStep maxConnections maxInFlight s { s with point := .returned (.error (.accept s.report source)) }
  | loop (s : Listening ε) : s.point = .looping → CancellableStep maxConnections maxInFlight s
      (if s.report.acceptedConnections < maxConnections then s.checkStop .draining (s.capacity maxInFlight)
       else { s with point := .draining })
  | receive (s s' : Listening ε) : s.point = .waiting → s.receive .looping = some s' →
      CancellableStep maxConnections maxInFlight s s'
  | timeout (s : Listening ε) : s.point = .waiting →
      CancellableStep maxConnections maxInFlight s { s with point := .looping }
  | accepted (s : Listening ε) : s.point = .accepting →
      CancellableStep maxConnections maxInFlight s { s with point := .admitting }
  | interrupted (s : Listening ε) : s.point = .accepting →
      CancellableStep maxConnections maxInFlight s { s with point := .looping }
  | wouldBlock (s : Listening ε) : s.point = .accepting → CancellableStep maxConnections maxInFlight s
      { s with point := if s.workers = [] then .looping else .waiting }
  | acceptFails (s : Listening ε) (source : IoError) : s.point = .accepting → source.kind ≠ .interrupted →
      source.kind ≠ .wouldBlock → CancellableStep maxConnections maxInFlight s (s.fail source)
  /-- The flag is checked again after an accept that may have raced with it. -/
  | admits (s : Listening ε) : s.point = .admitting →
      CancellableStep maxConnections maxInFlight s (s.checkStop .draining .dispatching)

end Listening

inductive HttpListener where
  | concurrent | untilCancelled
  deriving DecidableEq

namespace HttpListener

def Start : HttpListener → Listening ε → Prop
  | concurrent, s => s = .start .looping s.stopRequested
  | untilCancelled, s => s = .start .entering s.stopRequested

def Step : HttpListener → (maxConnections maxInFlight : Nat) → Listening ε → Listening ε → Prop
  | concurrent => Listening.ConcurrentStep
  | untilCancelled => Listening.CancellableStep

def Reachable (listener : HttpListener) (maxConnections maxInFlight : Nat) : Listening ε → Prop :=
  Transition.Reachable listener.Start (listener.Step maxConnections maxInFlight)

end HttpListener

end RustHouse.Http
