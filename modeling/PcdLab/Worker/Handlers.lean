import Mathlib.Data.List.Basic
import PcdLab.Lib.Runs
import PcdLab.Shared.Socket

/-! # The request handlers of the worker

Each handler counts itself in when it starts, may wait once, and counts itself out
before it responds. Handlers run concurrently, and between any two of their steps
others may take theirs; a handler that waits may also be dropped, because its client
went away. Floating-point numbers are left to the platform: a handler only passes
them on, and what matters of a conversion is whether it panics.
-/

namespace PcdLab.Worker

open Lib Shared.Socket

/-! ## Metrics -/

/-- The three metrics, `none` until `init_metrics`. The gauge is that of the worker's own pod;
    of the durations only the endpoint is kept. -/
structure Metrics where
  activeRequests : Option Int
  requestDuration : Option (List String)
  requestsTotal : Option (List (String × String))
  deriving Repr, DecidableEq

def initMetrics : Metrics := ⟨some 0, some [], some []⟩

def activeInc (m : Metrics) : Metrics :=
  { m with activeRequests := m.activeRequests.map (· + 1) }

def recordDone (m : Metrics) (endpoint : String) : Metrics where
  activeRequests := m.activeRequests.map (· - 1)
  requestDuration := m.requestDuration.map (· ++ [endpoint])
  requestsTotal := m.requestsTotal.map (· ++ [(endpoint, "200")])

/-! ## Requests -/

/-- `Query<HashMap<String, String>>`, in the order of the query string. -/
abbrev Params := List (String × String)

/-- Of a repeated key the last value stands. -/
def Params.get (params : Params) (key : String) : Option String :=
  (params.reverse.find? fun pair => pair.1 = key).map Prod.snd

/-- `str::parse::<u64>().ok()`: decimal digits behind an optional plus sign. -/
def parseU64 (text : String) : Option Nat :=
  let digits :=
    match text.toList with
    | '+' :: rest => rest
    | all => all
  if digits ≠ [] ∧ digits.all Char.isDigit then
    let value := digits.foldl (fun n c => 10 * n + (c.toNat - '0'.toNat)) 0
    if value < 2 ^ 64 then some value else none
  else none

/-- The routes that are counted. `/` and `/get` have the same handler. -/
inductive Request where
  | get
  | work (params : Params)
  | cpu (params : Params)
  deriving Repr, DecidableEq

structure AppState where
  podName : String
  baseDelayMs : Nat
  deriving Repr, DecidableEq

/-- What the handlers take from below. `F` is `f64`; times and durations are numbers. -/
structure Platform (F : Type) where
  profile : Profile
  /-- `str::parse::<f64>().ok()`. -/
  parseF64 : String → Option F
  /-- `0.1` and `0.0`. -/
  tenth : F
  zero : F
  /-- `Duration::from_secs_f64`, which panics on a number out of range. -/
  fromSecsF64 : F → Option Nat
  /-- `Instant + Duration`, which panics on an overflow. -/
  addDuration : Nat → Nat → Option Nat
  /-- Whether a text can be the value of a header. -/
  headerValue : String → Bool

/-- `a + b` on `u64`: past the top it panics, or wraps around. -/
def addU64 : Profile → Nat → Nat → Option Nat
  | .debug, a, b => if a + b < 2 ^ 64 then some (a + b) else none
  | .release, a, b => some ((a + b) % 2 ^ 64)

inductive Body (F : Type) where
  | get (pod : String) (ts : Nat)
  | work (pod : String) (delayMs ts : Nat)
  | cpu (pod : String) (duration result : F)
  deriving Repr, DecidableEq

structure Response (F : Type) where
  podName : String
  body : Body F
  deriving Repr, DecidableEq

variable {F : Type}

/-- `none` is the panic of `expect`. -/
def jsonResponse (platform : Platform F) (pod : String) (body : Body F) : Option (Response F) :=
  if platform.headerValue pod then some ⟨pod, body⟩ else none

/-! ## Handlers -/

/-- A handler between two of its steps: behind `active_inc`, at its await, or about to
    record that it is done. -/
inductive Handler (F : Type) where
  | entered (request : Request)
  | sleeping (totalMs : Nat)
  | spinning (duration : F) (deadline : Nat)
  | ready (endpoint : String) (body : Body F)
  deriving Repr, DecidableEq

def handleGet (app : AppState) (now : Nat) : Handler F := .ready "/get" (.get app.podName now)

/-- A parameter that is missing or does not parse counts as zero. -/
def extraMs (params : Params) : Nat := ((params.get "ms").bind parseU64).getD 0

/-- `handle_work` up to its await, or past it when there is nothing to wait for. -/
def handleWork (platform : Platform F) (app : AppState) (params : Params) (now : Nat) :
    Option (Handler F) :=
  (addU64 platform.profile app.baseDelayMs (extraMs params)).map fun totalMs =>
    if totalMs > 0 then .sleeping totalMs
    else .ready "/work" (.work app.podName totalMs now)

def durationSecs (platform : Platform F) (params : Params) : F :=
  ((params.get "duration").bind platform.parseF64).getD platform.tenth

/-- `handle_cpu` up to its await. -/
def handleCpu (platform : Platform F) (params : Params) (now : Nat) : Option (Handler F) :=
  (platform.fromSecsF64 (durationSecs platform params)).bind fun duration =>
    (platform.addDuration now duration).map fun deadline =>
      .spinning (durationSecs platform params) deadline

/-- From `active_inc` to the await, or to the end if there is none. `none` is a panic. -/
def compute (platform : Platform F) (app : AppState) (now : Nat) :
    Request → Option (Handler F)
  | .get => some (handleGet app now)
  | .work params => handleWork platform app params now
  | .cpu params => handleCpu platform params now

/-- The await is over. A blocking task that fails has no result, and need not have run until
    the deadline. -/
def Handler.wake (platform : Platform F) (app : AppState) (now : Nat) (result : Option F) :
    Handler F → Option (Handler F)
  | .sleeping totalMs => some (.ready "/work" (.work app.podName totalMs now))
  | .spinning duration deadline =>
      if result.isNone ∨ deadline ≤ now then
        some (.ready "/cpu" (.cpu app.podName duration (result.getD platform.zero)))
      else none
  | _ => none

def Handler.waits : Handler F → Bool
  | .sleeping _ | .spinning _ _ => true
  | _ => false

/-! ## The worker -/

structure Pod (F : Type) where
  metrics : Metrics
  live : List (Handler F)
  responses : List (Response F)
  deriving Repr, DecidableEq

/-- `main` has initialised the metrics, and no request has come in. -/
def Pod.start : Pod F := ⟨initMetrics, [], []⟩

/-- The handlers are numbered as they stand in the list of those which run. -/
inductive Event (F : Type) where
  | start (request : Request)
  | compute (i now : Nat)
  | wake (i now : Nat) (result : Option F)
  | finish (i : Nat)
  /-- The connection of a waiting handler went away. -/
  | drop (i : Nat)
  deriving Repr, DecidableEq

def step (platform : Platform F) (app : AppState) (s : Pod F) : Event F → Option (Pod F)
  | .start request =>
      some { s with metrics := activeInc s.metrics, live := s.live ++ [.entered request] }
  | .compute i now =>
      match s.live[i]? with
      | some (.entered request) =>
          match compute platform app now request with
          | some handler => some { s with live := s.live.set i handler }
          | none => some { s with live := s.live.eraseIdx i }
      | _ => none
  | .wake i now result =>
      (s.live[i]?.bind fun handler => handler.wake platform app now result).map fun handler =>
        { s with live := s.live.set i handler }
  | .finish i =>
      match s.live[i]? with
      | some (.ready endpoint body) =>
          some { s with
            metrics := recordDone s.metrics endpoint
            live := s.live.eraseIdx i
            responses := s.responses ++ (jsonResponse platform app.podName body).toList }
      | _ => none
  | .drop i =>
      if (s.live[i]?.map Handler.waits).getD false then
        some { s with live := s.live.eraseIdx i }
      else none

end PcdLab.Worker
