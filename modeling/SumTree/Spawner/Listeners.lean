import SumTree.Config
import SumTree.Spawner.Ledger
import SumTree.Worker.Address
import SumTree.Worker.Service

/-!
# Workers in the process

Each worker is a listener of the running process, on a port of its own. A listener can be made to
fail at its first request. Instead of listeners, addresses of workers that are there already can be
given; these are handed out as they are.

## Main Definitions

* `Listener`, `Listening` — a listener, and a spawner's own state.
* `Listeners.provider` — the provider of such workers.
* `Listeners.receive` — what a listener answers to a request.
* `Listeners.requestCount` — how many requests a live worker got.

## Design Notes

Tokens are numbered over the spawner's life. A worker that hangs answers only when it is taken down.
-/

namespace SumTree

/-- A listener, or a worker that is there already. -/
structure Listener where
  failure? : Option FailureMode
  requests : Nat
  deriving Repr, DecidableEq

/-- The state of a spawner of listeners. -/
structure Listening where
  /-- The number of the next token. -/
  serial : Nat
  /-- The listeners that are up, by their tokens. -/
  listeners : List (Token × Listener)
  /-- The handles that were taken down, in order. -/
  teardowns : List Handle
  deriving Repr, DecidableEq

namespace Listeners

/-- The state of a new spawner. -/
def start : Listening :=
  ⟨0, [], []⟩

/-- An address with a scheme, and without slashes at its end. -/
def normalize (address : String) : String :=
  let full := if (address.splitOn "://").length > 1 then address else "http://" ++ address
  Address.dropSlashes full

/-- Enters a listener under the next token. -/
def enter (sort : String) (l : Listener) : Action Listening Token := do
  let serial := (← Action.state).serial
  let token := Token.text (sort ++ "-" ++ toString serial)
  Action.change fun s => { s with serial := serial + 1, listeners := s.listeners ++ [(token, l)] }
  return token

/-- The handles of workers that are there already. -/
def external : List String → Nat → Action Listening (List Handle)
  | [], _ => return []
  | address :: rest, index => do
    let token ← enter "external" ⟨none, 0⟩
    let handles ← external rest (index + 1)
    return ⟨normalize address, .mock, token, index⟩ :: handles

/-- Starts the listener at a position, where `listen` opens a host and gives the authority under which
it is reached. -/
def listenAt (c : MockConfig) (listen : String → Action Listening String) (index : Nat) :
    Action Listening Handle := do
  let authority ← listen c.host
  let token ← enter "mock" ⟨c.failures.lookup (index : Int), 0⟩
  return ⟨"http://" ++ authority, .mock, token, index⟩

/-- Takes a worker down. -/
def teardown (h : Handle) : Action Listening Unit :=
  Action.change fun s =>
    { s with listeners := s.listeners.filter (·.1 != h.token), teardowns := s.teardowns ++ [h] }

/-- The provider without its provisioning. -/
def base : Provider Listening :=
  ⟨.mock, fun _ => return [], teardown, fun _ _ => return []⟩

/-- Starts `left` listeners from the position `index` on. When one cannot be started those started so
far are taken down. -/
def listenFrom (c : MockConfig) (listen : String → Action Listening String) (count : Nat) :
    Nat → Nat → List Handle → Action Listening (List Handle)
  | 0, _, started => return started
  | left + 1, index, started => do
    match ← Action.attempt (listenAt c listen index) with
    | .ok h => listenFrom c listen count left (index + 1) (started ++ [h])
    | .error failure =>
      if failure.isSystem then
        base.discard started
        Provider.refuse count ("cannot start mock listener: " ++ failure.text)
      else Action.fail failure

/-- Makes workers. -/
def provision (c : MockConfig) (listen : String → Action Listening String) (count : Nat) :
    Action Listening (List Handle) :=
  match c.addresses? with
  | some addresses =>
    if addresses.length != count then
      Provider.refuse count (toString addresses.length ++ " worker address(es) configured")
    else external addresses 0
  | none => listenFrom c listen count count 0 []

/-- The provider of workers in the process. -/
def provider (c : MockConfig) (listen : String → Action Listening String) : Provider Listening :=
  { base with provision := provision c listen }

/-- How many requests a live worker got. -/
def requestCount (s : Listening) (t : Token) : Nat :=
  ((s.listeners.lookup t).map Listener.requests).getD 0

/-- What a listener answers to a request; nothing while it hangs. -/
def receive (w : Worker) (t : Token) (r : Request) : Action Listening (Option Response) := do
  let listener := ((← Action.state).listeners.lookup t).getD ⟨none, 0⟩
  Action.change fun s =>
    { s with listeners := s.listeners.map fun l =>
        if l.1 == t then (t, { l.2 with requests := l.2.requests + 1 }) else l }
  match if listener.requests == 0 then listener.failure? else none with
  | some .reject => return some (.refusal 500 "injected failure")
  | some .malformed => return some ⟨200, some (.obj [("unexpected", .str "shape")])⟩
  | some .hang => return none
  | none =>
    match w.answer r with
    | .ok response => return some response
    | .error failure => Action.fail failure

end Listeners

end SumTree
