import InverterControl.Lib.Runs
import Mathlib.Data.List.Perm.Basic
import Mathlib.Tactic

/-!
# The owners of the services

The part of `NativeDbusClient` of `dbus_native.py` that knows which sender has which service: the
sender map, `_refresh_sender_map`, which asks the daemon for one owner after another, and
`_handle_name_owner_changed`.  On the event loop a coroutine runs to its next `await` in one step;
between two steps anything may happen.
-/

namespace InverterControl.Senders.Model

/-- `_refresh_sender_map` where it waits for a reply, in `_resolve_sender`. -/
structure Refresh where
  bus : ℕ
  attempted : List String
  /-- The rest of `pending`. -/
  rest : List String
  service : String
  ownerVersion : ℕ
  deriving DecidableEq, Repr

structure NativeDbusClient where
  /-- The connection; connections are numbered in the order in which they are made. -/
  bus : Option ℕ := none
  buses : ℕ := 0
  disconnected : List ℕ := []
  senderService : String → Option String := fun _ => none
  senderOwnerVersions : String → ℕ := fun _ => 0
  subscriptionServices : List String := []
  senderRefreshBus : Option ℕ := none
  /-- The refreshes that wait, by the order in which they started. -/
  tasks : ℕ → Option Refresh := fun _ => none
  started : ℕ := 0

inductive Event
  | nameOwnerChanged (service oldOwner newOwner : String)
  /-- A refresh starts; sets are iterated in the given order. -/
  | refresh (order : List String)
  /-- The daemon's answer to a refresh: an owner, or none where the call has failed or timed out. -/
  | reply (task : ℕ) (owner : Option String) (order : List String)
  | subscribe (service : String)
  /-- `_connect` has a new connection. -/
  | connect
  /-- `_replay_subscriptions` empties the map. -/
  | replay
  | disconnect (bus : ℕ)
  /-- The connection is given up. -/
  | drop
  deriving DecidableEq, Repr

/-- `self._bus is bus and bus.connected` -/
def isCurrent (c : NativeDbusClient) (bus : ℕ) : Bool := c.bus = some bus ∧ bus ∉ c.disconnected

/-- `tuple(self._subscription_services - attempted)` -/
def pending (order : List String) (c : NativeDbusClient) (attempted : List String) : List String :=
  let services := c.subscriptionServices.filter fun service => service ∉ attempted
  if order.Perm services then order else services

/-- The request for the next service, if there is one. -/
def ask (c : NativeDbusClient) (bus : ℕ) (attempted : List String) : List String → Option Refresh
  | service :: rest => some ⟨bus, service :: attempted, rest, service, c.senderOwnerVersions service⟩
  | [] => none

/-- The loop of `_refresh_sender_map`, up to the next request. -/
def nextRequest (order : List String) (c : NativeDbusClient) (bus : ℕ) (attempted rest : List String) :
    Option Refresh :=
  if isCurrent c bus = true then
    ask c bus attempted (if rest = [] then pending order c attempted else rest)
  else none

/-- A refresh waits again, or ends. -/
def goOn (task : ℕ) (bus : ℕ) (request : Option Refresh) (c : NativeDbusClient) : NativeDbusClient :=
  { c with
    tasks := Function.update c.tasks task request
    senderRefreshBus :=
      if request = none ∧ c.senderRefreshBus = some bus then none else c.senderRefreshBus }

/-- `_refresh_sender_map`, up to its first request. -/
def refreshSenderMap (order : List String) (c : NativeDbusClient) : NativeDbusClient :=
  match c.bus with
  | none => c
  | some bus =>
    if bus ∈ c.disconnected ∨ c.senderRefreshBus = some bus then c
    else goOn c.started bus (nextRequest order c bus [] [])
      { c with senderRefreshBus := some bus, started := c.started + 1 }

/-- The map once a reply is published: the owner is the only sender of the service. -/
def published (service owner : String) (senders : String → Option String) : String → Option String :=
  fun sender =>
    if sender = owner then some service
    else if senders sender = some service then none
    else senders sender

/-- The reply counts: connection and owner are those of the request. -/
def fresh (task : Refresh) (c : NativeDbusClient) : Bool :=
  isCurrent c task.bus ∧ c.senderOwnerVersions task.service = task.ownerVersion

/-- `_resolve_sender`, from the reply on. -/
def resolveSender (task : Refresh) (owner : Option String) (c : NativeDbusClient) : NativeDbusClient :=
  match owner with
  | some owner =>
    if fresh task c = true then
      { c with senderService := published task.service owner c.senderService }
    else c
  | none => c

/-- A reply, and the loop from there to the next request. -/
def reply (task : ℕ) (owner : Option String) (order : List String) (c : NativeDbusClient) :
    NativeDbusClient :=
  match c.tasks task with
  | some request =>
    goOn task request.bus
      (nextRequest order (resolveSender request owner c) request.bus request.attempted request.rest)
      (resolveSender request owner c)
  | none => c

/-- `_handle_name_owner_changed` -/
def handleNameOwnerChanged (service oldOwner newOwner : String) (c : NativeDbusClient) :
    NativeDbusClient :=
  { c with
    senderOwnerVersions :=
      if service ∈ c.subscriptionServices then
        Function.update c.senderOwnerVersions service (c.senderOwnerVersions service + 1)
      else c.senderOwnerVersions
    senderService := fun sender =>
      if newOwner ≠ "" ∧ service ∈ c.subscriptionServices ∧ sender = newOwner then some service
      else if oldOwner ≠ "" ∧ sender = oldOwner then none
      else c.senderService sender }

def next (c : NativeDbusClient) : Event → NativeDbusClient
  | .nameOwnerChanged service oldOwner newOwner => handleNameOwnerChanged service oldOwner newOwner c
  | .refresh order => refreshSenderMap order c
  | .reply task owner order => reply task owner order c
  | .subscribe service => { c with subscriptionServices := c.subscriptionServices.insert service }
  | .connect => { c with bus := some c.buses, buses := c.buses + 1 }
  | .replay => { c with senderService := fun _ => none }
  | .disconnect bus => { c with disconnected := c.disconnected.insert bus }
  | .drop => { c with bus := none }

end InverterControl.Senders.Model
