import PeerDiscovery.Search.Bootstrap
import PeerDiscovery.Search.Reply

/-!
# The running service

A service runs a search beside its clients. Two tasks take turns in any order. The engine waits for
hints, requests and packets and handles one at a time; before it goes on with a datagram that
brought new peers, it waits for room among the results. The reader takes datagrams from the socket
and passes them on to the engine. All queues are first in, first out, and hold no more than their
capacity; whoever finds a queue full waits.

This module holds the state of a service and what its clients and the network can do to it;
`Service.turn?` is one turn of a task.
-/

namespace PeerDiscovery

/-- What the engine does. -/
inductive Phase where
  /-- It has not pinged the router yet. -/
  | starting
  /-- It waits for something to handle. -/
  | serving
  /-- It waits for room for the new peers of an answer. -/
  | publishing (delivery : Delivery)
  /-- It is gone. -/
  | ended
deriving DecidableEq

/-- What the reader does. -/
inductive Reader where
  /-- It waits for the socket. -/
  | reading
  /-- It waits for room for a packet. -/
  | holding (packet : Packet)
  /-- It is gone. -/
  | ended
deriving DecidableEq

/-- Why nothing could be received. -/
inductive ReceiveError where
  | connectionReset
  | connectionRefused
  | interrupted
  | wouldBlock
  | notConnected
  | permissionDenied
  /-- Any other error, by the number that the system gives it. -/
  | other (number : Int)
deriving DecidableEq, Repr

/-- Errors that concern a datagram sent earlier, or nothing at all; the socket stays usable. -/
def ReceiveError.isTransient : ReceiveError → Bool
  | .connectionReset | .connectionRefused | .interrupted | .wouldBlock => true
  | .notConnected | .permissionDenied | .other _ => false

/-- What the socket gives the reader. -/
inductive Arrival where
  | packet (packet : Packet)
  | error (error : ReceiveError)
deriving DecidableEq

/-- A service with its queues, and the history of what it sent and published. -/
structure Service where
  search : Search
  now : Moment
  phase : Phase
  reader : Reader
  /-- What the socket holds for the reader. -/
  arrivals : List Arrival
  packets : List Packet
  hints : List Contact
  requests : List InfoHash
  results : List Batch
  /-- How many handles clients hold. -/
  handles : Nat
  /-- Whether somebody still takes results. -/
  listening : Bool
  /-- Whether sending fails at present. -/
  sendFails : Bool
  /-- Every datagram sent so far, with a mark on those that failed. -/
  sent : List (Datagram × Bool)
  /-- Every batch published so far. -/
  published : List Batch

/-- Why a client could not queue a command. -/
inductive OfferError where
  /-- The queue is full. -/
  | full
  /-- The engine is gone. -/
  | stopped
deriving DecidableEq, Repr

/-- Why a client got no batch. -/
inductive TakeError where
  /-- There is none yet. -/
  | empty
  /-- There will be none any more. -/
  | disconnected
deriving DecidableEq, Repr

/-- The wording for a service whose engine is gone. -/
def Service.stoppedMessage : String := "dht engine stopped"

/-- Why a service could not be set up. -/
inductive BindError where
  | settings (cause : SettingsError)
  /-- The port is taken. -/
  | addressInUse
deriving DecidableEq, Repr

/-- What the system says about a taken port. -/
def BindError.inUse : String := "Address already in use (os error 98)"

/-- The wording of each error. -/
def BindError.message : BindError → String
  | .settings cause => cause.message
  | .addressInUse => "io error: " ++ BindError.inUse

namespace Service

/-- A service for one client, set up at some moment; `portTaken` says that its port is in use. -/
def bind (settings : Settings) (now : Moment) (portTaken : Bool) : Except BindError Service := do
  match settings.check with
  | .error cause => throw (.settings cause)
  | .ok () => pure ()
  if portTaken then throw .addressInUse
  return {
    search := .start
    now
    phase := .starting
    reader := .reading
    arrivals := []
    packets := []
    hints := []
    requests := []
    results := []
    handles := 1
    listening := true
    sendFails := false
    sent := []
    published := [] }

/-- Whether the engine is gone. -/
def engineEnded (service : Service) : Bool := service.phase = .ended

/-- How many of the two tasks live. -/
def tasks (service : Service) : Nat :=
  (if service.phase = .ended then 0 else 1) + (if service.reader = .ended then 0 else 1)

/-! ## What clients do -/

/-- Queues a hint. -/
def offerHint (settings : Settings) (contact : Contact) (service : Service) :
    Except OfferError Service :=
  if service.phase = .ended then .error .stopped
  else if settings.commandCapacity ≤ service.hints.length then .error .full
  else .ok { service with hints := service.hints ++ [contact] }

/-- Queues a request for peers. -/
def offerRequest (settings : Settings) (infoHash : InfoHash) (service : Service) :
    Except OfferError Service :=
  if service.phase = .ended then .error .stopped
  else if settings.commandCapacity ≤ service.requests.length then .error .full
  else .ok { service with requests := service.requests ++ [infoHash] }

/-- Takes the next batch. -/
def takeResult (service : Service) : Except TakeError (Batch × Service) :=
  match service.results with
  | batch :: rest => .ok (batch, { service with results := rest })
  | [] => if service.phase = .ended then .error .disconnected else .error .empty

/-- Stops taking results; those still queued are lost. -/
def stopListening (service : Service) : Service :=
  { service with listening := false, results := [] }

/-- Makes one handle more. -/
def cloneHandle (service : Service) : Service := { service with handles := service.handles + 1 }

/-- Drops a handle. -/
def dropHandle (service : Service) : Service := { service with handles := service.handles - 1 }

/-- Cancels the engine. The reader is not told. -/
def cancel (service : Service) : Service := { service with phase := .ended }

/-! ## What the world does -/

/-- Lets time pass. -/
def wait (span : Span) (service : Service) : Service := { service with now := service.now + span }

/-- Puts something into the socket. -/
def arrive (arrival : Arrival) (service : Service) : Service :=
  { service with arrivals := service.arrivals ++ [arrival] }

end Service

end PeerDiscovery
