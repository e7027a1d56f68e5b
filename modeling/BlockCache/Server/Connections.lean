import BlockCache.Service.Session

/-!
# The server

The clients of a service. Each open connection has its session; a client beyond the limit is turned
away, and a connection on which nothing is read for too long is closed. A stopped server has no
connections, and the flushes still to come are dropped with it.
-/

namespace BlockCache

/-- An open connection. -/
structure Connection where
  session : Session := {}
  /-- The clock at its last read, or at its start. -/
  lastRead : Int

/-- A service and its clients, who are numbered as they come. -/
structure Server where
  service : Service
  /-- Connections that may be open together. -/
  maxConnections : Nat
  /-- Seconds without a read after which a connection is closed; 0 stands for no limit. -/
  timeout : Nat
  clients : Nat := 0
  /-- The open connections by client, oldest first. -/
  connections : List (Nat × Connection) := []
  stopped : Bool := false

namespace Server

def isOpen (s : Server) (client : Nat) : Bool := (s.connections.lookup client).isSome

/-- The clients with an open connection. -/
def openClients (s : Server) : List Nat := s.connections.map (·.1)

/-- Keeps the connections that `keep` allows and closes the others. -/
def retain (s : Server) (keep : Nat → Connection → Bool) : Server :=
  let kept := s.connections.filter fun entry => keep entry.1 entry.2
  { s with
    connections := kept
    service.metrics.activeConnections :=
      s.service.metrics.activeConnections - Int64.ofNat (s.connections.length - kept.length) }

/-- The next client comes. Answers whether it gets a connection. -/
def connect (s : Server) : Bool × Server :=
  let entered := { s with clients := s.clients + 1 }
  if s.stopped then (false, entered)
  else if s.connections.length < s.maxConnections then
    (true, { entered with
      connections := s.connections ++ [(s.clients, { lastRead := s.service.clock })]
      service.metrics.totalConnections := s.service.metrics.totalConnections + 1
      service.metrics.activeConnections := s.service.metrics.activeConnections + 1 })
  else
    (false, { entered with
      service.metrics.rejectedConnections := s.service.metrics.rejectedConnections + 1 })

/-- The client ends its side. -/
def hangUp (s : Server) (client : Nat) : Server := s.retain fun number _ => number != client

/-- A chunk from a client is read. Answers what is sent back. -/
def send (s : Server) (client : Nat) (chunk : Bytes) : Bytes × Server :=
  match s.connections.lookup client with
  | none => ([], s)
  | some connection =>
    if chunk.isEmpty then ([], s)
    else
      let o := connection.session.receive s.service chunk
      let updated : Connection := ⟨o.session, s.service.clock⟩
      let after := { s with
        service := o.service
        connections := s.connections.map fun entry => if entry.1 = client then (client, updated) else entry }
      (o.output, if o.quit then after.hangUp client else after)

/-- Whether nothing has been read for as long as is allowed. -/
def isIdle (s : Server) (c : Connection) : Bool := 0 < s.timeout && c.lastRead + s.timeout ≤ s.service.clock

/-- Time passes. -/
def advance (s : Server) (seconds : Int) : Server :=
  let later := { s with service := s.service.setClock (s.service.clock + seconds) }
  later.retain fun _ connection => !later.isIdle connection

/-- Stops the server. -/
def stop (s : Server) : Server := { s.retain (fun _ _ => false) with service.flushes := [], stopped := true }

end Server
end BlockCache
