import BlockCache.Program
import BlockCache.Server.Connections
import BlockCache.Server.Pages
import Std.Async.TCP
import Std.Async.Timer

/-!
# The command line

Looks for the settings, and serves clients and pages over TCP. All that is decided is decided by the
modules it calls; what is left here is the clock, the sockets, and one reference to the server.
-/

namespace BlockCache.Main

open Std.Async
open Std.Async.TCP (Socket.Client Socket.Server)

/-- Seconds since 1970. -/
def clock : IO Int := do return (← Std.Time.Timestamp.now).toSecondsSinceUnixEpoch.val

/-- Changes the server, after the time that has passed. -/
def change (server : IO.Ref Server) (f : Server → α × Server) : IO α := do
  let now ← clock
  server.modifyGet fun s => f (s.advance (now - s.service.clock))

/-- The number of this process, or 0 where it cannot be found out. -/
def processId : IO Nat := do
  try return ((← IO.FS.readFile "/proc/self/stat").takeWhile Char.isDigit).toNat?.getD 0
  catch _ => return 0

/-- The address that a text names. -/
def address? (text : String) : Option Std.Net.SocketAddress := do
  let (host, digits) ← SocketAddress.splitLastColon? text.toList
  let port ← (String.ofList digits).toNat?
  match host with
  | '[' :: inner =>
    let addr ← Std.Net.IPv6Addr.ofString (String.ofList (inner.takeWhile fun c => c != ']' && c != '%'))
    return .v6 { addr, port := port.toUInt16 }
  | _ =>
    let addr ← Std.Net.IPv4Addr.ofString (String.ofList host)
    return .v4 { addr, port := port.toUInt16 }

/-- The next chunk from a client. There is none after its end, after a fault, or after `timeout`
seconds, of which 0 stands for no limit. -/
def nextChunk (socket : Socket.Client) (timeout : Nat) : Async (Option ByteArray) := do
  try
    if timeout = 0 then socket.recv? 65536
    else
      let idle ← Selector.sleep (Std.Time.Millisecond.Offset.ofNat (timeout * 1000))
      Selectable.one #[.case (socket.recvSelector 65536) pure, .case idle fun _ => pure none]
  catch _ => pure none

/-- Serves one client until either side ends. -/
partial def serveClient (server : IO.Ref Server) (client : Nat) (socket : Socket.Client) : Async Unit := do
  match ← nextChunk socket (← server.get).timeout with
  | none => discard <| change server fun s => ((), s.hangUp client)
  | some chunk =>
    let (output, isOpen) ← change server fun s =>
      let (output, s) := s.send client chunk.toList
      ((output, s.isOpen client), s)
    if !output.isEmpty then socket.send output.toByteArray
    if isOpen then serveClient server client socket

/-- Accepts clients for ever. -/
partial def acceptClients (server : IO.Ref Server) (listener : Socket.Server) : Async Unit := do
  let socket ← listener.accept
  let (accepted, client) ← change server fun s =>
    let (accepted, after) := s.connect
    ((accepted, s.clients), after)
  if accepted then
    background do
      try serveClient server client socket
      catch _ => discard <| change server fun s => ((), s.hangUp client)
      try socket.shutdown catch _ => pure ()
  acceptClients server listener

/-- Reads up to the end of the first line. -/
partial def readLine (socket : Socket.Client) (arrived : Bytes) : Async Bytes := do
  match ← socket.recv? 65536 with
  | none => return arrived
  | some chunk =>
    let arrived := arrived ++ chunk.toList
    if chunk.toList.contains 10 then return arrived else readLine socket arrived

/-- Answers requests for pages, one after the other. -/
partial def acceptReaders (server : IO.Ref Server) (listener : Socket.Server) : Async Unit := do
  let socket ← listener.accept
  try
    let request ← readLine socket []
    let page ← change server fun s =>
      let (page, service) := s.service.respond true request
      (page, { s with service })
    if let some page := page then socket.send page.render.toUTF8
    socket.shutdown
  catch _ => pure ()
  acceptReaders server listener

/-- Listens at an address. -/
def listen (address : String) : IO Socket.Server := do
  let some address := address? address | throw (.userError "no address")
  let listener ← Socket.Server.mk
  listener.bind address
  listener.listen 1024
  return listener

/-- Serves as configured. A port that cannot be had ends the program, or leaves it without pages. -/
def serve (settings : Settings) : IO Unit := do
  let now ← clock
  let service : Service := {
    cache := .new settings.storage (Int64.ofIntClamp (max now 0))
    clock := now
    processId := ← processId }
  let server ← IO.mkRef {
    service
    maxConnections := settings.server.maxConnections
    timeout := settings.server.connectionTimeout : Server }
  Async.block do
    if settings.metrics.enabled then
      try
        let pages ← listen settings.metrics.listenAddress
        background (acceptReaders server pages)
      catch _ => pure ()
    acceptClients server (← listen settings.server.listenAddress)

/-- The settings that the arguments and the environment give. -/
def settings (args : List String) : IO (Except ConfigError Settings) := do
  match args with
  | path :: _ =>
    try return Settings.ofFile (some (← IO.FS.readBinFile path).toList)
    catch _ => return Settings.ofFile none
  | [] =>
    let known ← Settings.variableNames.mapM fun name => do return (name, ← IO.getEnv name)
    return Settings.ofEnvironment fun name => (known.lookup name).join

end BlockCache.Main

def main (args : List String) : IO UInt32 := do
  match BlockCache.Start.ofSettings (← BlockCache.Main.settings args) with
  | .exit code message =>
    if !message.isEmpty then IO.eprintln message
    return code
  | .serve settings =>
    try BlockCache.Main.serve settings catch _ => pure ()
    return 0
