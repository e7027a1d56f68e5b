import BlockCache.Metrics.Exposition
import BlockCache.Service.Basic
import BlockCache.Text.Blank

/-!
# Pages

What a service shows over HTTP: whether it is up and ready, its metrics, and its statistics. A
request is judged by its first line alone, which holds a method and a path.
-/

namespace BlockCache

/-- An HTTP response. -/
structure Page where
  status : Nat
  contentType : String
  body : String
deriving DecidableEq, Repr

namespace Page

def plain (status : Nat) (body : String) : Page := ⟨status, "text/plain", body⟩

def json (status : Nat) (body : String) : Page := ⟨status, "application/json", body⟩

/-- What a status means. -/
def reason : Nat → String
  | 200 => "OK"
  | 400 => "Bad Request"
  | 404 => "Not Found"
  | 405 => "Method Not Allowed"
  | 500 => "Internal Server Error"
  | 503 => "Service Unavailable"
  | _ => "Unknown"

/-- The response as it is sent. -/
def render (p : Page) : String :=
  s!"HTTP/1.1 {p.status} {reason p.status}\r\nContent-Type: {p.contentType}\r\n" ++
    s!"Content-Length: {p.body.utf8ByteSize}\r\nConnection: close\r\n\r\n{p.body}"

/-- The answer to a line that names no method and path. -/
def badRequest : Page := plain 400 "Bad Request"

/-- The first line of a request, with its end. -/
def requestLine (request : Bytes) : Bytes :=
  match request with
  | [] => []
  | 10 :: _ => [10]
  | b :: rest => b :: requestLine rest

end Page

namespace Service

/-- The statistics, one to a line. -/
def statsText (s : Service) : String := String.join ((s.stats []).lines.map fun line => s!"{line.1} {line.2}\n")

/-- The page under a path. The gauges of the cache are observed when its metrics are asked for. -/
def page (s : Service) (ready : Bool) (method path : String) : Page × Service :=
  if method ≠ "GET" then (.plain 405 "Method Not Allowed", s)
  else if path = "/health" ∨ path = "/healthz" then (.json 200 "\x7b\"status\":\"healthy\"\x7d", s)
  else if path = "/ready" ∨ path = "/readyz" then
    (if ready then .json 200 "\x7b\"status\":\"ready\"\x7d" else .json 503 "\x7b\"status\":\"not ready\"\x7d", s)
  else if path = "/metrics" then
    let observed := s.metrics.observe s.cache.snapshot
    (⟨200, "text/plain; version=0.0.4", observed.expose⟩, { s with metrics := observed })
  else if path = "/stats" then (.plain 200 s.statsText, s)
  else (.plain 404 "Not Found", s)

/-- The response to what a client sends. A first line that is not text is left without one. -/
def respond (s : Service) (ready : Bool) (request : Bytes) : Option Page × Service :=
  match Utf8.decode? (Page.requestLine request) with
  | none => (none, s)
  | some line =>
    match Text.words line with
    | method :: path :: _ =>
      let (page, s) := s.page ready (String.ofList method) (String.ofList path)
      (some page, s)
    | _ => (some .badRequest, s)

end Service
end BlockCache
