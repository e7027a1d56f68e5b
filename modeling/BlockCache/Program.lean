import BlockCache.Config.Loading
import BlockCache.Error
import BlockCache.Net.SocketAddress

/-!
# The program

How the program starts. Its settings come from the file that its first argument names, or without
one from the environment. With settings that cannot be used it ends at once, and so it does, though
not as a failure, when its address is not one.
-/

namespace BlockCache

/-- What the program does once it has looked for its settings. -/
inductive Start where
  /-- Ends with an exit code and a message on the error stream. -/
  | exit (code : UInt32) (message : String)
  | serve (settings : Settings)

/-- How the program starts with the settings that it found. -/
def Start.ofSettings : Except ConfigError Settings → Start
  | .error e => exit 1 s!"Error: {(Failure.config e.message).message}"
  | .ok settings =>
    match SocketAddress.numericFault? settings.server.listenAddress with
    | some _ => exit 0 ""
    | none => serve settings

end BlockCache
