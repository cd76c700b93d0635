import HostSteward.Steward.Launching

/-!
# Requests of operators

Operators start, stop and restart single servers by name. A start waits a bounded time for
the server to come up.
-/

namespace HostSteward.Steward

open Operation

def stoppable : List Phase := [.starting, .started, .booting, .available]

/-- Starts a server unless it is tracked and not stopped. The record of a stopped server is
given up first. -/
def tryStartServer (name : String) : Attempt Unit := do
  let host ← ExceptT.lift current
  match host.server? name with
  | none => launch name
  | some server =>
    if server.phase = .stopped then
      Attempt.remove server
      ExceptT.lift (untrack server)
      launch name
    else
      ExceptT.lift (tell (.warning ("Received request to start server " ++ name ++
        " but it is not stopped; server state is " ++ server.phase.label)))

/-- Looks at the status again after each of at most `polls` waits, while the server is
starting. -/
def pollWhileStarting (name : String) (interval : Duration) : Nat → Status → Operation Status
  | 0, last => return last
  | polls + 1, _ => do
    let status := (← current).status name
    if status = .starting then
      ask (.wait interval)
      pollWhileStarting name interval polls status
    else return status

def startServer (name : String) : Operation Status := do
  match ← (tryStartServer name).run with
  | .ok () => pure ()
  | .error e => tell (.error ("Failed to start server " ++ name ++ ": " ++ e.message))
  let host ← current
  let lifecycle := host.settings.lifecycle
  pollWhileStarting name lifecycle.pollInterval lifecycle.startPollAttempts.toNat (host.status name)

def stopNow (s : Server) : Attempt Unit := do
  ExceptT.lift (checkPhase s stoppable "stop")
  Attempt.stop s
  Attempt.remove s
  ExceptT.lift (setPhase s .stopped)
  ExceptT.lift (untrack s)
  ExceptT.lift (tell (.info ("Server " ++ s.identity.text ++ " stopped")))

/-- Stops a server. A graceful stop, asked for by a timeout that is not negative, is not
supported; the server is stopped at once instead. -/
def stopServer (name : String) (gracefulTimeout : Int) : Operation Status := do
  match (← current).server? name with
  | none => pure ()
  | some server =>
    if -1 < gracefulTimeout then
      tell (.warning ("Graceful shutdown of server " ++ name ++
        " was requested but is not supported. Falling back to immediate shutdown."))
    match ← (stopNow server).run with
    | .ok () => pure ()
    | .error e => tell (.error ("Failed to stop server " ++ name ++ ": " ++ e.message))
  return (← current).status name

/-- Stops the server, then starts it; others may act in between. -/
def restartServer (name : String) (gracefulTimeout : Int) : Operation Status := do
  let _ ← stopServer name gracefulTimeout
  startServer name

end HostSteward.Steward
