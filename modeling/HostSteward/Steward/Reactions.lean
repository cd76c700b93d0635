import HostSteward.Steward.Launching

/-!
# Reactions to the supervisor

What the steward does about each notice. A notice that meets a phase it does not expect is
noted and followed all the same. Once the steward is stopping, notices about servers change
nothing any more.
-/

namespace HostSteward.Steward

open Operation

/-- Failures of commands are no news once the steward is stopping. -/
def noteFailure (process operation : String) (e : Failure) : Operation Unit := do
  if (← current).stopping then return
  tell (.error ("Could not " ++ operation ++ " server " ++ process ++ ": " ++ e.message))

/-- The server that a notice is about, unless the steward is stopping. -/
def subject? (process notice : String) : Operation (Option Server) := do
  let host ← current
  if host.stopping then return none
  match host.roster.get? process with
  | some server => return some server
  | none =>
    tell (.warning
      ("No server called " ++ process ++ " exists for " ++ notice ++ " notification"))
    return none

def serverAvailable (process : String) : Operation Unit := do
  match ← subject? process "available" with
  | none => pure ()
  | some server =>
    checkPhase server [.booting] "available"
    setPhase server .available
    tell (.info ("Sending start to server " ++ process))
    match ← command (.start process) with
    | .ok () => setPhase server .starting
    | .error e => noteFailure process "start" e

def serverStarted (process : String) : Operation Unit := do
  match ← subject? process "started" with
  | none => pure ()
  | some server =>
    checkPhase server [.starting] "started"
    setPhase server .started
    tellAny ((← current).budget.resetAnnouncement? process)
    modify fun host => { host with budget := host.budget.reset process }
    tell (.info ("Server " ++ process ++ " started"))

def serverStartFailed (process : String) : Operation Unit := do
  match ← subject? process "start failed" with
  | none => pure ()
  | some server =>
    checkPhase server [.starting] "start failed"
    setPhase server .failed
    tell (.warning ("Server " ++ process ++ " failed to start"))

/-- The server has stopped; its process is released. -/
def serverStopped (process : String) : Operation Unit := do
  match ← subject? process "stopped" with
  | none => pure ()
  | some server =>
    checkPhase server [.stopping] "stopped"
    setPhase server .stopped
    match ← command (.stop process) with
    | .ok () => pure ()
    | .error e => noteFailure process "stop" e
    match ← command (.remove process) with
    | .ok () => pure ()
    | .error e => noteFailure process "remove" e

def recognize (process : String) (phase : Phase) : Operation (Option Server) := do
  match (serverOfProcess? process).bind (← current).model.server? with
  | none => return none
  | some spec =>
    match ← (track spec phase).run with
    | .error _ => return (← current).roster.get? process
    | .ok server =>
      updateServer server.number (·.diagnose "recognized after reconnect")
      tell (.info ("Recognized server " ++ process ++ " after reconnect"))
      return some server

def serverReconnected (process : String) (phase : Phase) : Operation Unit := do
  let host ← current
  if host.stopping then return
  let server? ← match host.roster.get? process with
    | some server =>
      checkPhase server [.failed, .maxFailed, .stopped] "reconnect"
      pure (some server)
    | none => recognize process phase
  match server? with
  | none => tell (.error ("No server found for reconnected server " ++ process))
  | some server =>
    setPhase server phase
    if phase.relaunchedOnReconnect then
      tell (.info
        ("Relaunching reconnected server " ++ process ++ " reported in state " ++ phase.label))
      match ← command (.start process) with
      | .ok () => pure ()
      | .error e => noteFailure process "start reconnected" e

/-- Spends one restart of a failed server and puts the restart on the list, or gives the
server up. -/
def scheduleRestart (s : Server) : Operation Unit := do
  let budget := (← current).budget
  tell (budget.announcement s.process)
  modify fun host => { host with budget := budget.spend s.process }
  match budget.decision s.process with
  | .giveUp =>
    setPhase s .maxFailed
    updateServer s.number (·.diagnose "restart attempts exhausted")
  | .retryAfter delay =>
    modify fun host => { host with
      nextTicket := host.nextTicket + 1
      restarts := host.restarts ++ [⟨host.nextTicket, s.number, s.process, delay⟩] }

/-- A server that went down while the restarted host used a port of its own choice cannot
find the host again; its process is registered from scratch. -/
def lostItsHost (h : Steward) (s : Server) : Bool :=
  h.settings.host.bootMode = .restart && s.phase = .booting && h.settings.host.controllerPort = 0

def serverDown (process : String) : Operation Unit := do
  match ← subject? process "down" with
  | none => pure ()
  | some server =>
    let host ← current
    if lostItsHost host server then
      tell (.info ("Re-registering server " ++ process ++ " after host restart"))
      match ← (relaunch server).run with
      | .ok () => pure ()
      | .error e =>
        tell (.error ("Error removing and adding process " ++ process ++ ": " ++ e.message))
    else
      setPhase server .failed
      tell (.warning ("Server " ++ process ++ " is down"))
      if host.settings.lifecycle.autoRestart then scheduleRestart server

/-- The server closed its connection, which is as expected only when it is going away. -/
def serverDisconnected (process : String) : Operation Unit := do
  match ← subject? process "connection closed" with
  | none => pure ()
  | some server => checkPhase server [.stopping, .stopped, .maxFailed] "connection closed"

/-- A process has exited. It concerns a tracked server of that incarnation only, and is no
surprise while the server is stopping. -/
def processStopped (process : String) (incarnation : Incarnation) (uptime : Duration) :
    Operation Unit := do
  match (← current).roster.get? process with
  | none => pure ()
  | some server =>
    if server.owns incarnation && server.phase ≠ .stopping && server.phase ≠ .stopped then
      tell (.info ("Process " ++ process ++ " exited after " ++
        Numeral.text uptime.milliseconds ++ " ms"))
      serverDown process

def tellAll : List Entry → Operation Unit
  | [] => pure ()
  | e :: rest => do
    tell e
    tellAll rest

def inventoryEntries (h : Steward) (processes : List ProcessInfo) : List Entry :=
  let missing := h.roster.processes.filter fun p => !processes.any (·.name = p)
  let foreign := processes.filter fun p =>
    (serverOfProcess? p.name).isSome && !h.roster.contains p.name
  missing.map (fun p =>
      .warning ("Server " ++ p ++ " is tracked but has no process at the supervisor")) ++
    foreign.map (fun p => .info ("Supervisor runs " ++ p.name ++
      " which this host does not track (running: " ++ (if p.running then "true" else "false") ++
      ")"))

def handle : Notice → Operation Unit
  | .serverAvailable p => serverAvailable p
  | .serverStarted p => serverStarted p
  | .serverStartFailed p => serverStartFailed p
  | .serverStopped p => serverStopped p
  | .serverReconnected p phase => serverReconnected p phase
  | .serverDown p => serverDown p
  | .serverDisconnected p => serverDisconnected p
  | .processStopped p incarnation uptime => processStopped p incarnation uptime
  | .inventory processes => do tellAll (inventoryEntries (← current) processes)
  | .shutdownRequested => do
    let _ ← stop
    return
  | .connectionFailed cause => do
    if (← current).stopping then return
    tell (.error ("Connection to the supervisor failed: " ++ cause))
  | .connectionFinished => tell (.info "Connection to the supervisor closed")
  | .processAdded _ | .processStarted _ | .processRemoved _ => pure ()

/-- A pending restart is still wanted if its server is tracked and has not recovered. -/
def wants (h : Steward) (r : PendingRestart) : Bool :=
  !h.stopping && h.roster.tracks r.process r.number &&
    ((h.roster.get? r.process).map (·.phase)) = some .failed

def fire (r : PendingRestart) : Operation Unit := do
  modify fun host => { host with restarts := host.restarts.filter (·.ticket ≠ r.ticket) }
  let host ← current
  if wants host r then
    match host.roster.get? r.process with
    | none => pure ()
    | some server =>
      tell (.info ("Restarting server " ++ r.process))
      match ← (relaunch server).run with
      | .ok () => pure ()
      | .error e => noteFailure r.process "restart" e

end HostSteward.Steward
