import HostSteward.Steward.Program

/-!
# Launching servers

A launch tracks a new server record, registers its process and starts it. A record whose
registration fails is forgotten again, since nothing would ever be heard of it.
-/

namespace HostSteward.Steward

open Operation

def track (spec : ServerSpec) (phase : Phase) : Attempt Server := do
  let host ← ExceptT.lift current
  let server := Server.ofSpec host.nextNumber host.hostName spec phase
  let roster ← liftExcept (host.roster.insert server)
  ExceptT.lift (modify fun host => { host with roster, nextNumber := host.nextNumber + 1 })
  return server
where
  liftExcept {α : Type} (r : Except Failure α) : Attempt α := ExceptT.mk (pure r)

def untrack (s : Server) : Operation Unit :=
  modify fun host => { host with roster := host.roster.removeSame s.process s.number }

def launch (name : String) : Attempt Unit := do
  let host ← ExceptT.lift current
  match host.model.server? name with
  | none => throw (.unknownServer name)
  | some spec =>
    let server ← track spec .booting
    ExceptT.lift (tell (.info ("Launching server " ++ server.identity.text)))
    tryCatch (Attempt.register server) fun failure => do
      ExceptT.lift (untrack server)
      throw failure
    Attempt.start server

def relaunch (s : Server) : Attempt Unit := do
  Attempt.remove s
  Attempt.register s
  Attempt.start s

/-- Launches the servers that start with the host, one after another; a failure does not keep
the others from being launched. -/
def launchAll : List ServerSpec → Operation Unit
  | [] => pure ()
  | spec :: rest => do
    if spec.autoStart then
      tell (.info ("Starting server " ++ spec.name))
      match ← (launch spec.name).run with
      | .ok () => pure ()
      | .error e => tell (.error ("Failed to start server " ++ spec.name ++ ": " ++ e.message))
    else
      tell (.info ("Server " ++ spec.name ++ " is configured to not be started"))
    launchAll rest

/-- Launches the configured servers. Only the first call has an effect; after a restart of
the host the servers are expected to reconnect instead. -/
def startServers : Operation Unit := do
  let host ← current
  if host.launched then return
  modify fun host => { host with launched := true }
  if host.settings.host.bootMode = .restart then
    tell (.info "Host controller restarted; waiting for servers to reconnect")
  else
    launchAll host.model.servers

def joinDomain : Attempt Unit := do
  let host ← ExceptT.lift current
  if host.inDomain then
    match ← ExceptT.lift (ask (.register host.hostName)) with
    | .error e =>
      ExceptT.lift (tell (.error ("Failed to register with the domain controller: " ++ e.message)))
      throw (.registrationFailed e)
    | .ok () =>
      ExceptT.lift (tell
        (.info ("Registered host " ++ host.hostName ++ " with the domain controller")))

/-- Brings the host up: the supervisor has to answer and the domain to accept the host before
any server is launched. -/
def start : Attempt Unit := do
  let host ← ExceptT.lift current
  ExceptT.lift (tell (.info ("Starting host controller " ++ host.hostName)))
  match ← ExceptT.lift (command .requestInventory) with
  | .error e =>
    ExceptT.lift (tell (.error ("Supervisor inventory request failed: " ++ e.message)))
    throw (.supervisorUnavailable e)
  | .ok () =>
    joinDomain
    ExceptT.lift startServers

/-- Stops the steward; the servers are left to the supervisor. Only the first call has an
effect and answers true. -/
def stop : Operation Bool := do
  let host ← current
  if host.stopping then return false
  modify fun host => { host with stopping := true }
  tell (.info ("Stopping host controller " ++ host.hostName))
  if host.inDomain then
    match ← ask .unregister with
    | .ok () => pure ()
    | .error e => tell (.warning ("Failed to unregister from the domain controller: " ++ e.message))
  match ← command .shutdown with
  | .ok () => pure ()
  | .error e => tell (.warning ("Error closing the supervisor channel: " ++ e.message))
  modify fun host => { host with cancelled := true }
  tell (.info "Host controller stopped")
  return true

end HostSteward.Steward
