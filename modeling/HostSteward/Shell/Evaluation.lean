import HostSteward.Shell.Builtin
import HostSteward.Shell.Expansion
import HostSteward.Shell.Sleep

/-!
# Running shell scripts

A script is run in time: programs take their times, and a shell waits for them. What runs
beside the shell is run ahead of it from the same moment on. The functions take a number that
bounds how deep they go; whatever goes deeper counts as endless.
-/

namespace HostSteward.Shell

open Run

namespace Run

def attempt {α : Type} (r : Run α) : Run (Except Halt α) :=
  ExceptT.mk do
    let outcome ← r.run
    return .ok outcome

/-- A command that was used in a wrong way has failed. -/
def forgiving (r : Run Nat) : Run Nat := do
  match ← attempt r with
  | .ok status => return status
  | .error .fails => return 2
  | .error h => halt h

/-- What a turn of a loop comes to: a status, and whether the loop is over. -/
def afterTurn : Except Halt Nat → Run (Nat × Bool)
  | .ok status => return (status, false)
  | .error (.breaks n) => if n ≤ 1 then return (0, true) else halt (.breaks (n - 1))
  | .error (.continues n) => if n ≤ 1 then return (0, false) else halt (.continues (n - 1))
  | .error h => halt h

/-- How long a script is followed in a loop. What takes longer counts as endless. -/
def loopLimit : Lifetime := .lasts (600 * Sleep.second)

/-- Goes round a loop as often as two to some power, unless it is over or lasts too long. -/
def repeated (turn : Nat → Run (Nat × Bool)) : Nat → Nat → Run (Nat × Bool)
  | 0, last => do
    if loopLimit.within (← session).now then endless
    turn last
  | depth + 1, last => do
    let (status, isOver) ← repeated turn depth last
    if isOver then return (status, true) else repeated turn depth status

/-- Loops that go round more often than two to this power count as endless. -/
def loopDepth : Nat := 16

def forItems (turn : String → Run (Nat × Bool)) : List String → Nat → Run Nat
  | [], last => return last
  | item :: items, _ => do
    let (status, isOver) ← turn item
    if isOver then return status else forItems turn items status

end Run

namespace Session

/-- A process beside a session, which does not wait for the same processes and reacts to
signals in its own way. -/
def beside (s : Session) : Session :=
  { s with
    isMain := false
    traps := s.traps.filter (·.2 = "")
    caught := []
    jobs := s.jobs.map fun j => { j with isOwn := false } }

def absorb (s t : Session) : Session :=
  { s with
    tree := { t.tree with here := s.tree.here }
    streams := t.streams
    arrivals := t.arrivals
    jobs := s.jobs.map fun j =>
      match t.jobs.find? (·.process = j.process) with
      | some k => { j with ends := k.ends, status := k.status }
      | none => j
    nextProcess := t.nextProcess }

def ownSettings (parent : Nat) : List (String × Setting) :=
  [("IFS", { value := some " \t\n" }), ("PPID", { value := some (Numeral.text parent) }),
    ("PATH", { value := some "/usr/local/sbin:/usr/local/bin:/usr/sbin:/usr/bin:/sbin:/bin" })]

/-- A shell for another script, which gets the exported variables only. -/
def fresh (s : Session) (name : String) (arguments : List String) (options : List Char) :
    Session :=
  let inherited := s.environment.filterMap fun (name, value) =>
    if Builtin.isName name && !(["IFS", "PPID", "PWD"].contains name) then
      some (name, ({ value := some value, isExported := true } : Setting))
    else none
  let here := "/" ++ String.intercalate "/" s.tree.here
  { tree := s.tree
    now := s.now
    name, arguments, options
    settings := ("PWD", { value := some here, isExported := true }) ::
      inherited ++ ownSettings s.process
    traps := s.traps.filter (·.2 = "")
    process := s.nextProcess
    ancestors := s.process :: s.ancestors
    arrivals := s.arrivals
    nextProcess := s.nextProcess + 1
    channels := s.channels
    streams := s.streams }

def statusAfter (s : Session) : Except Halt Nat → Nat
  | .ok status | .error (.exits status) | .error (.gone status) | .error (.returns status) =>
    status
  | .error (.breaks _) | .error (.continues _) => 0
  | .error .fails => 2
  | .error .dies => 143
  | .error .stuck => s.status

/-- Whether a shell still does what it does at its end. -/
def concludes : Except Halt Nat → Bool
  | .error (.gone _) | .error .dies | .error .stuck => false
  | _ => true

end Session

/-! ## Redirections -/

def deepest : Nat := 1000

/-- The moment at which a writer notices that nobody reads any more since some moment. -/
def Stream.brokenAt? (st : Stream) (reader : Lifetime) : Option Lifetime :=
  (st.texts.find? fun (moment, cs) => !cs.isEmpty && !moment.within reader).map (·.1)

/-- The streams that a command can write to from its beginning to its end. -/
def Command.streams (channels : List (Nat × Channel)) (c : Command) : List Nat :=
  let isRedirected (n : Nat) : Bool := match c with
    | .simple _ _ rs | .redirected _ rs => rs.any (·.1 = n)
    | _ => false
  channels.filterMap fun
    | (n, .stream number) => if n = 0 || isRedirected n then none else some number
    | _ => none

def opened (kind : RedirectKind) (path : String) : Run (Option Channel) := do
  let s ← session
  let place? := if kind = .input then (s.tree.find path).toOption else s.placeFor? path
  match place? with
  | none => return none
  | some ["dev", "null"] => return some .nowhere
  | some place =>
    if Condition.isDevice place then lose
    let text? := match s.tree.node? place with
      | some (.file text) => some text
      | _ => none
    match kind, text? with
    | .input, none => return some .nowhere
    | .input, some text =>
      let (s, n) := s.addStream { texts := [(.lasts 0, text.toList)] }
      update fun _ => s
      return some (.stream n)
    | kind, text? =>
      let text := if kind = .append then text?.getD "" else ""
      update fun s => { s with tree := s.tree.add place (.file text) }
      return some (.file place)

/-! ## Evaluation -/

mutual

def expand : Nat → Word → Run (List Atom)
  | 0, _ => endless
  | fuel + 1, w => do
    let parts ← w.mapM fun p => expandPiece fuel p
    return parts.flatten

def expandPiece : Nat → Piece → Run (List Atom)
  | 0, _ => endless
  | fuel + 1, p =>
    match p with
    | .text isQuoted cs => return Atom.ofText isQuoted cs
    | .home => do
      return match (← session).text? "HOME" with
        | some path => Atom.ofText true path.toList
        | none => Atom.ofText false ['~']
    | .parameter isQuoted name use => parameter fuel isQuoted name use
    | .output isQuoted body => do return Atom.ofValue isQuoted (← outputOf fuel body)
    | .number isQuoted expression => do
      match Sum.read? (← expandJoined fuel expression).toList with
      | none => lose
      | some sum =>
        let s ← session
        match sum.value? fun name => Sum.ofText? ((s.parameter? name).getD "") with
        | none => halt .fails
        | some n => return Atom.ofValue isQuoted (toString n).toList

def parameter : Nat → Bool → String → Use → Run (List Atom)
  | 0, _, _, _ => endless
  | fuel + 1, isQuoted, name, use => do
    let s ← session
    let isList := name = "@" || name = "*"
    let value := if isList then
        (if s.arguments.isEmpty then none else some (String.intercalate " " s.arguments))
      else s.parameter? name
    let shown : List Atom :=
      if isList then argumentAtoms s isQuoted (name = "*")
      else Atom.ofValue isQuoted (value.getD "").toList
    let isBarred := value.isNone && !isList && s.options.contains 'u'
    match use with
    | .value => if isBarred then halt .fails else return shown
    | .length =>
      if isBarred then halt .fails
      else return Atom.ofValue isQuoted (Numeral.digits (value.getD "").length)
    | .remedied emptyToo remedy word =>
      let isMissing := value.isNone || (emptyToo && value = some "")
      let other : Run (List Atom) := do
        return (← expand fuel word).map fun a => if isQuoted then a else a.loosen
      match remedy, isMissing with
      | .replace, true => return if isQuoted then [.presence] else []
      | .replace, false | .use, true => other
      | _, false => return shown
      | .assign, true =>
        if !Builtin.isName name then halt .fails
        let value ← expandJoined fuel word
        assign name value
        return Atom.ofValue isQuoted value.toList
      | .fail, true => halt .fails

/-- What commands write, without the ends of the last lines. Whoever can still write is waited
for. -/
def outputOf : Nat → Command → Run (List Char)
  | 0, _ => endless
  | fuel + 1, body => do
    let (start, number) := (← session).beside.addStream {}
    let (status, t) := shell fuel (command fuel false body)
      (start.connect 1 (some (.stream number)))
    update fun s => { s.absorb t with outputStatus := some status }
    reach ((t.stream number).ends.both t.now)
    noticeEnd
    let text := (t.stream number).texts.flatMap (·.2)
    return (text.reverse.dropWhile (· = '\n')).reverse

def expandJoined : Nat → Word → Run String
  | 0, _ => endless
  | fuel + 1, w => do return Atom.joined (← expand fuel w)

def expandFields : Nat → List Word → Run (List String)
  | 0, _ => endless
  | fuel + 1, ws => do
    let parts ← ws.mapM fun w => do
      let atoms ← expand fuel w
      return Atom.fields (← session).separators atoms
    return parts.flatten

/-- Runs a shell to its end, where it does what it was told to do then. -/
def shell : Nat → Run Nat → Session → Nat × Session
  | 0, _, s => (0, { s with now := .endless })
  | fuel + 1, body, s =>
    let (outcome, s) := body.run.run s
    let status := s.statusAfter outcome
    match if Session.concludes outcome then s.traps.lookup 0 else none with
    | none => (status, s)
    | some action =>
      let s := { s with status, traps := s.traps.filter (·.1 ≠ 0), loops := 0 }
      match (evaluate fuel false action.toList 0).run.run s with
      | (.error (.exits status), s) => (status, s)
      | (_, s) => (status, s)

/-- Runs a script line by line, where the line before went in some way. -/
def evaluate : Nat → Bool → List Char → Nat → Run Nat
  | 0, _, _, _ => endless
  | fuel + 1, isTested, text, last => do
    match nextLine text with
    | .ok none => return last
    | .ok (some (c, rest)) =>
      let status ← command fuel isTested c
      evaluate fuel isTested rest status
    | .error .wrong => halt .fails
    | .error .unknown => lose

/-- Reacts to signals that came in the meantime. -/
def react : Nat → Run Unit
  | 0 => endless
  | fuel + 1 => do
    let s ← session
    match s.caught with
    | [] => return ()
    | signal :: caught =>
      update fun s => { s with caught }
      match s.traps.lookup signal with
      | none => pure ()
      | some action =>
        let _ ← evaluate fuel false action.toList 0
        update fun t => { t with status := s.status }
      react fuel

/-- The end of a command, which may be the end of the shell. -/
def conclude : Nat → Bool → Nat → Run Nat
  | 0, _, _ => endless
  | fuel + 1, mayFail, status => do
    update fun s => { s with status }
    react fuel
    if !mayFail && status ≠ 0 && (← session).options.contains 'e' then halt (.exits status)
    return status

/-- Runs a command. Where its status is tested it may fail. -/
def command : Nat → Bool → Command → Run Nat
  | 0, _, _ => endless
  | fuel + 1, isTested, c => do
    if (← session).options.contains 'n' then return 0
    match c with
    | .nothing => return 0
    | .simple assignments words rs =>
      let status ← simple fuel isTested assignments words rs
      conclude fuel isTested status
    | .sequence first second =>
      let _ ← command fuel isTested first
      match second with
      | .nothing => return (← session).status
      | second => command fuel isTested second
    | .background c => background fuel c
    | .both first second =>
      let status ← command fuel true first
      if status = 0 then command fuel isTested second else return status
    | .either first second =>
      let status ← command fuel true first
      if status ≠ 0 then command fuel isTested second else return status
    | .negated c =>
      let status ← command fuel true c
      conclude fuel true (if status = 0 then 1 else 0)
    | .pipeline parts =>
      let status ← pipeline fuel parts
      conclude fuel isTested status
    | .separate c =>
      let status ← apart fuel (command fuel false c)
      noticeEnd
      conclude fuel isTested status
    | .redirected c rs =>
      match ← redirecting fuel rs (command fuel isTested c) with
      | some status => return status
      | none => conclude fuel isTested 2
    | .conditional condition yes no =>
      let status ← command fuel true condition
      if status = 0 then command fuel isTested yes
      else match no with
        | .nothing => conclude fuel true 0
        | no => command fuel isTested no
    | .loop isNegated condition body =>
      update fun s => { s with loops := s.loops + 1 }
      let turn (last : Nat) : Run (Nat × Bool) := do
        let round : Run (Option Nat) := do
          let status ← command fuel true condition
          if (status = 0) = isNegated then return none
          return some (← command fuel isTested body)
        match ← attempt round with
        | .ok none => return (last, true)
        | outcome => afterTurn (outcome.map (·.getD 0))
      let (status, isOver) ← repeated turn loopDepth 0
      if !isOver then endless
      update fun s => { s with loops := s.loops - 1 }
      conclude fuel true status
    | .forEach name words body =>
      let items ← match words with
        | some ws => expandFields fuel ws
        | none => pure (← session).arguments
      update fun s => { s with loops := s.loops + 1 }
      let turn (item : String) : Run (Nat × Bool) := do
        assign name item
        afterTurn (← attempt (command fuel isTested body))
      let status ← forItems turn items 0
      update fun s => { s with loops := s.loops - 1 }
      conclude fuel true status
    | .choice subject cases =>
      let subject ← expandJoined fuel subject
      choose fuel isTested subject cases
    | .function name body =>
      update fun s => { s with functions := (name, body) :: s.functions }
      conclude fuel true 0

def choose : Nat → Bool → String → List (List Word × Command) → Run Nat
  | 0, _, _, _ => endless
  | fuel + 1, _, _, [] => conclude fuel true 0
  | fuel + 1, isTested, subject, (patterns, body) :: rest => do
    let fits ← patterns.anyM fun w => do
      match Atom.pattern? (← expand fuel w) with
      | some p => return p.fits subject.toList
      | none => lose
    if fits then
      match body with
      | .nothing => conclude fuel true 0
      | body => command fuel isTested body
    else choose fuel isTested subject rest

def apart : Nat → Run Nat → Run Nat
  | 0, _ => endless
  | fuel + 1, body => do
    let (status, t) := shell fuel body (← session).beside
    update (·.absorb t)
    reach t.now
    return status

def background : Nat → Command → Run Nat
  | 0, _ => endless
  | fuel + 1, c => do
    let s ← session
    let process := s.nextProcess
    let start := { s.beside.connect 0 (some .nowhere) with nextProcess := process + 1 }
    let (status, t) := shell fuel (command fuel false c) start
    let arrivals := t.arrivals.map fun a =>
      if s.arrivals.contains a then a else { a with sender := some process }
    let signal : Arrival := { moment := t.now, signal := Signal.childEnded, target := s.process }
    update fun s =>
      let s := s.absorb t
      let (number, jobs) := s.nextJob
      { s with
        arrivals := if t.now.isOver then arrivals ++ [signal] else arrivals
        jobs := jobs ++ [{ process, number, ends := t.now, status }]
        lastJob := some process
        streams := (c.streams s.channels).foldl (fun streams n =>
          streams.modify n fun st => { st with ends := st.ends.both t.now }) s.streams }
    reach s.now
    conclude fuel true 0

/-- Runs commands side by side, each of which reads what the one before it writes. One that
writes when nobody reads any more comes to its end. -/
def pipeline : Nat → List Command → Run Nat
  | 0, _ => endless
  | fuel + 1, parts => do
    let start ← session
    let (status, _, ends) ← parts.foldlM (fun (_, input, ends) c => do
      let (before, number) := (← session).beside.addStream {}
      let before := { before with now := start.now }
      let before := match input with
        | some n => before.connect 0 (some (.stream n))
        | none => before
      let before := if ends.length + 1 = parts.length then before
        else before.connect 1 (some (.stream number))
      let (status, t) := shell fuel (command fuel false c) before
      let st := t.stream number
      update (·.absorb (t.setStream number { st with ends := st.ends.both t.now }))
      return (status, some number, ends ++ [(t.now, st)])) (0, (none : Option Nat), [])
    let (whole, _) := ends.foldr (fun (ends, st) (whole, reader) =>
      let ends := (reader.bind st.brokenAt?).getD ends
      (whole.both ends, some ends)) (start.now, none)
    reach whole
    noticeEnd
    return status

def redirect : Nat → List Redirection → Run Bool
  | 0, _ => endless
  | _ + 1, [] => return true
  | fuel + 1, (descriptor, kind, word) :: rest => do
    let target ← expandJoined fuel word
    match kind, target.toList with
    | .duplicate, ['-'] => update (·.connect descriptor none)
    | .duplicate, [d] =>
      if !d.isDigit then halt .fails
      match (← session).channels.lookup (d.toNat - 48) with
      | some c => update (·.connect descriptor (some c))
      | none => return false
    | .duplicate, _ => halt .fails
    | kind, _ =>
      match ← opened kind target with
      | some c => update (·.connect descriptor (some c))
      | none => return false
    redirect fuel rest

/-- Runs something with redirections, unless one of them cannot be had. -/
def redirecting : Nat → List Redirection → Run Nat → Run (Option Nat)
  | 0, _, _ => endless
  | fuel + 1, rs, body => do
    let before := (← session).channels
    let outcome ← attempt (do if ← redirect fuel rs then return some (← body) else return none)
    update fun s => rs.foldl (fun s r => s.connect r.1 (before.lookup r.1)) s
    match outcome with
    | .ok status => return status
    | .error h => halt h

def simple : Nat → Bool → List (String × Word) → List Word → List Redirection → Run Nat
  | 0, _, _, _, _ => endless
  | fuel + 1, isTested, assignments, words, rs => do
    update fun s => { s with outputStatus := none }
    match ← expandFields fuel words with
    | [] =>
      match ← redirecting fuel rs (pure 0) with
      | none => return 2
      | some _ =>
        for (name, w) in assignments do
          assign name (← expandJoined fuel w)
        return (← session).outputStatus.getD 0
    | name :: arguments =>
      let isSpecial := specialBuiltins.contains name
      let body : Run Nat := do
        let s ← session
        for (name, w) in assignments do
          assign name (← expandJoined fuel w)
          if !isSpecial then
            update fun s => match s.settings.lookup name with
              | some v => s.put name { v with isExported := true }
              | none => s
        let status ← invoke fuel isTested name arguments
        if !isSpecial then
          for (name, _) in assignments do
            update (·.restore name (s.settings.lookup name))
        return status
      if name = "exec" ∧ arguments.isEmpty then
        if ← redirect fuel rs then return 0 else halt .fails
      else
        match ← redirecting fuel rs body with
        | some status => return status
        | none => if isSpecial then halt .fails else return 2

def invoke : Nat → Bool → String → List String → Run Nat
  | 0, _, _, _ => endless
  | fuel + 1, isTested, name, arguments => do
    if specialBuiltins.contains name then special fuel isTested name arguments
    else
      match (← session).functions.lookup name with
      | some body => call fuel isTested body arguments
      | none => commanded fuel isTested (name :: arguments)

def special : Nat → Bool → String → List String → Run Nat
  | 0, _, _, _ => endless
  | fuel + 1, isTested, name, arguments => do
    match name, arguments with
    | "eval", words => evaluate fuel isTested (String.intercalate " " words).toList 0
    | ".", [] => return 0
    | ".", path :: _ =>
      let s ← session
      let paths := if path.toList.contains '/' then [path]
        else s.searchPath.map fun dir => if dir.isEmpty then path else dir ++ "/" ++ path
      match paths.filterMap fun p => s.tree.text? p with
      | text :: _ => evaluate fuel isTested text.toList 0
      | [] => halt .fails
    | "exec", words =>
      let status ← program fuel words
      halt (.gone status)
    | name, words => Builtin.run name words

/-- Runs a command that is no function. One that changes the shell itself is forgiven. -/
def commanded : Nat → Bool → List String → Run Nat
  | 0, _, _ => endless
  | fuel + 1, isTested, words =>
    match words with
    | [] | ["command"] => return 0
    | "command" :: option :: words =>
      if option = "-v" ∨ option = "-V" then Builtin.describe words
      else if option = "-p" ∨ option = "--" then commanded fuel isTested words
      else commanded fuel isTested (option :: words)
    | name :: arguments =>
      if specialBuiltins.contains name then forgiving (special fuel isTested name arguments)
      else if ordinaryBuiltins.contains name then forgiving (Builtin.run name arguments)
      else do
        let status ← program fuel (name :: arguments)
        if status ≠ 127 then noticeEnd
        return status

def call : Nat → Bool → Command → List String → Run Nat
  | 0, _, _, _ => endless
  | fuel + 1, isTested, body, arguments => do
    let s ← session
    if deepest ≤ s.depth then halt (.exits 2)
    update fun s => { s with
      arguments, loops := 0, locals := [] :: s.locals, depth := s.depth + 1 }
    let outcome ← attempt (command fuel isTested body)
    update fun t =>
      let t := (t.locals.headD []).foldl (fun t (name, v) => t.restore name v) t
      { t with
        arguments := s.arguments, loops := s.loops, locals := s.locals, depth := s.depth }
    match outcome with
    | .ok status | .error (.returns status) => return status
    | .error h => halt h

def program : Nat → List String → Run Nat
  | 0, _ => endless
  | _ + 1, [] => return 0
  | fuel + 1, name :: arguments => do
    match (← session).find name with
    | .missing => return 127
    | .barred => return 126
    | .program base => external fuel base name arguments

/-- Runs the program of a file. Of most programs nothing is known. -/
def external : Nat → String → String → List String → Run Nat
  | 0, _, _, _ => endless
  | fuel + 1, base, name, arguments => do
    let s ← session
    match base, arguments with
    | "sleep", times =>
      match Sleep.request (s.environment.any (·.1 = "POSIXLY_CORRECT")) times with
      | .sleep time =>
        spend time
        return 0
      | .inform => return 0
      | .refused => return 1
    | "true", _ => return 0
    | "false", _ => return 1
    | "test", _ | "[", _ | "echo", _ | "kill", _ | "pwd", _ => forgiving (Builtin.run base arguments)
    | "sh", _ | "dash", _ | "bash", _ => script fuel name arguments
    | "cat", [] =>
      match ← readAll with
      | some text => write text
      | none => return 1
    | "nice", words | "nohup", words | "setsid", words | "env", words =>
      let isCommand := words.head?.any fun w => !w.startsWith "-" && !w.toList.contains '='
      if isCommand then program fuel words else lose
    | "timeout", limit :: words =>
      match Sleep.time? limit with
      | none => lose
      | some limit =>
        let (status, t) := shell fuel (program fuel words) s.beside
        if t.now.within (s.now.add limit) then
          update (·.absorb t)
          reach t.now
          return status
        else
          if t.now = .unknown ∨ limit = .lasts 0 then lose
          update (·.absorb t)
          reach (s.now.add limit)
          return 124
    | _, _ => lose

def script : Nat → String → List String → Run Nat
  | 0, _, _ => endless
  | fuel + 1, name, arguments => do
    let s ← session
    match Builtin.options? ('c' :: Builtin.optionLetters) [] arguments with
    | none => lose
    | some (options, arguments) =>
      let isGiven := options.contains 'c'
      let start name arguments := s.fresh name arguments (options.filter (· ≠ 'c'))
      let (body, t) : Run Nat × Session := match isGiven, arguments.getD [] with
        | true, [] => (pure 2, start name [])
        | true, text :: arguments =>
          (evaluate fuel false text.toList 0, start (arguments.headD name) (arguments.drop 1))
        | false, path :: arguments =>
          match s.node? path with
          | some (.file text) => (evaluate fuel false text.toList 0, start path arguments)
          | _ => (pure 2, start path arguments)
        | false, [] =>
          (do evaluate fuel false ((← readAll).getD []) 0, start name [])
      let (status, t) := shell fuel body t
      update (·.absorb t)
      reach t.now
      return status

end

end HostSteward.Shell
