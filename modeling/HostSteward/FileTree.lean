/-!
# Files and directories

A tree says what is at each place, and a path is followed from a directory to a place. Every
name on the way but the last must be that of a directory, and no name may be too long. Some
directories are links to others, and nothing can be made in the sealed ones.
-/

namespace HostSteward

abbrev Place := List String

inductive FileNode where
  | directory (isSealed : Bool := false)
  | file (text : String := "")
  | program
deriving DecidableEq

namespace FileNode

def isDirectory : FileNode → Bool
  | .directory _ => true
  | .file _ | .program => false

end FileNode

inductive PathFault where
  | notFound
  | notADirectory
  | nameTooLong
deriving DecidableEq

structure FileTree where
  nodes : List (Place × FileNode) := []
  links : List (Place × Place) := []
  /-- Where paths begin that do not begin at the root. -/
  here : Place := []

namespace FileTree

def longestName : Nat := 255

def longestPath : Nat := 4095

def parts (path : String) : List String := (path.toList.splitOn '/').map String.ofList

def isAbsolute (path : String) : Bool := path.toList.head? = some '/'

/-- What is at a place. There is always a root. -/
def node? (t : FileTree) (place : Place) : Option FileNode :=
  if place.isEmpty then some (.directory false) else t.nodes.lookup place

def inside (t : FileTree) (place : Place) (name : String) : Place :=
  (t.links.lookup (place ++ [name])).getD (place ++ [name])

/-- Follows one part of a path; empty parts lead nowhere else. -/
def step (t : FileTree) (place : Place) (part : String) : Except PathFault Place :=
  if !((t.node? place).any FileNode.isDirectory) then .error .notADirectory
  else if part = "" ∨ part = "." then .ok place
  else if part = ".." then .ok place.dropLast
  else if longestName < part.utf8ByteSize then .error .nameTooLong
  else if (t.node? (t.inside place part)).isSome then .ok (t.inside place part)
  else .error .notFound

def start (t : FileTree) (path : String) : Place := if isAbsolute path then [] else t.here

def fullPath (t : FileTree) (path : String) : String :=
  if isAbsolute path then path
  else String.join (t.here.map ("/" ++ ·)) ++ "/" ++ path

def find (t : FileTree) (path : String) : Except PathFault Place :=
  if path.isEmpty then .error .notFound
  else if longestPath < path.utf8ByteSize then .error .nameTooLong
  else (parts path).foldlM t.step (t.start path)

/-- The text of the file that a path leads to; that of a program does not matter. -/
def text? (t : FileTree) (path : String) : Option String :=
  match t.find path with
  | .error _ => none
  | .ok place =>
    match t.node? place with
    | some (.file text) => some text
    | some .program => some ""
    | some (.directory _) | none => none

def enter (t : FileTree) (path : String) : Except PathFault FileTree := do
  let place ← t.find path
  if (t.node? place).any FileNode.isDirectory then .ok { t with here := place }
  else .error .notADirectory

/-! ## Making files and directories -/

def add (t : FileTree) (place : Place) (node : FileNode) : FileTree :=
  { t with nodes := (place, node) :: t.nodes }

def makeStep? (p : FileTree × Place) (part : String) : Option (FileTree × Place) :=
  let (t, place) := p
  match t.step place part with
  | .ok place => if (t.node? place).any FileNode.isDirectory then some (t, place) else none
  | .error .notFound =>
    if t.node? place = some (.directory true) then none
    else some (t.add (t.inside place part) (.directory false), t.inside place part)
  | .error _ => none

def makeDirectories? (t : FileTree) (path : String) : Option FileTree :=
  if longestPath < path.utf8ByteSize then none
  else do
    let (t, place) ← (parts path).foldlM makeStep? (t, t.start path)
    if t.node? place = some (.directory true) then none else some t

def withFile (t : FileTree) (path text : String) : FileTree :=
  match (parts path).dropLast.foldlM makeStep? (t, t.start path), (parts path).getLast? with
  | some (t, place), some name => t.add (t.inside place name) (.file text)
  | _, _ => t

def withFiles (t : FileTree) (files : List (String × String)) : FileTree :=
  files.foldl (fun t (path, text) => t.withFile path text) t

/-! ## The tree that a host is set up with -/

def under (place : Place) (names : List String) : List Place := names.map (place ++ [·])

def commonDirectories : List Place :=
  under [] ["boot", "dev", "etc", "home", "media", "mnt", "opt", "root", "run", "srv", "tmp",
    "usr", "var", "work"] ++
  under ["usr"] ["bin", "games", "include", "lib", "lib64", "libexec", "local", "sbin", "share",
    "src"] ++
  under ["usr", "local"] ["bin", "etc", "games", "include", "lib", "sbin", "share", "src"] ++
  under ["usr", "share"] ["doc", "man"] ++
  under ["var"] ["backups", "cache", "lib", "local", "log", "mail", "opt", "spool", "tmp"] ++
  under ["etc"] ["alternatives", "apt", "cron.d", "cron.daily", "default", "dpkg", "init.d",
    "ld.so.conf.d", "opt", "pam.d", "profile.d", "security", "skel", "ssl", "terminfo"] ++
  under ["var", "lib"] ["apt", "dpkg"] ++ under ["var", "cache"] ["apt", "debconf"] ++
  under ["dev"] ["fd", "mqueue", "pts", "shm"] ++ under ["run"] ["lock"]

def systemDirectories : List Place :=
  under [] ["proc", "sys"] ++ under ["proc"] ["1", "net", "self", "sys"] ++
  under ["sys"] ["block", "bus", "class", "dev", "devices", "firmware", "fs", "kernel",
    "module", "power"]

def commonFiles : List Place :=
  under ["etc"] ["bash.bashrc", "fstab", "group", "gshadow", "host.conf", "hostname", "hosts",
    "issue", "ld.so.conf", "login.defs", "nsswitch.conf", "os-release", "profile",
    "resolv.conf", "shadow", "shells"] ++
  under ["proc"] ["cpuinfo", "loadavg", "meminfo", "mounts", "stat", "uptime", "version"] ++
  under ["usr", "lib"] ["os-release"]

def commonDevices : List Place :=
  under ["dev"] ["full", "null", "random", "stderr", "stdin", "stdout", "tty", "urandom", "zero"]

def commonPrograms : List Place :=
  under ["usr", "bin"] ["[", "arch", "awk", "b2sum", "base32", "base64", "basename", "basenc",
    "bash", "cat", "chgrp", "chmod", "chown", "chrt", "cksum", "clear", "cmp", "comm", "cp",
    "csplit", "cut", "dash", "date", "dd", "df", "diff", "dir", "dircolors", "dirname", "dmesg",
    "dpkg", "du", "echo", "egrep", "env", "expand", "expr", "factor", "false", "fgrep", "find",
    "flock", "fmt", "fold", "getent", "getopt", "grep", "groups", "gunzip", "gzip", "head",
    "hostid", "hostname", "iconv", "id", "install", "ionice", "join", "kill", "ldd", "link",
    "ln", "locale", "logger", "logname", "ls", "lscpu", "md5sum", "mkdir", "mkfifo", "mknod",
    "mktemp", "more", "mount", "mv", "nice", "nl", "nohup", "nproc", "numfmt", "od", "passwd",
    "paste", "pathchk", "perl", "pr", "printenv", "printf", "ptx", "pwd", "readlink", "realpath",
    "renice", "rev", "rm", "rmdir", "sed", "seq", "setsid", "sh", "sha1sum", "sha224sum",
    "sha256sum", "sha384sum", "sha512sum", "shred", "shuf", "sleep", "sort", "split", "stat",
    "stdbuf", "stty", "su", "sum", "sync", "tac", "tail", "tar", "taskset", "tee", "test",
    "timeout", "touch", "tput", "tr", "true", "truncate", "tsort", "tty", "umount", "uname",
    "unexpand", "uniq", "unlink", "users", "vdir", "wc", "which", "who", "whoami", "xargs", "yes",
    "zcat"]

def commonLinks : List (Place × Place) :=
  [(["bin"], ["usr", "bin"]), (["sbin"], ["usr", "sbin"]), (["lib"], ["usr", "lib"]),
   (["lib64"], ["usr", "lib64"]), (["var", "run"], ["run"]), (["var", "lock"], ["run", "lock"])]

def standard : FileTree where
  nodes := commonDirectories.map (·, .directory false) ++
    systemDirectories.map (·, .directory true) ++
    [(["etc", "passwd"], .file "root:x:0:0:root:/root:/bin/bash\n")] ++
    commonFiles.map (·, .file "#\n") ++ commonDevices.map (·, .file) ++ commonPrograms.map (·, .program)
  links := commonLinks
  here := ["work"]

def scratch : FileTree :=
  { standard.add ["tmp", ".tmp000000"] (.directory false) with here := ["tmp", ".tmp000000"] }

end FileTree

end HostSteward
