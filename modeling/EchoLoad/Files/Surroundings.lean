/-!
# Outside of a directory

What a program can count on outside of the directory that it runs in: the directories and the devices
that every system has. The directory itself is one of those made for the moment; what else they hold
is not known and counts as missing.
-/

namespace EchoLoad

/-- What stands at the end of a path. -/
inductive Standing
  | directory
  | file
  /-- a device that is empty to readers and takes all that is written -/
  | null
  /-- a device that takes nothing -/
  | full
  /-- a device that takes all that is written and is not for settings -/
  | sink
  /-- the input of the program -/
  | input
  /-- the terminal, which the program does not have -/
  | terminal
  | missing
deriving DecidableEq, Repr

/-- Whether files can be made in a directory. -/
inductive Making
  | allowed
  /-- its files are made by the system alone -/
  | never
  /-- its files are made by the system alone, and it says so -/
  | forbidden
deriving DecidableEq, Repr

namespace Surroundings

/-- The directories that every system has, by the names that lead to them from the root. -/
def directories : List (List String) :=
  [[], ["bin"], ["boot"], ["dev"], ["dev", "fd"], ["dev", "pts"], ["dev", "shm"], ["etc"], ["home"],
   ["lib"], ["media"], ["mnt"], ["opt"], ["proc"], ["proc", "self"], ["proc", "self", "fd"], ["root"],
   ["run"], ["sbin"], ["srv"], ["sys"], ["tmp"], ["usr"], ["usr", "bin"], ["usr", "lib"],
   ["usr", "local"], ["usr", "share"], ["var"], ["var", "log"], ["var", "tmp"]]

/-- What else every system has. -/
def others : List (List String × Standing) :=
  [(["dev", "null"], .null), (["dev", "full"], .full), (["dev", "zero"], .sink),
   (["dev", "random"], .sink), (["dev", "urandom"], .sink), (["dev", "stdin"], .input),
   (["dev", "stdout"], .sink), (["dev", "stderr"], .sink), (["dev", "tty"], .terminal),
   (["dev", "fd", "0"], .input), (["dev", "fd", "1"], .sink), (["dev", "fd", "2"], .sink),
   (["proc", "self", "fd", "0"], .input), (["proc", "self", "fd", "1"], .sink),
   (["proc", "self", "fd", "2"], .sink), (["etc", "passwd"], .file), (["etc", "group"], .file),
   (["etc", "hosts"], .file), (["etc", "hostname"], .file)]

/-- What stands at the end of some names from the root. -/
def standing (names : List String) : Standing :=
  if names ∈ directories then .directory
  else ((others.find? fun o => o.1 = names).map (·.2)).getD .missing

/-- Whether files can be made in a directory with some names from the root. -/
def making : List String → Making
  | "proc" :: _ => .never
  | ["dev", "fd"] => .never
  | "sys" :: _ => .forbidden
  | _ => .allowed

/-- The directory for what is made for the moment. -/
def momentary : List String := ["tmp"]

end Surroundings

end EchoLoad
