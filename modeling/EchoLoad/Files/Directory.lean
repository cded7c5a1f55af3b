import EchoLoad.Fault
import EchoLoad.Files.Surroundings
import EchoLoad.Text.Fields

/-!
# A directory of plain files

What a program finds that runs in a directory with some files and no directories in it: what its paths
lead to, and the errors of those that lead nowhere. A path is walked name by name; every name but the
last has to lead to a directory.

This stands in for the file system of a machine when a whole program is run (`Program.run`). What is known
of settings and of dumps does not depend on it: `Settings.load` is given what reading a path comes to, and
`Dump.run` what becomes of the file that it writes.
-/

namespace EchoLoad

/-- Files by name, each with its text. -/
abbrev Directory := List (String × String)

/-- A place on the way along a path. -/
inductive Place
  /-- the directory itself -/
  | here
  /-- another directory, by the names that lead to it from the root -/
  | outside (names : List String)
deriving DecidableEq, Repr

namespace Place

/-- The directory that a place is in; the root is in itself. -/
def up : Place → Place
  | here => outside Surroundings.momentary
  | outside names => outside names.dropLast

/-- A directory in a place. -/
def down : Place → String → Place
  | here, name => outside [name]
  | outside names, name => outside (names ++ [name])

end Place

/-- The end of a path: the place and the name in it, if the path ends with one, and whether a slash
follows. -/
structure PathEnd where
  place : Place
  name : Option String
  slash : Bool
deriving DecidableEq, Repr

namespace Directory

/-- The longest name of a file, in bytes. -/
def nameLimit : Nat := 255

/-- The longest path, in bytes. -/
def pathLimit : Nat := 4095

def noSuchFile : SystemError := .ofCode 2
def noSuchDevice : SystemError := .ofCode 6
def forbidden : SystemError := .ofCode 13
def noDirectory : SystemError := .ofCode 20
def isDirectory : SystemError := .ofCode 21
def noSpace : SystemError := .ofCode 28
def nameTooLong : SystemError := .ofCode 36

/-- The error of a path with a character that ends paths. -/
def nulInPath : SystemError :=
  .described .invalidInput "file name contained an unexpected NUL byte"

/-- The text of a file, if there is one of that name. -/
def text? (d : Directory) (name : String) : Option String := (d.find? fun f => f.1 = name).map (·.2)

/-- What a name in a place stands for. -/
def standing (d : Directory) : Place → String → Standing
  | .here, name => if (d.text? name).isSome then .file else .missing
  | .outside names, name => Surroundings.standing (names ++ [name])

/-- Go on from a place to a directory. -/
def enter (d : Directory) (p : Place) (name : String) : Except SystemError Place :=
  if name = "." then .ok p
  else if name = ".." then .ok p.up
  else if nameLimit < name.utf8ByteSize then .error nameTooLong
  else match d.standing p name with
    | .directory => .ok (p.down name)
    | .missing => .error noSuchFile
    | _ => .error noDirectory

/-- Walk along a path up to its last name. -/
def walk (d : Directory) (path : String) : Except SystemError PathEnd :=
  if '\x00' ∈ path.toList then .error nulInPath
  else if path.isEmpty then .error noSuchFile
  else if pathLimit < path.utf8ByteSize then .error nameTooLong
  else
    let start := if path.startsWith "/" then Place.outside [] else .here
    let names := (Text.fieldsOf '/' path).filter (· ≠ "")
    match names.getLast? with
    | none => .ok ⟨start, none, true⟩
    | some last =>
      match names.dropLast.foldlM d.enter start with
      | .error e => .error e
      | .ok p =>
        .ok ⟨p, if last = "." || last = ".." then none else some last, path.endsWith "/"⟩

/-- Read a file. -/
def read (d : Directory) (path : String) : Except SystemError String :=
  match d.walk path with
  | .error e => .error e
  | .ok ⟨_, none, _⟩ => .error isDirectory
  | .ok ⟨place, some name, slash⟩ =>
    if nameLimit < name.utf8ByteSize then .error nameTooLong
    else match d.standing place name with
      | .missing => .error noSuchFile
      | .directory => .error isDirectory
      | standing =>
        if slash then .error noDirectory
        else match standing, place with
          | .null, _ => .ok ""
          | .terminal, _ => .error noSuchDevice
          | .file, .here => .ok ((d.text? name).getD "")
          | _, _ => .error forbidden

/-- What a path leads to that is opened for writing. -/
inductive Target
  /-- the plain file of a name, emptied or new -/
  | inside (name : String)
  /-- something outside that takes all that is written -/
  | outside
  /-- a device that takes nothing -/
  | full
deriving DecidableEq, Repr

/-- Open a file for writing. A path that ends with a slash cannot name a file, whatever stands
there. -/
def target (d : Directory) (path : String) : Except SystemError Target :=
  match d.walk path with
  | .error e => .error e
  | .ok ⟨_, none, _⟩ => .error isDirectory
  | .ok ⟨place, some name, slash⟩ =>
    if slash then .error isDirectory
    else if nameLimit < name.utf8ByteSize then .error nameTooLong
    else match d.standing place name, place with
      | .directory, _ => .error isDirectory
      | .terminal, _ => .error noSuchDevice
      | .full, _ => .ok .full
      | .missing, .outside names =>
        match Surroundings.making names with
        | .allowed => .ok .outside
        | .never => .error noSuchFile
        | .forbidden => .error forbidden
      | _, .here => .ok (.inside name)
      | _, .outside _ => .ok .outside

/-- Whether a path leads to the input of the program. -/
def isInput (d : Directory) (path : String) : Bool :=
  match d.walk path with
  | .ok ⟨place, some name, false⟩ => d.standing place name = .input
  | _ => false

/-- Put a text into the file that a path stands for, if it is one of the directory. -/
def write (d : Directory) (path text : String) : Directory :=
  match d.target path with
  | .ok (.inside name) => (d.filter fun f => f.1 ≠ name) ++ [(name, text)]
  | _ => d

end Directory

end EchoLoad
