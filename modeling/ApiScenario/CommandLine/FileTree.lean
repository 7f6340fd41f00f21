/-!
# File trees

The files that a command reads and writes, as a value. A place is said by the directory it is
counted from and the names on the way; the directories above the working directory and the root
are always there. A path is followed name by name, and each name but the last has to be that of a
directory.
-/

namespace ApiScenario

/-- Where a path begins. -/
inductive Origin where
  /-- The directory so many levels above the working directory. -/
  | working (above : Nat)
  | root
deriving DecidableEq, Repr

/-- A place for a file or a directory. -/
structure Location where
  origin : Origin
  /-- The names on the way from the origin. -/
  names : List String
deriving DecidableEq, Repr

namespace Location

/-- The place with a name in a directory. -/
def child (l : Location) (name : String) : Location := ⟨l.origin, l.names ++ [name]⟩

/-- The directory that holds a place. -/
def parent (l : Location) : Location :=
  match l.names, l.origin with
  | [], .working above => ⟨.working (above + 1), []⟩
  | [], .root => ⟨.root, []⟩
  | names, origin => ⟨origin, names.dropLast⟩

/-- The place one name further; a dot stays and two dots go up. -/
def step (l : Location) (name : String) : Location :=
  if name = "." then l else if name = ".." then l.parent else l.child name

end Location

/-! ## Paths -/

namespace Path

/-- Whether a path ends with a slash, and so is that of a directory. -/
def endsWithSlash (p : String) : Bool := p.toList.getLast? == some '/'

/-- Where a path begins. -/
def start (p : String) : Location :=
  if p.toList.head? = some '/' then ⟨.root, []⟩ else ⟨.working 0, []⟩

/-- The names on a path, empty ones left out. -/
def names (p : String) : List String :=
  ((p.toList.splitOn '/').filter (!·.isEmpty)).map String.ofList

/-- The place of a path in a tree that has all directories on the way. -/
def location (p : String) : Location := (names p).foldl Location.step (start p)

/-- The last name on a path, dots left out. -/
def fileName? (p : String) : Option String :=
  match ((names p).filter (· != ".")).getLast? with
  | some name => if name = ".." then none else some name
  | none => none

/-- A file name up to its last dot, or all of it if that dot comes first or there is none. -/
def stem (name : String) : String :=
  match name.toList.reverse.dropWhile (· != '.') with
  | [] => name
  | [_] => name
  | _ :: before => String.ofList before.reverse

/-- The stem of the last name on a path. -/
def stem? (p : String) : Option String := (fileName? p).map stem

end Path

/-! ## Trees -/

/-- Why a file cannot be read or written. -/
inductive FileError where
  | noEntry
  | notDirectory
  | isDirectory
  | notText
  /-- Anything else, in the words of the file system. -/
  | other (message : String)
deriving DecidableEq, Repr

/-- A file error in words. -/
def FileError.message : FileError → String
  | noEntry => "No such file or directory (os error 2)"
  | notDirectory => "Not a directory (os error 20)"
  | isDirectory => "Is a directory (os error 21)"
  | notText => "stream did not contain valid UTF-8"
  | other message => message

/-- What stands at a place. -/
inductive Node where
  | file (content : ByteArray)
  | directory

/-- What stands at each place below the origins. -/
def FileTree := Location → Option Node

namespace FileTree

/-- The tree with nothing in it. -/
def empty : FileTree := fun _ => none

/-- What stands at a place, the origins included. -/
def node? (t : FileTree) (l : Location) : Option Node :=
  if l.names.isEmpty then some .directory else t l

/-- The tree with a node put at a place. -/
def put (t : FileTree) (l : Location) (n : Node) : FileTree :=
  fun l' => if l' = l then some n else t l'

/-- The place reached from a place by names, all but the last of which are those of directories. -/
def walk (t : FileTree) (l : Location) : List String → Except FileError Location
  | [] => .ok l
  | name :: rest =>
    match t.node? l with
    | none => .error .noEntry
    | some (.file _) => .error .notDirectory
    | some .directory => t.walk (l.step name) rest

/-- The text that bytes spell. -/
def decode (content : ByteArray) : Except FileError String :=
  match String.fromUTF8? content with
  | some text => .ok text
  | none => .error .notText

/-- The text of the file at a path. -/
def read (t : FileTree) (p : String) : Except FileError String :=
  if p.isEmpty then .error .noEntry
  else match t.walk (Path.start p) (Path.names p) with
    | .error e => .error e
    | .ok l =>
      match t.node? l with
      | none => .error .noEntry
      | some .directory => .error .isDirectory
      | some (.file content) =>
        if Path.endsWithSlash p then .error .notDirectory
        else decode content

/-- Whether a name is that of a directory wherever it stands. -/
def isDots (name : String) : Bool := name == "." || name == ".."

/-- The place at which the file at a path is to be written. -/
def target (t : FileTree) (p : String) : Except FileError Location :=
  match (Path.names p).getLast? with
  | none => .error (if p.isEmpty then .noEntry else .isDirectory)
  | some last =>
    match t.walk (Path.start p) (Path.names p).dropLast with
    | .error e => .error e
    | .ok l =>
      match t.node? l with
      | none => .error .noEntry
      | some (.file _) => .error .notDirectory
      | some .directory =>
        if isDots last || Path.endsWithSlash p then .error .isDirectory
        else match t.node? (l.child last) with
          | some .directory => .error .isDirectory
          | _ => .ok (l.child last)

/-- The tree after a text has been written to the file at a path. -/
def write (t : FileTree) (p text : String) : Except FileError FileTree :=
  (t.target p).map fun l => t.put l (.file text.toUTF8)

/-- The tree with directories put at the places reached from a place by names. -/
def makeDirectories (t : FileTree) (l : Location) : List String → FileTree
  | [] => t
  | name :: rest => (t.put (l.child name) .directory).makeDirectories (l.child name) rest

/-- The tree with a directory put at a place, and at those on the way to it. -/
def placeDirectory (t : FileTree) (l : Location) : FileTree :=
  t.makeDirectories ⟨l.origin, []⟩ l.names

/-- The tree with a file put at a place, and directories on the way to it. -/
def placeFile (t : FileTree) (l : Location) (content : ByteArray) : FileTree :=
  (t.placeDirectory l.parent).put l (.file content)

end FileTree

end ApiScenario
