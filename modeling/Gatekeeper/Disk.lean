import Gatekeeper.Error
import Gatekeeper.PathPattern

/-!
# Files and folders

What a program finds on a disk, as a value: files with their bytes and folders with their entries,
in the order in which the system lists them, and the folder the program works in. A path that begins
with a slash leads down from the root, any other from the working folder. To list a folder is not to
look at its entries: a look at an entry goes by the entry's own path, which may be too long. There
are no links, every folder may be listed and searched, and nothing changes while it is looked at.
-/

set_option autoImplicit false

namespace Gatekeeper

inductive Node
  /-- A file without contents may not be read. -/
  | file (contents : Option ByteArray)
  | folder (entries : List (String × Node))

inductive ReadFailure
  | missing
  | notAFolder
  | isAFolder
  | denied
  | nameTooLong
  | nullInName
  | notText
  deriving DecidableEq, Repr

def ReadFailure.text : ReadFailure → String
  | .missing => "No such file or directory (os error 2)"
  | .notAFolder => "Not a directory (os error 20)"
  | .isAFolder => "Is a directory (os error 21)"
  | .denied => "Permission denied (os error 13)"
  | .nameTooLong => "File name too long (os error 36)"
  | .nullInName => "file name contained an unexpected NUL byte"
  | .notText => "stream did not contain valid UTF-8"

def pathIn (folder name : String) : String :=
  if folder = "" ∨ folder.toList.getLast? = some '/' then folder ++ name
  else folder ++ "/" ++ name

def longestName : Nat := 255

def longestPath : Nat := 4095

namespace Node

def entry? (name : String) : List (String × Node) → Option Node
  | [] => none
  | (k, node) :: rest => if k = name then some node else entry? name rest

def text : Node → Except ReadFailure String
  | .folder _ => .error .isAFolder
  | .file none => .error .denied
  | .file (some bytes) =>
    match String.fromUTF8? bytes with
    | some s => .ok s
    | none => .error .notText

end Node

abbrev Listing := List (String × Except ReadFailure Node)

def lookAt (folder : String) (entry : String × Node) : String × Except ReadFailure Node :=
  (entry.1,
    if (pathIn folder entry.1).utf8ByteSize ≤ longestPath then .ok entry.2
    else .error .nameTooLong)

structure Location where
  above : List Node -- the nearest first
  node : Node

namespace Location

def step (here : Location) (name : String) : Except ReadFailure Location :=
  match here.node with
  | .file _ => .error .notAFolder
  | .folder entries =>
    -- An empty name stands between two slashes, or after the last.
    if name = "" ∨ name = "." then .ok here
    else if name = ".." then
      match here.above with
      | [] => .ok here -- nothing is above the root
      | parent :: above => .ok ⟨above, parent⟩
    else if longestName < name.utf8ByteSize then .error .nameTooLong
    else
      match Node.entry? name entries with
      | none => .error .missing
      | some node => .ok ⟨here.node :: here.above, node⟩

def follow (here : Location) (names : List String) : Except ReadFailure Location :=
  names.foldlM step here

end Location

structure Disk where
  root : Node
  /-- The names on the way from the root to the folder the program works in. -/
  workingFolder : List String

namespace Disk

def start (d : Disk) (path : String) : Except ReadFailure Location :=
  if path.toList.head? = some '/' then .ok ⟨[], d.root⟩
  else Location.follow ⟨[], d.root⟩ d.workingFolder

def find (d : Disk) (path : String) : Except ReadFailure Node :=
  if path.toList.contains '\x00' then .error .nullInName
  else if longestPath < path.utf8ByteSize then .error .nameTooLong
  else if path = "" then .error .missing
  else do
    let place ← (← d.start path).follow ((splitAtSlashes path.toList).map String.ofList)
    return place.node

def folderAt? (d : Disk) (path : String) : Option Listing :=
  match d.find path with
  | .ok (.folder entries) => some (entries.map (lookAt path))
  | _ => none

def textAt (d : Disk) (path : String) : Except ReadFailure String := do
  (← d.find path).text

end Disk

end Gatekeeper
