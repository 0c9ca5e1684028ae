import Gatekeeper.Disk
import Gatekeeper.Document.Stored
import Gatekeeper.Registry
import Gatekeeper.Settings

/-!
# Loading policies

The policy files of a folder are read in the order of their names, then compiled in chunks side by
side, then merged into a registry. All of it succeeds or nothing does, and the error is that of the
first file at fault in the first of these steps that has one.
-/

set_option autoImplicit false

namespace Gatekeeper

structure PolicySource where
  origin : String
  document : Document
  deriving DecidableEq, Repr

def reportIn {α : Type} (origin : String) (result : Except Error α) : Except Error α :=
  result.mapError (.inDocument origin)

def fileExtension? (name : String) : Option (List Char) :=
  let reversed := name.toList.reverse
  match reversed.dropWhile (· != '.') with
  | [] => none
  -- A point that begins the name sets off no extension.
  | [_] => none
  | _ => some (reversed.takeWhile (· != '.')).reverse

def isPolicyName (name : String) : Bool :=
  match fileExtension? name with
  | some ext => ext.map Char.toLower == ['j', 's', 'o', 'n']
  | none => false

def policyFile? : String × Except ReadFailure Node → Option (String × Node)
  | (name, .ok (.file contents)) =>
    if isPolicyName name then some (name, .file contents) else none
  | (_, .ok (.folder _)) => none
  -- What cannot be looked at counts for no file, without an error.
  | (_, .error _) => none

def policyFiles (listing : Listing) : List (String × Node) :=
  (listing.filterMap policyFile?).mergeSort (fun a b => decide (a.1 ≤ b.1))

def readSource (origin : String) (file : Except ReadFailure Node) : Except Error PolicySource :=
  reportIn origin <|
    match file.bind Node.text with
    | .ok text => (Document.read text).map (⟨origin, ·⟩)
    | .error _ => .error .unreadable

def readSources : List (String × Except ReadFailure Node) → Except Error (List PolicySource)
  | [] => .ok []
  | (origin, file) :: rest => do
    let source ← readSource origin file
    let sources ← readSources rest
    return source :: sources

def policyFolder (folder : String) (listing : Option Listing) : Except Error Listing :=
  match listing with
  | some listing => .ok listing
  | none => .error (.load (.missingFolder folder))

def discover (folder : String) (listing : Option Listing) :
    Except Error (List (String × Node)) := do
  let listing ← policyFolder folder listing
  return (policyFiles listing).map fun (name, node) => (pathIn folder name, node)

def chunksOf {α : Type} (size : Nat) (xs : List α) : List (List α) :=
  match xs with
  | [] => []
  | x :: rest => (x :: rest.take (size - 1)) :: chunksOf size (rest.drop (size - 1))
termination_by xs.length
decreasing_by
  simp only [List.length_drop, List.length_cons]
  omega

def divideUp (n d : Nat) : Nat := (n + d - 1) / d

def PolicySource.compile (builtins : Builtins) (s : PolicySource) : Except Error Workflow :=
  reportIn s.origin (Workflow.compile s.document builtins)

def compileEach (builtins : Builtins) : List PolicySource → Except Error (List Workflow)
  | [] => .ok []
  | s :: ss => do
    let w ← s.compile builtins
    let ws ← compileEach builtins ss
    return w :: ws

def gather {α : Type} : List (Except Error (List α)) → Except Error (List α)
  | [] => .ok []
  | result :: results => do
    let xs ← result
    let ys ← gather results
    return xs ++ ys

def compileAll (builtins : Builtins) (threads : Nat) (sources : List PolicySource) :
    Except Error (List Workflow) :=
  let size := divideUp sources.length (max threads 1)
  gather ((chunksOf size sources).map (compileEach builtins))

def merge (allowDuplicates : Bool) (r : Registry) :
    List (PolicySource × Workflow) → Except Error Registry
  | [] => .ok r
  | (source, w) :: rest => do
    let r ← reportIn source.origin (r.insert w allowDuplicates)
    merge allowDuplicates r rest

def loadRegistry (settings : Settings) (builtins : Builtins) (available : Nat)
    (listing : Option Listing) : Except Error Registry := do
  let files ← discover settings.folder listing
  let sources ← readSources (files.map fun (path, node) => (path, .ok node))
  let threads := settings.compileThreads available sources.length
  let workflows ← compileAll builtins threads sources
  merge settings.allowDuplicates .empty (sources.zip workflows)

inductive LoaderRun
  | finished (result : Except Error Registry)
  | lost
  | unfinished

def LoaderRun.result (timeout : UInt64) : LoaderRun → Except Error Registry
  | .finished result => result
  | .lost => .error (.load .loaderLost)
  | .unfinished => .error (.loadTimeout timeout.toNat)

end Gatekeeper
