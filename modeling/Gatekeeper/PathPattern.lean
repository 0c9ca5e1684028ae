import Gatekeeper.Text.Blank

/-!
# Path patterns

A path is a list of segments between slashes, blanks around each cut off, with at most one slash at
either end ignored. A pattern is matched segment by segment; a segment that is just a star matches
all that is left, even if nothing is.
-/

set_option autoImplicit false

namespace Gatekeeper

def splitAtSlashes : List Char → List (List Char)
  | [] => [[]]
  | c :: cs =>
    if c = '/' then [] :: splitAtSlashes cs
    else
      match splitAtSlashes cs with
      | part :: parts => (c :: part) :: parts
      | [] => [[c]]

def withoutFirstSlash : List Char → List Char
  | '/' :: cs => cs
  | cs => cs

def withoutLastSlash (cs : List Char) : List Char :=
  (withoutFirstSlash cs.reverse).reverse

def pathSegments (path : String) : List String :=
  (splitAtSlashes (withoutLastSlash (withoutFirstSlash path.toList))).map
    (fun part => String.ofList (trimBlanks part))

structure PathPattern where
  source : String
  deriving DecidableEq, Repr, Inhabited

namespace PathPattern

def wildcard : String := "*"

def segments (p : PathPattern) : List String := pathSegments p.source

def matchSegments : List String → List String → Bool
  | [], path => path.isEmpty
  | s :: pattern, path =>
    if s = wildcard then true
    else
      match path with
      | [] => false
      | t :: path => decide (t = s) && matchSegments pattern path

def covers (p : PathPattern) (path : String) : Bool :=
  matchSegments p.segments (pathSegments path)

end PathPattern

end Gatekeeper
