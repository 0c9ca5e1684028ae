import Gatekeeper.Text.Hex

/-!
# TOML for settings

The part of TOML that settings need: keys with a string, an integer or a truth value, and the
tables that make a choice, which have one member named for it and nothing in that member. Such a
table may be written in braces, with a dotted key or under a header. Texts that hold anything else
are not read, nor are those that set a key twice.
-/

set_option autoImplicit false

namespace Gatekeeper.Toml

inductive Value
  | text (value : String)
  | integer (value : Int)
  | boolean (value : Bool)
  /-- An empty table, or an empty array. -/
  | empty
  /-- A table with one member. -/
  | member (key : String) (value : Value)
  deriving DecidableEq, Repr

def isSpace (c : Char) : Bool := c == ' ' || c == '\t'

def isPlain (c : Char) : Bool := c == '\t' || (0x20 ≤ c.toNat && c.toNat != 0x7F)

def isBareKeyChar (c : Char) : Bool := c.isAlphanum || c == '_' || c == '-'

def digit? (base : Nat) (c : Char) : Option Nat :=
  if c.isHexDigit && hexDigitValue c < base then some (hexDigitValue c) else none

def numbered? (digits : List Char) : Option Char :=
  if digits.all Char.isHexDigit && decide (hexValue digits).isValidChar then
    some (Char.ofNat (hexValue digits))
  else none

def simpleEscape? : Char → Option Char
  | 'b' => some '\x08'
  | 't' => some '\t'
  | 'n' => some '\n'
  | 'f' => some '\x0c'
  | 'r' => some '\r'
  | '"' => some '"'
  | '\\' => some '\\'
  | _ => none

abbrev Read := Option (List Char × List Char)

def Read.cons? (c : Option Char) (read : Read) : Read := do
  let c ← c
  let (cs, rest) ← read
  return (c :: cs, rest)

def escape? : List Char → Option (Char × List Char)
  | 'u' :: a :: b :: c :: d :: rest => (numbered? [a, b, c, d]).map (·, rest)
  | 'U' :: a :: b :: c :: d :: e :: f :: g :: h :: rest =>
    (numbered? [a, b, c, d, e, f, g, h]).map (·, rest)
  | c :: rest => (simpleEscape? c).map (·, rest)
  | [] => none

def basic? (cs : List Char) : Read :=
  match cs with
  | [] => none
  | '"' :: rest => some ([], rest)
  | '\\' :: rest =>
    match escape? rest with
    | none => none
    | some (c, after) =>
      if after.length ≤ rest.length then Read.cons? (some c) (basic? after) else none
  | c :: rest => if isPlain c then Read.cons? (some c) (basic? rest) else none
termination_by cs.length

def literal? : List Char → Read
  | [] => none
  | '\'' :: rest => some ([], rest)
  | c :: rest => if isPlain c then Read.cons? (some c) (literal? rest) else none

def afterNewline? : List Char → Option (List Char)
  | '\n' :: rest => some rest
  | '\r' :: '\n' :: rest => some rest
  | _ => none

def skipFirstNewline (cs : List Char) : List Char := (afterNewline? cs).getD cs

def skipBlankLines : List Char → List Char
  | '\n' :: rest => skipBlankLines rest
  | '\r' :: '\n' :: rest => skipBlankLines rest
  | c :: rest => if isSpace c then skipBlankLines rest else c :: rest
  | [] => []

def afterJoin? (cs : List Char) : Option (List Char) :=
  (afterNewline? (cs.dropWhile isSpace)).map skipBlankLines

/-- A string over several lines. Up to two quotes may stand before the three that close it, and a
backslash at the end of a line joins it to the next text. -/
def multiline? (quote : Char) (cs : List Char) : Read :=
  match cs with
  | [] => none
  | c :: rest =>
    if c = quote then
      let quotes := cs.takeWhile (· == quote)
      if 5 < quotes.length then none
      else if 3 ≤ quotes.length then some (quotes.drop 3, cs.dropWhile (· == quote))
      else if (rest.dropWhile (· == quote)).length ≤ rest.length then
        (multiline? quote (rest.dropWhile (· == quote))).map
          fun (body, rest) => (quotes ++ body, rest)
      else none
    else if c = '\\' ∧ quote = '"' then
      match afterJoin? rest with
      | some after => if after.length ≤ rest.length then multiline? quote after else none
      | none =>
        match escape? rest with
        | none => none
        | some (e, after) =>
          if after.length ≤ rest.length then Read.cons? (some e) (multiline? quote after) else none
    else
      match afterNewline? cs with
      | some after =>
        if after.length ≤ rest.length then Read.cons? (some '\n') (multiline? quote after) else none
      | none => if isPlain c then Read.cons? (some c) (multiline? quote rest) else none
termination_by cs.length
decreasing_by
  all_goals exact Nat.lt_succ_of_le (by first | assumption | exact Nat.le_refl _)

def string? : List Char → Read
  | '"' :: '"' :: '"' :: rest => multiline? '"' (skipFirstNewline rest)
  | '\'' :: '\'' :: '\'' :: rest => multiline? '\'' (skipFirstNewline rest)
  | '"' :: rest => basic? rest
  | '\'' :: rest => literal? rest
  | _ => none

def digitsAfter (base : Nat) : List Char → List Nat × List Char
  | '_' :: c :: rest =>
    match digit? base c with
    | some d => let (ds, rest) := digitsAfter base rest; (d :: ds, rest)
    | none => ([], '_' :: c :: rest)
  | c :: rest =>
    match digit? base c with
    | some d => let (ds, rest) := digitsAfter base rest; (d :: ds, rest)
    | none => ([], c :: rest)
  | [] => ([], [])

def digits? (base : Nat) : List Char → Option (Nat × List Char)
  | [] => none
  | c :: rest => do
    let d ← digit? base c
    let (ds, rest) := digitsAfter base rest
    return ((d :: ds).foldl (fun n d => base * n + d) 0, rest)

def decimal? : List Char → Option (Nat × List Char)
  -- There are no leading zeros, so what follows a zero does not belong to the number.
  | '0' :: rest => some (0, rest)
  | cs => digits? 10 cs

def integer? : List Char → Option (Int × List Char)
  | '0' :: 'x' :: rest => (digits? 16 rest).map fun (n, rest) => (Int.ofNat n, rest)
  | '0' :: 'o' :: rest => (digits? 8 rest).map fun (n, rest) => (Int.ofNat n, rest)
  | '0' :: 'b' :: rest => (digits? 2 rest).map fun (n, rest) => (Int.ofNat n, rest)
  | '+' :: rest => (decimal? rest).map fun (n, rest) => (Int.ofNat n, rest)
  | '-' :: rest => (decimal? rest).map fun (n, rest) => (Int.negOfNat n, rest)
  | cs => (decimal? cs).map fun (n, rest) => (Int.ofNat n, rest)

def inRange (n : Int) : Bool := decide (-0x8000000000000000 ≤ n ∧ n < 0x8000000000000000)

def scalar? : List Char → Option (Value × List Char)
  | 't' :: 'r' :: 'u' :: 'e' :: rest => some (.boolean true, rest)
  | 'f' :: 'a' :: 'l' :: 's' :: 'e' :: rest => some (.boolean false, rest)
  | cs =>
    match string? cs with
    | some (text, rest) => some (.text (String.ofList text), rest)
    | none => do
      let (n, rest) ← integer? cs
      if inRange n then some (.integer n, rest) else none

def key? : List Char → Read
  | '"' :: rest => basic? rest
  | '\'' :: rest => literal? rest
  | cs =>
    let bare := cs.takeWhile isBareKeyChar
    if bare.isEmpty then none else some (bare, cs.dropWhile isBareKeyChar)

def path? (cs : List Char) : Option (List String × List Char) :=
  match key? (cs.dropWhile isSpace) with
  | none => none
  | some (key, rest) =>
    match rest.dropWhile isSpace with
    | '.' :: rest =>
      if rest.length < cs.length then
        (path? rest).map fun (keys, rest) => (String.ofList key :: keys, rest)
      else none
    | rest => some ([String.ofList key], rest)
termination_by cs.length

def Value.under (value : Value) : List String → Value
  | [] => value
  | key :: keys => .member key (value.under keys)

def skipComment (cs : List Char) : List Char :=
  match cs.dropWhile isSpace with
  | '#' :: rest => rest.dropWhile isPlain
  | rest => rest

def skipLines (cs : List Char) : List Char :=
  match afterNewline? (skipComment cs) with
  | some rest => if rest.length < cs.length then skipLines rest else rest
  | none => cs.dropWhile isSpace
termination_by cs.length

def value? (cs : List Char) : Option (Value × List Char) :=
  match cs with
  | '[' :: rest =>
    match skipLines rest with
    | ']' :: rest => some (.empty, rest)
    | _ => none
  | '\x7b' :: rest =>
    match rest.dropWhile isSpace with
    | '\x7d' :: rest => some (.empty, rest)
    | inner =>
      match path? inner with
      | some (keys, '=' :: after) =>
        if (after.dropWhile isSpace).length ≤ rest.length then
          match value? (after.dropWhile isSpace) with
          | some (value, rest) =>
            match rest.dropWhile isSpace with
            | '\x7d' :: rest => some (value.under keys, rest)
            | _ => none
          | none => none
        else none
      | _ => none
  | _ => scalar? cs
termination_by cs.length

inductive Line
  | blank
  | setting (path : List String) (value : Value)
  | header (path : List String)

def setting? (cs : List Char) : Option (Line × List Char) := do
  match ← path? cs with
  | (keys, '=' :: rest) =>
    let (value, rest) ← value? (rest.dropWhile isSpace)
    return (.setting keys value, rest)
  | _ => none

def header? (cs : List Char) : Option (Line × List Char) := do
  match ← path? cs with
  | (keys, ']' :: rest) => return (.header keys, rest)
  | _ => none

def line? (cs : List Char) : Option (Line × List Char) := do
  match cs.dropWhile isSpace with
  | [] => return (.blank, [])
  | '[' :: rest =>
    let (header, rest) ← header? rest
    return (header, skipComment rest)
  | start =>
    if start.head? == some '#' || (afterNewline? start).isSome then
      return (.blank, skipComment start)
    else
      let (setting, rest) ← setting? start
      return (setting, skipComment rest)

def lines? (cs : List Char) : Option (List Line) :=
  match line? cs with
  | none => none
  | some (line, rest) =>
    match rest with
    | [] => some [line]
    | _ =>
      match afterNewline? rest with
      | none => none
      | some after => if after.length < cs.length then (lines? after).map (line :: ·) else none
termination_by cs.length

structure Section where
  path : List String
  settings : List (List String × Value)

def sectionsOf : List Line → List (List String × Value) × List Section
  | [] => ([], [])
  | .blank :: lines => sectionsOf lines
  | .setting path value :: lines =>
    let (settings, sections) := sectionsOf lines
    ((path, value) :: settings, sections)
  | .header path :: lines =>
    let (settings, sections) := sectionsOf lines
    ([], ⟨path, settings⟩ :: sections)

namespace Section

def value? (s : Section) : Option Value :=
  match s.settings with
  | [] => some .empty
  | [(path, value)] => some (value.under path)
  | _ => none

def isBare (s : Section) : Bool := s.path.length == 1 && s.settings.isEmpty

def isWithin (s other : Section) : Bool :=
  other.path.length < s.path.length && s.path.take other.path.length == other.path

end Section

def distinct : List String → Bool
  | [] => true
  | k :: ks => !ks.contains k && distinct ks

def rooted? : List String × Value → Option (String × Value)
  | ([], _) => none
  | (key :: keys, value) => some (key, value.under keys)

/-- The settings that sections make. A table may have a header of its own beside that of its
member. -/
def settingsOf? (sections : List Section) : Option (List (String × Value)) :=
  let bare := sections.filter Section.isBare
  let telling := sections.filter fun s => !(s.isBare && sections.any (fun t => t.isWithin s))
  if distinct (bare.flatMap Section.path) then
    telling.mapM fun s => do rooted? (s.path, ← s.value?)
  else none

def read? (text : String) : Option (List (String × Value)) := do
  let cs := match text.toList with
    | '\ufeff' :: rest => rest
    | cs => cs
  let (plain, sections) := sectionsOf (← lines? cs)
  let settings := (← plain.mapM rooted?) ++ (← settingsOf? sections)
  if distinct (settings.map Prod.fst) then some settings else none

end Gatekeeper.Toml
