import Gatekeeper.Text.Hex

/-!
# Lexemes of JSON

Cutting a JSON text into lexemes, which leaves out white space. The cut is strict: numbers have no
leading zeros and no bare points, strings no control characters and no escapes but those of the
format.
-/

set_option autoImplicit false

namespace Gatekeeper.Json

inductive Lexeme
  | openObject
  | closeObject
  | openArray
  | closeArray
  | comma
  | colon
  | null
  | bool (value : Bool)
  | number (literal : String)
  | string (text : Option String)
  deriving DecidableEq, Repr

def isSpace (c : Char) : Bool := c == ' ' || c == '\n' || c == '\t' || c == '\r'

def hexUnit? (digits : List Char) : Option Nat :=
  if digits.all Char.isHexDigit then some (hexValue digits) else none

def simpleEscape? : Char → Option Char
  | '"' => some '"'
  | '\\' => some '\\'
  | '/' => some '/'
  | 'b' => some '\x08'
  | 'f' => some '\x0c'
  | 'n' => some '\n'
  | 'r' => some '\r'
  | 't' => some '\t'
  | _ => none

def isHighSurrogate (n : Nat) : Bool := 0xD800 ≤ n && n ≤ 0xDBFF

def isLowSurrogate (n : Nat) : Bool := 0xDC00 ≤ n && n ≤ 0xDFFF

inductive Piece
  | char (c : Char)
  | unit (n : Nat)
  deriving DecidableEq, Repr

def pieces? : List Char → Option (List Piece × List Char)
  | [] => none
  | '"' :: rest => some ([], rest)
  | '\\' :: 'u' :: a :: b :: c :: d :: rest =>
    match hexUnit? [a, b, c, d], pieces? rest with
    | some n, some (ps, rest) => some (.unit n :: ps, rest)
    | _, _ => none
  | '\\' :: c :: rest =>
    match simpleEscape? c, pieces? rest with
    | some e, some (ps, rest) => some (.char e :: ps, rest)
    | _, _ => none
  | c :: rest =>
    if c.toNat < 0x20 ∨ c = '\\' then none
    else
      match pieces? rest with
      | some (ps, rest) => some (.char c :: ps, rest)
      | none => none

def joinPieces? : List Piece → Option (List Char)
  | [] => some []
  | .char c :: ps => (joinPieces? ps).map (c :: ·)
  | .unit n :: ps =>
    if isHighSurrogate n then
      match ps with
      | .unit m :: ps =>
        -- Two surrogates are one character, and half a pair is none.
        if isLowSurrogate m then
          (joinPieces? ps).map (Char.ofNat (0x10000 + (n - 0xD800) * 0x400 + (m - 0xDC00)) :: ·)
        else none
      | _ => none
    else if isLowSurrogate n then none
    else (joinPieces? ps).map (Char.ofNat n :: ·)

def digits? (cs : List Char) : Option (List Char × List Char) :=
  let run := cs.takeWhile Char.isDigit
  if run.isEmpty then none else some (run, cs.dropWhile Char.isDigit)

def fraction? : List Char → Option (List Char × List Char)
  | '.' :: rest => (digits? rest).map fun (ds, rest) => ('.' :: ds, rest)
  | cs => some ([], cs)

def exponent? : List Char → Option (List Char × List Char)
  | c :: rest =>
    if c = 'e' ∨ c = 'E' then
      match rest with
      | [] => none
      | sign :: more =>
        if sign = '+' ∨ sign = '-' then
          (digits? more).map fun (ds, rest) => (c :: sign :: ds, rest)
        else (digits? rest).map fun (ds, rest) => (c :: ds, rest)
    else some ([], c :: rest)
  | [] => some ([], [])

def whole? : List Char → Option (List Char × List Char)
  | '0' :: rest => some (['0'], rest)
  | cs => digits? cs

def unsigned? (cs : List Char) : Option (List Char × List Char) :=
  match whole? cs with
  | none => none
  | some (whole, afterWhole) =>
    match fraction? afterWhole with
    | none => none
    | some (fraction, afterFraction) =>
      (exponent? afterFraction).map fun (exponent, rest) => (whole ++ fraction ++ exponent, rest)

def number? : List Char → Option (List Char × List Char)
  | '-' :: rest => (unsigned? rest).map fun (ds, rest) => ('-' :: ds, rest)
  | cs => unsigned? cs

def lexeme? : List Char → Option (Lexeme × List Char)
  | '\x7b' :: rest => some (.openObject, rest)
  | '\x7d' :: rest => some (.closeObject, rest)
  | '[' :: rest => some (.openArray, rest)
  | ']' :: rest => some (.closeArray, rest)
  | ',' :: rest => some (.comma, rest)
  | ':' :: rest => some (.colon, rest)
  | 'n' :: 'u' :: 'l' :: 'l' :: rest => some (.null, rest)
  | 't' :: 'r' :: 'u' :: 'e' :: rest => some (.bool true, rest)
  | 'f' :: 'a' :: 'l' :: 's' :: 'e' :: rest => some (.bool false, rest)
  | '"' :: rest =>
    (pieces? rest).map fun (ps, rest) => (.string ((joinPieces? ps).map String.ofList), rest)
  | cs => (number? cs).map fun (ds, rest) => (.number (String.ofList ds), rest)

theorem pieces?_shorter {cs rest : List Char} {ps : List Piece} (h : pieces? cs = some (ps, rest)) :
    rest.length < cs.length := by
  fun_induction pieces? cs generalizing ps rest with
  | case1 => cases h
  | case2 => cases h; simp
  | case3 _ _ _ _ _ _ _ _ eq _ ih =>
    cases h
    have := ih eq
    simp only [List.length_cons]
    omega
  | case4 => cases h
  | case5 _ _ _ _ _ _ eq _ ih =>
    cases h
    have := ih eq
    simp only [List.length_cons]
    omega
  | case6 => cases h
  | case7 => cases h
  | case8 _ _ _ _ _ _ _ _ eq ih =>
    cases h
    have := ih eq
    simp only [List.length_cons]
    omega
  | case9 => cases h

theorem digits?_shorter {cs ds rest : List Char} (h : digits? cs = some (ds, rest)) :
    rest.length < cs.length := by
  unfold digits? at h
  cases cs with
  | nil => simp at h
  | cons c cs =>
    by_cases hc : c.isDigit
    · have : (cs.dropWhile Char.isDigit).length ≤ cs.length := (List.dropWhile_sublist _).length_le
      simp only [List.takeWhile_cons, List.dropWhile_cons, hc, if_true, List.isEmpty_cons,
        Bool.false_eq_true, if_false, Option.some.injEq, Prod.mk.injEq] at h
      rw [← h.2]
      exact Nat.lt_succ_of_le this
    · simp [hc] at h

theorem fraction?_le {cs ds rest : List Char} (h : fraction? cs = some (ds, rest)) :
    rest.length ≤ cs.length := by
  unfold fraction? at h
  split at h
  · obtain ⟨p, hp, eq⟩ := Option.map_eq_some_iff.1 h
    have := digits?_shorter hp
    cases eq
    simp only [List.length_cons]
    omega
  · cases h
    exact Nat.le_refl _

theorem exponent?_le {cs ds rest : List Char} (h : exponent? cs = some (ds, rest)) :
    rest.length ≤ cs.length := by
  unfold exponent? at h
  split at h
  · split at h
    · split at h
      · cases h
      · split at h
        all_goals
          obtain ⟨p, hp, eq⟩ := Option.map_eq_some_iff.1 h
          have := digits?_shorter hp
          cases eq
          simp only [List.length_cons] at this ⊢
          omega
    · cases h
      exact Nat.le_refl _
  · cases h
    exact Nat.le_refl _

theorem whole?_shorter {cs ds rest : List Char} (h : whole? cs = some (ds, rest)) :
    rest.length < cs.length := by
  unfold whole? at h
  split at h
  · cases h
    simp
  · exact digits?_shorter h

theorem unsigned?_shorter {cs ds rest : List Char} (h : unsigned? cs = some (ds, rest)) :
    rest.length < cs.length := by
  unfold unsigned? at h
  split at h
  · cases h
  · rename_i hw
    split at h
    · cases h
    · rename_i hf
      obtain ⟨p, he, eq⟩ := Option.map_eq_some_iff.1 h
      have := whole?_shorter hw
      have := fraction?_le hf
      have := exponent?_le he
      cases eq
      omega

theorem lexeme?_shorter {cs rest : List Char} {l : Lexeme} (h : lexeme? cs = some (l, rest)) :
    rest.length < cs.length := by
  unfold lexeme? at h
  split at h
  case h_10 =>
    obtain ⟨p, hp, eq⟩ := Option.map_eq_some_iff.1 h
    have := pieces?_shorter hp
    cases eq
    simp only [List.length_cons]
    omega
  case h_11 =>
    obtain ⟨p, hp, eq⟩ := Option.map_eq_some_iff.1 h
    cases eq
    unfold number? at hp
    split at hp
    · obtain ⟨q, hq, eq⟩ := Option.map_eq_some_iff.1 hp
      have := unsigned?_shorter hq
      cases eq
      simp only [List.length_cons]
      omega
    · exact unsigned?_shorter hp
  all_goals
    cases h
    simp only [List.length_cons]
    omega

def lexemes? (cs : List Char) : Option (List Lexeme) :=
  match _hd : cs.dropWhile isSpace with
  | [] => some []
  | c :: more =>
    match _hl : lexeme? (c :: more) with
    | none => none
    | some (l, rest) => (lexemes? rest).map (l :: ·)
termination_by cs.length
decreasing_by
  have : (cs.dropWhile isSpace).length ≤ cs.length := (List.dropWhile_sublist _).length_le
  have := lexeme?_shorter (by assumption)
  simp_all
  omega

end Gatekeeper.Json
