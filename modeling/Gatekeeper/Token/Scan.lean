import Gatekeeper.Text.Blank
import Gatekeeper.Token

/-!
# Scanning

A text is scanned from the left: blanks are skipped, then one lexeme is cut off. Every lexeme
extends as far as its kind allows, and the first character settles the kind, a digit always
beginning a number. Where no lexeme begins the scan is stuck, and stays so. A scan keeps the
tokens before that place beside the fault, because a reader may reject one of them first.
-/

set_option autoImplicit false

namespace Gatekeeper

structure LexicalFault where
  character : Char
  offset : Nat
  deriving DecidableEq, Repr

structure Lexeme where
  kind : TokenKind
  chars : List Char
  rest : List Char

def wordLexeme (kind : TokenKind) (before : List Char) (member : Char → Bool) (cs : List Char) :
    Lexeme :=
  ⟨kind, before ++ cs.takeWhile member, cs.dropWhile member⟩

def stringLexeme? (quote : Char) (cs : List Char) : Option Lexeme :=
  match cs.dropWhile (· != quote) with
  | [] => none
  | _ :: rest => some ⟨.string, quote :: cs.takeWhile (· != quote) ++ [quote], rest⟩

def lexeme? : List Char → Option Lexeme
  | [] => none
  | ',' :: rest => some ⟨.comma, [','], rest⟩
  | '.' :: rest => some ⟨.dot, ['.'], rest⟩
  | '(' :: rest => some ⟨.openParen, ['('], rest⟩
  | ')' :: rest => some ⟨.closeParen, [')'], rest⟩
  | '=' :: '=' :: rest => some ⟨.equality, ['=', '='], rest⟩
  | '!' :: '=' :: rest => some ⟨.inequality, ['!', '='], rest⟩
  | '"' :: rest => stringLexeme? '"' rest
  | '\'' :: rest => stringLexeme? '\'' rest
  | '$' :: c :: rest =>
    if isWordChar c then some (wordLexeme .variable ['$'] isWordChar (c :: rest)) else none
  | c :: rest =>
    if c.isDigit then some (wordLexeme .number [] Char.isDigit (c :: rest))
    else if isWordChar c then some (wordLexeme .identifier [] isWordChar (c :: rest))
    else none

structure Cursor where
  rest : List Char
  offset : Nat
  deriving DecidableEq, Repr

namespace Cursor

def start (source : String) : Cursor := ⟨source.toList, 0⟩

def atEnd (c : Cursor) : Bool := c.rest.isEmpty

def skipBlanks (c : Cursor) : Cursor :=
  ⟨c.rest.dropWhile isBlank, c.offset + byteLength (c.rest.takeWhile isBlank)⟩

end Cursor

inductive Pull
  | finished
  | stuck (fault : LexicalFault)
  | token (token : Token)
  deriving DecidableEq, Repr

def Cursor.next (c : Cursor) : Pull × Cursor :=
  let here := c.skipBlanks
  match here.rest with
  | [] => (.finished, here)
  | ch :: _ =>
    match lexeme? here.rest with
    -- The cursor rests on the character it cannot pass, so the next pull is stuck there too.
    | none => (.stuck ⟨ch, here.offset⟩, here)
    | some l =>
      (.token ⟨l.kind, String.ofList l.chars, here.offset⟩,
        ⟨l.rest, here.offset + byteLength l.chars⟩)

theorem stringLexeme?_shorter {quote : Char} {cs : List Char} {l : Lexeme}
    (h : stringLexeme? quote cs = some l) : l.rest.length < cs.length := by
  unfold stringLexeme? at h
  split at h
  · cases h
  · rename_i c rest hd
    have : (cs.dropWhile (· != quote)).length ≤ cs.length := (List.dropWhile_sublist _).length_le
    rw [hd] at this
    cases h
    rw [List.length_cons] at this
    exact this

theorem wordLexeme_shorter (kind : TokenKind) (before : List Char) (member : Char → Bool) (c : Char)
    (rest : List Char) (h : member c = true) :
    (wordLexeme kind before member (c :: rest)).rest.length < (c :: rest).length := by
  have : (rest.dropWhile member).length ≤ rest.length := (List.dropWhile_sublist _).length_le
  rw [wordLexeme, List.dropWhile_cons_of_pos h]
  exact Nat.lt_succ_of_le this

theorem lexeme?_shorter {cs : List Char} {l : Lexeme} (h : lexeme? cs = some l) :
    l.rest.length < cs.length := by
  unfold lexeme? at h
  split at h
  · cases h
  · cases h; exact Nat.lt_succ_self _
  · cases h; exact Nat.lt_succ_self _
  · cases h; exact Nat.lt_succ_self _
  · cases h; exact Nat.lt_succ_self _
  · cases h; exact Nat.lt_succ_of_lt (Nat.lt_succ_self _)
  · cases h; exact Nat.lt_succ_of_lt (Nat.lt_succ_self _)
  · exact Nat.lt_succ_of_lt (stringLexeme?_shorter h)
  · exact Nat.lt_succ_of_lt (stringLexeme?_shorter h)
  · split at h
    · rename_i c rest hc
      cases h
      exact Nat.lt_succ_of_lt (wordLexeme_shorter .variable _ _ c rest hc)
    · cases h
  · split at h
    · rename_i hc
      cases h
      exact wordLexeme_shorter .number _ _ _ _ hc
    · split at h
      · rename_i hc
        cases h
        exact wordLexeme_shorter .identifier _ _ _ _ hc
      · cases h

theorem Cursor.next_shorter {c after : Cursor} {t : Token} (h : c.next = (.token t, after)) :
    after.rest.length < c.rest.length := by
  have skipped : (c.rest.dropWhile isBlank).length ≤ c.rest.length :=
    (List.dropWhile_sublist _).length_le
  unfold Cursor.next at h
  simp only [Cursor.skipBlanks] at h
  split at h
  · simp at h
  · split at h
    · simp at h
    · rename_i l hl
      simp only [Prod.mk.injEq] at h
      rw [← h.2]
      exact Nat.lt_of_lt_of_le (lexeme?_shorter hl) skipped

structure Scan where
  tokens : List Token
  fault : Option LexicalFault
  deriving DecidableEq, Repr

def Cursor.scan (c : Cursor) : Scan :=
  match _h : c.next with
  | (.finished, _) => ⟨[], none⟩
  | (.stuck fault, _) => ⟨[], some fault⟩
  | (.token t, after) =>
    let later := after.scan
    ⟨t :: later.tokens, later.fault⟩
termination_by c.rest.length
decreasing_by exact Cursor.next_shorter (by assumption)

def scan (source : String) : Scan := (Cursor.start source).scan

end Gatekeeper
