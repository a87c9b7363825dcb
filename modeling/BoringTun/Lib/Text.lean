import BoringTun.Lib.Bytes

/-!
Text as bytes, as a standard library handles it: UTF-8, lines, numbers, and cutting at a
character.

`Text.lines` cuts a text after each newline.
-/

namespace BoringTun.Text

def NEWLINE : UInt8 := 10

/-! ### UTF-8 -/

def isContinuation (b : UInt8) : Bool := 0x80 ≤ b && b ≤ 0xBF

/-- The rest of a text: `due` continuation bytes, the next of them in `low..high`, and then
whole characters. -/
def validFrom : (due : Nat) → (low high : UInt8) → Bytes → Bool
  | 0, _, _, [] => true
  | _ + 1, _, _, [] => false
  | 0, low, high, b :: rest =>
    if b < 0x80 then validFrom 0 low high rest
    else if 0xC2 ≤ b && b ≤ 0xDF then validFrom 1 0x80 0xBF rest
    -- no overlong forms, no surrogates, nothing past the last code point
    else if b = 0xE0 then validFrom 2 0xA0 0xBF rest
    else if b = 0xED then validFrom 2 0x80 0x9F rest
    else if 0xE1 ≤ b && b ≤ 0xEF then validFrom 2 0x80 0xBF rest
    else if b = 0xF0 then validFrom 3 0x90 0xBF rest
    else if 0xF1 ≤ b && b ≤ 0xF3 then validFrom 3 0x80 0xBF rest
    else if b = 0xF4 then validFrom 3 0x80 0x8F rest
    else false
  | due + 1, low, high, b :: rest =>
    low ≤ b && b ≤ high && validFrom due 0x80 0xBF rest

def validUtf8 (text : Bytes) : Bool := validFrom 0 0x80 0xBF text

/-- Without its last character. -/
def popChar (text : Bytes) : Bytes := ((text.reverse.dropWhile isContinuation).drop 1).reverse

/-- May a text be cut at `i`? -/
def isCharBoundary (text : Bytes) (i : Nat) : Bool :=
  i = 0 || i = text.length || (text.getD i 0x80 |> isContinuation |> not)

theorem popChar_newline (text : Bytes) : popChar (text ++ [NEWLINE]) = text := by
  have hnewline : isContinuation NEWLINE = false := by decide
  simp [popChar, hnewline]

/-! ### Lines -/

/-- The pieces of a text up to and with each newline, and what follows the last. -/
def lines : Bytes → List Bytes
  | [] => []
  | b :: rest =>
    if b = NEWLINE then [b] :: lines rest
    else
      match lines rest with
      | [] => [[b]]
      | first :: more => (b :: first) :: more

/-! ### Cutting and trimming -/

/-- The text before and after the first `c`. -/
def splitOnce (c : UInt8) : Bytes → Option (Bytes × Bytes)
  | [] => none
  | b :: rest =>
    if b = c then some ([], rest)
    else (splitOnce c rest).map fun parts => (b :: parts.1, parts.2)

/-- The white space of Unicode, each character in its UTF-8 form. -/
def whitespace : List Bytes :=
  [[0x09], [0x0A], [0x0B], [0x0C], [0x0D], [0x20], [0xC2, 0x85], [0xC2, 0xA0], [0xE1, 0x9A, 0x80],
    [0xE2, 0x80, 0x80], [0xE2, 0x80, 0x81], [0xE2, 0x80, 0x82], [0xE2, 0x80, 0x83],
    [0xE2, 0x80, 0x84], [0xE2, 0x80, 0x85], [0xE2, 0x80, 0x86], [0xE2, 0x80, 0x87],
    [0xE2, 0x80, 0x88], [0xE2, 0x80, 0x89], [0xE2, 0x80, 0x8A], [0xE2, 0x80, 0xA8],
    [0xE2, 0x80, 0xA9], [0xE2, 0x80, 0xAF], [0xE2, 0x81, 0x9F], [0xE3, 0x80, 0x80]]

/-- Take pieces off the front, at most `n` of them. -/
def dropPieces (pieces : List Bytes) : Nat → Bytes → Bytes
  | 0, text => text
  | n + 1, text =>
    match pieces.find? fun piece => piece.isPrefixOf text with
    | some piece => dropPieces pieces n (text.drop piece.length)
    | none => text

def trimStart (text : Bytes) : Bytes := dropPieces whitespace text.length text

def trimEnd (text : Bytes) : Bytes :=
  (dropPieces (whitespace.map List.reverse) text.length text.reverse).reverse

def trim (text : Bytes) : Bytes := trimEnd (trimStart text)

/-! ### Numbers and flags -/

def digit (b : UInt8) : Option Nat := if 48 ≤ b && b ≤ 57 then some (b.toNat - 48) else none

/-- Decimal digits, most significant first. -/
def digits (text : Bytes) : Option Nat :=
  text.foldl (fun value b => value.bind fun value => (digit b).map (value * 10 + ·)) (some 0)

/-- An unsigned number up to `bound`, with or without a plus sign. -/
def parseUInt (bound : Nat) (text : Bytes) : Option Nat :=
  let body := if text.head? = some 43 then text.tail else text
  if body = [] then none else (digits body).filter (· ≤ bound)

def parseBool (text : Bytes) : Option Bool :=
  if text = ascii "true" then some true else if text = ascii "false" then some false else none

end BoringTun.Text
