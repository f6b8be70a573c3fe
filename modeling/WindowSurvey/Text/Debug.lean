/-!
# Quoted text in diagnostics

Diagnostic texts show strings between double quotes. A quote, a backslash and the usual control
characters get a one-letter escape; other characters that leave no ink of their own on the page are
written by their code.

## Main definitions

* `isInkless` — characters written by their code
* `debugString` — a string between quotes
-/

namespace WindowSurvey

/-- Ranges of characters that are written by their code: controls, blanks other than the space,
formatting marks, marks that combine with the character before them, private and unassigned blocks. -/
def inklessRanges : List (Nat × Nat) :=
  [(0x0, 0x1f), (0x7f, 0xa0), (0xad, 0xad), (0x300, 0x36f), (0x378, 0x379), (0x483, 0x489),
   (0x591, 0x5bd), (0x600, 0x605), (0x610, 0x61a), (0x61c, 0x61c), (0x64b, 0x65f), (0x6dd, 0x6dd),
   (0x1680, 0x1680), (0x180e, 0x180f), (0x1ab0, 0x1aff), (0x1dc0, 0x1dff), (0x2000, 0x200f),
   (0x2028, 0x202f), (0x205f, 0x206f), (0x20d0, 0x20f0), (0x3000, 0x3000), (0x302a, 0x302f),
   (0x3099, 0x309a), (0xd800, 0xf8ff), (0xfe00, 0xfe0f), (0xfe20, 0xfe2f), (0xfeff, 0xfeff),
   (0xfff0, 0xfffb), (0xfffe, 0xffff), (0x1f3fb, 0x1f3ff), (0xe0000, 0x10ffff)]

/-- Whether a character is written by its code. -/
def isInkless (c : Char) : Bool :=
  inklessRanges.any fun (low, high) => low ≤ c.toNat && c.toNat ≤ high

/-- One character between the quotes. -/
def debugChar (c : Char) : List Char :=
  match c with
  | '"' => ['\\', '"']
  | '\\' => ['\\', '\\']
  | '\n' => ['\\', 'n']
  | '\r' => ['\\', 'r']
  | '\t' => ['\\', 't']
  | '\x00' => ['\\', '0']
  | c =>
    if isInkless c then ['\\', 'u', '\x7b'] ++ Nat.toDigits 16 c.toNat ++ ['\x7d'] else [c]

/-- A string between quotes. -/
def debugString (s : String) : String :=
  String.ofList ('"' :: s.toList.flatMap debugChar ++ ['"'])

end WindowSurvey
