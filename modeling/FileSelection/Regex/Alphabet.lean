import FileSelection.Text.Blank
import FileSelection.Text.Case
import FileSelection.Text.Word

/-!
# Alphabets

An expression takes its notions of a letter, a digit, a blank and of upper and lower case from one
of two alphabets.  In the alphabet of ASCII all other characters are neither word characters nor
cased.
-/

namespace FileSelection.Regex

open FileSelection.Text

inductive Alphabet where
  | unicode
  | ascii
  deriving DecidableEq, Repr

inductive Category where
  | digit
  | word
  | blank
  deriving DecidableEq, Repr

namespace Alphabet

def isDigit : Alphabet → Char → Bool
  | .unicode, c => Text.isDigit c
  | .ascii, c => c.isDigit

def isWord : Alphabet → Char → Bool
  | .unicode, c => Text.isWord c
  | .ascii, c => c.isAlphanum || c == '_'

def isBlank : Alphabet → Char → Bool
  | .unicode, c => Text.isBlank c
  | .ascii, c => c == ' ' || (9 ≤ c.toNat && c.toNat ≤ 13)

def has (alphabet : Alphabet) : Category → Char → Bool
  | .digit => alphabet.isDigit
  | .word => alphabet.isWord
  | .blank => alphabet.isBlank

/-! ## Case -/

def isUpperAscii (code : Nat) : Bool := 65 ≤ code && code ≤ 90

def isLowerAscii (code : Nat) : Bool := 97 ≤ code && code ≤ 122

def lower : Alphabet → Nat → Nat
  | .unicode, code => lowerCode code
  | .ascii, code => if isUpperAscii code then code + 32 else code

def lowerChar (alphabet : Alphabet) (c : Char) : Char := Char.ofNat (alphabet.lower c.toNat)

def isCased : Alphabet → Nat → Bool
  | .unicode, code => Text.isCased code
  | .ascii, code => isUpperAscii code || isLowerAscii code

def hasCased : Alphabet → Nat → Nat → Bool
  | .unicode, first, last => meetsRanges casedRanges first last
  | .ascii, first, last => (first ≤ 90 && 65 ≤ last) || (first ≤ 122 && 97 ≤ last)

/-- The lower-case characters that count as equal to a lower-case character, itself included. -/
def equals : Alphabet → Nat → List Nat
  | .unicode, code => code :: twins code
  | .ascii, code => [code]

def sources : Alphabet → Nat → List Nat
  | .unicode, code => lowerSources code
  | .ascii, code =>
      if isLowerAscii code then [code, code - 32]
      else if isUpperAscii code then [] else [code]

end Alphabet

end FileSelection.Regex
