import FileSelection.Text.Digits

/-!
# Texts in documents

A text stands between quotation marks, with escapes, or between apostrophes, without.  Tripled
quotes enclose texts of several lines, which may end in up to two quotes of their own.
-/

namespace FileSelection.Toml

def isForbidden (lines : Bool) (c : Char) : Bool :=
  (c.toNat < 32 && c != '\t' && !(lines && c == '\n')) || c.toNat == 127

def isIndent (c : Char) : Bool := c == ' ' || c == '\t'

def isIndentOrBreak (c : Char) : Bool := isIndent c || c == '\n'

def codeEscape? (width : Nat) (rest : List Char) : Option (List Char × List Char) :=
  match Text.digits 16 width 0 rest with
  | (count, code, rest) =>
      if count = width ∧ code.isValidChar then some ([Char.ofNat code], rest) else none

/-- What an escape stands for, after its backslash.  In a text of several lines an escaped line end
takes the blanks after it away. -/
def escape? (lines : Bool) : List Char → Option (List Char × List Char)
  | 'b' :: rest => some (['\x08'], rest)
  | 't' :: rest => some (['\t'], rest)
  | 'n' :: rest => some (['\n'], rest)
  | 'f' :: rest => some (['\x0c'], rest)
  | 'r' :: rest => some (['\r'], rest)
  | '"' :: rest => some (['"'], rest)
  | '\\' :: rest => some (['\\'], rest)
  | 'u' :: rest => codeEscape? 4 rest
  | 'U' :: rest => codeEscape? 8 rest
  | c :: rest =>
      if lines && isIndentOrBreak c then
        match (c :: rest).dropWhile isIndent with
        | [] => some ([], [])
        | '\n' :: rest => some ([], rest.dropWhile isIndentOrBreak)
        | _ => none
      else none
  | [] => none

def escapedText? (lines : Bool) : Nat → List Char → Option (List Char × List Char)
  | 0, _ => none
  | fuel + 1, text =>
      match text with
      | [] => none
      | '"' :: rest =>
          if !lines then some ([], rest)
          else
            match rest with
            | '"' :: '"' :: rest => some ([], rest)
            | rest => do
                let (found, rest) ← escapedText? lines fuel rest
                some ('"' :: found, rest)
      | '\\' :: rest => do
          let (start, rest) ← escape? lines rest
          let (found, rest) ← escapedText? lines fuel rest
          some (start ++ found, rest)
      | c :: rest =>
          if isForbidden lines c then none
          else do
            let (found, rest) ← escapedText? lines fuel rest
            some (c :: found, rest)

def literalText? : List Char → Option (List Char × List Char)
  | [] => none
  | '\'' :: rest => some ([], rest)
  | c :: rest =>
      if isForbidden false c then none
      else do
        let (found, rest) ← literalText? rest
        some (c :: found, rest)

def literalLines? : List Char → Option (List Char × List Char)
  | [] => none
  | '\'' :: '\'' :: '\'' :: rest => some ([], rest)
  | c :: rest =>
      if isForbidden true c then none
      else do
        let (found, rest) ← literalLines? rest
        some (c :: found, rest)

def withTrailing (quote : Char) : List Char × List Char → List Char × List Char
  | (found, c :: d :: rest) =>
      if c == quote && d == quote then (found ++ [quote, quote], rest)
      else if c == quote then (found ++ [quote], d :: rest)
      else (found, c :: d :: rest)
  | (found, [c]) => if c == quote then (found ++ [quote], []) else (found, [c])
  | (found, []) => (found, [])

def dropFirstBreak : List Char → List Char
  | '\n' :: rest => rest
  | rest => rest

def text? : List Char → Option (List Char × List Char)
  | '"' :: '"' :: '"' :: rest =>
      let rest := dropFirstBreak rest
      (escapedText? true (rest.length + 1) rest).map (withTrailing '"')
  | '\'' :: '\'' :: '\'' :: rest => (literalLines? (dropFirstBreak rest)).map (withTrailing '\'')
  | '"' :: rest => escapedText? false (rest.length + 1) rest
  | '\'' :: rest => literalText? rest
  | _ => none

end FileSelection.Toml
