import FileSelection.Toml.Nest
import FileSelection.Toml.Number
import FileSelection.Toml.Text

/-!
# Documents

A document is a sequence of statements, one a line: a header, which names the table that the next
statements are about, or a key with its value.

Values may be nested to any depth: no document is refused for that.
-/

namespace FileSelection.Toml

/-! ## Keys -/

def isKeyChar (c : Char) : Bool := c.isAlphanum || c == '-' || c == '_'

def keyPart? (text : List Char) : Option (String × List Char) :=
  match text with
  | '"' :: rest =>
      (escapedText? false (rest.length + 1) rest).map fun (t, r) => (String.ofList t, r)
  | '\'' :: rest => (literalText? rest).map fun (t, r) => (String.ofList t, r)
  | rest =>
      let bare := rest.takeWhile isKeyChar
      if bare.isEmpty then none else some (String.ofList bare, rest.dropWhile isKeyChar)

def keys? : Nat → List Char → Option (List String × List Char)
  | 0, _ => none
  | fuel + 1, text => do
      let (key, rest) ← keyPart? text
      match rest.dropWhile isIndent with
      | '.' :: rest =>
          let (keys, rest) ← keys? fuel (rest.dropWhile isIndent)
          some (key :: keys, rest)
      | rest => some ([key], rest)

def chain? (text : List Char) : Option (List String × List Char) := keys? (text.length + 1) text

/-! ## Values -/

def skipComment? : List Char → Option (List Char)
  | '#' :: rest =>
      if (rest.takeWhile (· != '\n')).any (isForbidden false) then none
      else some (rest.dropWhile (· != '\n'))
  | rest => some rest

def skipGaps? : Nat → List Char → Option (List Char)
  | 0, rest => some rest
  | fuel + 1, rest =>
      match rest.dropWhile isIndentOrBreak with
      | '#' :: rest => do skipGaps? fuel (← skipComment? ('#' :: rest))
      | rest => some rest

def gaps? (rest : List Char) : Option (List Char) := skipGaps? (rest.length + 1) rest

def isNested : Value → Bool
  | .list _ | .table _ => true
  | _ => false

mutual

def value : Nat → List Char → Except Failure (Value × List Char)
  | 0, _ => .error .malformedDocument
  | fuel + 1, text =>
      match text with
      | '"' :: _ | '\'' :: _ => (need (text? text)).map fun (t, r) => (.text (String.ofList t), r)
      | 't' :: 'r' :: 'u' :: 'e' :: rest => .ok (.bool true, rest)
      | 'f' :: 'a' :: 'l' :: 's' :: 'e' :: rest => .ok (.bool false, rest)
      | '[' :: rest => do
          match ← need (gaps? rest) with
          | ']' :: rest => return (.list [], rest)
          | rest => items fuel [] rest
      | '\x7b' :: rest =>
          match rest.dropWhile isIndent with
          | '\x7d' :: rest => .ok (.table [], rest)
          | rest => inline fuel [] .empty rest
      | text => timeOrNumber text

def items : Nat → List Value → List Char → Except Failure (Value × List Char)
  | 0, _, _ => .error .malformedDocument
  | fuel + 1, before, text => do
      let (item, rest) ← value fuel text
      match ← need (gaps? rest) with
      | ']' :: rest => return (.list (item :: before).reverse, rest)
      | ',' :: rest =>
          match ← need (gaps? rest) with
          | ']' :: rest => return (.list (item :: before).reverse, rest)
          | rest => items fuel (item :: before) rest
      | _ => throw .malformedDocument

def inline : Nat → Entries → Declared → List Char → Except Failure (Value × List Char)
  | 0, _, _, _ => .error .malformedDocument
  | fuel + 1, entries, declared, text => do
      let (keys, rest) ← need (chain? text)
      match rest with
      | '=' :: rest =>
          let (item, rest) ← value fuel (rest.dropWhile isIndent)
          if declared.isFrozen keys then throw .malformedDocument
          let key ← need keys.getLast?
          let entries ← need (update? false (addNew? key item) keys.dropLast entries)
          match rest.dropWhile isIndent with
          | '\x7d' :: rest => return (.table entries, rest)
          | ',' :: rest =>
              let declared := if isNested item then declared.freeze keys else declared
              inline fuel entries declared (rest.dropWhile isIndent)
          | _ => throw .malformedDocument
      | _ => throw .malformedDocument

end

/-! ## Statements -/

structure Progress where
  entries : Entries
  declared : Declared
  /-- The keys of the last header. -/
  header : List String

def enter? (progress : Progress) (keys : List String) (item : Value) : Option Progress := do
  let key ← keys.getLast?
  let parent := progress.header ++ keys.dropLast
  let onTheWay :=
    (List.range (keys.length - 1)).map fun n => progress.header ++ keys.take (n + 1)
  let declared := progress.declared
  if onTheWay.any declared.isClosed then none
  let declared := { declared with closing := onTheWay ++ declared.closing }
  if declared.isFrozen parent then none
  let entries ← update? true (addNew? key item) parent progress.entries
  let declared :=
    if isNested item then declared.freeze (progress.header ++ keys) else declared
  some { progress with entries, declared }

def setting (progress : Progress) (text : List Char) : Except Failure (Progress × List Char) := do
  let (keys, rest) ← need (chain? text)
  match rest with
  | '=' :: rest =>
      let (item, rest) ← value (2 * text.length + 2) (rest.dropWhile isIndent)
      return (← need (enter? progress keys item), rest)
  | _ => throw .malformedDocument

def tableHeader? (progress : Progress) (text : List Char) : Option (Progress × List Char) := do
  let (keys, rest) ← chain? (text.dropWhile isIndent)
  let declared := progress.declared.settle
  if declared.isClosed keys || declared.isFrozen keys then none
  let entries ← update? true some keys progress.entries
  match rest with
  | ']' :: rest => some (⟨entries, declared.close keys, keys⟩, rest)
  | _ => none

def listHeader? (progress : Progress) (text : List Char) : Option (Progress × List Char) := do
  let (keys, rest) ← chain? (text.dropWhile isIndent)
  let declared := progress.declared.settle
  if declared.isFrozen keys then none
  let declared := (declared.forget keys).close keys
  let key ← keys.getLast?
  let entries ← update? true (appendTable? key) keys.dropLast progress.entries
  match rest with
  | ']' :: ']' :: rest => some (⟨entries, declared, keys⟩, rest)
  | _ => none

def statement (progress : Progress) (text : List Char) : Except Failure (Progress × List Char) :=
  match text with
  | '#' :: _ => .ok (progress, text)
  | '[' :: '[' :: rest => need (listHeader? progress rest)
  | '[' :: rest => need (tableHeader? progress rest)
  | text => setting progress text

def statements : Nat → Progress → List Char → Except Failure Progress
  | 0, _, _ => .error .malformedDocument
  | fuel + 1, progress, text =>
      match text.dropWhile isIndent with
      | [] => .ok progress
      | '\n' :: rest => statements fuel progress rest
      | text => do
          let (progress, rest) ← statement progress text
          match ← need (skipComment? (rest.dropWhile isIndent)) with
          | [] => return progress
          | '\n' :: rest => statements fuel progress rest
          | _ => throw .malformedDocument

/-- The entries of a document whose line ends are line feeds. -/
def document? (text : List Char) : Except Failure Entries :=
  (statements (text.length + 1) ⟨[], .empty, []⟩ text).map (·.entries)

end FileSelection.Toml
