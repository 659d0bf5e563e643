import FileSelection.Failure
import FileSelection.Regex.Part
import FileSelection.Text.Digits
import FileSelection.Text.Name
import FileSelection.Text.Split

/-!
# Reading regular expressions

`Regex.parse?` reads the written form of a regular expression under a set of options.  It fails on a
text that is not well formed: an unfinished group or set, a quantifier without anything to repeat, a
reference to a group that is not complete, an unknown escape.  A repetition may also be too large to
be counted.  Reading goes from left to right, and the first fault ends it.
-/

namespace FileSelection.Regex

open FileSelection.Text

def need {α : Type} : Option α → Except Failure α
  | some value => .ok value
  | none => .error .badExpression

/-! ## Escapes -/

def hexEscape? (width : Nat) (rest : List Char) : Option (Member × List Char) :=
  match digits 16 width 0 rest with
  | (count, code, rest) =>
      if count = width ∧ code < 0x110000 then some (.char code, rest) else none

def octalEscape? (limit value : Nat) (rest : List Char) : Option (Member × List Char) :=
  match digits 8 limit value rest with
  | (_, code, rest) => if code ≤ 0o377 then some (.char code, rest) else none

def commonEscape? (c : Char) (rest : List Char) : Option (Member × List Char) :=
  match c with
  | 'd' => some (.category .digit false, rest)
  | 'D' => some (.category .digit true, rest)
  | 's' => some (.category .blank false, rest)
  | 'S' => some (.category .blank true, rest)
  | 'w' => some (.category .word false, rest)
  | 'W' => some (.category .word true, rest)
  | 'a' => some (.single '\x07', rest)
  | 'f' => some (.single '\x0c', rest)
  | 'n' => some (.single '\n', rest)
  | 'r' => some (.single '\r', rest)
  | 't' => some (.single '\t', rest)
  | 'v' => some (.single '\x0b', rest)
  | 'x' => hexEscape? 2 rest
  | 'u' => hexEscape? 4 rest
  | 'U' => hexEscape? 8 rest
  | c => if c.isAlphanum then none else some (.single c, rest)

/-! ## Sets -/

def member? : List Char → Option (Member × List Char)
  | [] => none
  | ['\\'] => none
  | '\\' :: 'b' :: rest => some (.single '\x08', rest)
  | '\\' :: c :: rest =>
      match digitValue? 8 c with
      | some value => octalEscape? 2 value rest
      | none => commonEscape? c rest
  | c :: rest => some (.single c, rest)

def rangeOf? : Member → Member → Option Member
  | .char first, .char last => if first ≤ last then some (.range first last) else none
  | _, _ => none

def members? : Nat → List Member → List Char → Option (List Member × List Char)
  | 0, _, _ => none
  | fuel + 1, members, rest =>
      match members, rest with
      | _ :: _, ']' :: rest => some (members.reverse, rest)
      | _, _ => do
          let (member, rest) ← member? rest
          match rest with
          | '-' :: ']' :: rest => some ((.single '-' :: member :: members).reverse, rest)
          | '-' :: rest =>
              let (last, rest) ← member? rest
              members? fuel ((← rangeOf? member last) :: members) rest
          | rest => members? fuel (member :: members) rest

def set? (rest : List Char) : Option (Part × List Char) :=
  match rest with
  | '^' :: rest => do
      let (members, rest) ← members? (rest.length + 1) [] rest
      some (.ofMembers members true, rest)
  | rest => do
      let (members, rest) ← members? (rest.length + 1) [] rest
      some (.ofMembers members false, rest)

/-! ## Quantifiers -/

def boundLimit : Nat := 0xFFFFFFFF

def bound (count value : Nat) : Except Failure Nat :=
  if digitLimit < count then .error (.longNumber count)
  else if boundLimit ≤ value then .error .uncountable
  else .ok value

def boundDigits? (rest : List Char) : Option ((Nat × Nat) × Option (Nat × Nat) × List Char) :=
  let (count, least, afterLeast) := digits 10 rest.length 0 rest
  match afterLeast with
  | ',' :: rest =>
      let (count', most, rest) := digits 10 rest.length 0 rest
      match rest with
      | '}' :: rest => some ((count, least), some (count', most), rest)
      | _ => none
  | '}' :: rest => if count = 0 then none else some ((count, least), none, rest)
  | _ => none

def quantifier? : List Char → Except Failure (Option (Nat × Option Nat × List Char))
  | '*' :: rest => .ok (some (0, none, rest))
  | '+' :: rest => .ok (some (1, none, rest))
  | '?' :: rest => .ok (some (0, some 1, rest))
  | '{' :: rest =>
      match boundDigits? rest with
      | none => .ok none
      | some (_, _, ['\\']) => .error .badExpression
      | some ((count, value), second, rest) => do
          let least ← bound count value
          match second with
          | none => return some (least, some least, rest)
          | some (0, _) => return some (least, none, rest)
          | some (count, value) =>
              let most ← bound count value
              if most < least then throw .badExpression
              return some (least, some most, rest)
  | _ => .ok none

inductive Role where
  | anchor
  | repetition
  | other
  deriving DecidableEq, Repr

structure Item where
  parts : List Part
  role : Role

def Item.single (part : Part) : Item := ⟨[part], .other⟩

def Item.regex (regex : Regex) : Item := .single (.other regex)

def repeatable? : List Item → Option Item
  | item :: _ => if item.role = .other then some item else none
  | [] => none

/-! ## What is known of an expression -/

/-- What is known of the expression that has been read so far. -/
structure Known where
  opened : Nat := 0
  /-- The groups that are complete. -/
  complete : List (Nat × Extent) := []
  names : List (List Char × Nat) := []
  /-- Inside of a part that looks behind, the last group that may be referred to. -/
  settled : Option Nat := none
  /-- The groups that conditions name by number. -/
  tested : List Nat := []
  /-- The alphabets that the whole expression asks for. -/
  alphabets : List Alphabet := []
  /-- Whether the expression asks for no repetitions. -/
  plain : Bool := false
  /-- Whether a part is well formed and yet has no meaning. -/
  meaningless : Bool := false

namespace Known

def extentOf (known : Known) (index : Nat) : Extent :=
  (known.complete.lookup index).getD .none

def isComplete (known : Known) (index : Nat) : Bool := (known.complete.lookup index).isSome

def mayRepeat (known : Known) (index : Nat) : Bool :=
  known.isComplete index && known.settled.all (index ≤ ·)

/-- Whether a condition may ask for a group.  Outside of parts that look behind, the group may also
come later. -/
def mayTest (known : Known) (index : Nat) : Bool :=
  known.settled.all fun last => known.isComplete index && index ≤ last

def ask (known : Known) (letters : List Char) : Known :=
  let asked := (if letters.contains 'a' then [Alphabet.ascii] else []) ++
    (if letters.contains 'u' then [Alphabet.unicode] else [])
  { known with
    alphabets := asked ++ known.alphabets
    plain := known.plain || letters.contains 't' }

def open? (known : Known) (name : Option (List Char)) : Option (Nat × Known) :=
  let index := known.opened + 1
  match name with
  | none => some (index, { known with opened := index })
  | some name =>
      if (known.names.lookup name).isSome then none
      else some (index, { known with opened := index, names := (name, index) :: known.names })

end Known

/-! ## Groups -/

inductive GroupKind where
  | plain
  /-- A group with options of its own. -/
  | scoped
  | capture (index : Nat)
  | ahead (wanted : Bool)
  | behind (wanted : Bool)
  | atomic
  deriving DecidableEq, Repr

def GroupKind.close (kind : GroupKind) (mode : Mode) (known : Known) (parts : List Part) :
    Item × Known :=
  let regex := mode.parts parts
  let extent := regex.extent known.extentOf
  match kind with
  | .plain => (⟨parts, .other⟩, known)
  | .scoped => (.regex regex, known)
  | .capture index =>
      (.regex (.group index regex), { known with complete := (index, extent) :: known.complete })
  | .ahead wanted => (.regex (.ahead wanted regex), known)
  | .behind wanted =>
      match extent.fixed? with
      | some length =>
          (.regex (.behind wanted length regex),
            { known with meaningless := known.meaningless || boundLimit < length })
      | none => (.regex (.behind wanted 0 regex), { known with meaningless := true })
  | .atomic => (.regex (.atomic regex), known)

inductive Opening where
  /-- A group, with the options that hold inside. -/
  | group (kind : GroupKind) (mode : Mode)
  /-- The condition that a group has matched. -/
  | condition (index : Nat)
  /-- A reference to a group by its name. -/
  | reference (index : Nat)
  /-- Options for the whole expression. -/
  | options (mode : Mode)
  | comment

def Mode.turnOn (mode : Mode) (letters : List Char) : Mode where
  ignoreCase := mode.ignoreCase || letters.contains 'i'
  multiLine := mode.multiLine || letters.contains 'm'
  dotAll := mode.dotAll || letters.contains 's'
  verbose := mode.verbose || letters.contains 'x'
  alphabet :=
    if letters.contains 'a' then .ascii
    else if letters.contains 'u' then .unicode
    else mode.alphabet

def Mode.turnOff (mode : Mode) (letters : List Char) : Mode where
  ignoreCase := mode.ignoreCase && !letters.contains 'i'
  multiLine := mode.multiLine && !letters.contains 'm'
  dotAll := mode.dotAll && !letters.contains 's'
  verbose := mode.verbose && !letters.contains 'x'
  alphabet := mode.alphabet

def optionLetters : List Char := "iLmsxatu".toList

def modalLetters : List Char := "imsx".toList

def options (mode : Mode) (known : Known) (rest : List Char) :
    Except Failure (Opening × Known × List Char) :=
  let (on, rest) := rest.span optionLetters.contains
  if on.contains 'L' || (on.contains 'a' && on.contains 'u') then .error .badExpression
  else
    match on, rest with
    | _ :: _, ')' :: rest => .ok (.options (mode.turnOn on), known.ask on, rest)
    | _ :: _, ':' :: rest =>
        if on.contains 't' then .error .badExpression
        else .ok (.group .scoped (mode.turnOn on), known, rest)
    | _, '-' :: rest =>
        let (off, rest) := rest.span optionLetters.contains
        match off, rest with
        | _ :: _, ':' :: rest =>
            if on.contains 't' || off.any fun c => !modalLetters.contains c || on.contains c then
              .error .badExpression
            else .ok (.group .scoped ((mode.turnOn on).turnOff off), known, rest)
        | _, _ => .error .badExpression
    | _, _ => .error .badExpression

def skipComment? : List Char → Option (List Char)
  | [] | ['\\'] => none
  | '\\' :: _ :: rest => skipComment? rest
  | ')' :: rest => some rest
  | _ :: rest => skipComment? rest

def skipLine? : List Char → Option (List Char)
  | [] => some []
  | ['\\'] => none
  | '\\' :: _ :: rest => skipLine? rest
  | '\n' :: rest => some rest
  | _ :: rest => skipLine? rest

def name? (ending : Char) (rest : List Char) : Option (List Char × List Char) :=
  match rest.span (· != ending) with
  | (name, _ :: rest) => if name.isEmpty then none else some (name, rest)
  | _ => none

def isNumberBlank (c : Char) : Bool := if c.toNat < 128 then Alphabet.ascii.isBlank c else isBlank c

/-- Reads a number with decimal digits of any script, which single underscores may separate.  Blanks
may stand around it, and a plus sign before it. -/
def groupNumber? (text : List Char) : Option Nat :=
  let text := ((text.dropWhile isNumberBlank).reverse.dropWhile isNumberBlank).reverse
  let text := match text with
    | '+' :: rest => rest
    | text => text
  let parts := splitAt ['_'] text
  if parts.any (·.isEmpty) || Text.digitLimit < parts.flatten.length then none
  else (parts.flatten.mapM decimalValue?).map (·.foldl (fun value digit => value * 10 + digit) 0)

def condition? (known : Known) (rest : List Char) : Option (Opening × Known × List Char) := do
  let (name, rest) ← name? ')' rest
  let (index, known) ←
    if isName name then (known.names.lookup name).map fun index => (index, known)
    else
      match groupNumber? name with
      | none | some 0 => none
      | some index => some (index, { known with tested := index :: known.tested })
  if known.mayTest index then some (.condition index, known, rest) else none

def opening (mode : Mode) (known : Known) (rest : List Char) :
    Except Failure (Opening × Known × List Char) :=
  let group (kind : GroupKind) (rest : List Char) : Except Failure (Opening × Known × List Char) :=
    .ok (.group kind mode, known, rest)
  let behind (wanted : Bool) (rest : List Char) : Except Failure (Opening × Known × List Char) :=
    let settled := known.settled.getD known.opened
    .ok (.group (.behind wanted) mode, { known with settled := some settled }, rest)
  let capture (name : Option (List Char)) (rest : List Char) := do
    let (index, known) ← need (known.open? name)
    return (Opening.group (.capture index) mode, known, rest)
  match rest with
  | '?' :: ':' :: rest => group .plain rest
  | '?' :: '>' :: rest => group .atomic rest
  | '?' :: '=' :: rest => group (.ahead true) rest
  | '?' :: '!' :: rest => group (.ahead false) rest
  | '?' :: '<' :: '=' :: rest => behind true rest
  | '?' :: '<' :: '!' :: rest => behind false rest
  | '?' :: '#' :: rest => return (.comment, known, ← need (skipComment? rest))
  | '?' :: '(' :: rest => need (condition? known rest)
  | '?' :: 'P' :: '<' :: rest => do
      let (name, rest) ← need (name? '>' rest)
      if isName name then capture (some name) rest else throw .badExpression
  | '?' :: 'P' :: '=' :: rest => do
      let (name, rest) ← need (name? ')' rest)
      let index ← need (known.names.lookup name)
      if known.mayRepeat index then return (.reference index, known, rest)
      else throw .badExpression
  | '?' :: rest => options mode known rest
  | rest => capture none rest

def escape? (mode : Mode) (known : Known) : List Char → Option (Part × List Char)
  | [] => none
  | 'A' :: rest => some (.anchor .textStart, rest)
  | 'Z' :: rest => some (.anchor .textEnd, rest)
  | 'b' :: rest => some (.anchor (.wordEdge mode.alphabet), rest)
  | 'B' :: rest => some (.anchor (.notWordEdge mode.alphabet), rest)
  | '0' :: rest => (octalEscape? 2 0 rest).map fun (member, rest) => (.ofMember member, rest)
  | c :: rest =>
      match digitValue? 10 c with
      | none => (commonEscape? c rest).map fun (member, rest) => (.ofMember member, rest)
      | some value =>
          if 3 ≤ (digits 8 3 0 (c :: rest)).1 then
            (octalEscape? 2 value rest).map fun (member, rest) => (.ofMember member, rest)
          else
            let (_, index, rest) := digits 10 1 value rest
            if known.mayRepeat index then some (.again index, rest) else none

/-! ## Expressions -/

structure Parsed (α : Type) where
  value : α
  mode : Mode
  known : Known
  rest : List Char

mutual

/-- Reads alternatives up to the end of the group or the text.  `outer` holds for the alternatives
of the whole expression, of which the first one may open with options. -/
def alternatives : Nat → Bool → Bool → Mode → Known → List Char →
    Except Failure (Parsed (List (List Part)))
  | 0, _, _, _, _, _ => .error .badExpression
  | fuel + 1, outer, first, mode, known, rest => do
      let branch ← sequence fuel (outer && first) mode known [] rest
      match branch.rest with
      | '|' :: rest =>
          let others ← alternatives fuel outer false branch.mode branch.known rest
          return { others with value := branch.value :: others.value }
      | rest => return ⟨[branch.value], branch.mode, branch.known, rest⟩

/-- Reads one alternative.  `items` holds what has been read of it, the latest first. -/
def sequence : Nat → Bool → Mode → Known → List Item → List Char →
    Except Failure (Parsed (List Part))
  | 0, _, _, _, _, _ => .error .badExpression
  | fuel + 1, first, mode, known, items, text => do
      match text with
      | [] | '|' :: _ | ')' :: _ => return ⟨items.reverse.flatMap Item.parts, mode, known, text⟩
      | c :: rest =>
          if mode.verbose && Alphabet.ascii.isBlank c then
            sequence fuel first mode known items rest
          else if mode.verbose && c == '#' then
            sequence fuel first mode known items (← need (skipLine? rest))
          else
            match ← quantifier? text with
            | some (least, most, rest) =>
                let item ← need (repeatable? items)
                let body := mode.parts item.parts
                let (regex, rest) := match rest with
                  | '?' :: rest => (repeated body ⟨least, most, true⟩, rest)
                  | '+' :: rest => (repeatedFully body ⟨least, most, false⟩, rest)
                  | rest => (repeated body ⟨least, most, false⟩, rest)
                let known := { known with meaningless := known.meaningless || known.plain }
                sequence fuel first mode known (⟨[.other regex], .repetition⟩ :: items.tail) rest
            | none =>
                match c with
                | '\\' =>
                    let (part, rest) ← need (escape? mode known rest)
                    let role := match part with
                      | .anchor _ => Role.anchor
                      | _ => .other
                    sequence fuel first mode known (⟨[part], role⟩ :: items) rest
                | '[' =>
                    let (part, rest) ← need (set? rest)
                    sequence fuel first mode known (.single part :: items) rest
                | '.' => sequence fuel first mode known (.single .any :: items) rest
                | '^' =>
                    let item : Item := ⟨[.anchor .lineStart], .anchor⟩
                    sequence fuel first mode known (item :: items) rest
                | '$' =>
                    let item : Item := ⟨[.anchor .lineEnd], .anchor⟩
                    sequence fuel first mode known (item :: items) rest
                | '(' =>
                    match ← opening mode known rest with
                    | (.comment, known, rest) => sequence fuel first mode known items rest
                    | (.options mode, known, rest) =>
                        if first && items.isEmpty then sequence fuel first mode known items rest
                        else throw .badExpression
                    | (.reference index, known, rest) =>
                        sequence fuel first mode known (.single (.again index) :: items) rest
                    | (.condition index, known, rest) =>
                        let matched ← sequence fuel false mode known [] rest
                        let unmatched ← match matched.rest with
                          | '|' :: rest => sequence fuel false mode matched.known [] rest
                          | rest => pure ⟨[], mode, matched.known, rest⟩
                        let regex :=
                          Regex.given index (mode.parts matched.value) (mode.parts unmatched.value)
                        match unmatched.rest with
                        | ')' :: rest =>
                            sequence fuel first mode unmatched.known (.regex regex :: items) rest
                        | _ => throw .badExpression
                    | (.group kind inner, inside, rest) =>
                        let body ← alternatives fuel false false inner inside rest
                        match body.rest with
                        | ')' :: rest =>
                            let (item, after) := kind.close inner body.known (inner.join body.value)
                            sequence fuel first mode { after with settled := known.settled }
                              (item :: items) rest
                        | _ => throw .badExpression
                | c => sequence fuel first mode known (.single (.char c.toNat false) :: items) rest

end

def parse? (mode : Mode) (text : List Char) : Except Failure Regex := do
  let found ← alternatives (2 * text.length + 2) true true mode {} text
  let known := found.known
  if known.alphabets.contains .ascii && known.alphabets.contains .unicode then
    throw .alphabetClash
  if !found.rest.isEmpty || known.meaningless || known.tested.any (known.opened < ·) then
    throw .badExpression
  return found.mode.parts (found.mode.join found.value)

end FileSelection.Regex
