import FileSelection.Text.Quoted
import FileSelection.Text.Split

/-!
# Option grammar

How the words of a command line are read against a list of options.  A long option may be shortened
as long as it stays unique and may carry its argument after `=`; short options may be joined, the
last one with its argument.  One word that is no option is the operand.  After the word `--` no word
is an option, and that word is dropped from the arguments of an option as well.

Reading goes from left to right, and the first fault ends it.
-/

namespace FileSelection.CommandLine

variable {κ : Type}

structure OptionRule (κ : Type) where
  key : κ
  /-- The spellings, with their hyphens. -/
  names : List String
  takesArgument : Bool
  /-- The permitted arguments; none means that every argument is permitted. -/
  choices : List String
  /-- Options of one group exclude each other. -/
  group : Option Nat

namespace OptionRule

def shown (rule : OptionRule κ) : String := "/".intercalate rule.names

end OptionRule

inductive UsageError where
  | ambiguous (word : String) (candidates : List String)
  | missingArgument (option : String)
  | superfluousArgument (option argument : String)
  | badChoice (option argument : String) (choices : List String)
  | excluded (option other : String)
  | unrecognised (words : List String)
  deriving DecidableEq, Repr

namespace UsageError

def message : UsageError → String
  | .ambiguous word candidates =>
      let list := ", ".intercalate candidates
      s!"ambiguous option: {word} could match {list}"
  | .missingArgument option => s!"argument {option}: expected one argument"
  | .superfluousArgument option argument =>
      s!"argument {option}: ignored explicit argument {Text.quoted argument}"
  | .badChoice option argument choices =>
      let list := ", ".intercalate (choices.map Text.quoted)
      s!"argument {option}: invalid choice: {Text.quoted argument} (choose from {list})"
  | .excluded option other => s!"argument {option}: not allowed with argument {other}"
  | .unrecognised words =>
      let list := " ".intercalate words
      s!"unrecognized arguments: {list}"

end UsageError

/-! ## Words -/

/-- A word read as an option: its rule if there is one, the spelling that was meant, and the
argument within the word. -/
structure Reading (κ : Type) where
  rule : Option (OptionRule κ)
  name : String
  argument : Option String

inductive Word (κ : Type) where
  /-- The word `--`. -/
  | divider
  | text (text : String)
  | option (whole : String) (reading : Reading κ)

def spellings (rules : List (OptionRule κ)) : List (String × OptionRule κ) :=
  rules.flatMap fun rule => rule.names.map fun name => (name, rule)

def cutAtEquals? (word : List Char) : Option (String × String) :=
  match word.span (· != '=') with
  | (name, _ :: argument) => some (String.ofList name, String.ofList argument)
  | (_, []) => none

def candidates (rules : List (OptionRule κ)) (word : String) : List (Reading κ) :=
  match word.toList with
  | '-' :: '-' :: _ =>
      let (start, argument) := match cutAtEquals? word.toList with
        | some (name, argument) => (name, some argument)
        | none => (word, none)
      ((spellings rules).filter fun (name, _) => start.toList.isPrefixOf name.toList).map
        fun (name, rule) => ⟨some rule, name, argument⟩
  | '-' :: c :: rest =>
      (spellings rules).filterMap fun (name, rule) =>
        if name == String.ofList ['-', c] then
          some ⟨some rule, name, some (String.ofList rest)⟩
        else if word.toList.isPrefixOf name.toList then some ⟨some rule, name, none⟩
        else none
  | _ => []

def withoutLineEnd (text : List Char) : List Char :=
  if text.getLast? == some '\n' then text.dropLast else text

def isNegativeNumber (isDigit : Char → Bool) (word : List Char) : Bool :=
  match withoutLineEnd word with
  | '-' :: rest =>
      let fraction := rest.dropWhile isDigit
      (!rest.isEmpty && fraction.isEmpty) ||
        match fraction with
        | '.' :: digits => !digits.isEmpty && digits.all isDigit
        | _ => false
  | _ => false

def classify (isDigit : Char → Bool) (rules : List (OptionRule κ)) (word : String) :
    Except UsageError (Word κ) :=
  match word.toList with
  | [] | ['-'] => .ok (.text word)
  | '-' :: _ =>
      match (spellings rules).lookup word with
      | some rule => .ok (.option word ⟨some rule, word, none⟩)
      | none =>
          let exact := (cutAtEquals? word.toList).bind fun (name, argument) =>
            ((spellings rules).lookup name).map fun rule =>
              (⟨some rule, name, some argument⟩ : Reading κ)
          match exact, candidates rules word with
          | some reading, _ => .ok (.option word reading)
          | none, [reading] => .ok (.option word reading)
          | none, [] =>
              if isNegativeNumber isDigit word.toList || word.toList.contains ' ' then
                .ok (.text word)
              else .ok (.option word ⟨none, word, none⟩)
          | none, several => .error (.ambiguous word (several.map (·.name)))
  | _ => .ok (.text word)

def classifyAll (isDigit : Char → Bool) (rules : List (OptionRule κ)) :
    List String → Except UsageError (List (Word κ))
  | [] => .ok []
  | word :: words =>
      if word == "--" then .ok (.divider :: words.map .text)
      else do
        let first ← classify isDigit rules word
        let rest ← classifyAll isDigit rules words
        return first :: rest

/-! ## Sentences -/

inductive Argument where
  | text (word : String)
  /-- The word `--` stands in the place of the argument, where it is dropped. -/
  | nothing
  deriving DecidableEq, Repr

namespace Argument

def text? : Argument → Option String
  | .text word => some word
  | .nothing => none

def ofText (word : String) : Argument := if word == "--" then .nothing else .text word

end Argument

structure Sentence (κ : Type) where
  /-- The options in their order, with their arguments. -/
  options : List (OptionRule κ × Option Argument)
  /-- Whether the place of the operand is taken; the operand itself may be absent. -/
  operand : Option (Option String)
  unrecognised : List String

namespace Sentence

def start : Sentence κ := ⟨[], none, []⟩

def reject (sentence : Sentence κ) (words : List String) : Sentence κ :=
  { sentence with unrecognised := sentence.unrecognised ++ words }

end Sentence

inductive Stop (κ : Type) where
  | fault (error : UsageError)
  /-- An option that ends the reading, with what was read before. -/
  | halt (key : κ)

def take (halts : κ → Bool) (sentence : Sentence κ) (rule : OptionRule κ)
    (argument : Option Argument) : Except (Stop κ) (Sentence κ) := do
  if let some (.text text) := argument then
    if !rule.choices.isEmpty && !rule.choices.contains text then
      throw (.fault (.badChoice rule.shown text rule.choices))
  if rule.group.isSome then
    if let some (other, _) := sentence.options.find? fun (other, _) =>
        other.group == rule.group && other.shown != rule.shown then
      throw (.fault (.excluded rule.shown other.shown))
  if halts rule.key then throw (.halt rule.key)
  return { sentence with options := sentence.options ++ [(rule, argument)] }

def takeAll (halts : κ → Bool) :
    Sentence κ → List (OptionRule κ × Option Argument) → Except (Stop κ) (Sentence κ)
  | sentence, [] => .ok sentence
  | sentence, (rule, argument) :: more => do
      takeAll halts (← take halts sentence rule argument) more

/-- The options of one word: those that are complete, and the one that waits for the next word. -/
structure Cluster (κ : Type) where
  complete : List (OptionRule κ × Option Argument)
  waiting : Option (OptionRule κ)

namespace Cluster

def bare (rule : OptionRule κ) : Cluster κ :=
  if rule.takesArgument then ⟨[], some rule⟩ else ⟨[(rule, none)], none⟩

def withArgument (rule : OptionRule κ) (text : String) : Cluster κ :=
  ⟨[(rule, some (.ofText text))], none⟩

def joined (rules : List (OptionRule κ)) :
    OptionRule κ → List Char → Except UsageError (Cluster κ)
  | rule, [] => .ok (bare rule)
  | rule, c :: rest =>
      if rule.takesArgument then .ok (withArgument rule (String.ofList (c :: rest)))
      else
        match (spellings rules).lookup (String.ofList ['-', c]) with
        | none => .error (.superfluousArgument rule.shown (String.ofList (c :: rest)))
        | some next => do
            let found ← joined rules next rest
            return { found with complete := (rule, none) :: found.complete }

def ofReading (rules : List (OptionRule κ)) (rule : OptionRule κ) (name : String) :
    Option String → Except UsageError (Cluster κ)
  | none => .ok (bare rule)
  | some text =>
      if rule.takesArgument then .ok (withArgument rule text)
      else if text.isEmpty || ['-', '-'].isPrefixOf name.toList then
        .error (.superfluousArgument rule.shown text)
      else joined rules rule text.toList

end Cluster

def Word.spelling : Word κ → String
  | .divider => "--"
  | .text word => word
  | .option whole _ => whole

def Word.isOption : Word κ → Bool
  | .option _ _ => true
  | _ => false

def readTail (sentence : Sentence κ) (words : List (Word κ)) : Sentence κ :=
  if sentence.operand.isSome then sentence.reject (words.map Word.spelling)
  else
    let words := match words with
      | .divider :: words => words
      | words => words
    let (operand, words) := match words with
      | .text text :: words => (some text, words)
      | words => (none, words)
    let words := match words with
      | .divider :: words => words
      | words => words
    { sentence with operand := some operand }.reject (words.map Word.spelling)

def readWords (halts : κ → Bool) (rules : List (OptionRule κ)) :
    Sentence κ → List (Word κ) → Except (Stop κ) (Sentence κ)
  | sentence, [] => .ok (readTail sentence [])
  | sentence, .option whole reading :: words =>
      match reading.rule with
      | none => readWords halts rules (sentence.reject [whole]) words
      | some rule =>
          match Cluster.ofReading rules rule reading.name reading.argument with
          | .error error => .error (.fault error)
          | .ok found =>
              match found.waiting, words with
              | none, words => do
                  readWords halts rules (← takeAll halts sentence found.complete) words
              | some last, .text argument :: words => do
                  let found := found.complete ++ [(last, some (.ofText argument))]
                  readWords halts rules (← takeAll halts sentence found) words
              | some last, _ => .error (.fault (.missingArgument last.shown))
  | sentence, word :: words =>
      if words.any Word.isOption then
        if sentence.operand.isNone then
          readWords halts rules { sentence with operand := some (some word.spelling) } words
        else readWords halts rules (sentence.reject [word.spelling]) words
      else .ok (readTail sentence (word :: words))

/-- Reads a command line.  A word without a place is a fault that is found last. -/
def read (isDigit : Char → Bool) (halts : κ → Bool) (rules : List (OptionRule κ))
    (words : List String) : Except (Stop κ) (Sentence κ) :=
  match classifyAll isDigit rules words with
  | .error error => .error (.fault error)
  | .ok words =>
      match readWords halts rules .start words with
      | .error stop => .error stop
      | .ok sentence =>
          if sentence.unrecognised.isEmpty then .ok sentence
          else .error (.fault (.unrecognised sentence.unrecognised))

end FileSelection.CommandLine
