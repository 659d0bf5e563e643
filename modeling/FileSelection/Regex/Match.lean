import FileSelection.Regex.Syntax
import FileSelection.Regex.Ways

/-!
# Matching

`Regex.run` moves places in a text through an expression.  It gives the places where a match can
end in the order in which they are tried: an earlier alternative before a later one, a longer run
before a shorter one unless the repetition is reluctant.  A place that is reached twice is kept
where it comes first, which keeps the work polynomial.
-/

namespace FileSelection.Regex

open FileSelection.Text

structure Place where
  pos : Nat
  groups : List (Nat × Nat × Nat)
  deriving DecidableEq, Hashable, Repr

def Place.start : Place := ⟨0, []⟩

def Place.record (place : Place) (index first : Nat) : Place :=
  { place with groups := (index, first, place.pos) :: place.groups.filter (·.1 != index) }

def isWordAt (alphabet : Alphabet) (text : Array Char) (pos : Nat) : Bool :=
  text[pos]?.elim false alphabet.isWord

def isWordEdge (alphabet : Alphabet) (text : Array Char) (pos : Nat) : Bool :=
  (pos != 0 && isWordAt alphabet text (pos - 1)) != isWordAt alphabet text pos

def Anchor.holds (text : Array Char) (pos : Nat) : Anchor → Bool
  | .textStart => pos == 0
  | .lineStart => pos == 0 || text[pos - 1]? == some '\n'
  | .textEnd => pos == text.size
  | .lastLineEnd => pos == text.size || (pos + 1 == text.size && text[pos]? == some '\n')
  | .lineEnd => pos == text.size || text[pos]? == some '\n'
  | .wordEdge alphabet => isWordEdge alphabet text pos
  | .notWordEdge alphabet => !text.isEmpty && !isWordEdge alphabet text pos

/-! ## Characters -/

def step? (text : Array Char) (set : CharSet) (place : Place) : Option Place :=
  match text[place.pos]? with
  | some c => if set.has c then some { place with pos := place.pos + 1 } else none
  | none => none

def skip? (text : Array Char) (set : CharSet) : Nat → Place → Option Place
  | 0, place => some place
  | count + 1, place => (step? text set place).bind (skip? text set count)

/-- The places after fewer than `room` characters of `set`, the farthest first, up to one that is
known.  They come before `found`. -/
def farthestFirst (text : Array Char) (set : CharSet) (known : Std.HashSet Place) :
    Nat → Place → List Place → List Place
  | 0, _, found => found
  | room + 1, place, found =>
      if known.contains place then found
      else
        match step? text set place with
        | some next => farthestFirst text set known room next (place :: found)
        | none => place :: found

def nearestFirst (text : Array Char) (set : CharSet) (known : Std.HashSet Place) :
    Nat → Place → Ways Place
  | 0, _ => .nil
  | room + 1, place =>
      if known.contains place then .nil
      else
        .cons place fun _ =>
          match step? text set place with
          | some next => nearestFirst text set known room next
          | none => .nil

/-- The ends of the runs of `set` that start at places, without a limit on their lengths.  From a
known end on, all further ends are known.  The ends in `fresh` are known as well. -/
def unlimitedFrom (text : Array Char) (set : CharSet) (least : Nat) (reluctant : Bool) :
    Std.HashSet Place → List Place → Ways Place → Ways Place
  | _, _, .nil => .nil
  | known, fresh, .cons place others =>
      let known := fresh.foldl .insert known
      match skip? text set least place with
      | none => unlimitedFrom text set least reluctant known [] (others ())
      | some start =>
          let room := text.size + 1 - start.pos
          if reluctant then
            (nearestFirst text set known room start).append fun _ =>
              unlimitedFrom text set least reluctant known
                (farthestFirst text set known room start []) (others ())
          else
            let ends := farthestFirst text set known room start []
            (Ways.ofList ends).append fun _ =>
              unlimitedFrom text set least reluctant known ends (others ())

def limitedFrom (text : Array Char) (set : CharSet) (least most : Nat) (reluctant : Bool)
    (place : Place) : Ways Place :=
  if most < least then .nil
  else
    match skip? text set least place with
    | none => .nil
    | some start =>
        let room := most - least + 1
        if reluctant then nearestFirst text set ∅ room start
        else .ofList (farthestFirst text set ∅ room start [])

def manyFrom (text : Array Char) (set : CharSet) (times : Repeat) (places : Ways Place) :
    Ways Place :=
  match times.most.filter (· < text.size) with
  | none => unlimitedFrom text set times.least times.reluctant ∅ [] places
  | some most =>
      (places.flatMap (limitedFrom text set times.least most times.reluctant)).distinct

/-! ## Rounds -/

/-- The places that have been visited, with the number of rounds left there if there is a limit. -/
abbrev Visits := Std.HashSet (Nat × Place)

/-- Goes on from each of the places that a round leads to.  A round that consumes nothing is the
last one.  `others` gives the ways after these. -/
def followAll (follow : Visits → Place → (Visits → Ways Place) → Ways Place) (origin : Nat)
    (others : Visits → Ways Place) : Ways Place → Visits → Ways Place
  | .nil, visits => others visits
  | .cons next rest, visits =>
      if next.pos = origin then
        .cons next fun _ => followAll follow origin others (rest ()) visits
      else follow visits next fun visits => followAll follow origin others (rest ()) visits

def follow (body : Place → Ways Place) (reluctant limited : Bool) :
    Nat → Visits → Place → (Visits → Ways Place) → Ways Place
  | 0, visits, place, others => .cons place fun _ => others visits
  | left + 1, visits, place, others =>
      let visit := (if limited then left + 1 else 0, place)
      if visits.contains visit then others visits
      else
        let visits := visits.insert visit
        let go := followAll (follow body reluctant limited left) place.pos
        if reluctant then .cons place fun _ => go others (body place) visits
        else go (fun visits => .cons place fun _ => others visits) (body place) visits

def followFrom (body : Place → Ways Place) (reluctant limited : Bool) (rounds : Nat) :
    Ways Place → Visits → Ways Place
  | .nil, _ => .nil
  | .cons place others, visits =>
      follow body reluctant limited rounds visits place fun visits =>
        followFrom body reluctant limited rounds (others ()) visits

/-- Where further rounds after the least number of them can end.  Every round but the last one
consumes something, so that a limit beyond the length of the text is none. -/
def roundsFrom (text : Array Char) (body : Place → Ways Place) (times : Repeat)
    (places : Ways Place) : Ways Place :=
  let ends := match (times.most.map (· - times.least)).filter (· ≤ text.size) with
    | none => followFrom body times.reluctant false (text.size + 1) places ∅
    | some further => followFrom body times.reluctant true further places ∅
  ends.distinct

def roundsAfter (body : Ways Place → Ways Place) : Nat → List Place → List Place
  | 0, places => places
  | count + 1, places =>
      let next := (body (.ofList places)).toList
      if next.isEmpty || next == places then next else roundsAfter body count next

def leastRounds (body : Ways Place → Ways Place) : Nat → Ways Place → Ways Place
  | 0, places => places
  | 1, places => body places
  | count + 2, places =>
      ((body places).flatMap fun place => .ofList (roundsAfter body (count + 1) [place])).distinct

/-! ## Expressions -/

def againFrom? (text : Array Char) (index : Nat) (lowered : Option Alphabet) (place : Place) :
    Option Place :=
  match place.groups.lookup index with
  | none => none
  | some (first, last) =>
      let form (c : Char) := lowered.elim c.toNat fun alphabet => alphabet.lower c.toNat
      let wanted := (text.extract first last).map form
      let found := (text.extract place.pos (place.pos + (last - first))).map form
      if wanted == found then some { place with pos := place.pos + (last - first) } else none

/-- All places where a match that starts at one of `places` can end, in the order of preference. -/
def run (text : Array Char) (kept : Nat → Bool) : Regex → Ways Place → Ways Place
  | .empty, places => places
  | .one set, places => places.filterMap (step? text set)
  | .anchor edge, places => places.filter fun place => edge.holds text place.pos
  | .seq first second, places => run text kept second (run text kept first places)
  | .alt first second, places =>
      (places.flatMap fun place =>
        (run text kept first (.single place)).append fun _ =>
          run text kept second (.single place)).distinct
  | .many set times, places => manyFrom text set times places
  | .rounds body times, places =>
      roundsFrom text (fun place => run text kept body (.single place)) times
        (leastRounds (run text kept body) times.least places)
  | .group index body, places =>
      if kept index then
        (places.flatMap fun place =>
          (run text kept body (.single place)).map (·.record index place.pos)).distinct
      else run text kept body places
  | .again index lowered, places => places.filterMap (againFrom? text index lowered)
  | .given index matched unmatched, places =>
      (places.flatMap fun place =>
        if (place.groups.lookup index).isSome then run text kept matched (.single place)
        else run text kept unmatched (.single place)).distinct
  | .ahead true body, places =>
      places.filterMap fun place =>
        (run text kept body (.single place)).first?.map fun next => { next with pos := place.pos }
  | .ahead false body, places =>
      places.filter fun place => (run text kept body (.single place)).isEmpty
  | .behind true length body, places =>
      places.filterMap fun place =>
        if place.pos < length then none
        else
          (run text kept body (.single { place with pos := place.pos - length })).first?.map
            fun next => { next with pos := place.pos }
  | .behind false length body, places =>
      places.filter fun place =>
        place.pos < length ||
          (run text kept body (.single { place with pos := place.pos - length })).isEmpty
  | .atomic body, places =>
      (places.filterMap fun place => (run text kept body (.single place)).first?).distinct

def matchesAll (regex : Regex) (text : List Char) : Bool :=
  let text := text.toArray
  (run text regex.references.contains regex (.single .start)).any (·.pos == text.size)

/-- The preferred match among those that start first, with the groups that `kept` names. -/
def search? (regex : Regex) (kept : Nat → Bool) (text : List Char) : Option Place :=
  let text := text.toArray
  (List.range (text.size + 1)).findSome? fun start =>
    (run text kept regex (.single ⟨start, []⟩)).first?

end FileSelection.Regex
