import Std.Data.HashSet

/-!
# Ways to go on

The ways in which a match can go on, in the order of preference.  Each of them is computed when it
is asked for, so that a match which is found early costs nothing more.  `Ways.toList` is the list of
all ways, and the operations are those of lists.
-/

namespace FileSelection.Regex

inductive Ways (α : Type) where
  | nil
  | cons (first : α) (rest : Unit → Ways α)

namespace Ways

variable {α β : Type}

def toList : Ways α → List α
  | .nil => []
  | .cons first rest => first :: (rest ()).toList

def single (a : α) : Ways α := .cons a fun _ => .nil

def ofList : List α → Ways α
  | [] => .nil
  | a :: rest => .cons a fun _ => ofList rest

def first? : Ways α → Option α
  | .nil => none
  | .cons first _ => some first

def isEmpty (ways : Ways α) : Bool := ways.first?.isNone

def any (p : α → Bool) : Ways α → Bool
  | .nil => false
  | .cons first rest => p first || (rest ()).any p

def append (others : Unit → Ways α) : Ways α → Ways α
  | .nil => others ()
  | .cons first rest => .cons first fun _ => (rest ()).append others

def filterMap (f : α → Option β) : Ways α → Ways β
  | .nil => .nil
  | .cons first rest =>
      match f first with
      | some b => .cons b fun _ => (rest ()).filterMap f
      | none => (rest ()).filterMap f

def filter (p : α → Bool) : Ways α → Ways α := filterMap fun a => if p a then some a else none

def map (f : α → β) : Ways α → Ways β
  | .nil => .nil
  | .cons first rest => .cons (f first) fun _ => (rest ()).map f

def flatMap (f : α → Ways β) : Ways α → Ways β
  | .nil => .nil
  | .cons first rest => (f first).append fun _ => (rest ()).flatMap f

def distinctAfter [BEq α] [Hashable α] (seen : Std.HashSet α) : Ways α → Ways α
  | .nil => .nil
  | .cons first rest =>
      if seen.contains first then (rest ()).distinctAfter seen
      else .cons first fun _ => (rest ()).distinctAfter (seen.insert first)

def distinct [BEq α] [Hashable α] : Ways α → Ways α
  | .nil => .nil
  | .cons first rest =>
      .cons first fun _ => (rest ()).distinctAfter ((∅ : Std.HashSet α).insert first)

/-! ## Lists of ways -/

@[simp] theorem toList_single (a : α) : (single a).toList = [a] := rfl

@[simp] theorem toList_ofList (list : List α) : (ofList list).toList = list := by
  induction list with
  | nil => rfl
  | cons a rest ih => simp [ofList, toList, ih]

theorem any_eq (p : α → Bool) (ways : Ways α) : ways.any p = ways.toList.any p := by
  induction ways with
  | nil => rfl
  | cons first rest ih => simp [any, toList, ih]

theorem first?_eq (ways : Ways α) : ways.first? = ways.toList.head? := by
  cases ways <;> rfl

@[simp] theorem toList_append (others : Unit → Ways α) (ways : Ways α) :
    (ways.append others).toList = ways.toList ++ (others ()).toList := by
  induction ways with
  | nil => rfl
  | cons first rest ih => simp [append, toList, ih]

@[simp] theorem toList_filterMap (f : α → Option β) (ways : Ways α) :
    (ways.filterMap f).toList = ways.toList.filterMap f := by
  induction ways with
  | nil => rfl
  | cons first rest ih =>
      cases h : f first <;> simp [filterMap, toList, h, ih]

@[simp] theorem toList_map (f : α → β) (ways : Ways α) :
    (ways.map f).toList = ways.toList.map f := by
  induction ways with
  | nil => rfl
  | cons first rest ih => simp [map, toList, ih]

@[simp] theorem toList_flatMap (f : α → Ways β) (ways : Ways α) :
    (ways.flatMap f).toList = ways.toList.flatMap fun a => (f a).toList := by
  induction ways with
  | nil => rfl
  | cons first rest ih => simp [flatMap, toList, ih]

end Ways

end FileSelection.Regex
