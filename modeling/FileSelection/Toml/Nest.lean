import FileSelection.Keyed
import FileSelection.Settings.Value

/-!
# Nested tables

A document describes tables within tables by the chains of keys that lead to them.  A table that has
been declared under its own header is not declared again, and a list or a table that has been
written out as a value is not extended.
-/

namespace FileSelection.Toml

abbrev Entries := List (String × Value)

/-- Changes the table at the end of a chain of keys; tables that are missing are made.  With
`lists`, a list of tables on the way stands for its last table. -/
def update? (lists : Bool) (change : Entries → Option Entries) :
    List String → Entries → Option Entries
  | [], entries => change entries
  | key :: keys, entries =>
      match entries.lookup key with
      | none => do
          let inner ← update? lists change keys []
          some (Keyed.put key (.table inner) entries)
      | some (.table inner) => do
          let inner ← update? lists change keys inner
          some (Keyed.put key (.table inner) entries)
      | some (.list items) =>
          match lists, items.getLast? with
          | true, some (.table inner) => do
              let inner ← update? lists change keys inner
              some (Keyed.put key (.list (items.dropLast ++ [.table inner])) entries)
          | _, _ => none
      | some _ => none

def addNew? (key : String) (value : Value) (entries : Entries) : Option Entries :=
  if (entries.lookup key).isSome then none else some (Keyed.put key value entries)

def appendTable? (key : String) (entries : Entries) : Option Entries :=
  match entries.lookup key with
  | none => some (Keyed.put key (.list [.table []]) entries)
  | some (.list items) => some (Keyed.put key (.list (items ++ [.table []])) entries)
  | some _ => none

structure Declared where
  /-- Tables that may not be declared any more. -/
  closed : List (List String)
  /-- Tables that may not be declared any more after the next header. -/
  closing : List (List String)
  /-- Values that have been written out. -/
  frozen : List (List String)

namespace Declared

def empty : Declared := ⟨[], [], []⟩

def isClosed (declared : Declared) (keys : List String) : Bool := declared.closed.contains keys

/-- Whether the chain leads to a written-out value or into one. -/
def isFrozen (declared : Declared) (keys : List String) : Bool :=
  declared.frozen.any (·.isPrefixOf keys)

def close (declared : Declared) (keys : List String) : Declared :=
  { declared with closed := keys :: declared.closed }

def freeze (declared : Declared) (keys : List String) : Declared :=
  { declared with frozen := keys :: declared.frozen }

def settle (declared : Declared) : Declared :=
  { declared with closed := declared.closing ++ declared.closed, closing := [] }

def forget (declared : Declared) (keys : List String) : Declared :=
  { declared with
    closed := declared.closed.filter fun chain => !keys.isPrefixOf chain
    frozen := declared.frozen.filter fun chain => !keys.isPrefixOf chain }

end Declared

end FileSelection.Toml
