/-!
# Entries in key order

Finite maps from texts, kept as lists of pairs whose keys increase by code point. Writing under a
key that is already there replaces its value.
-/

set_option autoImplicit false

namespace TracePipeline

/-- A finite map from texts, as a list of pairs in increasing key order. -/
abbrev Entries (α : Type) := List (String × α)

namespace Entries

variable {α β : Type}

def get? (entries : Entries α) (key : String) : Option α :=
  List.lookup key entries

def contains (entries : Entries α) (key : String) : Bool :=
  (get? entries key).isSome

def keys (entries : Entries α) : List String :=
  entries.map Prod.fst

def values (entries : Entries α) : List α :=
  entries.map Prod.snd

/-- Puts a value under a key, in the place of the one that is there. -/
def insert (key : String) (value : α) : Entries α → Entries α
  | [] => [(key, value)]
  | (k, v) :: rest =>
    if key < k then (key, value) :: (k, v) :: rest
    else if key = k then (key, value) :: rest
    else (k, v) :: insert key value rest

def insertAll (entries : Entries α) (pairs : List (String × α)) : Entries α :=
  pairs.foldl (fun entries (key, value) => entries.insert key value) entries

/-- The map of a list of pairs; of equal keys the last pair stays. -/
def ofPairs (pairs : List (String × α)) : Entries α :=
  insertAll [] pairs

def Sorted (entries : Entries α) : Prop :=
  (keys entries).Pairwise (· < ·)

end Entries

end TracePipeline
