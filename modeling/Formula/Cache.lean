import Formula.Fault

/-!
# Caches

A cache keeps the latest texts with what was made of them, the one that was used longest ago first, and counts how often
a text was found. When it holds more than its capacity, the entries used longest ago are dropped.
-/

namespace Formula

/-- The texts that were used last, with what was made of them. -/
structure Cache (α : Type) where
  /-- The entry used longest ago comes first. -/
  entries : List (String × α)
  hits : Nat
  misses : Nat
  /-- The greatest number of entries; without one, or with zero, there is no limit. -/
  capacity : Option Int

namespace Cache

variable {α : Type}

/-- A cache without entries. -/
def empty (capacity : Option Int) : Cache α := ⟨[], 0, 0, capacity⟩

/-- The texts in the cache, the one used longest ago first. -/
def keys (cache : Cache α) : List String := cache.entries.map Prod.fst

/-- What was made of a text. -/
def find? (cache : Cache α) (text : String) : Option α := cache.entries.lookup text

/-- Counts a text that was found, and makes its entry the last. -/
def touch (cache : Cache α) (text : String) (made : α) : Cache α :=
  { cache with entries := cache.entries.filter (·.1 != text) ++ [(text, made)], hits := cache.hits + 1 }

/-- Counts a text that was not found. -/
def countMiss (cache : Cache α) : Cache α := { cache with misses := cache.misses + 1 }

/-- The latest entries that a capacity allows. -/
def latest (capacity : Nat) (entries : List (String × α)) : List (String × α) :=
  entries.drop (entries.length - capacity)

/-- Adds what was made of a text that was not found. No number of entries is below a negative capacity: then all of them
are dropped, and one more is asked for. -/
def store (cache : Cache α) (text : String) (made : α) : Except Fault Unit × Cache α :=
  let entries := cache.entries ++ [(text, made)]
  match cache.capacity with
  | none => (.ok (), { cache with entries := entries })
  | some capacity =>
    if capacity < 0 then (.error .cacheEmpty, { cache with entries := [] })
    else if capacity = 0 then (.ok (), { cache with entries := entries })
    else (.ok (), { cache with entries := latest capacity.toNat entries })

/-- Drops all entries and forgets the counts. -/
def clear (cache : Cache α) : Cache α := .empty cache.capacity

end Cache

end Formula
