import GraphQuery.Resilience.Breaker

/-! # Results that expire

A cache keeps results under keys for a time. A result that has expired is as good as absent:
looking it up removes it, and storing any result removes all of them.
-/

namespace GraphQuery

/-- A result and the time at which it was stored. -/
structure Stored (Item : Type) where
  since : Float
  item : Item

/-- Results under keys, each for `ttl` milliseconds. -/
structure TimedCache (Item : Type) where
  ttl : Number
  entries : List (String × Stored Item)

namespace TimedCache

variable {Item : Type}

def empty (ttl : Number) : TimedCache Item := ⟨ttl, []⟩

def isExpired (cache : TimedCache Item) (now : Float) (stored : Stored Item) : Bool :=
  hasPassed cache.ttl stored.since now

/-- Looks a key up: the result, if it is live, and the cache after the question. -/
def get? (key : String) (now : Float) (cache : TimedCache Item) :
    Option Item × TimedCache Item :=
  match Assoc.get? key cache.entries with
  | none => (none, cache)
  | some stored =>
    if cache.isExpired now stored then
      (none, { cache with entries := Assoc.erase key cache.entries })
    else (some stored.item, cache)

/-- Removes all results that have expired. -/
def prune (now : Float) (cache : TimedCache Item) : TimedCache Item :=
  { cache with entries := cache.entries.filter fun entry => !cache.isExpired now entry.2 }

def put (key : String) (item : Item) (now : Float) (cache : TimedCache Item) : TimedCache Item :=
  { cache with entries := Assoc.put key ⟨now, item⟩ (cache.prune now).entries }

/-- Looks a key up, with an item to take if there is no live result. -/
def getD (key : String) (absent : Item) (now : Float) (cache : TimedCache Item) :
    Item × TimedCache Item :=
  let (found, after) := cache.get? key now
  (found.getD absent, after)

/-- Asks whether a value is a key with a live result. What is no text is no key. -/
def contains (key : Value) (now : Float) (cache : TimedCache Item) : Bool × TimedCache Item :=
  match key with
  | .text key =>
    let (found, after) := cache.get? key now
    (found.isSome, after)
  | _ => (false, cache)

/-- The number of results, including expired ones that were not removed yet. -/
def size (cache : TimedCache Item) : Nat :=
  cache.entries.length

end TimedCache

end GraphQuery
