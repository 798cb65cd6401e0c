import ModelSql.Table.Build
/-!
# Sharing tables

A cache holds the tables built so far, each under its model's key, its engine and
the override of its name, and answers a second request with the table of the
first. A request under the key of another model is refused. A build that fails
leaves the cache as it was.

A request looks its key up, builds the table if there is none, and publishes it.
Between the two the cache may have got a table under the key, so publishing looks
the key up again, and the table that came first stays.
-/

namespace ModelSql

structure CacheKey where
  model : String
  engine : Engine
  tableName : Option String
deriving DecidableEq, Repr

/-- A table with the model it was built from. -/
structure CacheEntry where
  key : CacheKey
  model : Model
  table : Table
deriving DecidableEq, Repr

/-- Tables in the order in which they were built, all with the same settings. -/
structure Cache where
  settings : Settings := {}
  entries : List CacheEntry := []
deriving DecidableEq, Repr

structure CacheRequest where
  model : Model
  engine : Engine
  tableName : Option String := none
deriving DecidableEq, Repr

def CacheRequest.key (r : CacheRequest) : CacheKey :=
  ⟨r.model.cacheKey, r.engine, r.tableName⟩

/-- A table of a cache, and its place there, by which two answers are known to be one object. -/
structure CachedTable where
  place : Nat
  table : Table
deriving DecidableEq, Repr

namespace Cache

/-- The place and the entry of a key. -/
def find? (c : Cache) (key : CacheKey) : Option (Nat × CacheEntry) :=
  (c.entries.findIdx? (·.key = key)).bind fun place =>
    (c.entries[place]?).map fun entry => (place, entry)

def size (c : Cache) : Nat := c.entries.length

def isEmpty (c : Cache) : Bool := c.entries.isEmpty

/-- The answer to a request whose key is held: the table, if it is one of the same model. -/
def lookup? (c : Cache) (r : CacheRequest) : Option (Except Fault CachedTable) :=
  (c.find? r.key).map fun (place, entry) =>
    if entry.model = r.model then .ok ⟨place, entry.table⟩
    else .error (.conflictingModelKey r.key.model)

/-- Keeps the table that was built for a request, unless its key is held by now, and answers
the request with what is held. -/
def publish (c : Cache) (r : CacheRequest) (table : Table) : Except Fault CachedTable × Cache :=
  match c.lookup? r with
  | some answer => (answer, c)
  | none =>
    (.ok ⟨c.entries.length, table⟩,
      { c with entries := c.entries ++ [⟨r.key, r.model, table⟩] })

/-- Answers a request from the cache, or builds the table and publishes it. -/
def request (c : Cache) (r : CacheRequest) : Except Fault CachedTable × Cache :=
  match c.lookup? r with
  | some answer => (answer, c)
  | none =>
    match r.model.build r.engine r.tableName c.settings with
    | .error fault => (.error fault, c)
    | .ok table => c.publish r table

/-- Answers the requests one after the other. -/
def run (c : Cache) : List CacheRequest → List (Except Fault CachedTable) × Cache
  | [] => ([], c)
  | r :: rest =>
    let (answer, c) := c.request r
    let (answers, c) := c.run rest
    (answer :: answers, c)

end Cache

end ModelSql
