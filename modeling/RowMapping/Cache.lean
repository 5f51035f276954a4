import RowMapping.Materialize.Build
import RowMapping.Shape

/-!
# The cache of row functions

Building a row function is done once for each row type and shape.  An entry is kept under the row
type, the signature of the shape, the range and whether rows may be missing; it is used again only
if its shape is that of the columns, so equal signatures of different shapes do no harm.  Handlers
are read when a function is built and not watched afterwards.
-/

namespace RowMapping

/-- A collection of row types, each given by a code. -/
class RowTypes (κ : Type) where
  /-- The objects of a type. -/
  Object : κ → Type
  /-- How they are made of columns. -/
  layout : (k : κ) → Layout (Object k)
  /-- The name of a type. -/
  name : κ → String

export RowTypes (Object)

/-- What an entry is kept under. -/
structure CacheKey (κ : Type) where
  /-- The row type. -/
  type : κ
  /-- The signature of the shape. -/
  signature : UInt64
  /-- The first column. -/
  start : Nat
  /-- The number of columns. -/
  length : Nat
  /-- A row whose first column is null has no object. -/
  firstMissing : Bool
  deriving DecidableEq

variable {κ : Type} [RowTypes κ]

/-- A row function with the shape that it was built for.  It stays usable when its entry is dropped
from the cache. -/
structure Deserializer (k : κ) where
  /-- The number of the entry, in the order of building. -/
  entry : Nat
  /-- The shape that it was built for. -/
  shape : Shape
  /-- Makes the object of a row. -/
  rowFn : RowFn (Object k)

/-- What a cache has done since it was made. -/
structure CacheStats where
  /-- The number of entries. -/
  entries : Nat
  /-- The number of functions built. -/
  builds : Nat
  /-- The number of lookups served by an entry. -/
  hits : Nat
  /-- The number of times that entries were dropped on demand. -/
  purges : Nat
  deriving DecidableEq

/-- Row functions by type and shape. -/
structure Cache (κ : Type) [RowTypes κ] where
  /-- How signatures are computed. -/
  signature : Signature := .hashed
  /-- The handlers that are used for building. -/
  handlers : Handlers := {}
  /-- The entries. -/
  entries : List ((key : CacheKey κ) × Deserializer key.type) := []
  /-- The number of functions built. -/
  builds : Nat := 0
  /-- The number of lookups served by an entry. -/
  hits : Nat := 0
  /-- The number of lookups that each entry ever built has served. -/
  hitCounts : List Nat := []
  /-- The number of times that entries were dropped on demand. -/
  purges : Nat := 0
  /-- The schemas of dynamic rows. -/
  schemas : Schemas := {}

namespace Cache

variable (c : Cache κ)

/-- The number of entries. -/
def size : Nat := c.entries.length

/-- What the cache has done so far. -/
def stats : CacheStats := ⟨c.size, c.builds, c.hits, c.purges⟩

/-- The number of lookups that an entry has served since it was built. -/
def hitsOf {k : κ} (d : Deserializer k) : Nat := c.hitCounts.getD d.entry 0

variable [DecidableEq κ]

/-- The entry under a key. -/
def find? (key : CacheKey κ) :
    List ((key : CacheKey κ) × Deserializer key.type) → Option (Deserializer key.type)
  | [] => none
  | e :: es => if h : e.1 = key then some (h ▸ e.2) else find? key es

/-- The key for a row type and a range of columns. -/
def keyFor (k : κ) (v : RowView) (start length : Nat) (firstMissing : Bool) : CacheKey κ :=
  ⟨k, c.signature firstMissing start (.capture v start length), start, length, firstMissing⟩

/-- The cache with a hit of an entry counted. -/
def countHit {k : κ} (d : Deserializer k) : Cache κ :=
  { c with hits := c.hits + 1, hitCounts := c.hitCounts.modify d.entry (· + 1) }

/-- The cache with an entry put in, in place of one under the same key. -/
def insert (key : CacheKey κ) (d : Deserializer key.type) : Cache κ :=
  { c with
    entries := ⟨key, d⟩ :: c.entries.filter fun e => decide (e.1 ≠ key)
    builds := c.builds + 1
    hitCounts := c.hitCounts ++ [0] }

/-- Builds the row function for a key and keeps it. -/
def build (v : RowView) (key : CacheKey κ) :
    Except Error (Deserializer key.type × Cache κ) := do
  let layout := RowTypes.layout key.type
  let rowFn ← layout.build v c.handlers key.start key.length key.firstMissing c.schemas.next
  let d : Deserializer key.type := ⟨c.hitCounts.length, .capture v key.start key.length, rowFn⟩
  let c := c.insert key d
  if layout.isDynamic then
    return (d, { c with schemas := c.schemas.push (Layout.schemaOf v key.start key.length) })
  else return (d, c)

/-- The row function of a type for a range of columns: the one that is kept for it, or a new one.
If it cannot be built the cache stays as it is. -/
def getOrBuild (k : κ) (v : RowView) (range : ColumnRange) (firstMissing : Bool) :
    Except Error (Deserializer k × Cache κ) := do
  let (start, length) ← range.resolve v.columnCount
  let key := c.keyFor k v start length firstMissing
  match find? key c.entries with
  | some d =>
    if d.shape.isShapeOf v start length then return (d, c.countHit d) else c.build v key
  | none => c.build v key

/-- Drops the entries of one row type, or all of them, and says how many there were. -/
def purge (type? : Option κ) : Nat × Cache κ :=
  let entries :=
    match type? with
    | some k => c.entries.filter fun e => decide (e.1.type ≠ k)
    | none => []
  (c.size - entries.length, { c with entries, purges := c.purges + 1 })

end Cache

/-! ### Texts for a reader -/

/-- The counters as text. -/
def CacheStats.display (s : CacheStats) : String :=
  "CacheStats \x7b entries: " ++ Text.natText s.entries ++ ", builds: " ++ Text.natText s.builds ++
    ", hits: " ++ Text.natText s.hits ++ ", purges: " ++ Text.natText s.purges ++ " \x7d"

/-- The cache as text: its counters. -/
def Cache.display (c : Cache κ) : String :=
  "DeserializerCache \x7b stats: " ++ c.stats.display ++ ", .. \x7d"

/-- A row function as text: its type, the number of columns and the hits of its entry. -/
def Deserializer.display {k : κ} (d : Deserializer k) (hits : Nat) : String :=
  "Deserializer \x7b type: \x22" ++ RowTypes.name k ++ "\x22, columns: " ++
    Text.natText d.shape.columns.length ++ ", hits: " ++ Text.natText hits ++ " \x7d"

end RowMapping
