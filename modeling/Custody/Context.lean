import Custody.Host.Dialogue
import Custody.Version

namespace Custody

/-!
# The host context

Which tables and entries a host provides.  A host may leave out whole tables and single
entries; the library finds out when it needs one.

* `Context` -- the version of the tables and what they hold.
* `Context.require` -- an operation that cannot do without an entry.
* `Context.provides` -- an operation that can.
* `Context.ofTables` and `Context.ofLibrary` -- how a context comes about.
-/

/-- Which tables a host has and which entries they hold. -/
structure Context where
  version : Int
  hasTable : Kind → Bool
  hasEntry : Entry → Bool

namespace Context

/-- Whether the entry can be called: its table is there and holds it. -/
def provides (ctx : Context) (e : Entry) : Bool := ctx.hasTable e.table && ctx.hasEntry e

/-- The table of a kind, for an operation that cannot do without it. -/
def requireTable (ctx : Context) (k : Kind) : Except Error Unit :=
  if ctx.hasTable k then .ok () else .error .hostUnavailable

/-- The entry, for an operation that cannot do without it.  A missing table is reported before
    a missing entry. -/
def require (ctx : Context) (e : Entry) : Except Error Unit := do
  ctx.requireTable e.table
  if ctx.hasEntry e then .ok () else .error (.missingFunction e.table e.function)

/-- The kinds that the host supports. -/
def available (ctx : Context) : List Kind := Kind.all.filter ctx.hasTable

/-- The context as it is shown in reports. -/
def shown (ctx : Context) : String :=
  s!"HostContext \x7b version: {ctx.version}, supported: [" ++
    ", ".intercalate (ctx.available.map Kind.name) ++ "] \x7d"

/-- A context over tables that the caller collected.  It has the version of the library. -/
def ofTables (hasTable : Kind → Bool) (hasEntry : Entry → Bool) : Dialogue Context := do
  .tell (.opened (Kind.all.map fun k => (k, hasTable k)))
  return ⟨Version.tables, hasTable, hasEntry⟩

/-- The host's own description of itself: the version of its tables, and the tables. -/
structure Library where
  version : Int
  hasTable : Kind → Bool
  hasEntry : Entry → Bool

/-- A context over the description that a host gave of itself.  Without a description there is
    no context, and neither is there one over tables of another version. -/
def ofLibrary : Option Library → Attempt Context
  | none => throw .hostUnavailable
  | some library => do
    if library.version ≠ Version.tables then
      throw (.versionMismatch Version.tables library.version)
    ofTables library.hasTable library.hasEntry

/-- An operation that can go without an entry calls it just where one that cannot would find it. -/
theorem provides_iff {ctx : Context} {e : Entry} :
    ctx.provides e = true ↔ ctx.require e = .ok () := by
  cases ht : ctx.hasTable e.table <;> cases he : ctx.hasEntry e <;>
    simp [provides, require, requireTable, ht, he, bind, Except.bind]

end Context

end Custody
