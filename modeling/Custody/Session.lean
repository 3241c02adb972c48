import Custody.Depot.Host
import Custody.Host.Effect
import Custody.Session.Operation

namespace Custody

/-!
# Sessions

A session is a caller with a workspace and a depot as its host.  Its steps are operations of the
library and things that happen on the side of the host.

* `Setup` -- how the session's context comes about and what the host leaves out.
* `HostOperation` -- what happens on the side of the host.
* `Session` -- context, host and workspace; `Session.step` is one step of it.
* `Session.finish` -- lets go of all variables.
-/

/-- How a context is asked for. -/
inductive Opening where
  /-- From tables that the caller collected. -/
  | tables
  /-- From no tables at all. -/
  | detached
  /-- From the host's own description with this version. -/
  | library (version : Int)
  /-- From a description that is not there. -/
  | nowhere
  deriving DecidableEq, Repr

/-- How a session's context comes about, and the tables and entries that the host leaves out. -/
structure Setup where
  opening : Opening := .tables
  withoutTables : List Kind := []
  withoutEntries : List Entry := []
  deriving DecidableEq, Repr

namespace Setup

/-- Whether the host has a table. -/
def hasTable (s : Setup) (k : Kind) : Bool := !s.withoutTables.contains k

/-- Whether a table of the host holds an entry. -/
def hasEntry (s : Setup) (e : Entry) : Bool := !s.withoutEntries.contains e

/-- Opens the context. -/
def context (s : Setup) : Attempt Context :=
  match s.opening with
  | .tables => liftM (Context.ofTables s.hasTable s.hasEntry)
  | .detached => liftM (Context.ofTables (fun _ => false) s.hasEntry)
  | .library version => Context.ofLibrary (some ⟨version, s.hasTable, s.hasEntry⟩)
  | .nowhere => Context.ofLibrary none

end Setup

/-! ### The side of the host -/

/-- What the host makes on its own account. -/
inductive Stock where
  | tensor (type : Int) (dims : List Int)
  | numericArray (type : Int) (dims : List Int)
  | image (width height channels : Int)
  | sparseArray (type : Int) (dims : List Int)
  | dataStore
  deriving DecidableEq, Repr

/-- What the depot can be asked to fail at. -/
inductive Undertaking where
  | new
  | clone
  | convert
  deriving DecidableEq, Repr

/-- An effect to wait for, whose value may refer to a handle by name. -/
structure EffectRequest where
  code : Int := 0
  value : Option Reference := none
  null : Bool := false
  nullSlot : Bool := false
  late : Bool := false
  deriving DecidableEq, Repr

/-- What happens on the side of the host. -/
inductive HostOperation where
  | alloc (stock : Stock) (shareCount : Option Int) (handleName : Option String)
  | shareCount (handle : Reference)
  | isAlive (handle : Reference)
  | postings (handle : Reference)
  | updateInPlace (on : Bool)
  | fail (undertaking : Undertaking) (code : Int)
  | inject (entry : Entry) (request : EffectRequest)
  deriving DecidableEq, Repr

namespace Depot

/-- Makes a resource on the host's own account. -/
def stock (d : Depot) : Stock → Handle × Depot
  | .tensor type dims => d.alloc { kind := .tensor, typeCode := type, dims }
  | .numericArray type dims => d.alloc { kind := .numericArray, typeCode := type, dims }
  | .image width height channels =>
      d.alloc { kind := .image, typeCode := HostCode.code ImageDataType.byte,
                dims := [height, width], channels, colorSpace := HostCode.code ColorSpace.rgb }
  | .sparseArray type dims => d.allocSparse type dims
  | .dataStore => d.alloc { kind := .dataStore, typeCode := 0, dims := [] }

/-- Sets the number of holders of a resource. -/
def share (d : Depot) (h : Handle) (count : Int) : Depot :=
  d.modify h fun r => { r with shareCount := count }

/-- The number of live resources of a kind. -/
def liveCount (d : Depot) (k : Kind) : Nat :=
  d.resources.countP fun r => r.kind = k && r.alive

/-- The number of holders of a resource, alive or not. -/
def shareCountOf (d : Depot) (h : Handle) : Int := ((d.find? h).map (·.shareCount)).getD 0

/-- The entries of a data store in words, alive or not. -/
def postingsOf (d : Depot) (h : Handle) : List String :=
  ((d.find? h).map fun r => r.postings.map Posting.text).getD []

/-- Asks for a failure. -/
def failNext (d : Depot) (undertaking : Undertaking) (code : Int) : Depot :=
  match undertaking with
  | .new => { d with failNew := some code }
  | .clone => { d with failClone := some code }
  | .convert => { d with failConvert := some code }

end Depot

/-! ### Sessions -/

/-- A caller with a workspace, a context, and a depot as the host. -/
structure Session where
  context : Context
  host : Disturbed Depot := ⟨[], {}⟩
  workspace : Workspace := {}

/-- A step of a session. -/
inductive Step where
  | operation (op : Operation)
  | host (op : HostOperation)
  deriving DecidableEq, Repr

/-- What came of a step: its answer, what happened, and the misuses that were noted. -/
structure Report where
  answer : Except Failure Answer
  trace : List Happening
  violations : List Violation

namespace Session

/-- A session with a depot that holds nothing.  Without a context there is none. -/
def start (setup : Setup) : Except Error Session × List Happening :=
  let opened := setup.context.run.run Depot.host {}
  (opened.value.map fun context => { context }, opened.trace)

/-- The depot of the session. -/
def depot (s : Session) : Depot := s.host.state

/-- The session with another state of its depot. -/
def withDepot (s : Session) (d : Depot) : Session := { s with host := { s.host with state := d } }

/-- What is seen of the handle that is referred to. -/
def see (s : Session) (ref : Reference) (f : Handle → Answer) : Except Failure Answer := do
  return f (← s.workspace.handle ref)

/-- Queues an effect for the next call of an entry. -/
def inject (s : Session) (entry : Entry) (effect : Effect) : Session :=
  { s with host := { s.host with pending := s.host.pending ++ [(entry, effect)] } }

/-- What happens on the side of the host, and its answer. -/
def hostStep (s : Session) : HostOperation → Except Failure Answer × Session
  | .alloc stock shareCount handleName =>
    let (h, d) := s.depot.stock stock
    let d := (shareCount.map (d.share h)).getD d
    let s := s.withDepot d
    (.ok (.handle h), { s with workspace := s.workspace.record handleName h })
  | .shareCount ref => (s.see ref fun h => .count (s.depot.shareCountOf h), s)
  | .isAlive ref => (s.see ref fun h => .flag (s.depot.isAlive h), s)
  | .postings ref => (s.see ref fun h => .texts (s.depot.postingsOf h), s)
  | .updateInPlace on => (.ok .nothing, s.withDepot { s.depot with updatesInPlace := on })
  | .fail undertaking code => (.ok .nothing, s.withDepot (s.depot.failNext undertaking code))
  | .inject entry request =>
    match request.value.mapM s.workspace.number with
    | .error failure => (.error failure, s)
    | .ok value =>
      let { code, null, nullSlot, late, .. } := request
      (.ok .nothing, s.inject entry { code, value, null, nullSlot, late })

/-- An operation of the library, with the depot as its host. -/
def operationStep (s : Session) (op : Operation) : Report × Session :=
  let run := (op.perform s.context s.workspace).run Depot.host.disturbed s.host
  let (answer, workspace) := run.value
  let violations := run.state.state.violations.drop s.depot.violations.length
  (⟨answer, run.trace, violations⟩, { s with host := run.state, workspace })

/-- One step of a session. -/
def step (s : Session) : Step → Report × Session
  | .operation op => s.operationStep op
  | .host op =>
    let (answer, s) := s.hostStep op
    (⟨answer, [], []⟩, s)

/-- Lets go of all variables, in the order of their names. -/
def finish (s : Session) : Report × Session :=
  let run := (s.workspace.dropAll s.context).run Depot.host.disturbed s.host
  let violations := run.state.state.violations.drop s.depot.violations.length
  (⟨.ok .nothing, run.trace, violations⟩, { s with host := run.state, workspace := run.value })

/-- The steps of a session, one after the other. -/
def run (s : Session) : List Step → List Report × Session
  | [] => ([], s)
  | step :: rest =>
    let (report, s) := s.step step
    let (reports, s) := s.run rest
    (report :: reports, s)

end Session

end Custody
