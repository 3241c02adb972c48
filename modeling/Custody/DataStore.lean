import Custody.Container.Reading
import Custody.Text.Terminated

namespace Custody

/-!
# Data stores

A data store is a list of values, named or not.  The host copies plain values into it; a
container is handed over, and the store releases it from then on.

* `DataStore.new`, `DataStore.length`, `DataStore.isEmpty`.
* `Value` -- what can be pushed.
* `DataStore.push` -- appends a value.  A container that does not belong to the caller is
  copied first, and the copy is handed over.
-/

/-- A list of values kept by the host. -/
abbrev DataStore : Type := Container .dataStore

/-- A value that can be pushed to a data store. -/
inductive Value where
  | plain (value : Plain)
  | container (kind : Kind) (container : Container kind)

namespace Value

/-- The type of the value as it is written in messages. -/
def typeName : Value → String
  | plain (.boolean _) => "Boolean"
  | plain (.integer _) => "Integer"
  | plain (.real _) => "Real"
  | plain (.complex ..) => "Complex"
  | plain (.string _) => "String"
  | container kind _ => kind.name

/-- What the value holds, as it is shown in reports. -/
def shownContent : Value → String
  | plain (.boolean b) => toString b
  | plain (.integer n) => toString n
  | plain (.real x) => x.text .report
  | plain (.complex re im) =>
      "MComplex \x7b re: " ++ re.text .report ++ ", im: " ++ im.text .report ++ " \x7d"
  | plain (.string s) => Text.quoted s
  | container _ c => c.shown

/-- The value as it is shown in reports. -/
def shown (v : Value) : String := v.typeName ++ "(" ++ v.shownContent ++ ")"

/-- What happens when a value goes away that was not handed over. -/
def drop (ctx : Context) : Value → Dialogue Unit
  | plain _ => return
  | container _ c => c.cleanup ctx

end Value

/-- Refuses text that the host would cut short. -/
def checkTerminated (text : String) : Except Error Unit :=
  match Text.nulOffset? text.toList with
  | none => .ok ()
  | some offset => .error (.invalidArgument (.nulByte offset))

/-- A container that a store can take over: the container itself if it belongs to the caller,
    otherwise a copy.  Once it is copied, the container itself goes away. -/
def Container.transferable {k : Kind} (ctx : Context) (c : Container k) :
    Dialogue (Except Error (Container k)) := do
  if c.isNull then return .error (.invalidArgument (.emptyValue k))
  if c.ownership = .callerOwned then return .ok c
  .tell (.pushingCopy k c.handle)
  let copy ← (c.tryClone ctx).run
  c.cleanup ctx
  return copy

namespace DataStore

/-- Makes an empty data store, which belongs to the caller. -/
def new (ctx : Context) : Attempt DataStore :=
  Container.obtain ctx .createStore (fun refusal => .newFailed .dataStore refusal.code)
    .createdStore

/-- The number of entries. -/
def length (ctx : Context) (d : DataStore) : Dialogue Int := d.number ctx .length

/-- Whether the store has no entries. -/
def isEmpty (ctx : Context) (d : DataStore) : Dialogue Bool := do
  return (← d.length ctx) == 0

/-- What has to be in order before a value is looked at. -/
def checkPush (ctx : Context) (d : DataStore) (name : Option String) : Except Error Unit := do
  if d.isNull then throw (.invalidArgument .emptyStore)
  if let some name := name then checkTerminated name
  ctx.requireTable .dataStore

/-- Adds a plain value. -/
def addPlain (ctx : Context) (d : DataStore) (name : Option String) (value : Plain) :
    Dialogue (Except Error Unit) := do
  let call : Call := .add d.handle name (.plain value)
  match checkPlain value >>= fun _ => ctx.require call.entry with
  | .error e => return .error e
  | .ok _ =>
    let _ ← Dialogue.ask call
    return .ok ()
where
  /-- The host reads strings up to the first NUL, so one that contains a NUL is refused. -/
  checkPlain : Plain → Except Error Unit
    | .string text => checkTerminated text
    | _ => .ok ()

/-- Hands a container over.  It is given up only once the entry is known to be there;
    otherwise it goes away. -/
def addContainer {k : Kind} (ctx : Context) (d : DataStore) (name : Option String)
    (c : Container k) : Dialogue (Except Error Unit) := do
  match ← c.transferable ctx with
  | .error e => return .error e
  | .ok owned =>
    match ctx.require (.add name.isSome k.tableName) with
    | .error e =>
      owned.cleanup ctx
      return .error e
    | .ok _ =>
      let h ← owned.intoRaw ctx
      let _ ← Dialogue.ask (.add d.handle name (.container k h))
      return .ok ()

/-- Adds a value of either sort. -/
def add (ctx : Context) (d : DataStore) (name : Option String) :
    Value → Dialogue (Except Error Unit)
  | .plain value => addPlain ctx d name value
  | .container _ c => addContainer ctx d name c

/-- Appends a value, named or not.  A container is consumed whether or not this succeeds. -/
def push (ctx : Context) (d : DataStore) (name : Option String) (value : Value) :
    Dialogue (Except Error Unit) := do
  match checkPush ctx d name with
  | .error e =>
    value.drop ctx
    return .error e
  | .ok _ =>
    match ← add ctx d name value with
    | .error e => return .error e
    | .ok _ =>
      .tell (.pushed d.handle name value.typeName)
      return .ok ()

end DataStore

end Custody
