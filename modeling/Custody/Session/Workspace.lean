import Custody.Container.Accessor

namespace Custody

/-!
# Workspaces

A workspace is what a caller has at hand: containers under variable names, and handles under
names of their own.

* `Holding` -- a container of any kind.
* `Workspace` -- the variables, in the order of their names, and the named handles.
* `Workspace.put`, `Workspace.remove` -- changing a variable without any cleanup.
* `Workspace.assign` -- putting a container into a variable, which lets go of the one there.
* `find?_put`, `find?_remove` -- what a change of a variable does to looking up;
  `put_of_find?` -- putting back what is there changes nothing.
-/

/-- A container of any kind. -/
structure Holding where
  kind : Kind
  container : Container kind
  deriving DecidableEq, Repr

namespace Holding

/-- The holding in short: kind, number of the resource, and tag. -/
def summary (h : Holding) : String :=
  s!"{h.kind.name}#{h.container.handle.number} {h.container.ownership.name}"

/-- Lets go of containers, one after the other. -/
def dropEach (ctx : Context) : List Holding → Dialogue Unit
  | [] => return
  | h :: rest => do
    h.container.cleanup ctx
    dropEach ctx rest

end Holding

/-- The variables of a caller, in the order of their names, and the handles that have names. -/
structure Workspace where
  holdings : List (String × Holding) := []
  handles : List (String × Handle) := []
  deriving DecidableEq, Repr

namespace Workspace

/-- The container in a variable. -/
def find? (w : Workspace) (name : String) : Option Holding := w.holdings.lookup name

/-- Puts a container into a variable: in place of the one that was there, and where the order of the
    names wants it if there was none. -/
def putIn (name : String) (h : Holding) : List (String × Holding) → List (String × Holding)
  | [] => [(name, h)]
  | (other, held) :: rest =>
    if name = other then (name, h) :: rest
    else if name < other ∧ rest.lookup name = none then (name, h) :: (other, held) :: rest
    else (other, held) :: putIn name h rest

/-- The workspace with a container in a variable. -/
def put (w : Workspace) (name : String) (h : Holding) : Workspace :=
  { w with holdings := putIn name h w.holdings }

/-- The workspace without a variable. -/
def remove (w : Workspace) (name : String) : Workspace :=
  { w with holdings := w.holdings.filter fun (other, _) => other != name }

/-- The workspace with a name for a handle, if a name is wanted. -/
def record (w : Workspace) (name : Option String) (h : Handle) : Workspace :=
  match name with
  | none => w
  | some name => { w with handles := (name, h) :: w.handles }

/-- Assigns a container to a variable and lets go of the one that was there. -/
def assign (ctx : Context) (w : Workspace) (name : String) (h : Holding) :
    Dialogue Workspace := do
  if let some old := w.find? name then old.container.cleanup ctx
  return w.put name h

/-- Lets go of all variables, in the order of their names. -/
def dropAll (ctx : Context) (w : Workspace) : Dialogue Workspace := do
  Holding.dropEach ctx (w.holdings.map (·.2))
  return { w with holdings := [] }

/-! ### What a change does to looking up -/

/-- Looking a name up finds the first variable, or goes on behind it. -/
theorem lookup_cons_ite (name first : String) (held : Holding) (rest : List (String × Holding)) :
    ((first, held) :: rest).lookup name = if name = first then some held else rest.lookup name := by
  rw [List.lookup_cons]
  split <;> simp_all

/-- A container that was put in is found, and the others are found as before. -/
theorem lookup_putIn (name other : String) (h : Holding) (held : List (String × Holding)) :
    (putIn name h held).lookup other =
      if other = name then some h else held.lookup other := by
  induction held with
  | nil => simp [putIn, lookup_cons_ite]
  | cons head rest ih =>
    obtain ⟨first, inner⟩ := head
    simp only [putIn]
    split
    · grind [lookup_cons_ite]
    · split <;> grind [lookup_cons_ite]

/-- Putting back what is there changes nothing. -/
theorem putIn_of_lookup {name : String} {h : Holding} {l : List (String × Holding)}
    (hfound : l.lookup name = some h) : putIn name h l = l := by
  induction l with
  | nil => cases hfound
  | cons head rest ih =>
    obtain ⟨first, inner⟩ := head
    rw [lookup_cons_ite] at hfound
    rw [putIn]
    split at hfound
    · next heq =>
      obtain rfl := Option.some.inj hfound
      rw [if_pos heq, heq]
    · next hne =>
      have hlater : ¬(name < first ∧ rest.lookup name = none) := by simp [hfound]
      rw [if_neg hne, if_neg hlater, ih hfound]

/-- Putting back what is in a variable leaves the workspace as it is. -/
theorem put_of_find? {w : Workspace} {name : String} {h : Holding}
    (hfound : w.find? name = some h) : w.put name h = w :=
  congrArg (fun holdings => { w with holdings }) (putIn_of_lookup hfound)

/-- A container is found in the variable it was put into, and nothing else changes. -/
theorem find?_put (w : Workspace) (name other : String) (h : Holding) :
    (w.put name h).find? other = if other = name then some h else w.find? other :=
  lookup_putIn name other h w.holdings

/-- A variable that was taken out is not found, and the others are found as before. -/
theorem lookup_filter_ne (name other : String) (held : List (String × Holding)) :
    (held.filter fun (found, _) => found != name).lookup other =
      if other = name then none else held.lookup other := by
  induction held with
  | nil => simp
  | cons head rest ih =>
    obtain ⟨first, inner⟩ := head
    by_cases gone : first = name <;> simp [gone, lookup_cons_ite, ih] <;> grind

/-- A removed variable is gone, and nothing else changes. -/
theorem find?_remove (w : Workspace) (name other : String) :
    (w.remove name).find? other = if other = name then none else w.find? other :=
  lookup_filter_ne name other w.holdings

end Workspace

end Custody
