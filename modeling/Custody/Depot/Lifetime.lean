import Custody.Depot

namespace Custody.Depot

/-!
# Releasing and copying

A data store keeps the containers pushed into it, and a sparse array its two tensors, so
releasing one releases what it holds and copying one copies what it holds.

* `retire` -- releases a resource and everything it holds, in the order of the stores' contents.
* `duplicate` -- copies a resource; what a store holds is copied before the store itself.
* `disown` -- gives up one share.
-/

/-! ### Releasing -/

/-- Marks a resource and the tensors inside it as no longer alive.  Its contents are no longer
    its own. -/
def bury (d : Depot) (h : Handle) (r : Resource) : Depot :=
  r.memberHandles.foldl (fun d m => d.modify m fun r => { r with alive := false })
    (d.modify h fun r => { r with alive := false, children := [] })

/-- Releases the resources of a queue.  The contents of a store come before what stands behind
    the store in the queue. -/
def sweep : Nat → List Handle → Depot → Depot
  | 0, _, d => d
  | _, [], d => d
  | fuel + 1, h :: queue, d =>
    match d.live? h with
    | none => sweep fuel queue (d.use "delete with store" h)
    | some r => sweep fuel (r.children ++ queue) (d.bury h r)

/-- The number of containers held in stores.  Each step of a sweep takes one handle off the
    queue or moves handles from a store to it, so this many steps and one for each handle in the
    queue are enough. -/
def childCount (d : Depot) : Nat := (d.resources.flatMap (·.children)).length

/-- Releases a resource and everything it holds. -/
def retire (d : Depot) (operation : String) (h : Handle) : Depot :=
  match d.live? h with
  | none => d.use operation h
  | some r => sweep (d.childCount + 1) r.children (d.bury h r)

/-- Gives up one share of a resource that has one. -/
def disown (d : Depot) (h : Handle) : Depot :=
  match d.live? h with
  | none => d.use "disown" h
  | some r =>
    if 0 < r.shareCount then d.modify h fun r => { r with shareCount := r.shareCount - 1 }
    else d.note "disown" .unshared h

/-! ### Copying -/

/-- Copies a resource and everything it holds, down to `fuel` levels of stores.  What is not
    alive is noted and left out.  The copy is not shared with anyone. -/
def duplicateTo (operation : String) : Nat → Handle → Depot → Option Handle × Depot
  | 0, _, d => (none, d)
  | fuel + 1, h, d =>
    match d.live? h with
    | none => (none, d.use operation h)
    | some r =>
      if r.kind = .sparseArray then
        let (copy, d) := d.allocSparse r.typeCode r.dims
        (some copy, d)
      else
        let (children, d) := r.children.foldl
          (fun (copies, d) child =>
            let (copy, d) := duplicateTo operation fuel child d
            (copies ++ copy.toList, d))
          ([], d)
        let (copy, d) := d.alloc { r with shareCount := 0, children }
        (some copy, d)

/-- Copies a resource and everything it holds.  Stores do not contain themselves, so there are
    no more levels than resources. -/
def duplicate (d : Depot) (operation : String) (h : Handle) : Option Handle × Depot :=
  duplicateTo operation (d.resources.length + 1) h d

end Custody.Depot
