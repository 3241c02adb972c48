import Custody.Session.Operation

namespace Custody.Workspace

/-!
# What a caller holds

The variables of a workspace stand in the order of their names, each name once, so changing a
variable changes one holding and no other.

* `held` -- the containers of a workspace, in the order of the variables;
* `Ordered` -- the names of the variables increase; putting and removing keep that so;
* `held_put`, `held_remove` -- the containers after a change;
* `holding_eq_ok` -- what an operation finds in a variable.
-/

/-- The containers in the variables. -/
def held (w : Workspace) : List Holding := w.holdings.map (·.2)

/-- The names of the variables increase. -/
def Ordered (w : Workspace) : Prop := (w.holdings.map (·.1)).Pairwise (· < ·)

/-! ### Sorted lists of variables -/

/-- The variables other than one. -/
abbrev others (name : String) (l : List (String × Holding)) : List (String × Holding) :=
  l.filter fun (other, _) => other != name

/-- A name that stands before all others is none of them. -/
theorem lookup_eq_none_of_lt {name : String} {l : List (String × Holding)}
    (h : ∀ other ∈ l.map (·.1), name < other) : l.lookup name = none := by
  rw [List.lookup_eq_none_iff]
  intro p hp
  have hlt : name < p.1 := h _ (List.mem_map_of_mem hp)
  simpa using fun heq : name = p.1 => String.lt_irrefl name (heq ▸ hlt)

/-- Among names that increase, a new one has its place before the first that is greater. -/
theorem putIn_cons {name found : String} {h inner : Holding} {rest : List (String × Holding)}
    (hl : (((found, inner) :: rest).map (·.1)).Pairwise (· < ·)) :
    putIn name h ((found, inner) :: rest) =
      if name = found then (name, h) :: rest
      else if name < found then (name, h) :: (found, inner) :: rest
      else (found, inner) :: putIn name h rest := by
  rw [putIn]
  by_cases hlt : name < found
  · have hnone : rest.lookup name = none := lookup_eq_none_of_lt fun other hother =>
      String.lt_trans hlt ((List.pairwise_cons.mp hl).1 other hother)
    simp only [hlt, hnone, and_self]
  · simp only [hlt, false_and]

/-- The names after a container was put in are those from before and the one it was put under. -/
theorem name_mem_putIn {name other : String} {h : Holding} {l : List (String × Holding)} :
    other ∈ (putIn name h l).map (·.1) → other = name ∨ other ∈ l.map (·.1) := by
  induction l with
  | nil => simp [putIn]
  | cons first rest ih => grind [putIn]

/-- Putting a container in keeps the names in order. -/
theorem pairwise_putIn {name : String} {h : Holding} {l : List (String × Holding)}
    (hl : (l.map (·.1)).Pairwise (· < ·)) : ((putIn name h l).map (·.1)).Pairwise (· < ·) := by
  induction l with
  | nil => simp [putIn]
  | cons first rest ih =>
    obtain ⟨found, inner⟩ := first
    obtain ⟨hfirst, hrest⟩ := List.pairwise_cons.mp hl
    rw [putIn_cons hl]
    split
    · -- The variable is there and keeps its place.
      next heq => exact List.pairwise_cons.mpr ⟨heq ▸ hfirst, hrest⟩
    · next hne =>
      split
      · next hlt =>
        refine List.pairwise_cons.mpr ⟨fun other hother => ?_, hl⟩
        rcases List.mem_cons.mp hother with rfl | hother
        · exact hlt
        · exact String.lt_trans hlt (hfirst other hother)
      · next hle =>
        have hfound : found < name :=
          String.not_le.mp fun h => hne (String.le_antisymm h (String.not_lt.mp hle))
        refine List.pairwise_cons.mpr ⟨fun other hother => ?_, ih hrest⟩
        rcases name_mem_putIn hother with rfl | hother
        · exact hfound
        · exact hfirst other hother

/-- No other variable has the name of a variable that stands before them all. -/
theorem others_eq_self {name : String} {l : List (String × Holding)}
    (h : ∀ other ∈ l.map (·.1), name < other) : others name l = l := by
  refine List.filter_eq_self.mpr fun p hp => ?_
  have hlt : name < p.1 := h _ (List.mem_map_of_mem hp)
  simpa using fun heq : p.1 = name => String.lt_irrefl name (heq ▸ hlt)

/-- Putting a container into a variable leaves the others alone. -/
theorem putIn_perm {name : String} {h : Holding} {l : List (String × Holding)}
    (hl : (l.map (·.1)).Pairwise (· < ·)) :
    (putIn name h l).Perm ((name, h) :: others name l) := by
  induction l with
  | nil => simp [putIn]
  | cons first rest ih =>
    obtain ⟨found, inner⟩ := first
    obtain ⟨hfirst, hrest⟩ := List.pairwise_cons.mp hl
    rw [putIn_cons hl]
    split
    · next heq =>
      subst heq
      simp [others_eq_self hfirst]
    · next hne =>
      split
      · next hlt =>
        -- The names increase, so a name that stands before the first one is none of them.
        have hall : ∀ other ∈ ((found, inner) :: rest).map (·.1), name < other := by
          simp only [List.map_cons, List.forall_mem_cons]
          exact ⟨hlt, fun other hother => String.lt_trans hlt (hfirst other hother)⟩
        rw [others_eq_self hall]
      · have hkept : others name ((found, inner) :: rest) = (found, inner) :: others name rest := by
          simp [Ne.symm hne]
        rw [hkept]
        exact ((ih hrest).cons _).trans (.swap _ _ _)

/-- The container that is found stands before the others. -/
theorem perm_of_lookup {name : String} {h : Holding} {l : List (String × Holding)}
    (hl : (l.map (·.1)).Pairwise (· < ·)) (hfound : l.lookup name = some h) :
    l.Perm ((name, h) :: others name l) := by
  induction l with
  | nil => simp at hfound
  | cons first rest ih =>
    obtain ⟨found, inner⟩ := first
    obtain ⟨hfirst, hrest⟩ := List.pairwise_cons.mp hl
    rw [lookup_cons_ite] at hfound
    split at hfound
    · next heq =>
      obtain rfl : inner = h := by simpa using hfound
      subst heq
      simp [others_eq_self hfirst]
    · next hne =>
      have hkept : others name ((found, inner) :: rest) = (found, inner) :: others name rest := by
        simp [Ne.symm hne]
      rw [hkept]
      exact ((ih hrest hfound).cons _).trans (.swap _ _ _)

/-- Where there is no such variable, all are others. -/
theorem others_eq_of_lookup_eq_none {name : String} {l : List (String × Holding)}
    (h : l.lookup name = none) : others name l = l := by
  refine List.filter_eq_self.mpr fun p hp => ?_
  simp only [List.lookup_eq_none_iff] at h
  simpa [bne, Bool.beq_comm] using h p hp

/-! ### Workspaces -/

variable {w : Workspace} {name : String} {h : Holding}

/-- A workspace without variables is in order. -/
theorem ordered_empty (handles : List (String × Handle)) : Ordered { handles } := .nil

/-- No two variables have the same name. -/
theorem Ordered.nodup (hw : w.Ordered) : (w.holdings.map (·.1)).Nodup := by
  refine List.Pairwise.imp (fun {a b} hlt => ?_) hw
  rintro rfl
  exact String.lt_irrefl a hlt

/-- To fill a variable keeps the order. -/
theorem Ordered.put (hw : w.Ordered) (name : String) (h : Holding) : (w.put name h).Ordered :=
  pairwise_putIn hw

/-- To empty a variable keeps the order. -/
theorem Ordered.remove (hw : w.Ordered) (name : String) : (w.remove name).Ordered :=
  hw.sublist (List.filter_sublist.map _)

/-- To note a handle keeps the order. -/
theorem Ordered.record (hw : w.Ordered) (name : Option String) (h : Handle) :
    (w.record name h).Ordered := by
  cases name <;> exact hw

/-- To note a handle moves no container. -/
@[simp] theorem held_record (w : Workspace) (name : Option String) (h : Handle) :
    (w.record name h).held = w.held := by
  cases name <;> rfl

/-- What is held after a container was put into a variable. -/
theorem Ordered.held_put (hw : w.Ordered) (name : String) (h : Holding) :
    (w.put name h).held.Perm (h :: (w.remove name).held) :=
  (putIn_perm hw).map _

/-- What is held before the container in a variable is removed. -/
theorem Ordered.held_perm (hw : w.Ordered) (hfound : w.find? name = some h) :
    w.held.Perm (h :: (w.remove name).held) :=
  (perm_of_lookup hw hfound).map _

/-- To empty a variable that is not there changes nothing. -/
theorem held_remove_of_find?_eq_none (hfound : w.find? name = none) :
    (w.remove name).held = w.held :=
  congrArg (List.map _) (others_eq_of_lookup_eq_none hfound)

/-- What is found is in the workspace. -/
theorem Ordered.mem_held (hw : w.Ordered) (hfound : w.find? name = some h) : h ∈ w.held :=
  (hw.held_perm hfound).mem_iff.mpr List.mem_cons_self

/-- Replacing the container in a variable. -/
theorem Ordered.held_put_of_find? (hw : w.Ordered) (hfound : w.find? name = some h)
    (new : Holding) : (w.put name new).held.Perm (new :: w.held.erase h) := by
  refine (hw.held_put name new).trans (.cons _ ?_)
  simpa using ((hw.held_perm hfound).erase h).symm

/-- Replacing the container in a variable lets go of the one that was there. -/
theorem Ordered.held_put_perm_erase (hw : w.Ordered) (hfound : w.find? name = some h)
    (new : Holding) : (w.put name new).held.Perm ((new :: w.held).erase h) := by
  have hmem : h ∈ w.held := hw.mem_held hfound
  refine (hw.held_put_of_find? hfound new).trans (List.Perm.cons_inv (a := h) ?_)
  refine .trans ?_ (List.perm_cons_erase (List.mem_cons_of_mem new hmem))
  exact (List.Perm.swap _ _ _).trans ((List.perm_cons_erase hmem).symm.cons new)

/-! ### Looking up -/

/-- What a variable is said to hold stands in it. -/
theorem holding_eq_ok {x : Holding} (h : w.holding name = .ok x) : w.find? name = some x := by
  unfold holding at h
  split at h
  · next hfound =>
    obtain rfl := Except.ok.inj h
    exact hfound
  · cases h

/-- The same of a variable that has to hold a sparse array. -/
theorem sparseArray_eq_ok {a : SparseArray} (h : w.sparseArray name = .ok a) :
    w.find? name = some ⟨.sparseArray, a⟩ := by
  unfold sparseArray at h
  cases hfound : w.holding name with
  | error failure =>
    rw [hfound] at h
    cases h
  | ok x =>
    obtain ⟨k, c⟩ := x
    rw [hfound] at h
    cases k <;> cases h
    exact holding_eq_ok hfound

/-- The same of a variable that has to hold a data store. -/
theorem dataStore_eq_ok {d : DataStore} (h : w.dataStore name = .ok d) :
    w.find? name = some ⟨.dataStore, d⟩ := by
  unfold dataStore at h
  cases hfound : w.holding name with
  | error failure =>
    rw [hfound] at h
    cases h
  | ok x =>
    obtain ⟨k, c⟩ := x
    rw [hfound] at h
    cases k <;> cases h
    exact holding_eq_ok hfound

end Custody.Workspace
