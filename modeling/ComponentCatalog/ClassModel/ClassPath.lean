import ComponentCatalog.ClassModel.Basic
import ComponentCatalog.Failure
import ComponentCatalog.NameMap

/-!
# Class paths

The classes of a project, each filed under its own name.  The root class is always there unless
another class took its name.

A walk over the class path that never loads a class twice ends, because every step leaves fewer
classes unseen (`unseen_lt_of_find?`).
-/

set_option autoImplicit false

namespace ComponentCatalog

/-- The classes of a project by name. -/
structure ClassPath where
  classes : NameMap ClassDecl
  /-- A class is filed under its own name. -/
  name_eq : ∀ name c, classes.get? name = some c → c.name = name

namespace ClassPath

/-- The class path without classes. -/
def empty : ClassPath := ⟨.empty, by simp⟩

/-- Registers a class in place of an older one of the same name. -/
def add (cp : ClassPath) (c : ClassDecl) : ClassPath where
  classes := cp.classes.insert c.name c
  name_eq := by
    intro name d h
    rw [NameMap.get?_insert] at h
    split at h
    · rename_i heq
      injection h with h
      rw [← h, heq]
    · exact cp.name_eq name d h

/-- Registers classes in order. -/
def addAll (cp : ClassPath) (cs : List ClassDecl) : ClassPath := cs.foldl add cp

/-- The class path that holds only the root class, with its one constructor. -/
def root : ClassPath := empty.add ((ClassDecl.ofName ClassName.object).withConstructor [])

instance : Inhabited ClassPath := ⟨root⟩

/-- The class of a name. -/
def find? (cp : ClassPath) (name : String) : Option ClassDecl := cp.classes.get? name

/-- The class of a name, or the failure that there is none. -/
def load (cp : ClassPath) (name : String) : Except Failure ClassDecl :=
  match cp.find? name with
  | some c => .ok c
  | none => .error (.classNotFound name)

/-- Whether there is a class of a name. -/
def contains (cp : ClassPath) (name : String) : Bool := cp.classes.contains name

/-- The number of classes. -/
def size (cp : ClassPath) : Nat := cp.classes.size

/-! ## Walks -/

/-- The number of classes whose names are not in `seen`. -/
def unseen (cp : ClassPath) (seen : List String) : Nat :=
  (cp.classes.names.filter fun name ↦ !seen.contains name).length

/-- A class that is found for the first time is one unseen class less. -/
theorem unseen_lt_of_find? {cp : ClassPath} {seen : List String} {name : String} {c : ClassDecl}
    (hfind : cp.find? name = some c) (hnew : ¬name ∈ seen) :
    cp.unseen (name :: seen) < cp.unseen seen := by
  have hmem : name ∈ cp.classes.names.filter fun name ↦ !seen.contains name := by
    simp only [List.mem_filter, NameMap.names, List.mem_map]
    exact ⟨⟨(name, c), (NameMap.get?_eq_some_iff _ _ _).1 hfind, rfl⟩, by simpa using hnew⟩
  have hsplit : (cp.classes.names.filter fun n ↦ !(name :: seen).contains n) =
      (cp.classes.names.filter fun n ↦ !seen.contains n).filter (· != name) := by
    rw [List.filter_filter]
    congr 1
    funext n
    by_cases h : n = name <;> simp [h]
  rw [unseen, unseen, hsplit]
  refine Nat.lt_of_le_of_ne (List.length_filter_le _ _) fun heq ↦ ?_
  simpa using List.length_filter_eq_length_iff.1 heq name hmem

end ClassPath

end ComponentCatalog
