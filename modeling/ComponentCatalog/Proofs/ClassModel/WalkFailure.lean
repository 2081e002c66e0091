import ComponentCatalog.ClassModel.Hierarchy
import ComponentCatalog.Proofs.Outcome

/-!
# Failures of walks

Classes are loaded and superclasses followed, and all that can go wrong is that a class is missing
or that the superclasses of a class come back to a class (`Failure.OfWalk`).  Either way **the
failure names a class** (`Failure.OfWalk.named`).
-/

set_option autoImplicit false

namespace ComponentCatalog

namespace Failure

/-- A class is missing, or the superclasses of a class come back to one of them. -/
inductive OfWalk : Failure → Prop
  | missing (name : String) : OfWalk (.classNotFound name)
  | cyclic (start parent : String) : OfWalk (.cyclicInheritance start parent)

/-- The failure names a class. -/
def Named (f : Failure) : Prop := f.className?.isSome

theorem OfWalk.named {f : Failure} (h : f.OfWalk) : f.Named := by
  cases h with
  | missing name => rfl
  | cyclic start parent => rfl

end Failure

namespace ClassPath

variable (cp : ClassPath)

theorem load_fails (name : String) : FailsIn Failure.OfWalk (cp.load name) := by
  rw [load]
  split
  · exact failsIn_ok _
  · exact failsIn_error.mpr (.missing name)

theorem superclassesFrom_fails (start : String) (seen : List String) (c : ClassDecl) :
    FailsIn Failure.OfWalk (cp.superclassesFrom start seen c) := by
  fun_induction cp.superclassesFrom start seen c with
  | case1 => exact failsIn_ok _
  | case2 seen c parent => exact failsIn_error.mpr (.cyclic start parent)
  | case3 seen c parent => exact failsIn_error.mpr (.missing parent)
  | case4 => exact failsIn_ok _
  | case5 seen c parent hparent hnew next hnext failure hrest ih =>
    rw [hrest] at ih
    exact failsIn_error.mpr (failsIn_error.mp ih)

theorem hierarchy_fails (c : ClassDecl) : FailsIn Failure.OfWalk (cp.hierarchy c) :=
  failsIn_map_iff.mpr (cp.superclassesFrom_fails c.name [c.name] c)

theorem normalize_fails (c : ClassDecl) : FailsIn Failure.OfWalk (cp.normalize c) := by
  rw [normalize]
  generalize c.name = start, ([] : List String) = seen
  fun_induction cp.namedFrom start seen c with
  | case1 => exact failsIn_ok _
  | case2 seen c hnameless parent => exact failsIn_error.mpr (.cyclic start parent)
  | case3 seen c hnameless parent => exact failsIn_error.mpr (.missing parent)
  | case4 seen c hnameless parent hparent hnew next hnext ih => exact ih
  | case5 => exact failsIn_ok _

end ClassPath

end ComponentCatalog
