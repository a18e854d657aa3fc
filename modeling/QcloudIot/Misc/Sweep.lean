import Mathlib

/-!
# Sweeping a list

A sweep walks over a list from its tail to its head and removes some of the nodes. A node
holds some resources (an identifier, a string it owns, nothing at all), and the sweep
collects those of the nodes it removes. Whatever the sweep decides, a resource held before
it is either still held or was collected.
-/

namespace QcloudIot

variable {ν β : Type} {held : ν → List β} {nodes rest : List ν} {collected : List β}

/-- A sweep over the first list leaves the second and collects the third. -/
inductive Swept (held : ν → List β) : List ν → List ν → List β → Prop where
  | nil : Swept held [] [] []
  | kept {node nodes rest collected} :
      Swept held nodes rest collected → Swept held (node :: nodes) (node :: rest) collected
  | removed {node nodes rest collected} :
      Swept held nodes rest collected →
        Swept held (node :: nodes) rest (collected ++ held node)

theorem Swept.sublist (swept : Swept held nodes rest collected) : rest.Sublist nodes := by
  induction swept with
  | nil => exact .slnil
  | kept _ ih => exact ih.cons_cons _
  | removed _ ih => exact ih.cons _

theorem Swept.refl (held : ν → List β) (nodes : List ν) : Swept held nodes nodes [] := by
  induction nodes with
  | nil => exact .nil
  | cons node nodes ih => exact .kept ih

/-- A node that holds nothing can be removed without a trace. -/
theorem Swept.dropped {node : ν} (nothing : held node = [])
    (swept : Swept held nodes rest collected) : Swept held (node :: nodes) rest collected := by
  have removed : Swept held (node :: nodes) rest (collected ++ held node) := swept.removed
  rwa [nothing, List.append_nil] at removed

/-- What was held before the sweep is still held, or was collected. -/
theorem Swept.perm (swept : Swept held nodes rest collected) :
    (nodes.flatMap held).Perm (rest.flatMap held ++ collected) := by
  induction swept with
  | nil => exact .refl _
  | kept _ ih =>
    rw [List.flatMap_cons, List.flatMap_cons, List.append_assoc]
    exact ih.append_left _
  | removed _ ih =>
    rw [List.flatMap_cons, ← List.append_assoc]
    exact List.perm_append_comm.trans (ih.append_right _)

theorem Swept.count [DecidableEq β] (swept : Swept held nodes rest collected) (b : β) :
    (nodes.flatMap held).count b = (rest.flatMap held).count b + collected.count b := by
  rw [swept.perm.count_eq, List.count_append]

end QcloudIot
