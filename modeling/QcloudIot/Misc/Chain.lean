import Mathlib

/-!
# Singly linked lists in memory

Nodes that are numbered in the order of their allocation, each with a pointer to the next one. A
segment is a path along these pointers; a list is a segment that ends with the null pointer.
-/

namespace QcloudIot

/-- A node with its pointer. -/
structure ChainNode (α : Type) where
  value : α
  next : Option Nat
  deriving DecidableEq, Repr

section Chain

variable {α : Type} {nodes nodes' : List (ChainNode α)} {p q r : Option Nat} {i n : Nat}
  {front back chain : List Nat}

/-- The pointer `p` leads over the nodes of `chain` to `q`. -/
def Segment (nodes : List (ChainNode α)) : Option Nat → List Nat → Option Nat → Prop
  | p, [], q => p = q
  | p, i :: chain, q => p = some i ∧ ∃ node, nodes[i]? = some node ∧ Segment nodes node.next chain q

/-- The node that a pointer points to. -/
def deref (nodes : List (ChainNode α)) (p : Option Nat) : Option (ChainNode α) :=
  p.bind fun i => nodes[i]?

/-- A pointer of a node is changed. -/
def setNext (nodes : List (ChainNode α)) (i : Nat) (q : Option Nat) : List (ChainNode α) :=
  nodes.modify i fun node => { node with next := q }

theorem length_setNext (nodes : List (ChainNode α)) (i : Nat) (q : Option Nat) :
    (setNext nodes i q).length = nodes.length := List.length_modify ..

theorem setNext_other {j : Nat} (other : j ≠ i) (q : Option Nat) :
    (setNext nodes i q)[j]? = nodes[j]? := by
  exact List.getElem?_modify_ne _ nodes other.symm

theorem setNext_same {node : ChainNode α} (found : nodes[i]? = some node) (q : Option Nat) :
    (setNext nodes i q)[i]? = some { node with next := q } := by
  rw [setNext, List.getElem?_modify_eq, found]
  rfl

theorem setNext_value (nodes : List (ChainNode α)) (i : Nat) (q : Option Nat) (j : Nat) :
    ((setNext nodes i q)[j]?).map ChainNode.value = (nodes[j]?).map ChainNode.value := by
  by_cases same : j = i
  · subst same
    cases found : nodes[j]? with
    | none => rw [setNext, List.getElem?_modify_eq, found]; rfl
    | some node => rw [setNext_same found]; rfl
  · rw [setNext_other same]

theorem segment_append :
    Segment nodes p (front ++ back) q ↔ ∃ r, Segment nodes p front r ∧ Segment nodes r back q := by
  induction front generalizing p with
  | nil =>
    constructor
    · intro segment
      exact ⟨p, rfl, segment⟩
    · rintro ⟨r, rfl, segment⟩
      exact segment
  | cons i front ih =>
    constructor
    · rintro ⟨start, node, found, segment⟩
      obtain ⟨r, first, second⟩ := ih.mp segment
      exact ⟨r, ⟨start, node, found, first⟩, second⟩
    · rintro ⟨r, ⟨start, node, found, first⟩, second⟩
      exact ⟨start, node, found, ih.mpr ⟨r, first, second⟩⟩

/-- A segment only depends on its nodes. -/
theorem Segment.congr (segment : Segment nodes p chain q)
    (same : ∀ i ∈ chain, nodes'[i]? = nodes[i]?) : Segment nodes' p chain q := by
  induction chain generalizing p with
  | nil => exact segment
  | cons i chain ih =>
    obtain ⟨start, node, found, segment⟩ := segment
    refine ⟨start, node, (same i List.mem_cons_self).trans found, ih segment ?_⟩
    exact fun j mem => same j (List.mem_cons_of_mem i mem)

theorem Segment.lt_length (segment : Segment nodes p chain q) (mem : i ∈ chain) :
    i < nodes.length := by
  induction chain generalizing p with
  | nil => cases mem
  | cons j chain ih =>
    obtain ⟨_, node, found, segment⟩ := segment
    rcases List.mem_cons.mp mem with rfl | mem
    · exact (List.getElem?_eq_some_iff.mp found).1
    · exact ih segment mem

/-- The last node of a segment points to its end. -/
theorem Segment.last_next (segment : Segment nodes p (front ++ [i]) q) :
    ∃ node, nodes[i]? = some node ∧ node.next = q := by
  obtain ⟨r, _, _, node, found, isEnd⟩ := segment_append.mp segment
  exact ⟨node, found, isEnd⟩

/-- A segment continues with a node when its last pointer is set to it. -/
theorem Segment.redirect (segment : Segment nodes p (front ++ [i]) q) (new : i ∉ front)
    (r : Option Nat) : Segment (setNext nodes i r) p (front ++ [i]) r := by
  obtain ⟨s, first, start, node, found, _⟩ := segment_append.mp segment
  refine segment_append.mpr ⟨s, first.congr ?_, start, _, setNext_same found r, rfl⟩
  intro j mem
  refine setNext_other ?_ r
  rintro rfl
  exact new mem

/-- A node is linked in behind `i`. -/
theorem Segment.insert (segment : Segment nodes p (front ++ [i] ++ back) none)
    (distinct : (front ++ [i] ++ back).Nodup) {node : ChainNode α} (new : n ∉ front ++ [i] ++ back)
    (found : nodes[n]? = some node) (next : Segment nodes node.next back none) :
    Segment (setNext nodes i (some n)) p (front ++ [i] ++ n :: back) none := by
  obtain ⟨r, first, _⟩ := segment_append.mp segment
  obtain ⟨firstDistinct, backDistinct, apart⟩ := List.nodup_append.mp distinct
  have notFront : i ∉ front := by
    intro mem
    exact (List.nodup_append.mp firstDistinct).2.2 i mem i (List.mem_singleton_self i) rfl
  have iMem : i ∈ front ++ [i] := List.mem_append_right _ (List.mem_singleton_self i)
  have other : n ≠ i := by
    rintro rfl
    exact new (List.mem_append_left _ iMem)
  refine segment_append.mpr ⟨some n, first.redirect notFront _, rfl, node, ?_, ?_⟩
  · rw [setNext_other other]
    exact found
  · refine next.congr ?_
    intro j mem
    refine setNext_other ?_ _
    rintro rfl
    exact apart j iMem j mem rfl

end Chain

end QcloudIot
