import QcloudIot.Misc.Run
import QcloudIot.Utils.LinkedList

/-!
# The linked list

The nodes of the list are linked in both directions in the order of an abstract list, which every
operation changes in its way. What holds at one end holds at the other in the mirror. An iteration
comes to every node once, also when nodes that it has come to are removed.
-/

namespace QcloudIot.Utils

variable {room : NodeRoom} {V : Type}

/-! ## The mirror -/

/-- A node seen from the other side. -/
def ListNode.mirror (node : ListNode room V) : ListNode room V := ⟨node.next, node.prev, node.val⟩

namespace LinkedList

variable {list after : LinkedList room V} {nodes : List (Fin room.count)} {node : Fin room.count}

/-- The list from tail to head. -/
def mirror (list : LinkedList room V) : LinkedList room V :=
  { list with
    nodes := fun place => (list.nodes place).map ListNode.mirror
    head := list.tail
    tail := list.head }

theorem mirror_mirror (list : LinkedList room V) : list.mirror.mirror = list := by
  have same : (fun place => ((list.nodes place).map ListNode.mirror).map ListNode.mirror) =
      list.nodes := by
    funext place
    cases list.nodes place <;> rfl
  simp only [mirror, same]

theorem modify_mirror (list : LinkedList room V) (node : Fin room.count)
    (change : ListNode room V → ListNode room V) :
    list.mirror.modify node change =
      (list.modify node fun old => (change old.mirror).mirror).map mirror := by
  simp only [modify, mirror]
  cases list.nodes node with
  | none => rfl
  | some old =>
    refine congrArg some (LinkedList.ext ?_ rfl rfl rfl rfl rfl)
    funext place
    show Function.update (fun place => (list.nodes place).map ListNode.mirror) node
        (some (change old.mirror)) place =
      (Function.update list.nodes node (some (change old.mirror).mirror) place).map ListNode.mirror
    by_cases here : place = node
    · rw [here, Function.update_self, Function.update_self]
      rfl
    · rw [Function.update_of_ne here, Function.update_of_ne here]

theorem mirror_head (list : LinkedList room V) : list.mirror.head = list.tail := rfl

/-- To push in front is to push behind in the mirror. -/
theorem listLpush_mirror (list : LinkedList room V) (node : NodePtr room) :
    list.mirror.listLpush node =
      (list.listRpush node).map fun pushed => (pushed.1, pushed.2.mirror) := by
  cases node with
  | none => rfl
  | some node =>
    unfold listLpush listRpush
    by_cases some : list.len ≠ 0
    · have mirrored : list.mirror.len ≠ 0 := some
      simp only [if_pos some, if_pos mirrored, modify_mirror, bind, pure, Option.bind_map,
        Option.map_bind, Function.comp_def, mirror_head, Option.bind_some, Option.map_some,
        ListNode.mirror]
      rfl
    · have mirrored : ¬list.mirror.len ≠ 0 := some
      have start : ({ list.mirror with head := Option.some node, tail := Option.some node } :
          LinkedList room V) =
        mirror { list with head := Option.some node, tail := Option.some node } := rfl
      simp only [if_neg some, if_neg mirrored, bind, pure, Option.map_bind, Function.comp_def]
      rw [start, modify_mirror, Option.bind_map]
      rfl

/-- To pop in front is to pop behind in the mirror. -/
theorem listLpop_mirror (list : LinkedList room V) :
    list.mirror.listLpop = list.listRpop.map fun popped => (popped.1, popped.2.mirror) := by
  unfold listLpop listRpop
  by_cases empty : list.len = 0
  · have mirrored : list.mirror.len = 0 := empty
    simp only [if_pos empty, if_pos mirrored]
    rfl
  have mirrored : ¬list.mirror.len = 0 := empty
  simp only [if_neg empty, if_neg mirrored]
  cases last : list.tail with
  | none =>
    rw [mirror_head, last]
    rfl
  | some node =>
    simp only [mirror_head, last, bind, Option.bind_some]
    by_cases more : list.len - 1 ≠ 0
    · have mirroredMore : list.mirror.len - 1 ≠ 0 := more
      simp only [if_pos more, if_pos mirroredMore]
      have heldMirrored : list.mirror.nodes node = (list.nodes node).map ListNode.mirror := rfl
      cases held : list.nodes node with
      | none =>
        rw [held] at heldMirrored
        simp only [heldMirrored]
        rfl
      | some old =>
        obtain ⟨prev, next, val⟩ := old
        rw [held] at heldMirrored
        simp only [heldMirrored, Option.map_some, Option.bind_some, ListNode.mirror]
        cases prev with
        | none => rfl
        | some prev =>
          have start : ({ list.mirror with len := list.mirror.len - 1, head := some prev } :
              LinkedList room V) = mirror { list with len := list.len - 1, tail := some prev } := rfl
          simp only [Option.bind_some, start, modify_mirror, Option.bind_map, Option.map_bind,
            Function.comp_def, ListNode.mirror]
          rfl
    · have mirroredMore : ¬list.mirror.len - 1 ≠ 0 := more
      have start : ({ list.mirror with len := list.mirror.len - 1, head := none, tail := none } :
          LinkedList room V) = mirror { list with len := list.len - 1, tail := none, head := none } :=
        rfl
      simp only [if_neg more, if_neg mirroredMore, pure, Option.bind_some, start, modify_mirror,
        Option.bind_map, Option.map_bind, Function.comp_def, ListNode.mirror]
      rfl

/-! ## The abstract list -/

/-- The list holds these nodes, linked in both directions. -/
structure Holds (list : LinkedList room V) (nodes : List (Fin room.count)) : Prop where
  head : list.head = nodes.head?
  tail : list.tail = nodes.getLast?
  len : list.len.toNat = nodes.length
  nodup : nodes.Nodup
  linked : ∀ before node behind, nodes = before ++ node :: behind → ∃ val,
    list.nodes node = some ⟨before.getLast?, behind.head?, val⟩

theorem Holds.mirror (holds : list.Holds nodes) : list.mirror.Holds nodes.reverse where
  head := by
    rw [List.head?_reverse]
    exact holds.tail
  tail := by
    rw [List.getLast?_reverse]
    exact holds.head
  len := by
    rw [List.length_reverse]
    exact holds.len
  nodup := List.nodup_reverse.mpr holds.nodup
  linked := by
    intro before node behind split
    have reversed : nodes = behind.reverse ++ node :: before.reverse := by
      have := congrArg List.reverse split
      rw [List.reverse_reverse, List.reverse_append, List.reverse_cons, List.append_assoc] at this
      exact this
    obtain ⟨val, held⟩ := holds.linked _ _ _ reversed
    refine ⟨val, ?_⟩
    show (list.nodes node).map ListNode.mirror = _
    rw [held, List.getLast?_reverse, List.head?_reverse]
    rfl

/-- The memory does not have room for more nodes than are counted. -/
theorem Holds.length_lt (holds : list.Holds nodes) : nodes.length < 2 ^ 32 := by
  have bound := holds.nodup.length_le_card
  rw [Fintype.card_fin] at bound
  exact lt_of_le_of_lt bound room.count_lt

theorem Holds.len_eq_zero_iff (holds : list.Holds nodes) : list.len = 0 ↔ nodes = [] := by
  rw [← List.length_eq_zero_iff, ← holds.len, ← UInt32.toNat_inj]
  rfl

/-- Every node of the list is allocated. -/
theorem Holds.exists_node (holds : list.Holds nodes) (member : node ∈ nodes) :
    ∃ old, list.nodes node = some old := by
  obtain ⟨before, behind, split⟩ := List.append_of_mem member
  obtain ⟨val, held⟩ := holds.linked before node behind split
  exact ⟨_, held⟩

theorem listNew_holds (places : Fin room.count → Option (ListNode room V)) :
    (listNew places).Holds [] where
  head := rfl
  tail := rfl
  len := rfl
  nodup := List.nodup_nil
  linked before node behind split := by simp at split

/-! ## Operations -/

theorem modify_held {old : ListNode room V} (held : list.nodes node = some old)
    (change : ListNode room V → ListNode room V) :
    list.modify node change =
      some { list with nodes := Function.update list.nodes node (some (change old)) } := by
  rw [modify, held]
  rfl

/-- Where a longer list is cut, its last item comes behind the cut or is the item cut at. -/
theorem split_concat {α : Type} {nodes before behind : List α} {last node : α}
    (split : nodes ++ [last] = before ++ node :: behind) :
    (behind = [] ∧ nodes = before ∧ last = node) ∨
      ∃ rest, behind = rest ++ [last] ∧ nodes = before ++ node :: rest := by
  rcases List.eq_nil_or_concat' behind with rfl | ⟨rest, other, rfl⟩
  · obtain ⟨same, isLast⟩ := List.append_inj' split rfl
    cases isLast
    exact Or.inl ⟨rfl, same, rfl⟩
  · rw [← List.cons_append, ← List.append_assoc] at split
    obtain ⟨same, isLast⟩ := List.append_inj' split rfl
    cases isLast
    exact Or.inr ⟨rest, rfl, same⟩

theorem len_succ (holds : list.Holds nodes) (more : node ∉ nodes) :
    (list.len + 1).toNat = nodes.length + 1 := by
  have bound := (List.nodup_cons.mpr ⟨more, holds.nodup⟩).length_le_card
  rw [Fintype.card_fin, List.length_cons] at bound
  have room := room.count_lt
  rw [UInt32.toNat_add, holds.len]
  show (nodes.length + 1) % 2 ^ 32 = _
  omega

/-- A node is pushed behind the others. -/
theorem Holds.listRpush (holds : list.Holds nodes) {old : ListNode room V}
    (allocated : list.nodes node = some old) (new : node ∉ nodes) :
    ∃ after, list.listRpush (some node) = some (some node, after) ∧
      after.Holds (nodes ++ [node]) := by
  have length : (nodes ++ [node]).length = nodes.length + 1 := by simp
  have nodup : (nodes ++ [node]).Nodup := by
    rw [List.nodup_append_comm]
    exact List.nodup_cons.mpr ⟨new, holds.nodup⟩
  have len := len_succ holds new
  unfold LinkedList.listRpush
  rcases List.eq_nil_or_concat' nodes with rfl | ⟨front, last, rfl⟩
  · have empty : ¬list.len ≠ 0 := not_not.mpr (holds.len_eq_zero_iff.mpr rfl)
    have held : ({ list with head := some node, tail := some node } : LinkedList room V).nodes node =
        some old := allocated
    simp only [if_neg empty, modify_held held, bind, Option.bind_some, pure]
    refine ⟨_, rfl, rfl, rfl, len.trans length.symm, nodup, ?_⟩
    intro before other behind split
    dsimp only
    rw [List.nil_append] at split
    obtain ⟨rfl, rfl, rfl⟩ : before = [] ∧ node = other ∧ behind = [] := by
      cases before with
      | nil =>
        cases split
        exact ⟨rfl, rfl, rfl⟩
      | cons first rest => simp at split
    exact ⟨old.val, by rw [Function.update_self]; rfl⟩
  · have some_ : list.len ≠ 0 := by
      rw [ne_eq, holds.len_eq_zero_iff]
      simp
    have tail : list.tail = some last := by rw [holds.tail, List.getLast?_concat]
    obtain ⟨val, lastHeld⟩ := holds.linked front last [] rfl
    have apart : last ≠ node := by
      rintro rfl
      exact new (by simp)
    simp only [if_pos some_, modify, allocated, Option.map_some, bind, Option.bind_some, pure, tail,
      Function.update_self, Function.update_idem, Function.update_of_ne apart, lastHeld]
    refine ⟨_, rfl, ?_, ?_, len.trans length.symm, nodup, ?_⟩
    · rw [holds.head, List.head?_append_of_ne_nil (front ++ [last]) (by simp)]
    · rw [List.getLast?_concat]
    intro before other behind split
    dsimp only
    rcases split_concat split with ⟨rfl, rfl, rfl⟩ | ⟨rest, rfl, same⟩
    · refine ⟨old.val, ?_⟩
      rw [Function.update_of_ne apart.symm, Function.update_self, List.getLast?_concat]
      rfl
    · have member : other ∈ front ++ [last] := by
        rw [same]
        simp
      have notNode : other ≠ node := by
        rintro rfl
        exact new member
      rcases split_concat same with ⟨rfl, rfl, rfl⟩ | ⟨middle, rfl, rfl⟩
      · exact ⟨val, by rw [Function.update_self]; rfl⟩
      · obtain ⟨otherVal, otherHeld⟩ := holds.linked before other (middle ++ [last]) same
        have notLast : other ≠ last := by
          rintro rfl
          have twice := holds.nodup
          rw [same] at twice
          exact (List.nodup_cons.mp twice.of_append_right).1 (by simp)
        refine ⟨otherVal, ?_⟩
        rw [Function.update_of_ne notLast, Function.update_of_ne notNode, otherHeld,
          List.head?_append_of_ne_nil (middle ++ [last]) (by simp)]

/-- A node is pushed in front of the others. -/
theorem Holds.listLpush (holds : list.Holds nodes) {old : ListNode room V}
    (allocated : list.nodes node = some old) (new : node ∉ nodes) :
    ∃ after, list.listLpush (some node) = some (some node, after) ∧
      after.Holds (node :: nodes) := by
  have there : list.mirror.nodes node = some old.mirror := by
    show (list.nodes node).map ListNode.mirror = _
    rw [allocated]
    rfl
  obtain ⟨after, pushed, holdsAfter⟩ :=
    holds.mirror.listRpush there (by rwa [List.mem_reverse])
  refine ⟨after.mirror, ?_, ?_⟩
  · rw [← mirror_mirror list, listLpush_mirror, pushed]
    rfl
  · have := holdsAfter.mirror
    rwa [List.reverse_append, List.reverse_reverse] at this

/-- The last node is popped. -/
theorem Holds.listRpop {front : List (Fin room.count)} (holds : list.Holds (front ++ [node])) :
    ∃ after, list.listRpop = some (some node, after) ∧ after.Holds front := by
  have isLength : (front ++ [node]).length = front.length + 1 := by simp
  have nodup : front.Nodup := holds.nodup.of_append_left
  have new : node ∉ front := by
    have twice := holds.nodup
    rw [List.nodup_append_comm] at twice
    exact (List.nodup_cons.mp twice).1
  have empty : ¬list.len = 0 := by
    rw [holds.len_eq_zero_iff]
    simp
  have tail : list.tail = some node := by rw [holds.tail, List.getLast?_concat]
  have len : (list.len - 1).toNat = front.length := by
    have one : (1 : UInt32) ≤ list.len := by
      rw [UInt32.le_iff_toNat_le, holds.len, isLength]
      exact Nat.le_add_left 1 _
    rw [UInt32.toNat_sub_of_le _ _ one, holds.len, isLength]
    rfl
  obtain ⟨val, held⟩ := holds.linked front node [] rfl
  unfold LinkedList.listRpop
  rcases List.eq_nil_or_concat' front with rfl | ⟨rest, last, rfl⟩
  · have last : ¬list.len - 1 ≠ 0 := by
      rw [not_not, ← UInt32.toNat_inj, len]
      rfl
    simp only [if_neg empty, tail, bind, Option.bind_some, if_neg last, pure, modify, held,
      Option.map_some]
    refine ⟨_, rfl, rfl, rfl, len, nodup, ?_⟩
    intro before other behind split
    simp at split
  · have more : list.len - 1 ≠ 0 := by
      rw [ne_eq, ← UInt32.toNat_inj, len]
      simp
    obtain ⟨lastVal, lastHeld⟩ := holds.linked rest last [node] (by simp)
    have apart : node ≠ last := by
      rintro rfl
      exact new (by simp)
    simp only [if_neg empty, tail, bind, Option.bind_some, if_pos more, pure, held,
      List.getLast?_concat, modify, lastHeld, Option.map_some, Function.update_of_ne apart]
    refine ⟨_, rfl, ?_, ?_, len, nodup, ?_⟩
    · rw [holds.head, List.head?_append_of_ne_nil (rest ++ [last]) (by simp)]
    · rw [List.getLast?_concat]
    intro before other behind split
    dsimp only
    have member : other ∈ rest ++ [last] := by
      rw [split]
      simp
    have notNode : other ≠ node := by
      rintro rfl
      exact new member
    rcases split_concat split with ⟨rfl, rfl, rfl⟩ | ⟨middle, rfl, rfl⟩
    · refine ⟨lastVal, ?_⟩
      rw [Function.update_of_ne notNode, Function.update_self]
      rfl
    · have notLast : other ≠ last := by
        rintro rfl
        rw [split] at nodup
        exact (List.nodup_cons.mp nodup.of_append_right).1 (by simp)
      obtain ⟨otherVal, otherHeld⟩ := holds.linked before other (middle ++ [last] ++ [node])
        (by rw [split]; simp)
      refine ⟨otherVal, ?_⟩
      rw [Function.update_of_ne notNode, Function.update_of_ne notLast, otherHeld,
        List.head?_append_of_ne_nil (middle ++ [last]) (by simp)]

/-- The first node is popped. -/
theorem Holds.listLpop {rest : List (Fin room.count)} (holds : list.Holds (node :: rest)) :
    ∃ after, list.listLpop = some (some node, after) ∧ after.Holds rest := by
  have mirrored := holds.mirror
  rw [List.reverse_cons] at mirrored
  obtain ⟨after, popped, holdsAfter⟩ := mirrored.listRpop
  refine ⟨after.mirror, ?_, ?_⟩
  · rw [← mirror_mirror list, listLpop_mirror, popped]
    rfl
  · have := holdsAfter.mirror
    rwa [List.reverse_reverse] at this

/-- The neighbours of a node have been linked to each other. -/
theorem linked_without {front behind : List (Fin room.count)}
    {places : Fin room.count → Option (ListNode room V)}
    (holds : list.Holds (front ++ node :: behind))
    (others : ∀ other, other ≠ node → front.getLast? ≠ some other → behind.head? ≠ some other →
      places other = list.nodes other)
    (prev : ∀ other prev next val, front.getLast? = some other →
      list.nodes other = some ⟨prev, next, val⟩ → places other = some ⟨prev, behind.head?, val⟩)
    (next : ∀ other prev next val, behind.head? = some other →
      list.nodes other = some ⟨prev, next, val⟩ → places other = some ⟨front.getLast?, next, val⟩)
    (before : List (Fin room.count)) (other : Fin room.count) (after : List (Fin room.count))
    (split : front ++ behind = before ++ other :: after) :
    ∃ val, places other = some ⟨before.getLast?, after.head?, val⟩ := by
  have nodup := holds.nodup
  have inFront {middle : List (Fin room.count)} (isFront : front = before ++ other :: middle)
      (isAfter : after = middle ++ behind) :
      ∃ val, places other = some ⟨before.getLast?, after.head?, val⟩ := by
    obtain ⟨val, held⟩ := holds.linked before other (middle ++ node :: behind)
      (by rw [isFront, List.append_assoc]; rfl)
    refine ⟨val, ?_⟩
    rcases List.eq_nil_or_concat' middle with rfl | ⟨init, last, rfl⟩
    · rw [isAfter]
      exact prev other _ _ _ (by rw [isFront, List.getLast?_concat]) held
    · have some : init ++ [last] ≠ [] := by simp
      rw [others other, held, isAfter, List.head?_append_of_ne_nil (init ++ [last]) some,
        List.head?_append_of_ne_nil (init ++ [last]) some]
      · rintro rfl
        rw [isFront] at nodup
        exact (List.nodup_append.mp nodup).2.2 other (by simp) other (by simp) rfl
      · rw [isFront, ← List.cons_append, ← List.append_assoc, List.getLast?_concat]
        intro same
        cases same
        rw [isFront] at nodup
        have twice := (List.nodup_append.mp nodup).1.of_append_right
        exact (List.nodup_cons.mp twice).1 (by simp)
      · intro same
        have member := List.mem_of_head? same
        rw [isFront] at nodup
        exact (List.nodup_append.mp nodup).2.2 other (by simp) other
          (List.mem_cons_of_mem _ member) rfl
  rcases List.append_eq_append_iff.mp split with ⟨middle, isBefore, isBehind⟩ | ⟨middle, isFront, rest⟩
  · obtain ⟨val, held⟩ := holds.linked (front ++ node :: middle) other after
      (by rw [isBehind, List.append_assoc]; rfl)
    refine ⟨val, ?_⟩
    cases middle with
    | nil =>
      rw [isBefore, List.append_nil]
      exact next other _ _ _ (by rw [isBehind]; rfl) held
    | cons first middle =>
      have last : (front ++ node :: first :: middle).getLast? = before.getLast? := by
        rw [isBefore, List.getLast?_append_of_ne_nil front (List.cons_ne_nil _ _),
          List.getLast?_append_of_ne_nil front (List.cons_ne_nil _ _), List.getLast?_cons_cons]
      rw [others other, held, last]
      · rintro rfl
        rw [isBehind] at nodup
        exact (List.nodup_cons.mp nodup.of_append_right).1 (by simp)
      · intro same
        have member := List.mem_of_getLast? same
        rw [isBehind] at nodup
        exact (List.nodup_append.mp nodup).2.2 other member other (by simp) rfl
      · rw [isBehind]
        intro same
        cases same
        rw [isBehind] at nodup
        have twice := (List.nodup_cons.mp nodup.of_append_right).2
        exact (List.nodup_cons.mp twice).1 (by simp)
  · cases middle with
    | nil =>
      -- the node is the first behind the one removed
      rw [List.nil_append] at rest
      rw [List.append_nil] at isFront
      obtain ⟨val, held⟩ := holds.linked (front ++ [node]) other after
        (by rw [← rest, List.append_assoc]; rfl)
      refine ⟨val, ?_⟩
      rw [← isFront]
      exact next other _ _ _ (by rw [← rest]; rfl) held
    | cons first middle =>
      obtain ⟨rfl, isAfter⟩ := List.cons_eq_cons.mp rest
      exact inFront isFront isAfter

section Remove

variable {front behind : List (Fin room.count)} {other : Fin room.count}

/-- The node in front of a node. -/
theorem Holds.prev_node (holds : list.Holds (front ++ node :: behind))
    (last : front.getLast? = some other) :
    ∃ prev val, list.nodes other = some ⟨prev, some node, val⟩ ∧ other ≠ node ∧
      behind.head? ≠ some other := by
  obtain ⟨init, rfl⟩ := List.getLast?_eq_some_iff.mp last
  obtain ⟨val, held⟩ := holds.linked init other (node :: behind) (by simp)
  have nodup := holds.nodup
  rw [List.append_assoc, List.singleton_append] at nodup
  have new := (List.nodup_cons.mp nodup.of_append_right).1
  rw [List.mem_cons, not_or] at new
  exact ⟨_, val, held, new.1, fun first => new.2 (List.mem_of_head? first)⟩

/-- The node behind a node. -/
theorem Holds.next_node (holds : list.Holds (front ++ node :: behind))
    (first : behind.head? = some other) :
    ∃ next val, list.nodes other = some ⟨some node, next, val⟩ ∧ other ≠ node := by
  cases behind with
  | nil => cases first
  | cons next rest =>
    cases first
    obtain ⟨val, held⟩ := holds.linked (front ++ [node]) other rest (by simp)
    rw [List.getLast?_concat] at held
    refine ⟨_, val, held, ?_⟩
    rintro rfl
    exact (List.nodup_cons.mp holds.nodup.of_append_right).1 (by simp)

/-- A node is removed. -/
theorem Holds.listRemove (holds : list.Holds (front ++ node :: behind)) :
    ∃ after, list.listRemove node = some after ∧ after.Holds (front ++ behind) := by
  obtain ⟨val, held⟩ := holds.linked front node behind rfl
  have isLength : (front ++ node :: behind).length = (front ++ behind).length + 1 := by
    simp only [List.length_append, List.length_cons]
    omega
  have some_ : list.len ≠ 0 := by
    rw [ne_eq, holds.len_eq_zero_iff]
    simp
  have len : (if list.len ≠ 0 then list.len - 1 else list.len).toNat = (front ++ behind).length := by
    have one : (1 : UInt32) ≤ list.len := by
      rw [UInt32.le_iff_toNat_le, holds.len, isLength]
      exact Nat.le_add_left 1 _
    rw [if_pos some_, UInt32.toNat_sub_of_le _ _ one, holds.len, isLength]
    rfl
  have nodup : (front ++ behind).Nodup := holds.nodup.sublist
    (List.Sublist.append (List.Sublist.refl front) (List.sublist_cons_self node behind))
  have headKept {first} (last : front.getLast? = some first) :
      list.head = (front ++ behind).head? := by
    have nonempty : front ≠ [] := by
      rintro rfl
      cases last
    rw [holds.head, List.head?_append_of_ne_nil front nonempty,
      List.head?_append_of_ne_nil front nonempty]
  have tailKept {next} (first : behind.head? = some next) :
      list.tail = (front ++ behind).getLast? := by
    cases behind with
    | nil => cases first
    | cons next rest =>
      rw [holds.tail, List.getLast?_append_of_ne_nil front (List.cons_ne_nil _ _),
        List.getLast?_append_of_ne_nil front (List.cons_ne_nil _ _), List.getLast?_cons_cons]
  unfold LinkedList.listRemove
  cases last : front.getLast? with
  | none =>
    have noFront : front = [] := List.getLast?_eq_none_iff.mp last
    cases first : behind.head? with
    | none =>
      have noBehind : behind = [] := List.head?_eq_none_iff.mp first
      simp only [held, bind, Option.bind_some, pure, last, first, halFree]
      rw [noFront, noBehind] at len nodup ⊢
      exact ⟨_, rfl, rfl, rfl, len, nodup, fun before other after split => by simp at split⟩
    | some next =>
      obtain ⟨nextNext, nextVal, nextHeld, apart⟩ := holds.next_node first
      simp only [held, bind, Option.bind_some, pure, last, first, halFree, modify, nextHeld,
        Option.map_some, Function.update_of_ne apart.symm]
      refine ⟨_, rfl, ?_, tailKept first, len, nodup, linked_without holds ?_ ?_ ?_⟩
      · rw [noFront, List.nil_append, first]
      · intro other notNode _ notNext
        rw [first] at notNext
        have notNext : other ≠ next := fun same => notNext (same ▸ rfl)
        dsimp only
        rw [Function.update_of_ne notNode, Function.update_of_ne notNext]
      · intro other _ _ _ isLast
        rw [last] at isLast
        cases isLast
      · intro other _ _ _ isFirst otherHeld
        rw [first] at isFirst
        cases isFirst
        rw [nextHeld] at otherHeld
        cases otherHeld
        dsimp only
        rw [Function.update_of_ne apart, Function.update_self, last]
  | some prev =>
    obtain ⟨prevPrev, prevVal, prevHeld, apart, notNext⟩ := holds.prev_node last
    cases first : behind.head? with
    | none =>
      have noBehind : behind = [] := List.head?_eq_none_iff.mp first
      simp only [held, bind, Option.bind_some, pure, last, first, halFree, modify, prevHeld,
        Option.map_some, Function.update_of_ne apart.symm]
      refine ⟨_, rfl, headKept last, ?_, len, nodup, linked_without holds ?_ ?_ ?_⟩
      · rw [noBehind, List.append_nil, last]
      · intro other notNode notPrev _
        rw [last] at notPrev
        have notPrev : other ≠ prev := fun same => notPrev (same ▸ rfl)
        dsimp only
        rw [Function.update_of_ne notNode, Function.update_of_ne notPrev]
      · intro other _ _ _ isLast otherHeld
        rw [last] at isLast
        cases isLast
        rw [prevHeld] at otherHeld
        cases otherHeld
        dsimp only
        rw [Function.update_of_ne apart, Function.update_self, first]
      · intro other _ _ _ isFirst
        rw [first] at isFirst
        cases isFirst
    | some next =>
      obtain ⟨nextNext, nextVal, nextHeld, nextApart⟩ := holds.next_node first
      have between : next ≠ prev := by
        rintro rfl
        exact notNext first
      simp only [held, bind, Option.bind_some, pure, last, first, halFree, modify, prevHeld,
        nextHeld, Option.map_some, Function.update_of_ne apart.symm,
        Function.update_of_ne nextApart.symm, Function.update_of_ne between]
      refine ⟨_, rfl, headKept last, tailKept first, len, nodup, linked_without holds ?_ ?_ ?_⟩
      · intro other notNode notPrev notNext
        rw [last] at notPrev
        rw [first] at notNext
        have notPrev : other ≠ prev := fun same => notPrev (same ▸ rfl)
        have notNext : other ≠ next := fun same => notNext (same ▸ rfl)
        dsimp only
        rw [Function.update_of_ne notNode, Function.update_of_ne notNext,
          Function.update_of_ne notPrev]
      · intro other _ _ _ isLast otherHeld
        rw [last] at isLast
        cases isLast
        rw [prevHeld] at otherHeld
        cases otherHeld
        dsimp only
        rw [Function.update_of_ne apart, Function.update_of_ne between.symm, Function.update_self,
          first]
      · intro other _ _ _ isFirst otherHeld
        rw [first] at isFirst
        cases isFirst
        rw [nextHeld] at otherHeld
        cases otherHeld
        dsimp only
        rw [Function.update_of_ne nextApart, Function.update_self, last]

end Remove

/-! ## Runs -/

/-- The calls, and the allocation and the freeing of nodes that are not in the list. -/
inductive Operation (room : NodeRoom) (V : Type)
  | nodeNew (node : Fin room.count) (val : V)
  | halFree (node : Fin room.count)
  | rpush (node : NodePtr room)
  | lpush (node : NodePtr room)
  | rpop
  | lpop
  | remove (node : Fin room.count)

/-- What is returned, and the list. -/
def call (list : LinkedList room V) : Operation room V → Option (NodePtr room × LinkedList room V)
  | .nodeNew node val => some (some node, list.listNodeNew node val)
  | .halFree node => some (none, list.halFree node)
  | .rpush node => list.listRpush node
  | .lpush node => list.listLpush node
  | .rpop => list.listRpop
  | .lpop => list.listLpop
  | .remove node => (list.listRemove node).map fun after => (none, after)

/-- The same of a sequence of nodes. -/
def callSequence (nodes : List (Fin room.count)) :
    Operation room V → NodePtr room × List (Fin room.count)
  | .nodeNew node _ => (some node, nodes)
  | .halFree _ => (none, nodes)
  | .rpush none => (none, nodes)
  | .rpush (some node) => (some node, nodes ++ [node])
  | .lpush none => (none, nodes)
  | .lpush (some node) => (some node, node :: nodes)
  | .rpop => (nodes.getLast?, nodes.dropLast)
  | .lpop => (nodes.head?, nodes.tail)
  | .remove node => (none, nodes.erase node)

/-- A node is allocated where there was none; a node that is pushed or freed is allocated and is
    not in the list, and one that is removed is in the list. -/
def Allowed (list : LinkedList room V) (nodes : List (Fin room.count)) : Operation room V → Prop
  | .nodeNew node _ => list.nodes node = none
  | .halFree node | .rpush (some node) | .lpush (some node) =>
    (list.nodes node).isSome ∧ node ∉ nodes
  | .remove node => node ∈ nodes
  | .rpush none | .lpush none | .rpop | .lpop => True

instance [DecidableEq V] (list : LinkedList room V) (nodes : List (Fin room.count)) :
    ∀ operation, Decidable (Allowed list nodes operation)
  | .nodeNew node _ => inferInstanceAs (Decidable (list.nodes node = none))
  | .halFree node | .rpush (some node) | .lpush (some node) =>
    inferInstanceAs (Decidable ((list.nodes node).isSome ∧ node ∉ nodes))
  | .remove node => inferInstanceAs (Decidable (node ∈ nodes))
  | .rpush none | .lpush none | .rpop | .lpop => inferInstanceAs (Decidable True)

/-- Nodes that are not in the list are of no matter. -/
theorem Holds.congr (holds : list.Holds nodes) (head : after.head = list.head)
    (tail : after.tail = list.tail) (len : after.len = list.len)
    (same : ∀ node ∈ nodes, after.nodes node = list.nodes node) : after.Holds nodes where
  head := head.trans holds.head
  tail := tail.trans holds.tail
  len := (congrArg UInt32.toNat len).trans holds.len
  nodup := holds.nodup
  linked := by
    intro before node behind split
    rw [same node (by rw [split]; simp)]
    exact holds.linked before node behind split

/-- A call does to the list what it does to the sequence of its nodes. -/
theorem call_holds (holds : list.Holds nodes) {operation : Operation room V}
    (allowed : Allowed list nodes operation) :
    ∃ after, list.call operation = some ((callSequence nodes operation).1, after) ∧
      after.Holds (callSequence nodes operation).2 := by
  cases operation with
  | nodeNew node val =>
    refine ⟨_, rfl, holds.congr rfl rfl rfl ?_⟩
    intro other member
    obtain ⟨old, held⟩ := holds.exists_node member
    have apart : other ≠ node := by
      rintro rfl
      rw [allowed] at held
      cases held
    exact Function.update_of_ne apart _ _
  | halFree node =>
    refine ⟨_, rfl, holds.congr rfl rfl rfl ?_⟩
    intro other member
    have apart : other ≠ node := by
      rintro rfl
      exact allowed.2 member
    exact Function.update_of_ne apart _ _
  | rpush node =>
    cases node with
    | none => exact ⟨list, rfl, holds⟩
    | some node =>
      obtain ⟨old, held⟩ := Option.isSome_iff_exists.mp allowed.1
      exact holds.listRpush held allowed.2
  | lpush node =>
    cases node with
    | none => exact ⟨list, rfl, holds⟩
    | some node =>
      obtain ⟨old, held⟩ := Option.isSome_iff_exists.mp allowed.1
      exact holds.listLpush held allowed.2
  | rpop =>
    rcases List.eq_nil_or_concat' nodes with rfl | ⟨front, last, rfl⟩
    · exact ⟨list, if_pos (holds.len_eq_zero_iff.mpr rfl), holds⟩
    · obtain ⟨after, popped, left⟩ := holds.listRpop
      refine ⟨after, ?_, ?_⟩
      · rw [callSequence, List.getLast?_concat]
        exact popped
      · rw [callSequence, List.dropLast_concat]
        exact left
  | lpop =>
    cases nodes with
    | nil => exact ⟨list, if_pos (holds.len_eq_zero_iff.mpr rfl), holds⟩
    | cons first rest => exact holds.listLpop
  | remove node =>
    obtain ⟨front, behind, isFirst, rfl, erased⟩ := List.exists_erase_eq allowed
    obtain ⟨after, removed, left⟩ := holds.listRemove
    refine ⟨after, ?_, ?_⟩
    · rw [call, removed]
      rfl
    · rw [callSequence, erased]
      exact left

/-- A list, what its calls have returned, and the same of the sequence of its nodes. -/
structure History (room : NodeRoom) (V : Type) where
  list : LinkedList room V
  returned : List (NodePtr room)
  nodes : List (Fin room.count)
  expected : List (NodePtr room)

/-- A new list. -/
def History.init (places : Fin room.count → Option (ListNode room V)) : History room V :=
  ⟨listNew places, [], [], []⟩

/-- The calls, until one reads a place where no node is. -/
def calls : Machine (Option (History room V)) (Operation room V) where
  step
    | none, _ => none
    | some history, operation => (history.list.call operation).map fun (result, after) =>
      { list := after
        returned := history.returned ++ [result]
        nodes := (callSequence history.nodes operation).2
        expected := history.expected ++ [(callSequence history.nodes operation).1] }

/-- The calls that are made. -/
def AllowedAt : Option (History room V) → Operation room V → Prop
  | none, _ => True
  | some history, operation => Allowed history.list history.nodes operation

instance [DecidableEq V] : ∀ (state : Option (History room V)) operation,
    Decidable (AllowedAt state operation)
  | none, _ => inferInstanceAs (Decidable True)
  | some history, operation =>
    inferInstanceAs (Decidable (Allowed history.list history.nodes operation))

/-- No call has read where no node is, and the list is the sequence. -/
def Kept (state : Option (History room V)) : Prop :=
  ∃ history, state = some history ∧ history.list.Holds history.nodes ∧
    history.returned = history.expected

theorem calls_kept {operations : List (Operation room V)}
    {places : Fin room.count → Option (ListNode room V)}
    (allowed : calls.Guarded AllowedAt (some (History.init places)) operations) :
    Kept (calls.exec (some (History.init places)) operations) := by
  refine allowed.invariant ⟨_, rfl, listNew_holds places, rfl⟩ ?_
  rintro state operation here ⟨history, rfl, holds, same⟩
  obtain ⟨after, called, left⟩ := call_holds holds here
  refine ⟨⟨after, history.returned ++ [(callSequence history.nodes operation).1], _,
    history.expected ++ [(callSequence history.nodes operation).1]⟩, ?_, left, ?_⟩
  · show (history.list.call operation).map _ = _
    rw [called]
    rfl
  · show history.returned ++ _ = history.expected ++ _
    rw [same]

/-! ## Walks -/

/-- The nodes come to from a pointer by one of the two links. -/
inductive Walk (list : LinkedList room V) (link : ListNode room V → NodePtr room) :
    NodePtr room → List (Fin room.count) → Prop
  | null : Walk list link none []
  | node {node : Fin room.count} {held : ListNode room V} {rest : List (Fin room.count)} :
    list.nodes node = some held → Walk list link (link held) rest →
      Walk list link (some node) (node :: rest)

/-- From the head the links to the next nodes come to all of them. -/
theorem Holds.walk_next (holds : list.Holds nodes) : list.Walk ListNode.next list.head nodes := by
  have from_ : ∀ behind before, nodes = before ++ behind →
      list.Walk ListNode.next behind.head? behind := by
    intro behind
    induction behind with
    | nil => exact fun _ _ => Walk.null
    | cons node behind ih =>
      intro before split
      obtain ⟨val, held⟩ := holds.linked before node behind split
      refine Walk.node held (ih (before ++ [node]) ?_)
      rw [split, List.append_assoc]
      rfl
  rw [holds.head]
  exact from_ nodes [] rfl

/-- A walk in the mirror is a walk by the other link. -/
theorem Walk.of_mirror {start : NodePtr room} (walk : list.mirror.Walk ListNode.next start nodes) :
    list.Walk ListNode.prev start nodes := by
  induction walk with
  | null => exact Walk.null
  | @node node held rest there _ ih =>
    obtain ⟨old, found, rfl⟩ := Option.map_eq_some_iff.mp
      (show (list.nodes node).map ListNode.mirror = some held from there)
    exact Walk.node found ih

/-- From the tail the links to the previous nodes come to them in the opposite order. -/
theorem Holds.walk_prev (holds : list.Holds nodes) :
    list.Walk ListNode.prev list.tail nodes.reverse := holds.mirror.walk_next.of_mirror

/-- There is nothing in front of the head. -/
theorem Holds.head_prev (holds : list.Holds nodes) {first : Fin room.count}
    (isHead : list.head = some first) :
    ∃ held, list.nodes first = some held ∧ held.prev = none := by
  cases nodes with
  | nil =>
    rw [holds.head] at isHead
    cases isHead
  | cons node rest =>
    rw [holds.head] at isHead
    cases isHead
    obtain ⟨val, held⟩ := holds.linked [] first rest rfl
    exact ⟨_, held, rfl⟩

/-- There is nothing behind the tail. -/
theorem Holds.tail_next (holds : list.Holds nodes) {last : Fin room.count}
    (isTail : list.tail = some last) :
    ∃ held, list.nodes last = some held ∧ held.next = none := by
  obtain ⟨held, found, front⟩ := holds.mirror.head_prev isTail
  obtain ⟨old, oldFound, rfl⟩ := Option.map_eq_some_iff.mp
    (show (list.nodes last).map ListNode.mirror = some held from found)
  exact ⟨old, oldFound, front⟩

/-! ## Iterations -/

/-- The sequence of the nodes in the direction of an iterator. -/
def Ordered (list : LinkedList room V) :
    ListDirection → List (Fin room.count) → Prop
  | .head, nodes => list.Holds nodes
  | .tail, nodes => list.Holds nodes.reverse

/-- The sequence in a direction. -/
def inOrder (nodes : List (Fin room.count)) : ListDirection → List (Fin room.count)
  | .head => nodes
  | .tail => nodes.reverse

theorem Holds.ordered (holds : list.Holds nodes) (direction : ListDirection) :
    list.Ordered direction (inOrder nodes direction) := by
  cases direction with
  | head => exact holds
  | tail =>
    show list.Holds nodes.reverse.reverse
    rwa [List.reverse_reverse]

section Iterate

variable {direction : ListDirection} {front behind : List (Fin room.count)}

theorem Ordered.nodup (ordered : list.Ordered direction nodes) : nodes.Nodup := by
  cases direction with
  | head => exact Holds.nodup ordered
  | tail => exact List.nodup_reverse.mp (Holds.nodup ordered)

/-- An iterator begins at the first node. -/
theorem Ordered.iteratorNew (ordered : list.Ordered direction nodes) :
    (listIteratorNew list direction).next = nodes.head? := by
  cases direction with
  | head => exact Holds.head ordered
  | tail => exact (Holds.tail ordered).trans List.getLast?_reverse

/-- An iterator goes on to the node behind the one that it returns. -/
theorem Ordered.iteratorNext (ordered : list.Ordered direction (front ++ node :: behind)) :
    listIteratorNext list ⟨some node, direction⟩ =
      some (some node, ⟨behind.head?, direction⟩) := by
  cases direction with
  | head =>
    obtain ⟨val, held⟩ := Holds.linked ordered front node behind rfl
    simp only [listIteratorNext, held, bind, Option.bind_some, pure]
  | tail =>
    obtain ⟨val, held⟩ := Holds.linked ordered behind.reverse node front.reverse
      (by rw [List.reverse_append, List.reverse_cons, List.append_assoc]; rfl)
    simp only [listIteratorNext, held, bind, Option.bind_some, pure, List.getLast?_reverse]

/-- A node is removed, in either direction. -/
theorem Ordered.listRemove (ordered : list.Ordered direction (front ++ node :: behind)) :
    ∃ after, list.listRemove node = some after ∧ after.Ordered direction (front ++ behind) := by
  cases direction with
  | head => exact Holds.listRemove ordered
  | tail =>
    have holds : list.Holds (front ++ node :: behind).reverse := ordered
    rw [List.reverse_append, List.reverse_cons, List.append_assoc] at holds
    obtain ⟨after, removed, left⟩ := Holds.listRemove holds
    refine ⟨after, removed, ?_⟩
    show after.Holds (front ++ behind).reverse
    rwa [List.reverse_append]

end Iterate

/-- What is done in an iteration. -/
inductive SweepStep (room : NodeRoom)
  | next
  | remove (node : Fin room.count)
  deriving DecidableEq

/-- An iteration: what `list_iterator_next` has returned, and the nodes that have been removed. -/
structure Sweep (room : NodeRoom) (V : Type) where
  list : LinkedList room V
  iterator : ListIterator room
  returned : List (NodePtr room)
  removed : List (Fin room.count)

/-- A new iterator. -/
def Sweep.init (list : LinkedList room V) (direction : ListDirection) : Sweep room V :=
  ⟨list, listIteratorNew list direction, [], []⟩

/-- An iteration, until it reads a place where no node is. -/
def sweeps : Machine (Option (Sweep room V)) (SweepStep room) where
  step
    | none, _ => none
    | some sweep, .next => (listIteratorNext sweep.list sweep.iterator).map
        fun (node, iterator) =>
          { sweep with iterator, returned := sweep.returned ++ [node] }
    | some sweep, .remove node => (sweep.list.listRemove node).map fun list =>
        { sweep with list, removed := sweep.removed ++ [node] }

/-- Only nodes that have been returned are removed, and none of them twice. -/
def Returned : Option (Sweep room V) → SweepStep room → Prop
  | some sweep, .remove node => some node ∈ sweep.returned ∧ node ∉ sweep.removed
  | _, _ => True

instance : ∀ (state : Option (Sweep room V)) step, Decidable (Returned state step)
  | some sweep, .remove node =>
    inferInstanceAs (Decidable (some node ∈ sweep.returned ∧ node ∉ sweep.removed))
  | some _, .next | none, .next | none, .remove _ => inferInstanceAs (Decidable True)

/-- The first results of an iteration over these nodes. -/
def results (order : List (Fin room.count)) (number : Nat) : List (NodePtr room) :=
  (order.take number).map some ++ List.replicate (number - order.length) none

/-- After so many calls of `list_iterator_next`: the iterator is at the first of the nodes that it
    has not come to, and of the others those are in the list that have not been removed. -/
structure Sweep.Reached (sweep : Sweep room V) (direction : ListDirection)
    (order : List (Fin room.count)) (number : Nat) : Prop where
  ordered : sweep.list.Ordered direction
    ((order.take number).filter (· ∉ sweep.removed) ++ order.drop number)
  next : sweep.iterator = ⟨(order.drop number).head?, direction⟩
  returned : sweep.returned = results order number
  removed : ∀ node ∈ sweep.removed, node ∈ order.take number
  nodup : order.Nodup

theorem mem_results {order : List (Fin room.count)} {number : Nat} :
    some node ∈ results order number ↔ node ∈ order.take number := by
  rw [results, List.mem_append, List.mem_map]
  constructor
  · rintro (⟨other, member, same⟩ | absent)
    · cases same
      exact member
    · cases List.eq_of_mem_replicate absent
  · intro member
    exact Or.inl ⟨node, member, rfl⟩

/-- A call that comes to no node. -/
theorem results_end {order : List (Fin room.count)} {number : Nat}
    (all : order.drop number = []) : results order (number + 1) = results order number ++ [none] := by
  have atMost := List.drop_eq_nil_iff.mp all
  rw [results, results, List.take_of_length_le atMost, List.take_of_length_le (by omega),
    List.append_assoc, Nat.succ_sub atMost, List.replicate_succ']

/-- A call that comes to a node. -/
theorem results_node {order rest : List (Fin room.count)} {number : Nat}
    (more : order.drop number = node :: rest) :
    order.take (number + 1) = order.take number ++ [node] ∧ order.drop (number + 1) = rest ∧
      results order (number + 1) = results order number ++ [some node] := by
  have found : order[number]? = some node := by
    rw [← List.head?_drop, more]
    rfl
  have inside := (List.getElem?_eq_some_iff.mp found).1
  have taken : order.take (number + 1) = order.take number ++ [node] := by
    rw [List.take_add_one, found]
    rfl
  refine ⟨taken, ?_, ?_⟩
  · rw [← List.drop_drop, more]
    rfl
  · rw [results, results, taken, Nat.sub_eq_zero_of_le inside, Nat.sub_eq_zero_of_le inside.le,
      List.map_append]
    simp only [List.replicate_zero, List.append_nil, List.map_cons, List.map_nil]

section Steps

variable {sweep : Sweep room V} {direction : ListDirection} {order : List (Fin room.count)}
  {number : Nat}

theorem init_reached (ordered : list.Ordered direction order) :
    (Sweep.init list direction).Reached direction order 0 where
  ordered := ordered
  next := by
    have first := ordered.iteratorNew
    show listIteratorNew list direction = _
    rw [List.drop_zero, ← first]
    rfl
  returned := by
    rw [results, Nat.zero_sub]
    rfl
  removed node member := by cases member
  nodup := ordered.nodup

/-- The iterator goes on. -/
theorem Sweep.Reached.next_step (reached : sweep.Reached direction order number) :
    ∃ after, sweeps.step (some sweep) .next = some after ∧
      after.Reached direction order (number + 1) := by
  have ordered := reached.ordered
  have iterator := reached.next
  cases left : order.drop number with
  | nil =>
    have atMost := List.drop_eq_nil_iff.mp left
    have allTaken : order.take (number + 1) = order.take number := by
      rw [List.take_of_length_le atMost, List.take_of_length_le (by omega)]
    have noneLeft : order.drop (number + 1) = [] := List.drop_eq_nil_iff.mpr (by omega)
    rw [left, List.head?_nil] at iterator
    refine ⟨{ sweep with returned := sweep.returned ++ [none] }, ?_, ?_⟩
    · show (listIteratorNext sweep.list sweep.iterator).map _ = _
      rw [iterator]
      rfl
    · refine ⟨?_, ?_, ?_, ?_, reached.nodup⟩
      · rw [allTaken, noneLeft, ← left]
        exact ordered
      · rw [noneLeft]
        exact iterator
      · rw [results_end left, ← reached.returned]
      · rw [allTaken]
        exact reached.removed
  | cons node rest =>
    obtain ⟨taken, dropped, result⟩ := results_node left
    rw [left, List.head?_cons] at iterator
    rw [left] at ordered
    have notYet : node ∉ order.take number := by
      intro member
      have nodup := reached.nodup
      rw [← List.take_append_drop number order, left] at nodup
      exact (List.nodup_append.mp nodup).2.2 node member node (by simp) rfl
    have kept : node ∉ sweep.removed := fun member => notYet (reached.removed node member)
    have filtered : (order.take (number + 1)).filter (· ∉ sweep.removed) =
        (order.take number).filter (· ∉ sweep.removed) ++ [node] := by
      rw [taken, List.filter_append, List.filter_cons_of_pos (by simpa using kept), List.filter_nil]
    refine ⟨{ sweep with
        iterator := ⟨rest.head?, direction⟩, returned := sweep.returned ++ [some node] }, ?_, ?_⟩
    · show (listIteratorNext sweep.list sweep.iterator).map _ = _
      rw [iterator, ordered.iteratorNext]
      rfl
    · refine ⟨?_, ?_, ?_, ?_, reached.nodup⟩
      · rw [filtered, dropped, List.append_assoc]
        exact ordered
      · rw [dropped]
      · rw [result, ← reached.returned]
      · intro other member
        rw [taken]
        exact List.mem_append_left _ (reached.removed other member)

/-- A node that the iteration has come to is removed. -/
theorem Sweep.Reached.remove_step (reached : sweep.Reached direction order number)
    (returned : some node ∈ sweep.returned) (there : node ∉ sweep.removed) :
    ∃ after, sweeps.step (some sweep) (.remove node) = some after ∧
      after.Reached direction order number := by
  rw [reached.returned, mem_results] at returned
  have member : node ∈ (order.take number).filter (· ∉ sweep.removed) :=
    List.mem_filter.mpr ⟨returned, by simpa using there⟩
  have nodup : ((order.take number).filter (· ∉ sweep.removed)).Nodup :=
    (reached.nodup.sublist (List.take_sublist _ _)).filter _
  obtain ⟨front, behind, _, split, erased⟩ := List.exists_erase_eq member
  have ordered := reached.ordered
  rw [split, List.append_assoc, List.cons_append] at ordered
  obtain ⟨list, removed, left⟩ := ordered.listRemove
  have filtered : (order.take number).filter (· ∉ sweep.removed ++ [node]) = front ++ behind := by
    rw [← erased, nodup.erase_eq_filter, List.filter_filter]
    refine List.filter_congr ?_
    intro other _
    simp [and_comm, bne, beq_eq_decide]
  refine ⟨{ sweep with list, removed := sweep.removed ++ [node] }, ?_, ?_, reached.next,
    reached.returned, ?_, reached.nodup⟩
  · show (sweep.list.listRemove node).map _ = _
    rw [removed]
    rfl
  · dsimp only
    rw [filtered, List.append_assoc]
    exact left
  · intro other one
    rcases List.mem_append.mp one with before | here
    · exact reached.removed other before
    · rw [List.mem_singleton.mp here]
      exact returned

/-- After any number of steps the iteration has come to as many nodes as it was asked for. -/
theorem sweeps_reached (ordered : list.Ordered direction order) {steps : List (SweepStep room)}
    (allowed : sweeps.Guarded Returned (some (Sweep.init list direction)) steps) :
    ∃ sweep, sweeps.exec (some (Sweep.init list direction)) steps = some sweep ∧
      sweep.Reached direction order (steps.count .next) := by
  refine allowed.induction (P := fun steps => ∃ sweep,
    sweeps.exec (some (Sweep.init list direction)) steps = some sweep ∧
      sweep.Reached direction order (steps.count .next)) ⟨_, rfl, init_reached ordered⟩ ?_
  rintro steps step _ here ⟨sweep, same, reached⟩
  rw [Machine.exec_concat, same]
  rw [same] at here
  cases step with
  | next =>
    rw [List.count_append, List.count_singleton_self]
    exact reached.next_step
  | remove node =>
    rw [List.count_append, List.count_singleton]
    exact reached.remove_step here.1 here.2

/-- The nodes that have been removed are missing from the list, and no others. -/
theorem Sweep.Reached.ordered_all (reached : sweep.Reached direction order number) :
    sweep.list.Ordered direction (order.filter (· ∉ sweep.removed)) := by
  have kept : (order.drop number).filter (· ∉ sweep.removed) = order.drop number := by
    rw [List.filter_eq_self]
    intro node member
    have nodup := reached.nodup
    rw [← List.take_append_drop number order] at nodup
    have apart := (List.nodup_append.mp nodup).2.2
    exact decide_eq_true fun removed => apart node (reached.removed node removed) node member rfl
  have split : order.filter (· ∉ sweep.removed) =
      (order.take number).filter (· ∉ sweep.removed) ++ order.drop number := by
    rw [← kept, ← List.filter_append, List.take_append_drop]
  rw [split]
  exact reached.ordered

end Steps

/-- Whatever the order of the calls, the list is the sequence that the same calls make of its nodes:
    the links to the next nodes come to all of them and those to the previous ones come to them in
    the opposite order, and every call returns the node that it returns of the sequence. An iteration
    returns the nodes that are there when it begins in the order of its direction, each of them once,
    whichever of those that it has returned are removed meanwhile, and reads no node that is not
    allocated any more. -/
theorem linkedList_sequence (places : Fin room.count → Option (ListNode room V))
    (operations : List (Operation room V))
    (allowed : calls.Guarded AllowedAt (some (History.init places)) operations) :
    ∃ history, calls.exec (some (History.init places)) operations = some history ∧
      history.returned = history.expected ∧
      history.list.Walk ListNode.next history.list.head history.nodes ∧
      history.list.Walk ListNode.prev history.list.tail history.nodes.reverse ∧
      history.list.len.toNat = history.nodes.length ∧
      (∀ first, history.list.head = some first →
        ∃ held, history.list.nodes first = some held ∧ held.prev = none) ∧
      (∀ last, history.list.tail = some last →
        ∃ held, history.list.nodes last = some held ∧ held.next = none) ∧
      ∀ (direction : ListDirection) (steps : List (SweepStep room)),
        sweeps.Guarded Returned (some (Sweep.init history.list direction)) steps →
          ∃ sweep, sweeps.exec (some (Sweep.init history.list direction)) steps = some sweep ∧
            sweep.returned = results (inOrder history.nodes direction) (steps.count .next) ∧
            (inOrder history.nodes direction).Nodup ∧
            sweep.list.Ordered direction
              ((inOrder history.nodes direction).filter (· ∉ sweep.removed)) := by
  obtain ⟨history, reached, holds, same⟩ := calls_kept allowed
  refine ⟨history, reached, same, holds.walk_next, holds.walk_prev, holds.len,
    fun first isHead => holds.head_prev isHead, fun last isTail => holds.tail_next isTail, ?_⟩
  intro direction steps returned
  obtain ⟨sweep, swept, after⟩ := sweeps_reached (holds.ordered direction) returned
  exact ⟨sweep, swept, after.returned, after.nodup, after.ordered_all⟩

/-- Of three nodes the one in the middle is removed, and then each that an iteration returns. -/
theorem linkedList_sequence_three :
    let room : NodeRoom := ⟨3, by decide⟩
    let operations : List (Operation room Bool) :=
      [.nodeNew 0 true, .nodeNew 1 false, .nodeNew 2 true, .rpush (some 0), .lpush (some 1),
        .rpush (some 2), .remove 0]
    ∃ history, calls.exec (some (History.init fun _ => none)) operations = some history ∧
      history.list.len.toNat = history.nodes.length ∧
      ∃ sweep, sweeps.exec (some (Sweep.init history.list .head))
          [.next, .remove 1, .next, .next] = some sweep ∧
        sweep.returned = results history.nodes 3 := by
  intro room operations
  have allowed : calls.Guarded AllowedAt (some (History.init fun _ => none)) operations := by decide
  obtain ⟨history, reached, _, _, _, len, _, _, iterations⟩ :=
    linkedList_sequence (fun _ => none) operations allowed
  have removed : sweeps.Guarded Returned
      ((calls.exec (some (History.init fun _ => none)) operations).map fun history =>
        Sweep.init history.list .head) [.next, .remove 1, .next, .next] := by decide
  rw [reached] at removed
  obtain ⟨sweep, swept, returned, _⟩ := iterations .head _ removed
  exact ⟨history, reached, len, sweep, swept, returned⟩

end LinkedList

end QcloudIot.Utils
