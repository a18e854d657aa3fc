import QcloudIot.Coap.OptionList

/-!
# The order of the options

What a sequence of calls of `coap_message_option_add` makes of an empty list: its nodes in the order
of their numbers, those with equal numbers in the order of the calls, and `list->last` at the end.
-/

namespace QcloudIot.Coap

/-- The number of the option that has been added by a call. -/
def numAt (options : List CoapMsgOption) (i : Nat) : Nat :=
  ((options[i]?).map CoapMsgOption.optionNum).getD 0

/-- An option comes in front of another one: its number is less, or equal and it has been added
    before. -/
def Before (options : List CoapMsgOption) (i j : Nat) : Prop :=
  numAt options i < numAt options j ∨ numAt options i = numAt options j ∧ i < j

/-- The list leads over the nodes of `chain`, which are those of all options that have been added,
    each of them once and in order, and `list->last` is the last one. -/
structure CoapMsgOptionList.InOrder (list : CoapMsgOptionList) (options : List CoapMsgOption)
    (chain : List Nat) : Prop where
  links : Segment list.nodes list.first chain none
  last : list.last = chain.getLast?
  once : chain.Perm (List.range options.length)
  values : list.nodes.map ChainNode.value = options
  sorted : chain.Pairwise (Before options)

section Order

variable {list : CoapMsgOptionList} {options : List CoapMsgOption} {option : CoapMsgOption}
  {nodes : List (ChainNode CoapMsgOption)} {chain front back : List Nat} {last : Option Nat}
  {i j num : Nat}

theorem numAt_append (inside : i < options.length) :
    numAt (options ++ [option]) i = numAt options i := by
  rw [numAt, numAt, List.getElem?_append_left inside]

theorem numAt_length : numAt (options ++ [option]) options.length = option.optionNum := by
  rw [numAt, List.getElem?_concat_length]
  rfl

theorem map_value_setNext (nodes : List (ChainNode CoapMsgOption)) (i : Nat) (q : Option Nat) :
    (setNext nodes i q).map ChainNode.value = nodes.map ChainNode.value := by
  refine List.ext_getElem? fun j => ?_
  rw [List.getElem?_map, List.getElem?_map, setNext_value]

/-- The number of a node. -/
theorem numAt_of_getElem? (values : nodes.map ChainNode.value = options)
    {node : ChainNode CoapMsgOption} (found : nodes[i]? = some node) :
    node.value.optionNum = numAt options i := by
  rw [numAt, ← values, List.getElem?_map, found]
  rfl

/-! ## The loop -/

/-- The loop stops at the last node of those whose numbers are not greater. Induction on the nodes in
    front of it. -/
theorem optionPlace_eq (values : nodes.map ChainNode.value = options) {fuel : Nat} {p : Option Nat}
    (links : Segment nodes p (front ++ i :: back) none) (distinct : (front ++ i :: back).Nodup)
    (isLast : last = (front ++ i :: back).getLast?)
    (notGreater : ∀ j ∈ front ++ [i], numAt options j ≤ num)
    (greater : ∀ j ∈ back, num < numAt options j) (enough : front.length < fuel) :
    optionPlace nodes last num fuel p = some (if back = [] then none else some i) := by
  induction front generalizing p fuel with
  | nil =>
    obtain ⟨fuel, rfl⟩ : ∃ k, fuel = k + 1 := ⟨fuel - 1, by omega⟩
    obtain ⟨rfl, node, found, later⟩ := links
    rw [optionPlace]
    cases back with
    | nil =>
      have same : some i = last := isLast.symm
      rw [if_pos same, if_pos rfl]
    | cons b back =>
      have other : ¬ some i = last := by
        rintro same
        rw [isLast, List.nil_append, List.getLast?_cons_cons] at same
        exact (List.nodup_cons.mp distinct).1 (List.mem_of_getLast? same.symm)
      obtain ⟨isNext, next, nextFound, _⟩ := later
      have low : node.value.optionNum ≤ num := by
        rw [numAt_of_getElem? values found]
        exact notGreater i List.mem_cons_self
      have high : num < next.value.optionNum := by
        rw [numAt_of_getElem? values nextFound]
        exact greater b List.mem_cons_self
      have derefNode : deref nodes (some i) = some node := found
      have derefNext : deref nodes node.next = some next := by
        rw [isNext]
        exact nextFound
      rw [if_neg other, derefNode, Option.bind_eq_bind, Option.bind_some, if_pos low, derefNext,
        Option.bind_some, if_pos high, if_neg (List.cons_ne_nil b back)]
      rfl
  | cons x front ih =>
    obtain ⟨fuel, rfl⟩ : ∃ k, fuel = k + 1 := ⟨fuel - 1, by omega⟩
    obtain ⟨rfl, node, found, later⟩ := links
    have tail : last = (front ++ i :: back).getLast? := by
      rw [isLast, List.cons_append]
      cases front <;> exact List.getLast?_cons_cons
    have other : ¬ some x = last := by
      rintro same
      rw [tail] at same
      exact (List.nodup_cons.mp distinct).1 (List.mem_of_getLast? same.symm)
    have goesOn := ih later (List.nodup_cons.mp distinct).2 tail
      (fun j mem => notGreater j (List.mem_cons_of_mem x mem)) (Nat.lt_of_succ_lt_succ enough)
    -- The next node is not greater either.
    obtain ⟨y, rest, isRest, mem⟩ : ∃ y rest, front ++ i :: back = y :: rest ∧ y ∈ front ++ [i] := by
      cases front with
      | nil => exact ⟨i, back, rfl, List.mem_cons_self⟩
      | cons y front => exact ⟨y, front ++ i :: back, rfl, List.mem_cons_self⟩
    have along : Segment nodes node.next (front ++ i :: back) none := later
    rw [isRest] at along
    obtain ⟨isNext, next, nextFound, _⟩ := along
    have low : ¬ num < next.value.optionNum := by
      rw [numAt_of_getElem? values nextFound]
      exact Nat.not_lt.mpr (notGreater y (List.mem_cons_of_mem x mem))
    have derefNode : deref nodes (some x) = some node := found
    have derefNext : deref nodes node.next = some next := by
      rw [isNext]
      exact nextFound
    rw [optionPlace, if_neg other, derefNode, Option.bind_eq_bind, Option.bind_some, derefNext,
      Option.bind_some, if_neg low, goesOn, ite_self]

/-! ## A call -/

/-- The nodes whose numbers are not greater come first. -/
theorem exists_split (num : Nat) (sorted : chain.Pairwise (Before options)) :
    ∃ front back, chain = front ++ back ∧ (∀ j ∈ front, numAt options j ≤ num) ∧
      ∀ j ∈ back, num < numAt options j := by
  induction chain with
  | nil => exact ⟨[], [], rfl, List.forall_mem_nil _, List.forall_mem_nil _⟩
  | cons c chain ih =>
    obtain ⟨before, sorted⟩ := List.pairwise_cons.mp sorted
    by_cases low : numAt options c ≤ num
    · obtain ⟨front, back, rfl, notGreater, greater⟩ := ih sorted
      exact ⟨c :: front, back, rfl, List.forall_mem_cons.mpr ⟨low, notGreater⟩, greater⟩
    · refine ⟨[], c :: chain, rfl, List.forall_mem_nil _,
        List.forall_mem_cons.mpr ⟨Nat.not_le.mp low, ?_⟩⟩
      intro j mem
      rcases before j mem with less | ⟨same, _⟩
      · omega
      · omega

/-- The order when an option has been added between those that are not greater and those that are. -/
theorem sorted_insert (once : (front ++ back).Perm (List.range options.length))
    (sorted : (front ++ back).Pairwise (Before options))
    (notGreater : ∀ j ∈ front, numAt options j ≤ option.optionNum)
    (greater : ∀ j ∈ back, option.optionNum < numAt options j) :
    (front ++ options.length :: back).Perm (List.range (options ++ [option]).length) ∧
      (front ++ options.length :: back).Pairwise (Before (options ++ [option])) := by
  have inside : ∀ j ∈ front ++ back, j < options.length :=
    fun j mem => List.mem_range.mp (once.mem_iff.mp mem)
  constructor
  · rw [List.length_append, List.length_singleton, List.range_succ]
    exact (List.perm_middle.trans (once.cons _)).trans (List.perm_append_singleton _ _).symm
  · have kept : (front ++ back).Pairwise (Before (options ++ [option])) := by
      refine sorted.imp_of_mem ?_
      intro i j first second before
      unfold Before at before ⊢
      rwa [numAt_append (inside i first), numAt_append (inside j second)]
    obtain ⟨frontSorted, backSorted, cross⟩ := List.pairwise_append.mp kept
    refine List.pairwise_append.mpr ⟨frontSorted, List.pairwise_cons.mpr ⟨?_, backSorted⟩, ?_⟩
    · intro j mem
      refine .inl ?_
      rw [numAt_length, numAt_append (inside j (List.mem_append_right _ mem))]
      exact greater j mem
    · intro i first j second
      rcases List.mem_cons.mp second with rfl | second
      · have low := notGreater i first
        have below := inside i (List.mem_append_left _ first)
        unfold Before
        rw [numAt_length, numAt_append below]
        omega
      · exact cross i first j second

/-- A call keeps the order. -/
theorem optionListAdd_inOrder (inOrder : list.InOrder options chain) (num : Nat)
    (val : List UInt8) : ∃ list' chain', optionListAdd list num val = some list' ∧
      list'.InOrder (options ++ [⟨num % 2 ^ 16, val⟩]) chain' := by
  obtain ⟨links, isLast, once, values, sorted⟩ := inOrder
  have isOption : ∃ option : CoapMsgOption, option = ⟨num % 2 ^ 16, val⟩ := ⟨_, rfl⟩
  obtain ⟨option, isOption⟩ := isOption
  have length : list.nodes.length = options.length := by rw [← values, List.length_map]
  have inside : ∀ j ∈ chain, j < options.length :=
    fun j mem => List.mem_range.mp (once.mem_iff.mp mem)
  have distinct : chain.Nodup := once.nodup_iff.mpr List.nodup_range
  have fresh : options.length ∉ chain := fun mem => Nat.lt_irrefl _ (inside _ mem)
  -- The new node lies behind the others.
  obtain ⟨nodes, isNodes⟩ : ∃ nodes, nodes = list.nodes ++ [⟨option, none⟩] := ⟨_, rfl⟩
  have newValues : nodes.map ChainNode.value = options ++ [option] := by
    rw [isNodes, List.map_append, values]
    rfl
  have newFound : nodes[options.length]? = some ⟨option, none⟩ := by
    rw [isNodes, ← length, List.getElem?_concat_length]
  have newLinks : Segment nodes list.first chain none := by
    refine links.congr fun j mem => ?_
    rw [isNodes, List.getElem?_append_left (length.symm ▸ inside j mem)]
  obtain ⟨front, back, rfl, notGreater, greater⟩ := exists_split option.optionNum sorted
  obtain ⟨newOnce, newSorted⟩ := sorted_insert once sorted notGreater greater
  unfold optionListAdd
  rw [← isOption, length]
  dsimp only
  rw [← isNodes]
  rcases List.eq_nil_or_concat' front with rfl | ⟨front, i, rfl⟩
  · cases back with
    | nil =>
      have none_ : list.first = none := newLinks
      rw [none_]
      refine ⟨_, [options.length], rfl, ⟨rfl, _, newFound, rfl⟩, rfl, newOnce, newValues, newSorted⟩
    | cons c back =>
      obtain ⟨start, node, found, later⟩ := newLinks
      have first : node.value.optionNum = numAt options c := by
        rw [numAt_of_getElem? newValues found, numAt_append (inside c List.mem_cons_self)]
      have less : option.optionNum < node.value.optionNum := by
        rw [first]
        exact greater c List.mem_cons_self
      have derefFirst : deref nodes (some c) = some node := found
      rw [start]
      dsimp only
      rw [derefFirst, Option.bind_eq_bind, Option.bind_some, if_pos less]
      refine ⟨_, options.length :: c :: back, rfl, ⟨rfl, _, setNext_same newFound _, ?_⟩, ?_, newOnce,
        (map_value_setNext _ _ _).trans newValues, newSorted⟩
      · refine @Segment.congr _ nodes _ _ _ _ ⟨rfl, node, found, later⟩ fun j mem => ?_
        refine setNext_other ?_ _
        rintro rfl
        exact fresh mem
      · rw [isLast]
        exact List.getLast?_cons_cons.symm
  · have low : ∀ j ∈ front ++ [i], numAt (options ++ [option]) j ≤ option.optionNum := by
      intro j mem
      rw [numAt_append (inside j (List.mem_append_left _ mem))]
      exact notGreater j mem
    have high : ∀ j ∈ back, option.optionNum < numAt (options ++ [option]) j := by
      intro j mem
      rw [numAt_append (inside j (List.mem_append_right _ mem))]
      exact greater j mem
    have few : front.length < options.length + 1 := by
      have count := once.length_eq
      rw [List.length_range, List.length_append, List.length_append] at count
      omega
    have placed : optionPlace nodes list.last option.optionNum (options.length + 1) list.first =
        some (if back = [] then none else some i) := by
      rw [← List.append_cons] at newLinks distinct isLast
      exact optionPlace_eq newValues newLinks distinct isLast low high few
    -- The first node is not greater.
    obtain ⟨c, rest, isRest, mem⟩ : ∃ c rest, front ++ [i] ++ back = c :: rest ∧
        c ∈ front ++ [i] := by
      cases front with
      | nil => exact ⟨i, back, rfl, List.mem_cons_self⟩
      | cons c front => exact ⟨c, front ++ [i] ++ back, rfl, List.mem_cons_self⟩
    have along := newLinks
    rw [isRest] at along
    obtain ⟨start, node, found, _⟩ := along
    have notLess : ¬ option.optionNum < node.value.optionNum := by
      rw [numAt_of_getElem? newValues found]
      exact Nat.not_lt.mpr (low c mem)
    have derefFirst : deref nodes (some c) = some node := found
    obtain ⟨r, frontLinks, backLinks⟩ := segment_append.mp newLinks
    rw [start] at placed ⊢
    dsimp only
    simp only [derefFirst, Option.bind_eq_bind, Option.bind_some, if_neg notLess, placed]
    cases back with
    | nil =>
      have lastIs : list.last = some i := by
        rw [isLast, List.append_nil]
        exact List.getLast?_concat
      rw [if_pos rfl, lastIs]
      refine ⟨_, front ++ [i] ++ [options.length], rfl, ?_, List.getLast?_concat.symm, newOnce,
        (map_value_setNext _ _ _).trans newValues, newSorted⟩
      rw [start] at newLinks
      exact newLinks.insert distinct fresh newFound rfl
    | cons b back =>
      obtain ⟨iNode, iFound, iNext⟩ := frontLinks.last_next
      have derefPlace : deref nodes (some i) = some iNode := iFound
      rw [if_neg (List.cons_ne_nil b back)]
      dsimp only
      rw [derefPlace, Option.bind_some, iNext]
      have other : ∀ j ∈ front ++ [i] ++ b :: back,
          (setNext nodes options.length r)[j]? = nodes[j]? := by
        intro j mem
        refine setNext_other ?_ _
        rintro rfl
        exact fresh mem
      refine ⟨_, front ++ [i] ++ options.length :: b :: back, rfl, ?_, ?_, newOnce,
        (map_value_setNext _ _ _).trans ((map_value_setNext _ _ _).trans newValues), newSorted⟩
      · rw [start] at newLinks
        exact (newLinks.congr other).insert distinct fresh (setNext_same newFound r)
          (backLinks.congr fun j mem => other j (List.mem_append_right _ mem))
      · rw [isLast, List.getLast?_append_cons, List.getLast?_append_cons, List.getLast?_cons_cons]

/-- A sequence of calls keeps the order. Induction on the calls. -/
theorem optionListAddAll_inOrder (inOrder : list.InOrder options chain)
    (adds : List (Nat × List UInt8)) : ∃ list' chain', optionListAddAll list adds = some list' ∧
      list'.InOrder (options ++ adds.map fun add => ⟨add.1 % 2 ^ 16, add.2⟩) chain' := by
  induction adds generalizing list options chain with
  | nil =>
    refine ⟨list, chain, rfl, ?_⟩
    rw [List.map_nil, List.append_nil]
    exact inOrder
  | cons add adds ih =>
    obtain ⟨list', chain', added, inOrder'⟩ := optionListAdd_inOrder inOrder add.1 add.2
    obtain ⟨list'', chain'', later, inOrder''⟩ := ih inOrder'
    refine ⟨list'', chain'', ?_, ?_⟩
    · rw [optionListAddAll, added]
      exact later
    · rw [List.map_cons, List.append_cons]
      exact inOrder''

/-- The node that `list->last` points to has no next one. -/
theorem CoapMsgOptionList.InOrder.last_next (inOrder : list.InOrder options chain)
    (isLast : list.last = some i) :
    ∃ node, list.nodes[i]? = some node ∧ node.next = none := by
  rw [inOrder.last] at isLast
  obtain ⟨front, rfl⟩ := List.getLast?_eq_some_iff.mp isLast
  exact inOrder.links.last_next

/-- From the empty list on, calls with numbers up to 65535 make a list of exactly the options that
    have been added, each of them once, in the order of their numbers and those with equal numbers in
    the order of the calls; `list->last` is its last node and has no next one. -/
theorem optionList_ordered (adds : List (Nat × List UInt8)) (small : ∀ add ∈ adds, add.1 ≤ 65535) :
    ∃ list chain, optionListAddAll .empty adds = some list ∧
      list.InOrder (adds.map fun add => ⟨add.1, add.2⟩) chain ∧
      ∀ i, list.last = some i → ∃ node, list.nodes[i]? = some node ∧ node.next = none := by
  have start : CoapMsgOptionList.empty.InOrder [] [] :=
    ⟨rfl, rfl, List.Perm.refl _, rfl, List.Pairwise.nil⟩
  obtain ⟨list, chain, added, inOrder⟩ := optionListAddAll_inOrder start adds
  refine ⟨list, chain, added, ?_, fun i isLast => inOrder.last_next isLast⟩
  have same : (adds.map fun add => (⟨add.1 % 2 ^ 16, add.2⟩ : CoapMsgOption)) =
      adds.map fun add => ⟨add.1, add.2⟩ := by
    refine List.map_congr_left fun add mem => ?_
    have below := small add mem
    rw [Nat.mod_eq_of_lt (by omega)]
  rw [List.nil_append, same] at inOrder
  exact inOrder

end Order

/-- Three options, of which the second and the third have equal numbers. -/
theorem optionList_ordered_three :
    ∃ list chain, optionListAddAll .empty [(15, [1]), (11, [2]), (11, [3])] = some list ∧
      list.InOrder [⟨15, [1]⟩, ⟨11, [2]⟩, ⟨11, [3]⟩] chain ∧
      ∀ i, list.last = some i → ∃ node, list.nodes[i]? = some node ∧ node.next = none :=
  optionList_ordered [(15, [1]), (11, [2]), (11, [3])] (by decide)

end QcloudIot.Coap
