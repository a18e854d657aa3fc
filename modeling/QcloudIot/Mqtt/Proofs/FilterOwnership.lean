import QcloudIot.Misc.Ledger
import QcloudIot.Mqtt.Proofs.Sessions

/-!
# Who owns a stored topic filter

The filter that a subscribe or unsubscribe call allocates belongs to its node in the wait
list, then to an entry of the handler table, and at last to the allocator again. The three
together form a `Ledger` as long as the filter of a node is handed over only once. An
acknowledgement finds its node whatever state the node is in, so a duplicate that comes
before the next sweep hands the same filter over again, and an UNSUBACK that finds no node
at all releases an uninitialised pointer; `World.FiltersExpected` excludes both.
-/

namespace QcloudIot.Mqtt

/-! ## The ledger -/

/-- The filters in the handler table. -/
def tableIdents (subHandles : Fin maxMessageHandlers → SubTopicHandle) : List Nat :=
  (List.finRange maxMessageHandlers).flatMap fun i => freed (subHandles i).topicFilter

/-- The filters that the wait list still owns. -/
def nodeIdents (nodes : List SubInfo) : List Nat := nodes.flatMap SubInfo.held

/-- The filters with an owner. -/
def Store.idents (s : Store) : List Nat :=
  tableIdents s.subHandles ++ nodeIdents s.listSubWaitAck ++ s.heap.released

/-- Every filter has one owner. -/
def Store.Owned (s : Store) : Prop := Ledger s.idents s.heap.next

theorem Store.count_idents (s : Store) (ident : Nat) : s.idents.count ident =
    (tableIdents s.subHandles).count ident + (nodeIdents s.listSubWaitAck).count ident +
      s.heap.released.count ident := by
  rw [Store.idents, List.count_append, List.count_append]

theorem count_tableIdents (subHandles : Fin maxMessageHandlers → SubTopicHandle) (ident : Nat) :
    (tableIdents subHandles).count ident =
      ∑ i, (freed (subHandles i).topicFilter).count ident := by
  rw [tableIdents, List.count_flatMap, Fin.sum_univ_def]
  rfl

/-- The table with another entry owns the filter of the new entry for that of the old. -/
theorem count_tableIdents_update (subHandles : Fin maxMessageHandlers → SubTopicHandle)
    (i : Fin maxMessageHandlers) (entry : SubTopicHandle) (ident : Nat) :
    (tableIdents (Function.update subHandles i entry)).count ident +
        (freed (subHandles i).topicFilter).count ident =
      (tableIdents subHandles).count ident + (freed entry.topicFilter).count ident := by
  have split : ∀ table : Fin maxMessageHandlers → SubTopicHandle,
      (tableIdents table).count ident = (freed (table i).topicFilter).count ident +
        ∑ j ∈ Finset.univ.erase i, (freed (table j).topicFilter).count ident := by
    intro table
    rw [count_tableIdents]
    exact (Finset.add_sum_erase Finset.univ
      (fun j => (freed (table j).topicFilter).count ident) (Finset.mem_univ i)).symm
  have others : ∑ j ∈ Finset.univ.erase i,
      (freed (Function.update subHandles i entry j).topicFilter).count ident =
        ∑ j ∈ Finset.univ.erase i, (freed (subHandles j).topicFilter).count ident := by
    refine Finset.sum_congr rfl fun j member => ?_
    rw [Function.update_of_ne (Finset.ne_of_mem_erase member)]
  rw [split, split subHandles, others, Function.update_self]
  omega

/-- A filter that is released has left the table or the wait list. -/
theorem Store.count_release (s : Store) (filter : Option StoredFilter) (ident : Nat) :
    (s.release filter).idents.count ident =
      s.idents.count ident + (freed filter).count ident := by
  simp only [Store.count_idents, Store.release, List.count_append]
  omega

/-- The marked nodes give up their filters, that of the oldest among them. -/
theorem count_nodeIdents_mask (packetId : UInt16) (nodes : List SubInfo) (ident : Nat) :
    (nodeIdents (nodes.map (SubInfo.mask packetId))).count ident +
        ((nodes.find? fun node => node.msgId = packetId).toList.flatMap SubInfo.held).count ident ≤
      (nodeIdents nodes).count ident := by
  have masked : ∀ node : SubInfo, (node.mask packetId).held.count ident ≤
      node.held.count ident := by
    intro node
    rw [SubInfo.mask]
    split
    · simp [SubInfo.held]
    · exact Nat.le_refl _
  have all : ∀ nodes : List SubInfo, (nodeIdents (nodes.map (SubInfo.mask packetId))).count ident ≤
      (nodeIdents nodes).count ident := by
    intro nodes
    induction nodes with
    | nil => exact Nat.le_refl _
    | cons node nodes ih =>
      simp only [nodeIdents, List.map_cons, List.flatMap_cons, List.count_append] at ih ⊢
      exact Nat.add_le_add (masked node) ih
  induction nodes with
  | nil => exact Nat.le_refl _
  | cons node nodes ih =>
    by_cases same : node.msgId = packetId
    · have gone : (node.mask packetId).held = [] := by
        rw [SubInfo.mask, if_pos same]
        rfl
      have rest := all nodes
      simp only [nodeIdents, List.map_cons, List.flatMap_cons, List.count_append] at rest ⊢
      simp only [List.find?_cons, same, decide_true, Option.toList_some, List.flatMap_singleton,
        gone, List.count_nil]
      omega
    · have first := masked node
      simp only [nodeIdents, List.map_cons, List.flatMap_cons, List.count_append] at ih ⊢
      simp only [List.find?_cons, same, decide_false]
      omega

/-! ## What keeps the ledger -/

/-- The slot into which a new handle goes is empty. -/
theorem subackScan_free {subHandles : Fin maxMessageHandlers → SubTopicHandle}
    {subHandle : SubTopicHandle} {slots : List (Fin maxMessageHandlers)}
    {free : Option (Fin maxMessageHandlers)} {i : Fin maxMessageHandlers}
    (empty : ∀ j, free = some j → (subHandles j).topicFilter = none)
    (scan : (subackScan subHandles subHandle slots free).2 = some i) :
    (subHandles i).topicFilter = none := by
  induction slots generalizing free with
  | nil => exact empty i scan
  | cons j rest ih =>
    rw [subackScan] at scan
    by_cases used : (subHandles j).topicFilter ≠ none
    · rw [if_pos used] at scan
      split at scan
      · exact empty i scan
      · exact ih empty scan
    · rw [if_neg used] at scan
      refine ih ?_ scan
      intro k found
      cases free with
      | some f => exact empty k found
      | none =>
        cases found
        exact not_not.mp used

/-- The filter of a handle that is installed goes to the table, or back to the allocator. -/
theorem Store.count_install (s : Store) (subHandle : SubTopicHandle) (ident : Nat) :
    (s.install subHandle).idents.count ident ≤
      s.idents.count ident + (freed subHandle.topicFilter).count ident := by
  rw [Store.install]
  cases scan : subackScan s.subHandles subHandle (List.finRange maxMessageHandlers) none with
  | mk flagDup iFree =>
    cases flagDup with
    | some i =>
      have update := count_tableIdents_update s.subHandles i
        { s.subHandles i with handlerUserData := subHandle.handlerUserData } ident
      simp only at update
      refine Nat.le_of_eq ((Store.count_release _ _ _).trans ?_)
      simp only [Store.count_idents]
      omega
    | none =>
      cases iFree with
      | some iFree =>
        have update := count_tableIdents_update s.subHandles iFree subHandle ident
        simp only [Store.count_idents]
        omega
      | none => exact Nat.le_add_right _ _

/-- Clearing table entries releases their filters. -/
theorem Store.count_cleared (s : Store) (topicFilter : CStr) (ident : Nat) :
    (s.cleared topicFilter).idents.count ident = s.idents.count ident := by
  have entry : ∀ h : SubTopicHandle, (freed (h.cleared topicFilter).topicFilter).count ident +
      (h.clearFreed topicFilter).count ident = (freed h.topicFilter).count ident := by
    intro h
    rw [SubTopicHandle.cleared, SubTopicHandle.clearFreed]
    split
    · simp [freed]
    · simp
  have table : (tableIdents fun i => (s.subHandles i).cleared topicFilter).count ident +
      ((List.finRange maxMessageHandlers).flatMap fun i =>
        (s.subHandles i).clearFreed topicFilter).count ident =
      (tableIdents s.subHandles).count ident := by
    rw [count_tableIdents, count_tableIdents, List.count_flatMap, ← Fin.sum_univ_def]
    rw [← Finset.sum_congr rfl fun i _ => entry (s.subHandles i), Finset.sum_add_distrib]
    rfl
  simp only [Store.count_idents, Store.cleared, List.count_append]
  omega

/-- The node that an acknowledgement finds still owns its filter; if it finds none, the handle
    to be released is `NULL`. -/
def HandleOwned (junk : SubTopicHandle) : Option SubInfo → Prop
  | none => junk.topicFilter = none
  | some node => node.nodeState = .normanl

instance (junk : SubTopicHandle) : ∀ acked, Decidable (HandleOwned junk acked)
  | none => inferInstanceAs (Decidable (_ = _))
  | some _ => inferInstanceAs (Decidable (_ = _))

/-- An acknowledgement that is read hands a filter over that is owned. -/
def World.AckOwned (w : World) : Option Ack → Prop
  | some (.suback packetId _) => HandleOwned .zero (w.acked packetId)
  | some (.unsuback packetId) => HandleOwned (w.env.stack.headD .zero) (w.acked packetId)
  | _ => True

instance (w : World) : ∀ ack, Decidable (w.AckOwned ack)
  | some (.suback _ _) => inferInstanceAs (Decidable (HandleOwned _ _))
  | some (.unsuback _) => inferInstanceAs (Decidable (HandleOwned _ _))
  | none | some (.puback _) => .isTrue trivial

/-- The call hands over no filter that was handed over before. -/
def World.FiltersExpected (w : World) : Call → Prop
  | .cycleForRead _ => w.AckOwned w.inbound
  | _ => True

instance (w : World) : ∀ call, Decidable (w.FiltersExpected call)
  | .cycleForRead _ => inferInstanceAs (Decidable (w.AckOwned _))
  | .publish _ _ | .subscribe _ _ | .unsubscribe _ | .pubInfoProc | .subInfoProc
  | .upkeep _ => .isTrue trivial

/-- The oldest node with the id, if it owns its filter, gives it up when it is marked. -/
theorem count_masked {w : World} {packetId : UInt16} {node : SubInfo}
    (acked : w.acked packetId = some node) (normanl : node.nodeState = .normanl) (ident : Nat) :
    (w.store.masked packetId).idents.count ident +
      (freed node.handler.topicFilter).count ident ≤ w.store.idents.count ident := by
  have found : w.client.listSubWaitAck.find? (fun node => node.msgId = packetId) = some node := by
    rw [World.acked] at acked
    split at acked
    · exact acked
    · cases acked
  have given := count_nodeIdents_mask packetId w.client.listSubWaitAck ident
  rw [found, Option.toList_some, List.flatMap_singleton, SubInfo.held, if_pos normanl] at given
  simp only [Store.count_idents, Store.masked, World.store_listSubWaitAck]
  omega

theorem Store.Owned.suback {w : World} {packetId : UInt16} {grantedQoS : List UInt8}
    (owned : w.store.Owned) (expected : HandleOwned .zero (w.acked packetId)) :
    (w.store.suback packetId grantedQoS (w.acked packetId)).Owned := by
  cases acked : w.acked packetId with
  | none => exact owned
  | some node =>
    rw [acked] at expected
    have given := count_masked acked expected
    have next : (w.store.suback packetId grantedQoS (some node)).heap.next = w.heap.next := by
      rw [Store.suback, Store.handOver, Store.install]
      split
      · rfl
      · split
        · rfl
        · split <;> rfl
    rw [Store.Owned, next]
    refine Ledger.move owned fun ident => ?_
    have moved := given ident
    rw [Store.suback, Store.handOver]
    split
    · omega
    · split
      · rw [Store.count_release]
        omega
      · have installed := Store.count_install (w.store.masked packetId) node.handler ident
        omega

theorem Store.Owned.unsuback {w : World} {packetId : UInt16} {junk : SubTopicHandle}
    (owned : w.store.Owned) (expected : HandleOwned junk (w.acked packetId)) :
    (w.store.unsuback packetId junk (w.acked packetId)).Owned := by
  cases acked : w.acked packetId with
  | none =>
    rw [acked] at expected
    have unchanged : w.store.unsuback packetId junk none = w.store := by
      rw [Store.unsuback, Store.release, expected, freed, List.append_nil]
    rw [unchanged]
    exact owned
  | some node =>
    rw [acked] at expected
    refine Ledger.move owned fun ident => ?_
    have moved := count_masked acked expected ident
    rw [Store.unsuback, Store.count_release]
    omega

theorem Store.Owned.cleared {s : Store} (owned : s.Owned) (topicFilter : CStr) :
    (s.cleared topicFilter).Owned :=
  Ledger.move owned fun ident => Nat.le_of_eq (s.count_cleared topicFilter ident)

theorem Store.Owned.request {s : Store} (owned : s.Owned) {node : SubInfo} {text : CStr}
    (filter : node.handler.topicFilter = some ⟨s.heap.next, text⟩) : (s.request node).Owned := by
  have held : node.held.Sublist [s.heap.next] := by
    rw [SubInfo.held, filter]
    split
    · exact List.Sublist.refl _
    · exact List.nil_sublist _
  refine Ledger.move (Ledger.mint owned) fun ident => ?_
  have counted := held.count_le ident
  simp only [Store.request, Store.count_idents, nodeIdents, List.flatMap_append,
    List.flatMap_singleton, List.count_append] at counted ⊢
  omega

theorem Store.Owned.refused {s s' : Store} (owned : s.Owned) (refused : s.Refused s') :
    s'.Owned := by
  rcases refused with rfl | rfl
  · exact owned
  · refine Ledger.move (Ledger.mint owned) fun ident => ?_
    simp only [Store.discard, Store.count_idents, List.count_append]
    omega

/-- One call keeps the ledger. -/
theorem owned_step {w : World} {call : Call} (expected : w.FiltersExpected call)
    (owned : w.store.Owned) : (w.after call).store.Owned := by
  have cleared : ∀ topicFilter, (w.afterClearing topicFilter).store.Owned := by
    intro topicFilter
    rcases w.afterClearing_store topicFilter with same | cleared
    · rw [same]
      exact owned
    · rw [cleared]
      exact owned.cleared topicFilter
  have step := w.after_store call
  cases step with
  | subscribed _ _ _ _ handler store =>
    rw [store]
    exact owned.request (by rw [handler]; rfl)
  | subscribeRefused refused => exact owned.refused refused
  | @unsubscribed topicFilter node qos _ _ _ _ handler store =>
    have next : (w.afterClearing topicFilter).store.heap.next = w.heap.next :=
      w.afterClearing_next topicFilter
    rw [store]
    exact (cleared topicFilter).request (by rw [handler, next]; rfl)
  | @unsubscribeRefused topicFilter _ refused => exact (cleared topicFilter).refused refused
  | subacked read store =>
    rw [World.FiltersExpected, read] at expected
    rw [store]
    exact owned.suback expected
  | unsubacked read store =>
    rw [World.FiltersExpected, read] at expected
    rw [store]
    exact owned.unsuback expected
  | swept swept store =>
    rw [store]
    refine Ledger.move owned fun ident => ?_
    have moved := swept.count ident
    simp only [Store.count_idents, List.count_append, nodeIdents, World.store_listSubWaitAck,
      World.store_heap] at moved ⊢
    omega
  | other _ store =>
    rw [store]
    exact owned

theorem owned_run {w : World} (fresh : w.Fresh) {calls : List Call}
    (expected : session.Guarded World.FiltersExpected w calls) :
    (session.exec w calls).store.Owned := by
  refine Machine.Guarded.invariant (I := fun w => w.store.Owned) ?_ (fun _ _ => owned_step) expected
  have nobody : w.store.idents = [] := by
    have table : tableIdents w.client.subHandles = [] := by
      refine List.flatMap_eq_nil_iff.mpr fun i _ => ?_
      rw [fresh.subHandles i]
      rfl
    rw [Store.idents, World.store_subHandles, table, World.store_listSubWaitAck,
      fresh.listSubWaitAck, World.store_heap, fresh.released]
    rfl
  rw [Store.Owned, nobody]
  exact ledger_nil _

/-! ## Released once, and not used any more -/

/-- A filter is released at most once and only if it was allocated, and no table entry and no
    node that still waits holds a filter that was released. -/
structure World.FiltersOwned (w : World) : Prop where
  releasedOnce : w.heap.released.Nodup
  allocated : ∀ ident ∈ w.heap.released, ident < w.heap.next
  table : ∀ i stored, (w.client.subHandles i).topicFilter = some stored →
    stored.ident ∉ w.heap.released
  waiting : ∀ node ∈ w.client.listSubWaitAck, node.nodeState = .normanl →
    ∀ stored, node.handler.topicFilter = some stored → stored.ident ∉ w.heap.released

theorem Store.Owned.filtersOwned {w : World} (owned : w.store.Owned) : w.FiltersOwned where
  releasedOnce := (List.nodup_append.mp owned.once).2.1
  allocated := fun ident member => owned.minted ident (List.mem_append_right _ member)
  table := by
    intro i stored held
    refine Ledger.apart owned (List.mem_append_left _ ?_)
    refine List.mem_flatMap.mpr ⟨i, List.mem_finRange i, ?_⟩
    rw [World.store_subHandles, held]
    exact List.mem_singleton.mpr rfl
  waiting := by
    intro node member normanl stored held
    refine Ledger.apart owned (List.mem_append_right _ ?_)
    refine List.mem_flatMap.mpr ⟨node, member, ?_⟩
    rw [SubInfo.held, if_pos normanl, held]
    exact List.mem_singleton.mpr rfl

/-- In a session that hands every filter over at most once, filters are owned. -/
theorem filters_owned (w : World) (fresh : w.Fresh) (calls : List Call)
    (expected : session.Guarded World.FiltersExpected w calls) :
    (session.exec w calls).FiltersOwned :=
  (owned_run fresh expected).filtersOwned

/-! ## Two sessions -/

/-- A connected client to which the peer has sent `stream`, before it subscribes. -/
def subscribing (stream : List UInt8) : World :=
  let c := qcloudIotMqttInit ⟨⟨[97], CStr.noNul_a⟩, 5000, 240000, 1, 1, some 1⟩ 5
  let w := World.initial { c with isConnected := true }
    { Env.exhausted with
      writes := List.replicate 3 { rc := qcloudRetSuccess, written := 8,
                                    nonpos := qcloudRetSuccess_nonpos }
      reads := List.replicate 12 { avail := 3, err := qcloudErrTcpReadFail,
                                    negative := qcloudErrTcpReadFail_negative,
                                    driver := qcloudErrTcpReadFail_driver } }
  { w with net := { w.net with stream := stream } }

theorem subscribing_fresh (stream : List UInt8) : (subscribing stream).Fresh :=
  ⟨rfl, rfl, fun _ => rfl, rfl, rfl⟩

/-- The client subscribes to `a`, which takes packet id 7. -/
def subscribeA : Call := .subscribe ⟨[97], CStr.noNul_a⟩ ⟨.qos1, some 2, none, 0⟩

/-- One SUBACK is read. -/
theorem filters_owned_suback :
    (session.exec (subscribing [0x90, 3, 0, 7, 1]) [subscribeA, .cycleForRead ⟨1⟩]).FiltersOwned :=
  filters_owned _ (subscribing_fresh _) _ (by decide +kernel)

/-- The SUBACK is duplicated: the filter of the entry that the first one installed is released
    by the second. -/
theorem filter_released_in_use :
    ¬ ∀ w : World, w.Fresh → ∀ calls, (session.exec w calls).FiltersOwned := by
  intro owned
  have used := (owned (subscribing [0x90, 3, 0, 7, 1, 0x90, 3, 0, 7, 1]) (subscribing_fresh _)
    [subscribeA, .cycleForRead ⟨1⟩, .cycleForRead ⟨1⟩]).table 0 ⟨0, ⟨[97], by decide⟩⟩
    (by decide +kernel)
  exact absurd (by decide +kernel) used

end QcloudIot.Mqtt
