import QcloudIot.Mqtt.Proofs.FilterOwnership

/-!
# Where the entries of the handler table come from

An entry of the handler table stands for a SUBSCRIBE of the application that the peer has
granted. SUBSCRIBE and UNSUBSCRIBE requests wait in one list, and `_mask_sub_info_from` looks
for the packet id of an acknowledgement alone, so a SUBACK can find the node of an
UNSUBSCRIBE and install it, and an UNSUBACK can find that of a SUBSCRIBE and drop it; and
every return code but 0x80 counts as a grant, a missing one too. `World.AcksFit` excludes
these acknowledgements.
-/

namespace QcloudIot.Mqtt

/-! ## Provenance -/

/-- The first return code of a SUBACK is a granted quality of service. -/
def Granted : List UInt8 → Prop
  | [] => False
  | code :: _ => code ≤ 2

instance : ∀ codes, Decidable (Granted codes)
  | [] => .isFalse id
  | code :: _ => inferInstanceAs (Decidable (code ≤ 2))

/-- Call number `j` of the session is a subscribe call for `handle` that returned
    `packetId`. -/
def SubscribedAt (w : World) (calls : List Call) (j : Nat) (packetId : UInt16)
    (handle : SubTopicHandle) : Prop :=
  ∃ topicFilter params stored, calls[j]? = some (.subscribe topicFilter params) ∧
    (w.at calls j).returns (.subscribe topicFilter params) = (packetId.toNat : Int) ∧
    stored.text = topicFilter ∧ handle = params.handle stored

/-- Call number `k` of the session reads a SUBACK for `packetId` that grants it. -/
def GrantedAt (w : World) (calls : List Call) (k : Nat) (packetId : UInt16) : Prop :=
  ∃ timer grantedQoS, calls[k]? = some (.cycleForRead timer) ∧
    (w.at calls k).inbound = some (.suback packetId grantedQoS) ∧ Granted grantedQoS

/-- Two handles agree in everything but the user data, which a second SUBSCRIBE of the same
    filter and handlers replaces. -/
def SubTopicHandle.SameHandler (a b : SubTopicHandle) : Prop :=
  a.topicFilter = b.topicFilter ∧ a.messageHandler = b.messageHandler ∧
    a.subEventHandler = b.subEventHandler ∧ a.qos = b.qos

theorem SubTopicHandle.SameHandler.trans {a b c : SubTopicHandle} (first : a.SameHandler b)
    (second : b.SameHandler c) : a.SameHandler c :=
  ⟨first.1.trans second.1, first.2.1.trans second.2.1, first.2.2.1.trans second.2.2.1,
    first.2.2.2.trans second.2.2.2⟩

/-- Slot `i` was empty before a SUBACK granted a SUBSCRIBE of the application, and has held
    the handle of that SUBSCRIBE ever since. -/
def Installed (w : World) (calls : List Call) (i : Fin maxMessageHandlers) : Prop :=
  ∃ j k packetId handle, j < k ∧ k < calls.length ∧ SubscribedAt w calls j packetId handle ∧
    GrantedAt w calls k packetId ∧ ((w.at calls k).client.subHandles i).topicFilter = none ∧
    ∀ m, k < m → m ≤ calls.length → ((w.at calls m).client.subHandles i).SameHandler handle

theorem SubscribedAt.concat {w : World} {calls : List Call} {j : Nat} {packetId : UInt16}
    {handle : SubTopicHandle} (subscribed : SubscribedAt w calls j packetId handle) (call : Call) :
    SubscribedAt w (calls ++ [call]) j packetId handle := by
  obtain ⟨topicFilter, params, stored, found, returns, text, same⟩ := subscribed
  have inside := (List.getElem?_eq_some_iff.mp found).1
  refine ⟨topicFilter, params, stored, ?_, ?_, text, same⟩
  · rw [List.getElem?_append_left inside, found]
  · rw [World.at_concat (Nat.le_of_lt inside), returns]

theorem GrantedAt.concat {w : World} {calls : List Call} {k : Nat} {packetId : UInt16}
    (granted : GrantedAt w calls k packetId) (call : Call) :
    GrantedAt w (calls ++ [call]) k packetId := by
  obtain ⟨timer, grantedQoS, found, read, success⟩ := granted
  have inside := (List.getElem?_eq_some_iff.mp found).1
  refine ⟨timer, grantedQoS, ?_, ?_, success⟩
  · rw [List.getElem?_append_left inside, found]
  · rw [World.at_concat (Nat.le_of_lt inside), read]

/-- An entry that a call leaves alone stays installed. -/
theorem Installed.concat {w : World} {calls : List Call} {i : Fin maxMessageHandlers}
    (installed : Installed w calls i) {call : Call}
    (same : (((session.exec w calls).after call).client.subHandles i).SameHandler
      ((session.exec w calls).client.subHandles i)) : Installed w (calls ++ [call]) i := by
  obtain ⟨j, k, packetId, handle, before, inside, subscribed, granted, empty, since⟩ := installed
  have length : (calls ++ [call]).length = calls.length + 1 := by simp
  refine ⟨j, k, packetId, handle, before, by omega, subscribed.concat call, granted.concat call,
    ?_, ?_⟩
  · rw [World.at_concat (Nat.le_of_lt inside), empty]
  · intro m after bound
    rcases Nat.lt_or_ge calls.length m with last | old
    · have now : m = (calls ++ [call]).length := by omega
      rw [now, World.at_length, Machine.exec_concat, session_step]
      have current := since calls.length inside (Nat.le_refl _)
      rw [World.at_length] at current
      exact same.trans current
    · rw [World.at_concat old]
      exact since m after old

/-! ## What an acknowledgement does to nodes and entries -/

/-- Two nodes stand for the same request. -/
def SubInfo.SameRequest (a b : SubInfo) : Prop :=
  a.type = b.type ∧ a.msgId = b.msgId ∧ a.handler = b.handler

theorem mask_sameRequest (packetId : UInt16) (node : SubInfo) :
    (node.mask packetId).SameRequest node := by
  rw [SubInfo.mask]
  split <;> exact ⟨rfl, rfl, rfl⟩

theorem Store.install_listSubWaitAck (s : Store) (subHandle : SubTopicHandle) :
    (s.install subHandle).listSubWaitAck = s.listSubWaitAck := by
  rw [Store.install]
  split <;> rfl

theorem Store.install_next (s : Store) (subHandle : SubTopicHandle) :
    (s.install subHandle).heap.next = s.heap.next := by
  rw [Store.install]
  split <;> rfl

theorem Store.suback_some (s : Store) (packetId : UInt16) (grantedQoS : List UInt8)
    (node : SubInfo) : (s.suback packetId grantedQoS (some node)).listSubWaitAck =
        s.listSubWaitAck.map (SubInfo.mask packetId) ∧
      (s.suback packetId grantedQoS (some node)).heap.next = s.heap.next := by
  rw [Store.suback, Store.handOver]
  split
  · exact ⟨rfl, rfl⟩
  · split
    · exact ⟨rfl, rfl⟩
    · exact ⟨Store.install_listSubWaitAck _ _, Store.install_next _ _⟩

/-- A SUBACK leaves an entry alone up to its user data, or installs the handle of the node it
    finds in an empty slot. -/
theorem Store.suback_subHandles (s : Store) (packetId : UInt16) (grantedQoS : List UInt8)
    (acked : Option SubInfo) (i : Fin maxMessageHandlers) :
    ((s.suback packetId grantedQoS acked).subHandles i).SameHandler (s.subHandles i) ∨
      ∃ node, acked = some node ∧ grantedQoS.headD 0 ≠ 0x80 ∧
        (s.subHandles i).topicFilter = none ∧
        (s.suback packetId grantedQoS acked).subHandles i = node.handler := by
  have same : (s.subHandles i).SameHandler (s.subHandles i) := ⟨rfl, rfl, rfl, rfl⟩
  cases acked with
  | none => exact .inl same
  | some node =>
    rw [Store.suback, Store.handOver]
    split
    · exact .inl same
    · split
      · exact .inl same
      · rename_i granted
        rw [Store.install]
        cases scan : subackScan (s.masked packetId).subHandles node.handler
            (List.finRange maxMessageHandlers) none with
        | mk flagDup iFree =>
          cases flagDup with
          | some k =>
            left
            by_cases here : i = k
            · subst here
              simp only [Store.release, Function.update_self]
              exact ⟨rfl, rfl, rfl, rfl⟩
            · simp only [Store.release, Function.update_of_ne here]
              exact same
          | none =>
            cases iFree with
            | none => exact .inl same
            | some k =>
              by_cases here : i = k
              · subst here
                right
                have empty := @subackScan_free _ _ _ none i (by simp) (congrArg Prod.snd scan)
                exact ⟨node, rfl, granted, empty, by simp only [Function.update_self]⟩
              · left
                simp only [Function.update_of_ne here]
                exact same

/-! ## Filters of different requests are different -/

/-- No two requests in the wait list have the same filter, and no entry of the table has the
    filter of an UNSUBSCRIBE. -/
structure Store.Apart (s : Store) : Prop where
  distinct : s.listSubWaitAck.Pairwise fun a b => a.handler.topicFilter ≠ b.handler.topicFilter
  nodes : ∀ node ∈ s.listSubWaitAck, ∃ stored, node.handler.topicFilter = some stored ∧
    stored.ident < s.heap.next
  table : ∀ i stored, (s.subHandles i).topicFilter = some stored → stored.ident < s.heap.next
  spared : ∀ i, ∀ node ∈ s.listSubWaitAck, node.type = .unsubscribe →
    (s.subHandles i).topicFilter ≠ node.handler.topicFilter

/-- Nodes are marked or removed, and entries are cleared or take the filter of a SUBSCRIBE. -/
theorem Store.Apart.mono {s s' : Store} (apart : s.Apart) {nodes : List SubInfo}
    {f : SubInfo → SubInfo} (sub : nodes.Sublist s.listSubWaitAck)
    (same : ∀ node, (f node).SameRequest node) (list : s'.listSubWaitAck = nodes.map f)
    (next : s.heap.next ≤ s'.heap.next)
    (table : ∀ i, (s'.subHandles i).topicFilter = none ∨
      (s'.subHandles i).topicFilter = (s.subHandles i).topicFilter ∨
      ∃ node ∈ s.listSubWaitAck, node.type = .subscribe ∧
        (s'.subHandles i).topicFilter = node.handler.topicFilter) : s'.Apart := by
  have origin : ∀ node' ∈ s'.listSubWaitAck, ∃ node ∈ s.listSubWaitAck, node'.SameRequest node := by
    intro node' member
    rw [list] at member
    obtain ⟨node, found, rfl⟩ := List.mem_map.mp member
    exact ⟨node, sub.subset found, same node⟩
  refine ⟨?_, ?_, ?_, ?_⟩
  · rw [list, List.pairwise_map]
    refine (apart.distinct.sublist sub).imp ?_
    intro a b different
    rwa [(same a).2.2, (same b).2.2]
  · intro node' member
    obtain ⟨node, found, agree⟩ := origin node' member
    obtain ⟨stored, filter, old⟩ := apart.nodes node found
    exact ⟨stored, by rw [agree.2.2, filter], by omega⟩
  · intro i stored filter
    rcases table i with empty | unchanged | ⟨node, found, -, taken⟩
    · rw [empty] at filter
      cases filter
    · have old := apart.table i stored (unchanged ▸ filter)
      omega
    · obtain ⟨stored', filter', old⟩ := apart.nodes node found
      rw [taken, filter'] at filter
      cases filter
      omega
  · intro i node' member type
    obtain ⟨node, found, agree⟩ := origin node' member
    rw [agree.1] at type
    rw [agree.2.2]
    obtain ⟨stored, filter, -⟩ := apart.nodes node found
    rcases table i with empty | unchanged | ⟨other, found', type', taken⟩
    · rw [empty, filter]
      simp
    · rw [unchanged]
      exact apart.spared i node found type
    · rw [taken]
      have different : other ≠ node := by
        rintro rfl
        rw [type] at type'
        cases type'
      have symm : Std.Symm fun a b : SubInfo => a.handler.topicFilter ≠ b.handler.topicFilter :=
        ⟨fun _ _ h => h.symm⟩
      exact apart.distinct.forall found' found different

/-- A new request has a new filter. -/
theorem Store.Apart.request {s : Store} (apart : s.Apart) {node : SubInfo} {text : CStr}
    (filter : node.handler.topicFilter = some ⟨s.heap.next, text⟩) : (s.request node).Apart := by
  have fresh : ∀ stored : StoredFilter, stored.ident < s.heap.next →
      some stored ≠ node.handler.topicFilter := by
    intro stored old same
    rw [filter] at same
    cases same
    exact absurd old (Nat.lt_irrefl _)
  refine ⟨?_, ?_, ?_, ?_⟩
  · refine List.pairwise_append.mpr ⟨apart.distinct, List.pairwise_singleton _ _, ?_⟩
    intro old member new member'
    rw [List.mem_singleton.mp member']
    obtain ⟨stored, filter', bound⟩ := apart.nodes old member
    rw [filter']
    exact fresh stored bound
  · intro node' member
    rcases List.mem_append.mp member with old | new
    · obtain ⟨stored, filter', bound⟩ := apart.nodes node' old
      exact ⟨stored, filter', Nat.lt_succ_of_lt bound⟩
    · rw [List.mem_singleton.mp new]
      exact ⟨_, filter, Nat.lt_succ_self _⟩
  · intro i stored filter'
    exact Nat.lt_succ_of_lt (apart.table i stored filter')
  · intro i node' member type
    rcases List.mem_append.mp member with old | new
    · exact apart.spared i node' old type
    · rw [List.mem_singleton.mp new]
      cases held : (s.subHandles i).topicFilter with
      | none =>
        intro same
        rw [← same] at filter
        exact absurd (held.symm.trans filter) (by simp)
      | some stored =>
        intro same
        exact fresh stored (apart.table i stored held) (held.symm.trans same)

/-! ## Acknowledgements of the right kind -/

/-- A SUBACK that does not refuse a subscription finds the node of a SUBSCRIBE and grants it,
    and an UNSUBACK does not find the node of a SUBSCRIBE that still waits. -/
def World.AckFits (w : World) : Option Ack → Prop
  | some (.suback packetId grantedQoS) => grantedQoS.headD 0 ≠ 0x80 →
    ∀ node ∈ w.acked packetId, node.type = .subscribe ∧ Granted grantedQoS
  | some (.unsuback packetId) => w.env.mallocs.headD true = true →
    ∀ node ∈ w.client.listSubWaitAck, node.msgId = packetId → node.nodeState = .normanl →
      node.type ≠ .subscribe
  | _ => True

instance (w : World) : ∀ ack, Decidable (w.AckFits ack)
  | some (.suback packetId grantedQoS) =>
    inferInstanceAs (Decidable (grantedQoS.headD 0 ≠ 0x80 →
      ∀ node ∈ w.acked packetId, node.type = .subscribe ∧ Granted grantedQoS))
  | some (.unsuback _) => inferInstanceAs (Decidable (_ → _))
  | none | some (.puback _) => .isTrue trivial

/-- The acknowledgement that the call reads, if it reads one, is of the right kind. -/
def World.AcksFit (w : World) : Call → Prop
  | .cycleForRead _ => w.AckFits w.inbound
  | _ => True

instance (w : World) : ∀ call, Decidable (w.AcksFit call)
  | .cycleForRead _ => inferInstanceAs (Decidable (w.AckFits _))
  | .publish _ _ | .subscribe _ _ | .unsubscribe _ | .pubInfoProc | .subInfoProc
  | .upkeep _ => .isTrue trivial

theorem World.acked_mem {w : World} {packetId : UInt16} {node : SubInfo}
    (acked : w.acked packetId = some node) :
    node ∈ w.client.listSubWaitAck ∧ node.msgId = packetId := by
  rw [World.acked] at acked
  split at acked
  · exact ⟨List.mem_of_find?_eq_some acked, by simpa using List.find?_some acked⟩
  · cases acked

theorem apart_step {w : World} {call : Call} (fits : w.AcksFit call) (apart : w.store.Apart) :
    (w.after call).store.Apart := by
  have same : ∀ node : SubInfo, (id node).SameRequest node := fun _ => ⟨rfl, rfl, rfl⟩
  have whole := List.Sublist.refl w.client.listSubWaitAck
  have refused : ∀ {s s' : Store}, s.Apart → s.Refused s' → s'.Apart := by
    intro s s' apart refused
    rcases refused with rfl | rfl
    · exact apart
    · exact apart.mono (List.Sublist.refl _) same (List.map_id _).symm (Nat.le_succ _)
        fun i => .inr (.inl rfl)
  have cleared : ∀ topicFilter, (w.afterClearing topicFilter).store.Apart := by
    intro topicFilter
    rcases w.afterClearing_store topicFilter with unchanged | cleared
    · rw [unchanged]
      exact apart
    · rw [cleared]
      refine apart.mono whole same (List.map_id _).symm (Nat.le_refl _) fun i => ?_
      simp only [Store.cleared, SubTopicHandle.cleared]
      split
      · exact .inl rfl
      · exact .inr (.inl rfl)
  have step := w.after_store call
  cases step with
  | subscribed _ _ _ _ handler store =>
    rw [store]
    exact apart.request (by rw [handler]; rfl)
  | subscribeRefused outcome => exact refused apart outcome
  | @unsubscribed topicFilter node qos _ _ _ _ handler store =>
    have next : (w.afterClearing topicFilter).store.heap.next = w.heap.next :=
      w.afterClearing_next topicFilter
    rw [store]
    exact (cleared topicFilter).request (by rw [handler, next]; rfl)
  | @unsubscribeRefused topicFilter _ outcome => exact refused (cleared topicFilter) outcome
  | @subacked timer packetId grantedQoS _ read store =>
    rw [World.AcksFit, read] at fits
    rw [store]
    cases acked : w.acked packetId with
    | none => exact apart
    | some node =>
      obtain ⟨list, next⟩ := w.store.suback_some packetId grantedQoS node
      refine apart.mono whole (mask_sameRequest packetId) list (Nat.le_of_eq next.symm) fun i => ?_
      rcases w.store.suback_subHandles packetId grantedQoS (some node) i with
        unchanged | ⟨node', found, grants, -, installed⟩
      · exact .inr (.inl unchanged.1)
      · cases found
        refine .inr (.inr ⟨node, (World.acked_mem acked).1, (fits grants node acked).1, ?_⟩)
        rw [installed]
  | @unsubacked timer packetId _ read store =>
    rw [store]
    cases w.acked packetId with
    | none => exact apart.mono whole same (List.map_id _).symm (Nat.le_refl _) fun i => .inr (.inl rfl)
    | some node =>
      exact apart.mono whole (mask_sameRequest packetId) rfl (Nat.le_refl _) fun i => .inr (.inl rfl)
  | swept swept store =>
    rw [store]
    exact apart.mono swept.sublist same (List.map_id _).symm (Nat.le_refl _) fun i => .inr (.inl rfl)
  | other _ store =>
    rw [store]
    exact apart

/-! ## The provenance of nodes and entries -/

/-- Every SUBSCRIBE that waits was requested by the application. -/
def Requested (w : World) (calls : List Call) : Prop :=
  ∀ node ∈ (session.exec w calls).client.listSubWaitAck, node.type = .subscribe →
    ∃ j < calls.length, SubscribedAt w calls j node.msgId node.handler

/-- The nodes after a call stand for requests that waited before it. -/
theorem Requested.mono {w : World} {calls : List Call} {call : Call}
    (requested : Requested w calls)
    (nodes : ∀ node' ∈ ((session.exec w calls).after call).client.listSubWaitAck,
      ∃ node ∈ (session.exec w calls).client.listSubWaitAck, node'.SameRequest node) :
    Requested w (calls ++ [call]) := by
  intro node' member type
  rw [Machine.exec_concat, session_step] at member
  obtain ⟨node, old, same⟩ := nodes node' member
  obtain ⟨j, inside, subscribed⟩ := requested node old (same.1 ▸ type)
  refine ⟨j, by simp; omega, ?_⟩
  rw [same.2.1, same.2.2]
  exact subscribed.concat call

theorem World.afterClearing_listSubWaitAck (w : World) (topicFilter : CStr) :
    (w.afterClearing topicFilter).client.listSubWaitAck = w.client.listSubWaitAck := by
  rw [World.afterClearing]
  split <;> rfl

theorem requested_step {w : World} {calls : List Call} (call : Call)
    (requested : Requested w calls) : Requested w (calls ++ [call]) := by
  have step := (session.exec w calls).after_store call
  have masked : ∀ packetId, ((session.exec w calls).after call).client.listSubWaitAck =
      (session.exec w calls).client.listSubWaitAck.map (SubInfo.mask packetId) →
      Requested w (calls ++ [call]) := by
    intro packetId list
    refine requested.mono fun node' member => ?_
    rw [list] at member
    obtain ⟨node, old, rfl⟩ := List.mem_map.mp member
    exact ⟨node, old, mask_sameRequest packetId node⟩
  have sub : ∀ nodes, ((session.exec w calls).after call).client.listSubWaitAck = nodes →
      nodes ⊆ (session.exec w calls).client.listSubWaitAck → Requested w (calls ++ [call]) := by
    intro nodes list sub
    refine requested.mono fun node' member => ⟨node', sub (list ▸ member), rfl, rfl, rfl⟩
  have refused : ∀ {s s' : Store}, s.Refused s' → s'.listSubWaitAck = s.listSubWaitAck := by
    rintro s s' (rfl | rfl) <;> rfl
  cases step with
  | @subscribed topicFilter params node _ returns type id normanl handler store =>
    intro node' member type'
    rw [Machine.exec_concat, session_step] at member
    rw [show ((session.exec w calls).after _).client.listSubWaitAck = _ from
      congrArg Store.listSubWaitAck store] at member
    rcases List.mem_append.mp member with old | new
    · obtain ⟨j, inside, subscribed⟩ := requested node' old type'
      exact ⟨j, by simp; omega, subscribed.concat _⟩
    · rw [List.mem_singleton.mp new]
      refine ⟨calls.length, by simp, topicFilter, params, _, ?_, ?_, rfl, handler⟩
      · rw [List.getElem?_append_right (Nat.le_refl _), Nat.sub_self]
        rfl
      · rw [World.at_concat (Nat.le_refl _), World.at_length, returns, id]
  | subscribeRefused outcome => exact sub _ (refused outcome) (List.Subset.refl _)
  | @unsubscribed topicFilter node qos _ type id normanl handler store =>
    intro node' member type'
    rw [Machine.exec_concat, session_step] at member
    rw [show ((session.exec w calls).after _).client.listSubWaitAck = _ from
      congrArg Store.listSubWaitAck store] at member
    rcases List.mem_append.mp member with old | new
    · rw [World.store_listSubWaitAck, World.afterClearing_listSubWaitAck] at old
      obtain ⟨j, inside, subscribed⟩ := requested node' old type'
      exact ⟨j, by simp; omega, subscribed.concat _⟩
    · rw [List.mem_singleton.mp new, type] at type'
      cases type'
  | @unsubscribeRefused topicFilter _ outcome =>
    refine sub _ ((refused outcome).trans ?_) (List.Subset.refl _)
    exact World.afterClearing_listSubWaitAck _ _
  | @subacked timer packetId grantedQoS _ read store =>
    have list := congrArg Store.listSubWaitAck store
    cases acked : (session.exec w calls).acked packetId with
    | none =>
      rw [acked] at list
      exact sub _ list (List.Subset.refl _)
    | some node =>
      rw [acked] at list
      exact masked packetId (list.trans (Store.suback_some _ _ _ _).1)
  | @unsubacked timer packetId _ read store =>
    have list := congrArg Store.listSubWaitAck store
    cases acked : (session.exec w calls).acked packetId with
    | none =>
      rw [acked] at list
      exact sub _ list (List.Subset.refl _)
    | some node =>
      rw [acked] at list
      exact masked packetId list
  | swept swept store =>
    exact sub _ (congrArg Store.listSubWaitAck store) swept.sublist.subset
  | other _ store => exact sub _ (congrArg Store.listSubWaitAck store) (List.Subset.refl _)

/-- Every entry of the table was installed for a SUBSCRIBE. -/
def AllInstalled (w : World) (calls : List Call) : Prop :=
  ∀ i, ((session.exec w calls).client.subHandles i).topicFilter ≠ none → Installed w calls i

/-- Clearing leaves an entry empty or as it was. -/
theorem World.afterClearing_entry (w : World) (topicFilter : CStr) (i : Fin maxMessageHandlers) :
    ((w.afterClearing topicFilter).client.subHandles i).topicFilter = none ∨
      (w.afterClearing topicFilter).client.subHandles i = w.client.subHandles i := by
  rw [← World.store_subHandles]
  rcases w.afterClearing_store topicFilter with same | cleared
  · rw [same]
    exact .inr rfl
  · rw [cleared]
    simp only [Store.cleared, SubTopicHandle.cleared]
    split
    · exact .inl rfl
    · exact .inr rfl

theorem allInstalled_step {w : World} {calls : List Call} {call : Call}
    (fits : (session.exec w calls).AcksFit call) (requested : Requested w calls)
    (installed : AllInstalled w calls) : AllInstalled w (calls ++ [call]) := by
  intro i used
  rw [Machine.exec_concat, session_step] at used
  have same : ∀ h : SubTopicHandle, h.SameHandler h := fun _ => ⟨rfl, rfl, rfl, rfl⟩
  -- an entry that was there before the call and agrees with what it was
  have kept : (((session.exec w calls).after call).client.subHandles i).SameHandler
      ((session.exec w calls).client.subHandles i) → Installed w (calls ++ [call]) i :=
    fun agrees => (installed i (agrees.1 ▸ used)).concat agrees
  have unchanged : ((session.exec w calls).after call).client.subHandles =
      (session.exec w calls).client.subHandles → Installed w (calls ++ [call]) i := by
    intro table
    refine kept ?_
    rw [table]
    exact same _
  have cleared : ∀ topicFilter, ((session.exec w calls).after call).client.subHandles =
      ((session.exec w calls).afterClearing topicFilter).client.subHandles →
      Installed w (calls ++ [call]) i := by
    intro topicFilter table
    rcases (session.exec w calls).afterClearing_entry topicFilter i with empty | entry
    · rw [table] at used
      exact absurd empty used
    · refine kept ?_
      rw [table, entry]
      exact same _
  have refused : ∀ {s s' : Store}, s.Refused s' → s'.subHandles = s.subHandles := by
    rintro s s' (rfl | rfl) <;> rfl
  have step := (session.exec w calls).after_store call
  cases step with
  | subscribed _ _ _ _ _ store => exact unchanged (congrArg Store.subHandles store)
  | subscribeRefused outcome => exact unchanged (refused outcome)
  | unsubscribed _ _ _ _ store => exact cleared _ (congrArg Store.subHandles store)
  | unsubscribeRefused outcome => exact cleared _ (refused outcome)
  | @subacked timer packetId grantedQoS _ read store =>
    have entry := congrFun (congrArg Store.subHandles store) i
    rcases (session.exec w calls).store.suback_subHandles packetId grantedQoS
      ((session.exec w calls).acked packetId) i with agrees | ⟨node, acked, grants, empty, taken⟩
    · rw [← entry] at agrees
      exact kept agrees
    · rw [World.AcksFit, read] at fits
      obtain ⟨type, granted⟩ := fits grants node acked
      obtain ⟨member, id⟩ := World.acked_mem acked
      obtain ⟨j, before, subscribed⟩ := requested node member type
      refine ⟨j, calls.length, packetId, node.handler, before, by simp, ?_, ?_, ?_, ?_⟩
      · rw [← id]
        exact subscribed.concat _
      · refine ⟨timer, grantedQoS, ?_, ?_, granted⟩
        · rw [List.getElem?_append_right (Nat.le_refl _), Nat.sub_self]
          rfl
        · rw [World.at_concat (Nat.le_refl _), World.at_length, read]
      · rw [World.at_concat (Nat.le_refl _), World.at_length]
        exact empty
      · intro m after bound
        have now : m = (calls ++ [Call.cycleForRead timer]).length := by
          simp only [List.length_append, List.length_singleton] at bound ⊢
          omega
        rw [now, World.at_length, Machine.exec_concat, session_step]
        rw [show ((session.exec w calls).after _).client.subHandles i = _ from entry, taken]
        exact same _
  | @unsubacked timer packetId _ read store =>
    refine unchanged ((congrArg Store.subHandles store).trans ?_)
    cases (session.exec w calls).acked packetId <;> rfl
  | swept _ store => exact unchanged (congrArg Store.subHandles store)
  | other _ store => exact unchanged (congrArg Store.subHandles store)

/-! ## Sessions -/

/-- The table of a session is sound: its entries come from granted SUBSCRIBEs, a SUBACK does
    not install the filter of an UNSUBSCRIBE that waits, and an UNSUBACK leaves every
    SUBSCRIBE waiting. -/
structure TableSound (w : World) (calls : List Call) : Prop where
  installed : AllInstalled w calls
  suback_spares : ∀ k timer packetId grantedQoS, calls[k]? = some (.cycleForRead timer) →
    (w.at calls k).inbound = some (.suback packetId grantedQoS) →
    ∀ node ∈ (w.at calls k).client.listSubWaitAck, node.type = .unsubscribe →
      node.nodeState = .normanl → ∀ i,
        ((w.at calls (k + 1)).client.subHandles i).topicFilter ≠ node.handler.topicFilter
  unsuback_spares : ∀ k timer packetId, calls[k]? = some (.cycleForRead timer) →
    (w.at calls k).inbound = some (.unsuback packetId) →
    ∀ node ∈ (w.at calls k).client.listSubWaitAck, node.type = .subscribe →
      node.nodeState = .normanl → node ∈ (w.at calls (k + 1)).client.listSubWaitAck

theorem apart_run {w : World} (fresh : w.Fresh) {calls : List Call}
    (fits : session.Guarded World.AcksFit w calls) (n : Nat) : (w.at calls n).store.Apart := by
  refine Machine.Guarded.invariant_take (I := fun w => w.store.Apart) ?_ (fun _ _ => apart_step)
    fits n
  have nobody := fresh.listSubWaitAck
  refine ⟨?_, ?_, ?_, ?_⟩
  · rw [World.store_listSubWaitAck, nobody]
    exact List.Pairwise.nil
  · simp [nobody]
  · intro i stored held
    rw [World.store_subHandles, fresh.subHandles i] at held
    cases held
  · simp [nobody]

theorem installed_run {w : World} (fresh : w.Fresh) {calls : List Call}
    (fits : session.Guarded World.AcksFit w calls) :
    Requested w calls ∧ AllInstalled w calls := by
  refine Machine.Guarded.induction (P := fun calls => Requested w calls ∧ AllInstalled w calls)
    ⟨?_, ?_⟩ ?_ fits
  · simp [Requested, fresh.listSubWaitAck]
  · intro i used
    rw [Machine.exec_nil, fresh.subHandles i] at used
    exact absurd rfl used
  · rintro calls call _ fits ⟨requested, installed⟩
    exact ⟨requested_step call requested, allInstalled_step fits requested installed⟩

/-- The wait list after an acknowledgement. -/
theorem World.after_ack {w : World} {timer : Timer} {packetId : UInt16}
    (read : (∃ grantedQoS, w.inbound = some (.suback packetId grantedQoS)) ∨
      w.inbound = some (.unsuback packetId)) :
    (w.after (.cycleForRead timer)).client.listSubWaitAck = match w.acked packetId with
      | none => w.client.listSubWaitAck
      | some _ => w.client.listSubWaitAck.map (SubInfo.mask packetId) := by
  have handles := cycleForRead_handles timer w
  rcases read with ⟨grantedQoS, read⟩ | read
  · rw [Prog.wp, read] at handles
    refine (congrArg Store.listSubWaitAck handles.2).trans ?_
    cases w.acked packetId with
    | none => rfl
    | some node => exact (w.store.suback_some packetId grantedQoS node).1
  · rw [Prog.wp, read] at handles
    refine (congrArg Store.listSubWaitAck handles.2).trans ?_
    cases w.acked packetId <;> rfl

/-- The client subscribes to `a`, unsubscribes it again with packet id 8 and reads a packet
    after either request. -/
def subscribeAndUnsubscribe : List Call :=
  [subscribeA, .cycleForRead ⟨1⟩, .unsubscribe ⟨[97], CStr.noNul_a⟩, .cycleForRead ⟨1⟩]

/-- The peer answers both requests with a SUBACK. -/
def subackedTwice : World := subscribing [0x90, 3, 0, 7, 1, 0x90, 3, 0, 8, 1]

end QcloudIot.Mqtt
