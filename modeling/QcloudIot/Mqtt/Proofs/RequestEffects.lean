import QcloudIot.Mqtt.Proofs.Requests

/-!
# What a request does to the handler table and the wait lists

Two properties of the requests as a whole: an unsubscribe call concerns the table entries of
its topic filter only (`World.UnsubscribesExactly`), and a request that fails leaves the
client as it was (`LeavesNoTrace`). Neither holds of every unsubscribe call. A topic filter
with a wildcard behind a separator means every entry, and the table is cleared before the
checks that can refuse the request.
-/

namespace QcloudIot.Mqtt

/-! ## Unsubscribe and the other entries -/

/-- The entry is one for this topic filter. -/
def SubTopicHandle.IsFor (topicFilter : CStr) (h : SubTopicHandle) : Prop :=
  h.topicFilter.map StoredFilter.text = some topicFilter

instance (topicFilter : CStr) (h : SubTopicHandle) : Decidable (h.IsFor topicFilter) :=
  inferInstanceAs (Decidable (_ = _))

/-- The topic filter has a wildcard behind a separator. -/
def CStr.HasWildcardLevel (topicFilter : CStr) : Prop :=
  topicFilter.strstr [47, 35] = true ∨ topicFilter.strstr [47, 43] = true

instance (topicFilter : CStr) : Decidable topicFilter.HasWildcardLevel :=
  inferInstanceAs (Decidable (_ ∨ _))

theorem handleIsMeant_iff (topicFilter : CStr) (h : SubTopicHandle) :
    handleIsMeant topicFilter h = true ↔ h.IsFor topicFilter ∨ topicFilter.HasWildcardLevel := by
  cases stored : h.topicFilter <;>
    simp [handleIsMeant, SubTopicHandle.IsFor, CStr.HasWildcardLevel, stored, or_assoc]

/-- The entry after an unsubscribe call for exactly the entries of its topic filter. -/
def SubTopicHandle.exactlyCleared (topicFilter : CStr) (h : SubTopicHandle) : SubTopicHandle :=
  if h.IsFor topicFilter then { h with topicFilter := none } else h

/-- The callbacks of an unsubscribe call for exactly the entries of its topic filter. -/
def SubTopicHandle.exactEvents (topicFilter : CStr) (h : SubTopicHandle) : List Event :=
  if h.IsFor topicFilter then subNotifications h.subEventHandler .unsubscribe h.handlerUserData
  else []

/-- An unsubscribe call clears, and notifies, exactly the entries of its topic filter, and
    `qcloud_iot_mqtt_is_sub_ready` tells whether there is one. -/
def World.UnsubscribesExactly (w : World) (topicFilter : CStr) : Prop :=
  (∀ i, ((qcloudIotMqttUnsubscribe topicFilter).run w).2.client.subHandles i =
    (w.client.subHandles i).exactlyCleared topicFilter) ∧
  ((qcloudIotMqttUnsubscribe topicFilter).run w).2.trace = w.trace ++
    ((List.finRange maxMessageHandlers).flatMap fun i =>
      (w.client.subHandles i).exactEvents topicFilter) ∧
  (qcloudIotMqttIsSubReady w.client topicFilter = true ↔
    ∃ i, (w.client.subHandles i).IsFor topicFilter)

/-- Where one of two families of lists is at each place the other or empty, the two agree
    in total only if they agree everywhere. -/
theorem flatMap_eq_iff {α β : Type} {l : List α} {f g : α → List β}
    (sub : ∀ a ∈ l, f a = g a ∨ f a = []) :
    l.flatMap f = l.flatMap g ↔ ∀ a ∈ l, f a = g a := by
  refine ⟨?_, List.flatMap_congr⟩
  have shorter : ∀ l' : List α, (∀ a ∈ l', f a = g a ∨ f a = []) →
      (l'.flatMap f).length ≤ (l'.flatMap g).length := by
    intro l' sub
    induction l' with
    | nil => simp
    | cons a l' ih =>
      simp only [List.mem_cons, forall_eq_or_imp] at sub
      have := ih sub.2
      simp only [List.flatMap_cons, List.length_append]
      rcases sub.1 with same | empty
      · rw [same]
        omega
      · rw [empty, List.length_nil]
        omega
  induction l with
  | nil => simp
  | cons a l ih =>
    simp only [List.mem_cons, forall_eq_or_imp] at sub ⊢
    intro total
    simp only [List.flatMap_cons] at total
    have same : f a = g a := by
      rcases sub.1 with same | empty
      · exact same
      · have lengths := congrArg List.length total
        have := shorter l sub.2
        simp only [List.length_append, empty, List.length_nil] at lengths
        rw [empty, List.length_eq_zero_iff.mp (by omega : (g a).length = 0)]
    rw [same] at total
    exact ⟨same, ih sub.2 (List.append_cancel_left total)⟩

theorem cleared_eq_exactlyCleared_iff (topicFilter : CStr) (h : SubTopicHandle) :
    h.cleared topicFilter = h.exactlyCleared topicFilter ↔
      h.IsFor topicFilter ∨ ¬ topicFilter.HasWildcardLevel ∨ h.topicFilter = none := by
  simp only [SubTopicHandle.cleared, SubTopicHandle.exactlyCleared, handleIsMeant_iff]
  by_cases isFor : h.IsFor topicFilter
  · simp [isFor]
  · by_cases wildcard : topicFilter.HasWildcardLevel
    · simp only [isFor, wildcard, or_true, if_true, if_false, not_true_eq_false, false_or]
      cases h
      simp [eq_comm]
    · simp [isFor, wildcard]

theorem exactEvents_eq_clearEvents_iff (topicFilter : CStr) (h : SubTopicHandle) :
    h.exactEvents topicFilter = h.clearEvents topicFilter ↔
      h.IsFor topicFilter ∨ ¬ topicFilter.HasWildcardLevel ∨ h.subEventHandler = none := by
  simp only [SubTopicHandle.clearEvents, SubTopicHandle.exactEvents, handleIsMeant_iff]
  by_cases isFor : h.IsFor topicFilter
  · simp [isFor]
  · by_cases wildcard : topicFilter.HasWildcardLevel
    · cases handler : h.subEventHandler <;> simp [isFor, wildcard, subNotifications]
    · simp [isFor, wildcard]

theorem World.afterClearing_subHandles (w : World) {topicFilter : CStr}
    (admissible : topicFilter.Admissible) (i : Fin maxMessageHandlers) :
    (w.afterClearing topicFilter).client.subHandles i =
      (w.client.subHandles i).cleared topicFilter := by
  rw [World.afterClearing, if_pos admissible]
  simp [World.unsubscribed, clearTable]

theorem World.afterClearing_trace (w : World) {topicFilter : CStr}
    (admissible : topicFilter.Admissible) :
    (w.afterClearing topicFilter).trace = w.trace ++
      ((List.finRange maxMessageHandlers).flatMap fun i =>
        (w.client.subHandles i).clearEvents topicFilter) := by
  rw [World.afterClearing, if_pos admissible]
  rfl

theorem qcloudIotMqttIsSubReady_iff (c : Client) {topicFilter : CStr} :
    qcloudIotMqttIsSubReady c topicFilter = true ↔ topicFilter.Admissible ∧
      ((∃ i, (c.subHandles i).IsFor topicFilter) ∨ topicFilter.HasWildcardLevel) := by
  rw [qcloudIotMqttIsSubReady]
  split
  · next empty => simp [CStr.Admissible, empty]
  · next some =>
    split
    · next long => simp [CStr.Admissible, Nat.not_le.mpr long]
    · next short =>
      have admissible : topicFilter.Admissible := ⟨some, Nat.not_lt.mp short⟩
      simp only [List.any_eq_true, List.mem_finRange, true_and, handleIsMeant_iff, exists_or,
        exists_const, admissible]

/-- An unsubscribe call concerns exactly the entries of its topic filter if that has no
    wildcard behind a separator, or if there is an entry of it and all the others are empty
    and have no event handler left. A topic filter that is refused concerns no entry. -/
theorem unsubscribesExactly_iff (w : World) (topicFilter : CStr) :
    w.UnsubscribesExactly topicFilter ↔
      if topicFilter.Admissible then
        ¬ topicFilter.HasWildcardLevel ∨
          (∃ i, (w.client.subHandles i).IsFor topicFilter) ∧
          ∀ i, (w.client.subHandles i).IsFor topicFilter ∨
            (w.client.subHandles i).topicFilter = none ∧
              (w.client.subHandles i).subEventHandler = none
      else ∀ i, ¬ (w.client.subHandles i).IsFor topicFilter := by
  obtain ⟨only, -⟩ := qcloudIotMqttUnsubscribe_spec topicFilter w
  rw [World.UnsubscribesExactly, only.client, only.trace, qcloudIotMqttIsSubReady_iff]
  split
  · next admissible =>
    have events : ((List.finRange maxMessageHandlers).flatMap fun i =>
        (w.client.subHandles i).clearEvents topicFilter) =
          ((List.finRange maxMessageHandlers).flatMap fun i =>
            (w.client.subHandles i).exactEvents topicFilter) ↔
        ∀ i, (w.client.subHandles i).IsFor topicFilter ∨ ¬ topicFilter.HasWildcardLevel ∨
          (w.client.subHandles i).subEventHandler = none := by
      rw [eq_comm, flatMap_eq_iff]
      · simp only [List.mem_finRange, true_implies, exactEvents_eq_clearEvents_iff]
      · intro i _
        by_cases isFor : (w.client.subHandles i).IsFor topicFilter
        · exact .inl ((exactEvents_eq_clearEvents_iff _ _).mpr (.inl isFor))
        · exact .inr (if_neg isFor)
    simp only [World.afterClearing_subHandles w admissible, World.afterClearing_trace w admissible,
      List.append_cancel_left_eq, events, cleared_eq_exactlyCleared_iff, admissible, true_and]
    by_cases wildcard : topicFilter.HasWildcardLevel
    · simp only [wildcard, not_true_eq_false, false_or, or_true, true_iff]
      exact ⟨fun h => ⟨h.2.2, fun i => or_and_left.mpr ⟨h.1 i, h.2.1 i⟩⟩,
        fun h => ⟨fun i => (h.2 i).imp_right And.left, fun i => (h.2 i).imp_right And.right, h.1⟩⟩
    · simp [wildcard]
  · next refused =>
    rw [World.afterClearing, if_neg refused]
    refine ⟨fun h i isFor => ?_, fun nobody => ⟨fun i => ?_, ?_, ?_⟩⟩
    · exact absurd (h.2.2.mpr ⟨i, isFor⟩).1 refused
    · exact (if_neg (nobody i)).symm
    · have silent : ((List.finRange maxMessageHandlers).flatMap fun i =>
          (w.client.subHandles i).exactEvents topicFilter) = [] :=
        List.flatMap_eq_nil_iff.mpr fun i _ => if_neg (nobody i)
      rw [silent, List.append_nil]
    · exact ⟨fun h => absurd h.1 refused, fun ⟨i, isFor⟩ => absurd isFor (nobody i)⟩

/-- Unsubscribing `a/#` clears the entry of `b`. -/
theorem unsubscribe_wildcard_clears_other :
    ¬ ∀ (w : World) (topicFilter : CStr), w.UnsubscribesExactly topicFilter := by
  intro exact
  let c := qcloudIotMqttInit ⟨⟨[97], by decide⟩, 5000, 240000, 1, 1, none⟩ 0
  let entry : SubTopicHandle :=
    { SubTopicHandle.zero with topicFilter := some ⟨0, ⟨[98], by decide⟩⟩ }
  let w := World.initial { c with subHandles := Function.update c.subHandles 0 entry } Env.exhausted
  obtain ⟨table, -⟩ := exact w ⟨[97, 47, 35], by decide⟩
  have other := congrArg SubTopicHandle.topicFilter (table 0)
  revert other
  decide +kernel

/-! ## Requests that fail -/

/-- A request that fails changes nothing of the client but the last packet id and the
    contents of `write_buf`. -/
def LeavesNoTrace (request : Sdk Int) (w : World) : Prop :=
  (request.run w).1 < 0 → (request.run w).2.client = { w.client with
    nextPacketId := (request.run w).2.client.nextPacketId
    writeBuf := (request.run w).2.client.writeBuf }

/-- The client after a request that left the wait lists alone. -/
theorem World.OnlyRequests.client_eq {w w' : World} (only : w.OnlyRequests w')
    (pub : w'.client.listPubWaitAck = w.client.listPubWaitAck)
    (sub : w'.client.listSubWaitAck = w.client.listSubWaitAck) :
    w'.client = { w.client with
      nextPacketId := w'.client.nextPacketId, writeBuf := w'.client.writeBuf } := by
  have same := only.client
  rw [pub, sub] at same
  exact same

/-- Without an entry that is in use there is nothing to clear. -/
theorem World.afterClearing_client_eq {w : World} {topicFilter : CStr}
    (nothing : ∀ i, handleIsMeant topicFilter (w.client.subHandles i) = true →
      (w.client.subHandles i).topicFilter = none) :
    (w.afterClearing topicFilter).client = w.client := by
  have table : clearTable topicFilter (List.finRange maxMessageHandlers) w.client.subHandles =
      w.client.subHandles := by
    funext i
    simp only [clearTable, List.mem_finRange, if_true, SubTopicHandle.cleared]
    split
    · next meant => rw [← nothing i meant]
    · rfl
  rw [World.afterClearing]
  split
  · simp [World.unsubscribed, table]
  · rfl

/-- A publish or subscribe call that fails leaves no trace. An unsubscribe call that fails
    does so if there is no entry for it to clear; it does not fail if it goes through. -/
theorem failedRequest_leavesNoTrace_iff (w : World) :
    (∀ topicName params, LeavesNoTrace (qcloudIotMqttPublish topicName params) w) ∧
    (∀ topicFilter params, LeavesNoTrace (qcloudIotMqttSubscribe topicFilter params) w) ∧
    ∀ topicFilter, LeavesNoTrace (qcloudIotMqttUnsubscribe topicFilter) w ↔
      (topicFilter.Admissible →
        (∀ i, handleIsMeant topicFilter (w.client.subHandles i) = true →
          (w.client.subHandles i).topicFilter = none) ∨
        w.Unsubscribes topicFilter) := by
  refine ⟨fun topicName params failed => ?_, fun topicFilter params failed => ?_,
    fun topicFilter => ?_⟩
  · obtain made | refused := qcloudIotMqttPublish_spec topicName params w
    · have := made.rc
      omega
    · exact (qcloudIotMqttPublish_onlyRequests topicName params w).client_eq
        refused.listPubWaitAck refused.listSubWaitAck
  · obtain ⟨-, made⟩ | ⟨-, refused⟩ := qcloudIotMqttSubscribe_spec topicFilter params w
    · have := made.rc
      omega
    · exact (qcloudIotMqttSubscribe_onlyRequests topicFilter params w).client_eq
        refused.listPubWaitAck refused.listSubWaitAck
  · obtain ⟨only, outcome⟩ := qcloudIotMqttUnsubscribe_spec topicFilter w
    obtain ⟨goes, qos, made⟩ | ⟨fails, refused⟩ := outcome
    · refine ⟨fun _ _ => .inr goes, fun _ failed => ?_⟩
      have := made.rc
      omega
    · have client := only.client_eq refused.listPubWaitAck refused.listSubWaitAck
      refine ⟨fun leaves admissible => .inl fun i meant => ?_, fun h _ => ?_⟩
      · have entry := congrFun (congrArg Client.subHandles (leaves refused.rc)) i
        rw [client, World.afterClearing_subHandles w admissible, SubTopicHandle.cleared,
          if_pos meant] at entry
        rw [← entry]
      · by_cases admissible : topicFilter.Admissible
        · have nothing := (h admissible).resolve_right fails
          rw [World.afterClearing_client_eq nothing] at client
          exact client
        · rw [World.afterClearing, if_neg admissible] at client
          exact client

/-- Without a connection unsubscribing `a` fails, and its entry is gone. -/
theorem unsubscribe_offline_clears :
    ¬ ∀ (w : World) (topicFilter : CStr),
      LeavesNoTrace (qcloudIotMqttUnsubscribe topicFilter) w := by
  intro leavesNoTrace
  let c := qcloudIotMqttInit ⟨⟨[97], by decide⟩, 5000, 240000, 1, 1, none⟩ 0
  let entry : SubTopicHandle :=
    { SubTopicHandle.zero with topicFilter := some ⟨0, ⟨[97], by decide⟩⟩ }
  let w := World.initial { c with subHandles := Function.update c.subHandles 0 entry } Env.exhausted
  have unchanged := congrArg (fun c => (Client.subHandles c 0).topicFilter)
    (leavesNoTrace w ⟨[97], by decide⟩ (by decide))
  revert unchanged
  decide

end QcloudIot.Mqtt
