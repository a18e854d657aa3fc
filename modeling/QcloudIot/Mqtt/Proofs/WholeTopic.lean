import QcloudIot.Mqtt.Proofs.Delivery
import QcloudIot.Mqtt.Proofs.PublishParser

/-!
# Dispatch on the whole topic

`_handle_publish_packet` copies the topic into an array of 128 bytes and cuts it when it is longer
than that. The copy is compared with the filters once as a C string and once by its length, and it
is what the application is shown.
-/

namespace QcloudIot.Mqtt

/-! ## Callbacks -/

/-- The message that a callback is given. -/
def Event.shown : Event → Option MqttMessage
  | .mqtt _ (.message msg) => some msg
  | .mqtt _ .null => none
  | .mqtt _ (.packetId _) => none
  | .message _ msg _ => some msg
  | .sub _ _ _ => none
  | .nullCall => none

/-- A callback has been made between two worlds. -/
def World.Calls (w w' : World) (event : Event) : Prop :=
  event ∈ w'.trace.drop w.trace.length

/-- The filter of an entry is the topic, or matches it. -/
def SubTopicHandle.Covers (h : SubTopicHandle) (topic : List UInt8) : Prop :=
  ∃ stored, h.topicFilter = some stored ∧
    (stored.text.bytes = topic ∨ isTopicMatched stored.text topic = true)

/-- An arrival is handed to the handler of an entry that matches it, or to the event callback. -/
theorem mem_delivery {c : Client} {arrival : Arrival} {event : Event}
    (mem : event ∈ c.delivery arrival) :
    (∃ i fn, (c.subHandles i).messageHandler = some fn ∧
      handleMatches arrival.topicName arrival.message.topicLen (c.subHandles i) = true ∧
      event = .message fn arrival.message (c.subHandles i).handlerUserData) ∨
    event = .mqtt .publishRecveived (.message arrival.message) := by
  rw [Client.delivery] at mem
  cases found : (List.finRange maxMessageHandlers).findSome? fun i =>
      (c.subHandles i).offer arrival with
  | none =>
    rw [found] at mem
    change event ∈ c.notifications _ _ at mem
    rw [Client.notifications] at mem
    split at mem
    · exact absurd mem List.not_mem_nil
    · exact .inr (List.mem_singleton.mp mem)
  | some event' =>
    rw [found] at mem
    obtain rfl := List.mem_singleton.mp mem
    obtain ⟨i, -, offered⟩ := List.exists_of_findSome?_eq_some found
    rw [SubTopicHandle.offer] at offered
    split at offered
    next matching =>
      obtain ⟨fn, handler, rfl⟩ := Option.map_eq_some_iff.mp offered
      exact .inl ⟨i, fn, handler, matching, rfl⟩
    · cases offered

theorem of_ptopic (msg : MqttMessage) (topicName : List UInt8) (topicLen : Nat) :
    (Arrival.of msg topicName topicLen).message.ptopic = topicName.take topicLen := rfl

theorem of_topicName (msg : MqttMessage) (topicName : List UInt8) (topicLen : Nat) :
    (Arrival.of msg topicName topicLen).topicName = topicName := rfl

theorem of_topicLen (msg : MqttMessage) (topicName : List UInt8) (topicLen : Nat) :
    (Arrival.of msg topicName topicLen).message.topicLen = topicLen := rfl

/-- What the handler of a PUBLISH hands on. -/
theorem handlePublishPacket_hands {w : World} {msg : MqttMessage} {topicName topicLen : Nat}
    (timer : Timer)
    (parsed : deserializePublishPacket w.client.readBuf 0 = .ok (msg, topicName, topicLen)) :
    (handlePublishPacket timer).wp (fun _ w' => w'.trace = w.trace ++
      if msg.qos ≠ QoS.qos0.code ∧ msg.id ∈ w.client.recorded then []
      else w.client.delivery (.of msg (fixTopic w.client.readBuf topicName topicLen).1
        (fixTopic w.client.readBuf topicName topicLen).2)) w := by
  have takes := handlePublishPacket_takes timer w
  by_cases qos0 : msg.qos = QoS.qos0.code
  · rw [handlePublishPacket, Prog.wp_bind, wp_client, parsed]
    simp only [Prog.wp_ite, Prog.wp_bind, Prog.wp_pure]
    refine ⟨fun _ => ?_, fun other => absurd qos0 other⟩
    refine Prog.wp_mono (deliverMessage_spec _ _ msg w) ?_
    rintro rc w' ⟨-, rfl⟩
    rw [if_neg fun both => both.1 qos0]
    rfl
  · refine Prog.wp_mono takes ?_
    intro _ w' taken
    rw [arrivalIn, if_pos rfl, parsed] at taken
    simp only at taken
    generalize fixTopic w.client.readBuf topicName topicLen = fixed at taken ⊢
    obtain ⟨topic, length⟩ := fixed
    rw [World.Takes, Arrival.of, if_neg qos0] at taken
    rw [taken.trace]
    simp only [ne_eq, qos0, not_false_eq_true, true_and]
    rfl

/-! ## C strings -/

theorem nul_not_mem_cstrOf (buf : List UInt8) : 0 ∉ cstrOf buf := by
  intro mem
  have holds := List.mem_takeWhile_imp mem
  exact absurd holds (by decide)

/-- The text of a buffer. -/
def textOf (buf : List UInt8) : CStr := ⟨cstrOf buf, nul_not_mem_cstrOf buf⟩

theorem cstrOf_eq {buf : List UInt8} (noNul : 0 ∉ buf) : cstrOf buf = buf := by
  refine List.takeWhile_eq_self_iff.mpr fun byte mem => ?_
  have other : byte ≠ 0 := fun nul => noNul (nul ▸ mem)
  exact decide_eq_true other

/-- NULs behind the text do not belong to it. -/
theorem cstrOf_append_nuls (buf : List UInt8) (n : Nat) :
    cstrOf (buf ++ List.replicate n 0) = cstrOf buf := by
  induction buf with
  | nil =>
    cases n with
    | zero => rfl
    | succ n => rfl
  | cons byte buf ih =>
    by_cases nul : byte = 0
    · subst nul
      rfl
    · have other : decide (byte ≠ 0) = true := decide_eq_true nul
      rw [cstrOf, List.cons_append, List.takeWhile_cons, if_pos other, cstrOf,
        List.takeWhile_cons, if_pos other]
      exact congrArg (byte :: ·) ih

/-! ## The copy of the topic -/

namespace PublishFrame

variable (frame : PublishFrame)

/-- The topic of the packet. -/
def topic : List UInt8 := (frame.body.drop 2).take frame.topicLength

/-- The copy that is used for the dispatch, and its length. -/
def copied : List UInt8 × Nat := fixTopic frame.buf (frame.start + 2) frame.topicLength

variable {frame}

theorem length_topic (holds : frame.HoldsTopic) : frame.topic.length = frame.topicLength := by
  have inside := holds.2.2
  rw [topic, List.length_take, List.length_drop]
  omega

theorem found_topic (holds : frame.HoldsTopic) :
    (frame.buf.drop (frame.start + 2)).take frame.topicLength = frame.topic := by
  have front : (frame.header :: mqttWritePacketRemLen frame.body.length).length = frame.start := by
    rw [List.length_cons, start, Nat.add_comm]
  rw [buf, ← List.drop_drop, ← front, List.drop_left, topic,
    List.drop_append_of_le_length holds.1, List.take_append_of_le_length]
  have inside := holds.2.2
  rw [List.length_drop]
  omega

/-- A topic that fits is copied as a whole, with NULs behind it. -/
theorem copied_fits (holds : frame.HoldsTopic) (fits : frame.topic.length ≤ maxSizeOfCloudTopic) :
    frame.copied = (frame.topic ++ List.replicate (maxSizeOfCloudTopic - frame.topic.length) 0,
      frame.topic.length) := by
  have length := length_topic holds
  have short : ¬ frame.topicLength > maxSizeOfCloudTopic := by omega
  have room : frame.topic.length ≤ (List.replicate maxSizeOfCloudTopic (0 : UInt8)).length := by
    rw [List.length_replicate]
    exact fits
  rw [copied, fixTopic, if_neg short, found_topic holds, overwrite_zero room, List.drop_replicate,
    length]

/-- A topic that does not fit is cut. -/
theorem copied_cut (long : ¬ frame.topicLength ≤ maxSizeOfCloudTopic) :
    frame.copied.2 = maxSizeOfCloudTopic - 1 :=
  if_pos (Nat.not_le.mp long)

theorem shown_copied (holds : frame.HoldsTopic)
    (fits : frame.topic.length ≤ maxSizeOfCloudTopic) :
    frame.copied.1.take frame.copied.2 = frame.topic := by
  rw [copied_fits holds fits]
  exact List.take_left

theorem length_copied (holds : frame.HoldsTopic)
    (fits : frame.topic.length ≤ maxSizeOfCloudTopic) : frame.copied.2 = frame.topic.length := by
  rw [copied_fits holds fits]

theorem cstrOf_copied (holds : frame.HoldsTopic)
    (fits : frame.topic.length ≤ maxSizeOfCloudTopic) :
    cstrOf frame.copied.1 = cstrOf frame.topic := by
  rw [copied_fits holds fits]
  exact cstrOf_append_nuls _ _

/-! ## The dispatch -/

variable (frame)

/-- The handling of the packet has gone by its whole topic: the copy ends in a NUL, a handler has
    been called only if its filter is the topic or matches it, and every callback has been shown
    the topic. -/
structure DispatchedWhole (w w' : World) : Prop where
  terminated : 0 ∈ frame.copied.1
  handlers : ∀ fn message userData, w.Calls w' (.message fn message userData) →
    ∃ i, (w.client.subHandles i).messageHandler = some fn ∧
      (w.client.subHandles i).handlerUserData = userData ∧
      (w.client.subHandles i).Covers frame.topic
  topics : ∀ event message, w.Calls w' event → event.shown = some message →
    message.ptopic = frame.topic ∧ message.topicLen = frame.topic.length

/-- The packet is dispatched on its whole topic by every client, whatever has been subscribed to.
    `qcloud_iot_mqtt_subscribe` refuses an empty filter. -/
def DispatchesWhole : Prop :=
  ∀ (timer : Timer) (w : World), w.client.readBuf = frame.buf →
    (∀ i stored, (w.client.subHandles i).topicFilter = some stored → stored.text.bytes ≠ []) →
    (handlePublishPacket timer).wp (fun _ w' => frame.DispatchedWhole w w') w

/-- The topic fits into the array, and if it has a NUL, the text in front of that, read as a
    filter, matches all of it. -/
structure TopicFits : Prop where
  short : frame.topic.length ≤ maxSizeOfCloudTopic
  ends : frame.topic.length = maxSizeOfCloudTopic → 0 ∈ frame.topic
  front : 0 ∈ frame.topic → (textOf frame.topic).bytes = [] ∨
    isTopicMatched (textOf frame.topic) frame.topic = true

variable {frame}

/-- An entry that matches the copy covers the topic. -/
theorem TopicFits.covers (topicFits : frame.TopicFits) (holds : frame.HoldsTopic)
    {h : SubTopicHandle}
    (subscribed : ∀ stored, h.topicFilter = some stored → stored.text.bytes ≠ [])
    (matching : handleMatches frame.copied.1 frame.copied.2 h = true) :
    h.Covers frame.topic := by
  cases filter : h.topicFilter with
  | none =>
    rw [handleMatches, filter] at matching
    exact absurd matching Bool.false_ne_true
  | some stored =>
    refine ⟨stored, filter, ?_⟩
    rw [handleMatches, filter] at matching
    simp only [Bool.or_eq_true, isTopicEquals, Bool.and_eq_true, beq_iff_eq,
      shown_copied holds topicFits.short, cstrOf_copied holds topicFits.short] at matching
    rcases matching with ⟨-, isFront⟩ | matched
    · by_cases nul : 0 ∈ frame.topic
      · have same : textOf frame.topic = stored.text := CStr.ext_bytes isFront
        rcases topicFits.front nul with empty | matched
        · rw [same] at empty
          exact absurd empty (subscribed stored filter)
        · rw [same] at matched
          exact .inr matched
      · rw [cstrOf_eq nul] at isFront
        exact .inl isFront.symm
    · exact .inr matched

theorem TopicFits.terminated (topicFits : frame.TopicFits) (holds : frame.HoldsTopic) :
    0 ∈ frame.copied.1 := by
  rw [copied_fits holds topicFits.short]
  by_cases full : frame.topic.length = maxSizeOfCloudTopic
  · exact List.mem_append_left _ (topicFits.ends full)
  · have room : maxSizeOfCloudTopic - frame.topic.length ≠ 0 := by
      have short := topicFits.short
      omega
    exact List.mem_append_right _ (List.mem_replicate.mpr ⟨room, rfl⟩)

theorem TopicFits.dispatchesWhole (topicFits : frame.TopicFits) (holds : frame.HoldsTopic) :
    frame.DispatchesWhole := by
  intro timer w buf subscribed
  obtain ⟨msg, parsed, -⟩ := frame.deserialize_ok 0 holds
  rw [← buf] at parsed
  refine Prog.wp_mono (handlePublishPacket_hands timer parsed) ?_
  intro _ w' trace
  rw [buf] at trace
  change w'.trace = w.trace ++ if _ then [] else
    w.client.delivery (.of msg frame.copied.1 frame.copied.2) at trace
  have called : ∀ event, w.Calls w' event →
      event ∈ w.client.delivery (.of msg frame.copied.1 frame.copied.2) := by
    intro event mem
    rw [World.Calls, trace, List.drop_left] at mem
    split at mem
    · exact absurd mem List.not_mem_nil
    · exact mem
  have topics : (Arrival.of msg frame.copied.1 frame.copied.2).message.ptopic = frame.topic ∧
      (Arrival.of msg frame.copied.1 frame.copied.2).message.topicLen = frame.topic.length :=
    ⟨(of_ptopic _ _ _).trans (shown_copied holds topicFits.short),
      (of_topicLen _ _ _).trans (length_copied holds topicFits.short)⟩
  refine ⟨topicFits.terminated holds, ?_, ?_⟩
  · intro fn message userData mem
    rcases mem_delivery (called _ mem) with ⟨i, fn', handler, matching, same⟩ | other
    · obtain ⟨rfl, rfl, rfl⟩ := Event.message.inj same
      rw [of_topicName, of_topicLen] at matching
      exact ⟨i, handler, rfl, topicFits.covers holds (subscribed i) matching⟩
    · exact absurd other nofun
  · intro event message mem shown
    rcases mem_delivery (called _ mem) with ⟨i, fn, handler, matching, rfl⟩ | rfl
    · obtain rfl := Option.some.inj shown
      exact topics
    · obtain rfl := Option.some.inj shown
      exact topics

/-! ## Clients that go by something else -/

variable (frame)

/-- An entry with a handler. -/
def entryOf (text : CStr) : SubTopicHandle where
  topicFilter := some ⟨0, text⟩
  messageHandler := some 1
  subEventHandler := none
  handlerUserData := 0
  qos := .qos0

/-- A client with a callback for events that reads the packet, all entries of whose table are the
    same, and that has not recorded the packet id. -/
def reader (h : SubTopicHandle) (id : UInt16) : World :=
  World.initial
    { qcloudIotMqttInit ⟨⟨[], CStr.noNul_nil⟩, 2000, 60000, 1, 1, some 1⟩ 0 with
      readBuf := frame.buf
      subHandles := fun _ => h
      repeatPacketIdBuf := fun i => id + (1 + UInt16.ofNat i) }
    Env.exhausted

theorem reader_unrecorded (h : SubTopicHandle) (id : UInt16) :
    id ∉ (frame.reader h id).client.recorded := by
  intro mem
  obtain ⟨i, same⟩ := mem_ringContents.mp mem
  have zero : 1 + UInt16.ofNat i.val = 0 := add_eq_left.mp same
  have positive : ∀ i : Fin (9 + 1), 1 + UInt16.ofNat i.val ≠ 0 := by decide
  exact positive i zero

variable {frame}

theorem reader_hands (holds : frame.HoldsTopic) (dispatches : frame.DispatchesWhole)
    {h : SubTopicHandle}
    (subscribed : ∀ stored, h.topicFilter = some stored → stored.text.bytes ≠ []) :
    ∃ msg w', frame.DispatchedWhole (frame.reader h msg.id) w' ∧
      ∀ event, event ∈ (frame.reader h msg.id).client.delivery
        (.of msg frame.copied.1 frame.copied.2) → (frame.reader h msg.id).Calls w' event := by
  obtain ⟨msg, parsed, -⟩ := frame.deserialize_ok 0 holds
  have hands := @handlePublishPacket_hands (frame.reader h msg.id) _ _ _ ⟨0⟩ parsed
  have whole := dispatches ⟨0⟩ (frame.reader h msg.id) rfl fun _ => subscribed
  refine ⟨msg, _, whole, ?_⟩
  intro event mem
  rw [Prog.wp, if_neg fun both => frame.reader_unrecorded h msg.id both.2] at hands
  rw [World.Calls, hands, List.drop_left]
  exact mem

/-- A client without subscriptions is shown the copy. -/
theorem delivery_unsubscribed {h : SubTopicHandle} (unsubscribed : h.topicFilter = none)
    (id : UInt16) (arrival : Arrival) :
    .mqtt .publishRecveived (.message arrival.message) ∈
      (frame.reader h id).client.delivery arrival := by
  have none : ((List.finRange maxMessageHandlers).findSome? fun i =>
      ((frame.reader h id).client.subHandles i).offer arrival) = none := by
    refine List.findSome?_eq_none_iff.mpr fun i _ => ?_
    change SubTopicHandle.offer arrival h = none
    rw [SubTopicHandle.offer, handleMatches, unsubscribed]
    rfl
  rw [Client.delivery, none]
  exact List.mem_singleton.mpr rfl

/-- An entry that matches the copy is handed the message. -/
theorem delivery_subscribed {h : SubTopicHandle} {fn : FnPtr} (handler : h.messageHandler = some fn)
    (id : UInt16) {arrival : Arrival}
    (matching : handleMatches arrival.topicName arrival.message.topicLen h = true) :
    .message fn arrival.message h.handlerUserData ∈
      (frame.reader h id).client.delivery arrival := by
  have offered : SubTopicHandle.offer arrival h =
      some (.message fn arrival.message h.handlerUserData) := by
    rw [SubTopicHandle.offer, if_pos matching, handler]
    rfl
  have first : ((List.finRange maxMessageHandlers).findSome? fun i =>
      ((frame.reader h id).client.subHandles i).offer arrival) =
        some (.message fn arrival.message h.handlerUserData) := by
    have entry : (frame.reader h id).client.subHandles 0 = h := rfl
    rw [List.finRange_succ, List.findSome?_cons, entry, offered]
  rw [Client.delivery, first]
  exact List.mem_singleton.mpr rfl

theorem DispatchesWhole.topicFits (dispatches : frame.DispatchesWhole)
    (holds : frame.HoldsTopic) : frame.TopicFits := by
  have length := length_topic holds
  have short : frame.topic.length ≤ maxSizeOfCloudTopic := by
    by_contra long
    obtain ⟨msg, w', whole, called⟩ := @reader_hands _ holds dispatches .zero nofun
    have mem := called _ (delivery_unsubscribed rfl msg.id _)
    have shown := (whole.topics _ _ mem rfl).2
    rw [of_topicLen, copied_cut (by rw [← length]; exact long)] at shown
    omega
  refine ⟨short, ?_, ?_⟩
  · intro full
    obtain ⟨_, _, whole, -⟩ := @reader_hands _ holds dispatches .zero nofun
    have ends := whole.terminated
    rw [copied_fits holds short, full, Nat.sub_self, List.replicate_zero, List.append_nil] at ends
    exact ends
  · intro nul
    by_contra neither
    obtain ⟨some, other⟩ := not_or.mp neither
    have subscribed : ∀ stored, (entryOf (textOf frame.topic)).topicFilter = .some stored →
        stored.text.bytes ≠ [] := by
      intro stored isFilter
      obtain rfl := Option.some.inj isFilter
      exact some
    obtain ⟨msg, w', whole, called⟩ := reader_hands holds dispatches subscribed
    have matching : handleMatches frame.copied.1 frame.copied.2
        (entryOf (textOf frame.topic)) = true := by
      rw [handleMatches, entryOf]
      simp only [Bool.or_eq_true, isTopicEquals, Bool.and_eq_true, beq_iff_eq,
        cstrOf_copied holds short]
      exact .inl ⟨rfl, rfl⟩
    rw [← of_topicName msg frame.copied.1 frame.copied.2] at matching
    have mem := called _ (delivery_subscribed rfl msg.id matching)
    obtain ⟨_, -, -, stored, isFilter, covers⟩ := whole.handlers _ _ _ mem
    obtain rfl := Option.some.inj isFilter
    rcases covers with same | matched
    · rw [← same] at nul
      exact nul_not_mem_cstrOf frame.topic nul
    · exact other matched

/-- A PUBLISH with QoS 0 and a topic of one byte. -/
def shortTopic : PublishFrame where
  header := 0x30
  body := [0, 1, 97]
  stale := List.replicate 2043 0
  isPublish := by decide
  fills := by decide +kernel

theorem shortTopic_holds : shortTopic.HoldsTopic := by with_unfolding_all decide

/-- A PUBLISH with QoS 0 and a topic that fills the array. -/
def fullTopic : PublishFrame where
  header := 0x30
  body := [0, 128] ++ List.replicate 128 97
  stale := List.replicate 1915 0
  isPublish := by decide
  fills := by decide +kernel

end PublishFrame

end QcloudIot.Mqtt
