import QcloudIot.Misc.Outcome
import QcloudIot.Mqtt.Proofs.Sessions

/-!
# One outcome for every QoS1 publish

A QoS1 publish that returns its packet id waits for a PUBACK, which the application is told
of, or for its time to run out, which it is told of too. The history of a session consists
of these publishes and of these outcomes. `_handle_puback_packet` reports a success for any
packet id whatever, so a PUBACK that is duplicated, late or unsolicited is an outcome nobody
waits for; `World.OutcomesExpected` excludes it.
-/

namespace QcloudIot.Mqtt

/-! ## Histories -/

/-- The packet id that a QoS1 publish call returns. -/
def World.opens (w : World) : Call → List UInt16
  | .publish topicName params =>
    let rc := w.returns (.publish topicName params)
    if params.qos = .qos1 ∧ 0 ≤ rc then [UInt16.ofNat rc.toNat] else []
  | _ => []

/-- What a call adds to the history of the publishes. -/
def World.marks (w : World) (call : Call) : List (Mark UInt16) :=
  ((w.after call).outcomes.drop w.outcomes.length).map .outcome ++ (w.opens call).map .opened

/-- The history of the publishes in a session. -/
def publishHistory (w : World) : List Call → List (Mark UInt16)
  | [] => []
  | call :: calls => w.marks call ++ publishHistory (w.after call) calls

theorem publishHistory_concat (w : World) (calls : List Call) (call : Call) :
    publishHistory w (calls ++ [call]) =
      publishHistory w calls ++ (session.exec w calls).marks call := by
  induction calls generalizing w with
  | nil => simp [publishHistory]
  | cons first calls ih =>
    rw [List.cons_append, publishHistory, ih, publishHistory, Machine.exec_cons, session_step,
      List.append_assoc]

/-- Each publish has at most one outcome until its packet id is used again, and no outcome
    carries a packet id that is not pending. -/
def OneOutcome (history : List (Mark UInt16)) : Prop :=
  (∀ before packetId during after, history = before ++ .opened packetId :: during ++ after →
    .opened packetId ∉ during → during.count (.outcome packetId) ≤ 1) ∧
  ∀ before packetId after, history = before ++ .outcome packetId :: after →
    Pending before packetId

theorem oneOutcome_of_answered {history : List (Mark UInt16)} (answered : Answered history) :
    OneOutcome history := by
  refine ⟨?_, answered⟩
  rintro before packetId during after rfl once
  exact answered.count_outcome_le_one once

/-! ## The publishes that wait -/

/-- The packet ids with which publishes wait. -/
def World.waitingIds (w : World) : List UInt16 := w.client.listPubWaitAck.flatMap PubInfo.held

/-- A PUBACK that is read is for a publish that waits, and that publish is then marked. -/
def World.PubackExpected (w : World) : Option Ack → Prop
  | some (.puback packetId) => packetId ∈ w.waitingIds ∧ w.env.mallocs.headD true = true
  | _ => True

instance (w : World) : ∀ ack, Decidable (w.PubackExpected ack)
  | some (.puback _) => inferInstanceAs (Decidable (_ ∧ _))
  | none | some (.suback _ _) | some (.unsuback _) => .isTrue trivial

/-- The call reports no outcome that nobody waits for: a PUBACK it reads is expected, and a
    QoS1 publish does not get the packet id of one that waits. -/
def World.OutcomesExpected (w : World) : Call → Prop
  | .publish _ params => params.qos = .qos1 → nextId w.client.nextPacketId ∉ w.waitingIds
  | .cycleForRead _ => w.PubackExpected w.inbound
  | _ => True

instance (w : World) : ∀ call, Decidable (w.OutcomesExpected call)
  | .publish _ _ => inferInstanceAs (Decidable (_ → _))
  | .cycleForRead _ => inferInstanceAs (Decidable (w.PubackExpected _))
  | .subscribe _ _ | .unsubscribe _ | .pubInfoProc | .subInfoProc | .upkeep _ =>
    .isTrue trivial

/-- An acknowledged packet id is no longer waited with. -/
theorem flatMap_held_mask (packetId : UInt16) (nodes : List PubInfo) :
    (nodes.map (PubInfo.mask packetId)).flatMap PubInfo.held =
      (nodes.flatMap PubInfo.held).filter (· != packetId) := by
  induction nodes with
  | nil => rfl
  | cons node nodes ih =>
    have head : (node.mask packetId).held = node.held.filter (· != packetId) := by
      by_cases same : node.msgId = packetId
      · rw [PubInfo.mask, if_pos same, PubInfo.held, PubInfo.held]
        split <;> simp_all
      · rw [PubInfo.mask, if_neg same, PubInfo.held]
        split <;> simp [same]
    rw [List.map_cons, List.flatMap_cons, List.flatMap_cons, List.filter_append, ih, head]

theorem nodup_perm_filter_append {ids : List UInt16} (distinct : ids.Nodup) {packetId : UInt16}
    (member : packetId ∈ ids) : ids.Perm (ids.filter (· != packetId) ++ [packetId]) := by
  rw [← distinct.erase_eq_filter]
  exact (List.perm_cons_erase member).trans (List.perm_append_singleton packetId _).symm

/-- What one call does to the publishes that wait and to the history. -/
theorem tracks_step {w : World} {history : List (Mark UInt16)} {call : Call}
    (expected : w.OutcomesExpected call) (tracks : Tracks w.waitingIds history) :
    Tracks (w.after call).waitingIds (history ++ w.marks call) := by
  -- some ids are no longer waited with, and they are reported if there is an event handler
  have reported : ∀ ids, (∀ topicName params, call ≠ .publish topicName params) →
      (w.after call).outcomes = w.outcomes ++ (if w.client.eventHandle = none then [] else ids) →
      w.waitingIds.Perm ((w.after call).waitingIds ++ ids) →
      Tracks (w.after call).waitingIds (history ++ w.marks call) := by
    intro ids other outcomes split
    have marks : w.marks call =
        (if w.client.eventHandle = none then [] else ids).map .outcome := by
      have opens : w.opens call = [] := by
        cases call with
        | publish topicName params => exact absurd rfl (other topicName params)
        | _ => rfl
      rw [World.marks, outcomes, List.drop_left, opens, List.map_nil, List.append_nil]
    rw [marks]
    split
    · rw [List.map_nil, List.append_nil]
      exact tracks.forget split
    · exact tracks.append_outcomes split
  have unchanged : ∀ u : World, w.KeepsPublishes u → u.waitingIds = w.waitingIds := by
    intro u keeps
    rw [World.waitingIds, keeps.listPubWaitAck, World.waitingIds]
  have step := w.after_publishes call
  cases step with
  | @published topicName params _ node qos returns msgId normanl list outcomes =>
    have waiting : (w.after (.publish topicName params)).waitingIds =
        w.waitingIds ++ [nextId w.client.nextPacketId] := by
      rw [World.waitingIds, list, List.flatMap_append, World.waitingIds, List.flatMap_singleton,
        PubInfo.held, if_pos normanl, msgId]
    have marks : w.marks (.publish topicName params) = [.opened (nextId w.client.nextPacketId)] := by
      rw [World.marks, outcomes, List.drop_length]
      simp [World.opens, qos, returns]
    rw [waiting, marks]
    exact tracks.concat_opened (expected qos)
  | @untracked topicName params _ outside keeps =>
    have marks : w.marks (.publish topicName params) = [] := by
      rw [World.marks, keeps.outcomes, List.drop_length]
      rcases outside with qos | refused
      · simp [World.opens, qos]
      · have negative : ¬ 0 ≤ w.returns (.publish topicName params) := by omega
        simp [World.opens, negative]
    rw [unchanged _ keeps, marks, List.append_nil]
    exact tracks
  | @acked timer packetId _ read list outcomes =>
    rw [World.OutcomesExpected, read] at expected
    obtain ⟨member, allocated⟩ := expected
    rw [if_pos allocated] at list
    refine reported [packetId] (by simp) outcomes ?_
    rw [World.waitingIds, World.waitingIds, list, flatMap_held_mask]
    exact nodup_perm_filter_append tracks.distinct member
  | swept swept outcomes => exact reported _ (by simp) outcomes swept.perm
  | other other keeps =>
    refine reported [] other ?_ ?_
    · rw [keeps.outcomes]
      split <;> simp
    · rw [unchanged _ keeps, List.append_nil]

theorem tracks_run {w : World} (fresh : w.Fresh) {calls : List Call}
    (expected : session.Guarded World.OutcomesExpected w calls) :
    Tracks (session.exec w calls).waitingIds (publishHistory w calls) := by
  refine Machine.Guarded.induction (P := fun calls =>
    Tracks (session.exec w calls).waitingIds (publishHistory w calls)) ?_ ?_ expected
  · rw [Machine.exec_nil, World.waitingIds, fresh.listPubWaitAck]
    exact tracks_nil
  · intro calls call _ expected tracks
    rw [Machine.exec_concat, publishHistory_concat]
    exact tracks_step expected tracks

/-- In a session in which the outcomes are expected every QoS1 publish has one outcome. -/
theorem publish_oneOutcome (w : World) (fresh : w.Fresh) (calls : List Call)
    (expected : session.Guarded World.OutcomesExpected w calls) :
    OneOutcome (publishHistory w calls) :=
  oneOutcome_of_answered (tracks_run fresh expected).answered

/-! ## Two sessions -/

/-- A connected client to which the peer has sent `stream`, before it publishes. -/
def publishing (stream : List UInt8) : World :=
  let c := qcloudIotMqttInit ⟨⟨[97], CStr.noNul_a⟩, 5000, 240000, 1, 1, some 1⟩ 5
  let w := World.initial { c with isConnected := true }
    { Env.exhausted with
      writes := [{ rc := qcloudRetSuccess, written := 9, nonpos := qcloudRetSuccess_nonpos }]
      reads := List.replicate 6 { avail := 2, err := qcloudErrTcpReadFail,
                                   negative := qcloudErrTcpReadFail_negative,
                                   driver := qcloudErrTcpReadFail_driver } }
  { w with net := { w.net with stream := stream } }

theorem publishing_fresh (stream : List UInt8) : (publishing stream).Fresh :=
  ⟨rfl, rfl, fun _ => rfl, rfl, rfl⟩

/-- `hi` is published on `a`, which takes packet id 7. -/
def publishHi : Call := .publish ⟨[97], CStr.noNul_a⟩ ⟨.qos1, 0, 0, [104, 105]⟩

/-- One PUBACK is read. -/
theorem publish_oneOutcome_puback :
    OneOutcome (publishHistory (publishing [0x40, 2, 0, 7]) [publishHi, .cycleForRead ⟨1⟩]) :=
  publish_oneOutcome _ (publishing_fresh _) _ (by decide +kernel)

/-- The PUBACK is duplicated: the application is told twice that the publish succeeded. -/
theorem publish_duplicate_puback :
    ¬ ∀ w : World, w.Fresh → ∀ calls, OneOutcome (publishHistory w calls) := by
  intro oneOutcome
  have history : publishHistory (publishing [0x40, 2, 0, 7, 0x40, 2, 0, 7])
      [publishHi, .cycleForRead ⟨1⟩, .cycleForRead ⟨1⟩] =
      [.opened 7, .outcome 7, .outcome 7] := by
    decide +kernel
  have once := (oneOutcome _ (publishing_fresh _) _).1 [] 7 [.outcome 7, .outcome 7] [] history
    (by decide)
  exact absurd once (by decide)

end QcloudIot.Mqtt
