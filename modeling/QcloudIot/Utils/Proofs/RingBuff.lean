import QcloudIot.Utils.RingBuff

/-!
# The ring buffer is a queue

Over every order of pushes and pops, what has been pushed is what has been popped followed by the
contents. The cursors stay inside the buffer by the type of the buffer.
-/

namespace QcloudIot.Utils.RingBuff

variable {ring : RingBuff}

/-- The leading bytes that the loop of `ring_buff_push_data` stores before it stops
    (`utils_ringbuff.c:51-63`). -/
def stored : RingBuff → List UInt8 → List UInt8
  | _, [] => []
  | ring, byte :: rest =>
    if (ring.writepoint + 1) % ring.size = ring.readpoint then []
    else byte :: stored (ring.store byte) rest

/-- A call of `ring_buff_push_data` with the bytes to store, or of `ring_buff_pop_data` with the
    number of bytes that are wanted. -/
inductive Call
  | push (pData : List UInt8)
  | pop (len : Int)

/-- A buffer, and the bytes that have been pushed into it and popped out of it so far. -/
structure History where
  ring : RingBuff
  pushed : List UInt8
  popped : List UInt8

namespace History

/-- A call. A push that is refused counts for nothing, and one that finds the buffer full for the
    leading bytes that it stored. -/
def step (history : History) : Call → History
  | .push pData =>
    { history with
      ring := (history.ring.ringBuffPushData pData pData.length).2
      pushed := history.pushed ++
        (if (history.ring.ringBuffPushData pData pData.length).1 = ringbuffTooShort then []
        else stored history.ring pData) }
  | .pop len =>
    { history with
      ring := (history.ring.ringBuffPopData len).2.2
      popped := history.popped ++ (history.ring.ringBuffPopData len).2.1 }

def init (size : Nat) (positive : 0 < size) : History :=
  ⟨RingBuff.init size positive, [], []⟩

def run (history : History) (calls : List Call) : History :=
  calls.foldl step history

/-- What has been pushed is what has been popped, and then what the buffer holds. -/
structure Queued (size : Nat) (history : History) : Prop where
  size_eq : history.ring.size = size
  pushed_eq : history.pushed = history.popped ++ history.ring.contents

end History

/-! ## The bytes stored -/

theorem stored_cons_full {byte : UInt8} {rest : List UInt8}
    (full : (ring.writepoint + 1) % ring.size = ring.readpoint) :
    stored ring (byte :: rest) = [] := by
  rw [stored, if_pos full]

theorem stored_cons_room {byte : UInt8} {rest : List UInt8}
    (room : ¬(ring.writepoint + 1) % ring.size = ring.readpoint) :
    stored ring (byte :: rest) = byte :: stored (ring.store byte) rest := by
  rw [stored, if_neg room]

/-- The bytes stored are leading ones. -/
theorem stored_isPrefix (ring : RingBuff) (bytes : List UInt8) : stored ring bytes <+: bytes := by
  induction bytes generalizing ring with
  | nil => exact List.prefix_rfl
  | cons byte rest ih =>
    by_cases full : (ring.writepoint + 1) % ring.size = ring.readpoint
    · rw [stored_cons_full full]
      exact List.nil_prefix
    · rw [stored_cons_room full]
      exact List.prefix_cons_inj byte |>.mpr (ih (ring.store byte))

/-- All bytes are stored, or the buffer is full. -/
theorem push_returns (ring : RingBuff) (bytes : List UInt8) :
    (ring.push bytes).1 = ringbuffOk ∧ stored ring bytes = bytes ∨
      (ring.push bytes).1 = ringbuffFull ∧ (stored ring bytes).length < bytes.length := by
  induction bytes generalizing ring with
  | nil => exact Or.inl ⟨rfl, rfl⟩
  | cons byte rest ih =>
    by_cases full : (ring.writepoint + 1) % ring.size = ring.readpoint
    · rw [stored_cons_full full, push, if_pos full]
      exact Or.inr ⟨rfl, Nat.zero_lt_succ _⟩
    · rw [stored_cons_room full, push, if_neg full]
      rcases ih (ring.store byte) with ⟨ok, all⟩ | ⟨stopped, fewer⟩
      · exact Or.inl ⟨ok, by rw [all]⟩
      · exact Or.inr ⟨stopped, Nat.succ_lt_succ fewer⟩

theorem push_not_tooShort (ring : RingBuff) (bytes : List UInt8) :
    (ring.push bytes).1 ≠ ringbuffTooShort := by
  rcases push_returns ring bytes with ⟨value, -⟩ | ⟨value, -⟩
  · rw [value]
    decide
  · rw [value]
    decide

/-- The bytes of a call that is not refused are pushed. -/
theorem ringBuffPushData_fits {pData : List UInt8}
    (fits : ¬(pData.length : Int) % 2 ^ 32 > ring.size) :
    ring.ringBuffPushData pData pData.length = ring.push pData := by
  rw [ringBuffPushData, if_neg fits, Int.toNat_natCast, List.take_length]

/-- The bytes stored come behind the contents. -/
theorem contents_push_stored (ring : RingBuff) (bytes : List UInt8) :
    (ring.push bytes).2.contents = ring.contents ++ stored ring bytes := by
  induction bytes generalizing ring with
  | nil => exact (List.append_nil _).symm
  | cons byte rest ih =>
    by_cases full : (ring.writepoint + 1) % ring.size = ring.readpoint
    · rw [stored_cons_full full, push, if_pos full, List.append_nil]
      rfl
    · have room : ring.contents.length < ring.size - 1 := by
        have inside := length_contents ring
        have apart : ring.contents.length ≠ ring.size - 1 := by
          intro all
          rw [circleNext_eq_mod ring.writepoint_lt,
            circleNext_eq_iff ring.readpoint_lt ring.writepoint_lt] at full
          rw [contents, length_circleContents] at all
          exact full all
        omega
      rw [stored_cons_room full, push, if_neg full, ih (ring.store byte), contents_store room,
        List.append_assoc, List.singleton_append]

/-- The number of bytes that are stored. -/
theorem length_contents_eq (ring : RingBuff) :
    (ring.contents.length : Int) = ((ring.writepoint : Int) - ring.readpoint) % ring.size := by
  have read := ring.readpoint_lt
  have written := ring.writepoint_lt
  rw [contents, length_circleContents, circleCount]
  split
  · rw [Int.emod_eq_of_lt (by omega) (by omega)]
    omega
  · rw [← Int.add_emod_right, Int.emod_eq_of_lt (by omega) (by omega)]
    omega

/-! ## Calls -/

namespace History

variable {size : Nat} {history : History}

theorem init_queued (positive : 0 < size) : (init size positive).Queued size :=
  ⟨rfl, (contents_init size positive).symm⟩

theorem step_queued (call : Call) (queued : history.Queued size) :
    (history.step call).Queued size := by
  cases call with
  | push pData =>
    simp only [step]
    by_cases short : (pData.length : Int) % 2 ^ 32 > history.ring.size
    · simp only [ringBuffPushData, if_pos short, ite_true, List.append_nil]
      exact queued
    · rw [ringBuffPushData_fits short, if_neg (push_not_tooShort history.ring pData)]
      refine ⟨?_, ?_⟩
      · exact (contents_push history.ring _).2.trans queued.size_eq
      · simp only [queued.pushed_eq, contents_push_stored, List.append_assoc]
  | pop len =>
    simp only [step, ringBuffPopData]
    by_cases short : len % 2 ^ 32 > history.ring.size
    · simp only [if_pos short, List.append_nil]
      exact queued
    · simp only [if_neg short]
      obtain ⟨taken, left, same⟩ := contents_pop history.ring len.toNat
      refine ⟨same.trans queued.size_eq, ?_⟩
      simp only [taken, left, queued.pushed_eq, List.append_assoc, List.take_append_drop]

theorem run_queued (calls : List Call) (queued : history.Queued size) :
    (history.run calls).Queued size := by
  induction calls generalizing history with
  | nil => exact queued
  | cons call rest ih => exact ih (step_queued call queued)

end History

/-- Whatever the order of the calls, the buffer is first in, first out: the bytes popped are the
    first ones of those pushed, and the others are stored. -/
theorem ringBuff_fifo (size : Nat) (large : 2 ≤ size) (calls : List Call) :
    let history := (History.init size (by omega)).run calls
    (history.ring.readpoint < size ∧ history.ring.writepoint < size) ∧
      (history.ring.contents.length : Int) =
        ((history.ring.writepoint : Int) - history.ring.readpoint) % size ∧
      history.ring.contents.length ≤ size - 1 ∧
      history.popped <+: history.pushed ∧
      history.pushed = history.popped ++ history.ring.contents ∧
      ∀ pData : List UInt8, pData.length ≤ size →
        ((history.ring.ringBuffPushData pData pData.length).1 = ringbuffOk ∧
          stored history.ring pData = pData) ∨
        ((history.ring.ringBuffPushData pData pData.length).1 = ringbuffFull ∧
          stored history.ring pData <+: pData ∧
          (stored history.ring pData).length < pData.length) := by
  intro history
  have queued : history.Queued size := History.run_queued calls (History.init_queued (by omega))
  have read := history.ring.readpoint_lt
  have written := history.ring.writepoint_lt
  have count := length_contents_eq history.ring
  have fewer := length_contents history.ring
  rw [queued.size_eq] at read written count fewer
  refine ⟨⟨read, written⟩, count, by omega, ?_, queued.pushed_eq, ?_⟩
  · rw [queued.pushed_eq]
    exact List.prefix_append _ _
  · intro pData short
    have fits : ¬(pData.length : Int) % 2 ^ 32 > history.ring.size := by
      rw [queued.size_eq]
      omega
    rw [ringBuffPushData_fits fits]
    rcases push_returns history.ring pData with ⟨ok, all⟩ | ⟨full, fewer⟩
    · exact Or.inl ⟨ok, all⟩
    · exact Or.inr ⟨full, stored_isPrefix history.ring pData, fewer⟩

theorem ringBuff_fifo_three :
    let history := (History.init 3 (by decide)).run [.push [7, 8, 9], .pop 1, .push [5], .pop 3]
    history.popped = [7, 8, 5] ∧ history.popped <+: history.pushed := by
  refine ⟨by decide, ?_⟩
  exact (ringBuff_fifo 3 (by decide) [.push [7, 8, 9], .pop 1, .push [5], .pop 3]).2.2.2.1

end QcloudIot.Utils.RingBuff
