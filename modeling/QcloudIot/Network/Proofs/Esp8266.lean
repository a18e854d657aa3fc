import QcloudIot.Network.Esp8266

/-!
# What a send returns

When `esp8266_send` clears the end sign, writes every block behind its prompt, and returns the number
of bytes of the blocks that have been sent.
-/

namespace QcloudIot.Network

open QcloudIot.Mqtt (qcloudErrInval qcloudErrFailure)

namespace AtClient

variable {client : AtClient} {line : List UInt8} {delivery : Delivery} {allocated : Bool}
  {deliveries : List Delivery} {ch : UInt8}

/-! ## The parser leaves the end sign alone -/

theorem callUrc_endSign (client : AtClient) (urc : AtUrc) (line : List UInt8) (allocated : Bool) :
    (client.callUrc urc line allocated).endSign = client.endSign := by
  unfold callUrc
  cases urc.func <;> rfl

theorem callUrc_respSem (client : AtClient) (urc : AtUrc) (line : List UInt8) (allocated : Bool) :
    (client.callUrc urc line allocated).respSem = client.respSem := by
  unfold callUrc
  cases urc.func <;> rfl

theorem copyLine_endSign (client : AtClient) (line : List UInt8) :
    (client.copyLine line).endSign = client.endSign := by
  unfold copyLine
  split <;> rfl

theorem respond_endSign (client : AtClient) (line : List UInt8) :
    (client.respond line).endSign = client.endSign := by
  have copied := client.copyLine_endSign (line.dropLast ++ [0])
  unfold respond finish
  split
  · split <;> rfl
  · dsimp only
    split
    · exact copied
    · split
      · exact copied
      · split
        · exact copied
        · exact copied

theorem takeLine_endSign (client : AtClient) (line : List UInt8) (allocated : Bool) :
    (client.takeLine line allocated).endSign = client.endSign := by
  unfold takeLine
  cases getUrcObj line with
  | some urc => exact client.callUrc_endSign urc line allocated
  | none =>
    dsimp only
    split
    · exact client.respond_endSign line
    · rfl

/-- A byte is kept, or it ends a line that is taken or dropped. -/
theorem readByte_cases (client : AtClient) (ch : UInt8) (allocated : Bool) :
    (∃ line isFull lastCh, client.readByte ch allocated =
        { client with line := line, isFull := isFull, lastCh := lastCh }) ∨
      client.readByte ch allocated =
        AtClient.takeLine { client with line := [], isFull := false, lastCh := 0 }
          (client.line ++ [ch]) allocated := by
  unfold readByte
  dsimp only
  by_cases roomy : client.line.length < clinetBuffLen
  · simp only [if_pos roomy]
    split
    · split
      · exact .inl ⟨_, _, _, rfl⟩
      · exact .inr rfl
    · exact .inl ⟨_, _, _, rfl⟩
  · have full : (client.isFull || !decide (client.line.length < clinetBuffLen)) = true := by
      rw [decide_eq_false roomy, Bool.not_false, Bool.or_true]
    simp only [if_neg roomy, full, if_true]
    split
    · exact .inl ⟨_, _, _, rfl⟩
    · exact .inl ⟨_, _, _, rfl⟩

theorem readByte_endSign (client : AtClient) (ch : UInt8) (allocated : Bool) :
    (client.readByte ch allocated).endSign = client.endSign := by
  rcases client.readByte_cases ch allocated with ⟨line, isFull, lastCh, kept⟩ | taken
  · rw [kept]
  · rw [taken, takeLine_endSign]

theorem deliver_endSign (client : AtClient) (delivery : Delivery) :
    (client.deliver delivery).endSign = client.endSign := by
  cases delivery with
  | byte ch allocated =>
    unfold deliver
    cases client.receives with
    | nil => exact client.readByte_endSign ch allocated
    | cons count receives => rfl
  | silence =>
    unfold deliver
    cases client.receives <;> rfl

theorem deliverAll_endSign (client : AtClient) (deliveries : List Delivery) :
    (client.deliverAll deliveries).endSign = client.endSign := by
  induction deliveries generalizing client with
  | nil => rfl
  | cons delivery deliveries ih => exact 
    (ih (client.deliver delivery)).trans (client.deliver_endSign delivery)

theorem objExecCmd_endSign (client : AtClient) (response : AtResponse) (answer : List Delivery) :
    (client.objExecCmd response answer).2.endSign = client.endSign := by
  have delivered := deliverAll_endSign (client.beginCmd response) answer
  unfold objExecCmd
  dsimp only
  split
  · exact delivered
  · exact delivered

/-! ## A post in the mode of the prompt -/

/-- With the end sign set, only a line that ends with it is an answer. -/
theorem respond_sign (mode : client.endSign = promptSign) (other : line.getLast? ≠ some promptSign) :
    client.respond line = client := by
  have set : client.endSign ≠ 0 := by
    rw [mode]
    decide
  rw [respond, if_pos set, mode, if_pos other]

theorem readByte_respSem (mode : client.endSign = promptSign) (other : ch ≠ promptSign) :
    (client.readByte ch allocated).respSem = client.respSem := by
  rcases client.readByte_cases ch allocated with ⟨line, isFull, lastCh, kept⟩ | taken
  · rw [kept]
  · rw [taken, takeLine]
    cases getUrcObj (client.line ++ [ch]) with
    | some urc => exact callUrc_respSem _ urc _ allocated
    | none =>
      dsimp only
      split
      · rw [respond_sign]
        · exact mode
        · rw [List.getLast?_concat]
          intro same
          exact other (Option.some.inj same)
      · rfl

/-- Without the sign `>` nothing is posted. -/
theorem deliverAll_respSem (mode : client.endSign = promptSign)
    (none : client.readsPrompt deliveries = false) :
    (client.deliverAll deliveries).respSem = client.respSem := by
  induction deliveries generalizing client with
  | nil => rfl
  | cons delivery deliveries ih =>
    obtain ⟨here, later⟩ := Bool.or_eq_false_iff.mp none
    have onward := ih ((client.deliver_endSign delivery).trans mode) later
    refine onward.trans ?_
    cases delivery with
    | byte ch allocated =>
      unfold deliver
      cases receives : client.receives with
      | nil =>
        have other : ch ≠ promptSign := by
          rintro rfl
          rw [receives] at here
          cases here
        exact readByte_respSem mode other
      | cons count receives => rfl
    | silence =>
      unfold deliver
      cases client.receives <;> rfl

/-- A command in the mode of the prompt is answered by it, if no post is left over. -/
theorem objExecCmd_prompted {response : AtResponse} (mode : client.endSign = promptSign)
    (noPost : client.respSem = 0) (executed : (client.objExecCmd response deliveries).1 = true) :
    (client.beginCmd response).readsPrompt deliveries = true := by
  by_contra unprompted
  have posts := @deliverAll_respSem (client.beginCmd response) deliveries mode
    (Bool.eq_false_iff.mpr unprompted)
  have zero : ((client.beginCmd response).deliverAll deliveries).respSem = 0 := posts.trans noPost
  rw [objExecCmd, if_pos zero] at executed
  cases executed

end AtClient

/-! ## Blocks -/

/-- The block is counted. -/
def Write.counted (write : Write) : Bool := write.complete && !AtClient.sendFailed write.flags

/-- The block has been fully written and not been reported as failed. -/
def Write.sent (write : Write) : Bool := write.complete && !write.flags.sendFail

/-- The number of bytes of blocks. -/
def bytesOf (writes : List Write) : Nat := (writes.map fun write => write.bytes.length).sum

section Blocks

variable {response : AtResponse} {fd : Int} {env : Nat → BlockEnv} {buff : List UInt8}

theorem length_block {sentSize : Nat} :
    ((buff.drop sentSize).take (curPktSize buff.length sentSize)).length =
      curPktSize buff.length sentSize := by
  rw [List.length_take, List.length_drop, curPktSize]
  split <;> omega

/-- The command in front of a block: whether it is answered, and the client then. -/
def execCipsend (response : AtResponse) (block : BlockEnv) (client : AtClient) : Bool × AtClient :=
  client.clearSendFlags.objExecCmd response block.answer

/-- The client when the flags have been waited for. -/
def reportedClient (response : AtResponse) (block : BlockEnv) (client : AtClient) : AtClient :=
  AtClient.deliverAll { (execCipsend response block client).2 with endSign := 0 } block.report

/-- What becomes of a block whose command is answered. -/
def blockWrite (response : AtResponse) (fd : Int) (buff : List UInt8) (block : BlockEnv)
    (client : AtClient) (sentSize : Nat) : Write :=
  { command := cipsend fd (curPktSize buff.length sentSize)
    bytes := (buff.drop sentSize).take (curPktSize buff.length sentSize)
    prompted := (client.clearSendFlags.beginCmd response).readsPrompt block.answer
    complete := block.uartSent = curPktSize buff.length sentSize
    flags := (reportedClient response block client).flags }

variable (response fd env buff) in
/-- The blocks that are written when `sentSize` bytes have been sent and the client is in a certain
    state, by what happens to them: a command is not answered, the UART does not take all of a block
    or both flags are set, or the block behind it is next. -/
inductive Attempts : Nat → AtClient → Nat → List Write → Prop
  | finished {number : Nat} {client : AtClient} {sentSize : Nat} (all : buff.length ≤ sentSize) :
    Attempts number client sentSize []
  | unanswered {number : Nat} {client : AtClient} {sentSize : Nat} (more : sentSize < buff.length)
    (silent : (execCipsend response (env number) client).1 = false) :
    Attempts number client sentSize []
  | ended {number : Nat} {client : AtClient} {sentSize : Nat} (more : sentSize < buff.length)
    (answered : (execCipsend response (env number) client).1 = true)
    (failed : (blockWrite response fd buff (env number) client sentSize).counted = false) :
    Attempts number client sentSize [blockWrite response fd buff (env number) client sentSize]
  | goesOn {number : Nat} {client : AtClient} {sentSize : Nat} {writes : List Write}
    (more : sentSize < buff.length)
    (answered : (execCipsend response (env number) client).1 = true)
    (counted : (blockWrite response fd buff (env number) client sentSize).counted = true)
    (later : Attempts (number + 1) (reportedClient response (env number) client)
      (sentSize + curPktSize buff.length sentSize) writes) :
    Attempts number client sentSize
      (blockWrite response fd buff (env number) client sentSize :: writes)

/-- What happens decides which blocks are written. -/
theorem Attempts.unique {number sentSize : Nat} {client : AtClient} {writes others : List Write}
    (attempts : Attempts response fd env buff number client sentSize writes)
    (again : Attempts response fd env buff number client sentSize others) : writes = others := by
  induction attempts generalizing others with
  | finished all =>
    cases again with
    | finished all => rfl
    | unanswered more silent => rfl
    | ended more answered failed => exact absurd more (Nat.not_lt.mpr all)
    | goesOn more answered counted later => exact absurd more (Nat.not_lt.mpr all)
  | unanswered more silent =>
    cases again with
    | finished all => rfl
    | unanswered more silent => rfl
    | ended more answered failed => exact absurd (silent.symm.trans answered) Bool.false_ne_true
    | goesOn more answered counted later =>
      exact absurd (silent.symm.trans answered) Bool.false_ne_true
  | ended more answered failed =>
    cases again with
    | finished all => exact absurd more (Nat.not_lt.mpr all)
    | unanswered more silent => exact absurd (silent.symm.trans answered) Bool.false_ne_true
    | ended more answered failed => rfl
    | goesOn more answered counted later =>
      exact absurd (failed.symm.trans counted) Bool.false_ne_true
  | goesOn more answered counted later ih =>
    cases again with
    | finished all => exact absurd more (Nat.not_lt.mpr all)
    | unanswered more silent => exact absurd (silent.symm.trans answered) Bool.false_ne_true
    | ended more answered failed => exact absurd (failed.symm.trans counted) Bool.false_ne_true
    | goesOn more answered counted later => rw [ih later]

theorem reportedClient_endSign (block : BlockEnv) (client : AtClient) :
    (reportedClient response block client).endSign = 0 :=
  AtClient.deliverAll_endSign _ block.report

/-- The loop treats the next block as `blockWrite` tells. -/
theorem sendBlocks_answered {number : Nat} {run : SendRun} (more : run.sentSize < buff.length)
    (answered : (execCipsend response (env number) run.client).1 = true) :
    let write := blockWrite response fd buff (env number) run.client run.sentSize
    let client := reportedClient response (env number) run.client
    sendBlocks response fd env buff number run =
      if write.counted then
        sendBlocks response fd env buff (number + 1)
          ⟨client, run.sentSize + curPktSize buff.length run.sentSize, run.writes ++ [write]⟩
      else ⟨client, run.sentSize, run.writes ++ [write]⟩ := by
  intro write client
  have executed :
      (run.client.clearSendFlags.objExecCmd response (env number).answer).1 = true := answered
  have isClient : AtClient.deliverAll
      { (run.client.clearSendFlags.objExecCmd response (env number).answer).2 with endSign := 0 }
      (env number).report = client := rfl
  have isWrite : Write.mk (cipsend fd (curPktSize buff.length run.sentSize))
      ((buff.drop run.sentSize).take (curPktSize buff.length run.sentSize))
      ((run.client.clearSendFlags.beginCmd response).readsPrompt (env number).answer)
      (decide ((env number).uartSent = curPktSize buff.length run.sentSize)) client.flags =
        write := rfl
  have isCounted : write.counted = (decide ((env number).uartSent =
      curPktSize buff.length run.sentSize) && !AtClient.sendFailed client.flags) := rfl
  clear_value client write
  rw [sendBlocks, dif_pos more]
  dsimp only
  rw [if_neg (not_not.mpr executed), isClient, isWrite, isCounted]
  by_cases whole : (env number).uartSent = curPktSize buff.length run.sentSize
  · rw [if_neg (not_not.mpr whole), decide_eq_true whole, Bool.true_and]
    cases AtClient.sendFailed client.flags <;> rfl
  · rw [if_pos whole, decide_eq_false whole]
    rfl

/-- The blocks that are written from a run on, with the end sign and the size at the end. Induction
    on what is left of the data. -/
theorem sendBlocks_writes (number : Nat) (run : SendRun) :
    ∃ writes : List Write,
      Attempts response fd env buff number run.client run.sentSize writes ∧
      (sendBlocks response fd env buff number run).writes = run.writes ++ writes ∧
      (sendBlocks response fd env buff number run).sentSize =
        run.sentSize + bytesOf (writes.takeWhile Write.counted) ∧
      (sendBlocks response fd env buff number run).client.endSign =
        (if writes = [] then run.client.endSign else 0) ∧
      (run.client.endSign = promptSign → run.client.respSem = 0 →
        ∀ write ∈ writes.head?, write.prompted = true) := by
  induction left : buff.length - run.sentSize using Nat.strongRecOn generalizing number run with
  | ind left_ ih =>
    by_cases more : run.sentSize < buff.length
    · cases answered : (execCipsend response (env number) run.client).1 with
      | false =>
        have ends : sendBlocks response fd env buff number run =
            { run with client := (execCipsend response (env number) run.client).2 } := by
          have silent :
              (run.client.clearSendFlags.objExecCmd response (env number).answer).1 = false :=
            answered
          rw [sendBlocks, dif_pos more]
          dsimp only
          rw [silent, if_pos Bool.false_ne_true]
          rfl
        rw [ends]
        refine ⟨[], .unanswered more answered, (List.append_nil _).symm, rfl,
          AtClient.objExecCmd_endSign _ response _, ?_⟩
        intro _ _ write mem
        cases mem
      | true =>
        have prompted : run.client.endSign = promptSign → run.client.respSem = 0 →
            (blockWrite response fd buff (env number) run.client run.sentSize).prompted = true :=
          fun mode noPost => AtClient.objExecCmd_prompted mode noPost answered
        have sign := @reportedClient_endSign response (env number) run.client
        rw [sendBlocks_answered more answered]
        cases counted : (blockWrite response fd buff (env number) run.client run.sentSize).counted with
        | true =>
          have positive := curPktSize_pos more
          have less : buff.length - (run.sentSize + curPktSize buff.length run.sentSize) < left_ := by
            omega
          obtain ⟨writes, later, all, size, endSign, _⟩ := ih _ less (number + 1)
            ⟨reportedClient response (env number) run.client,
              run.sentSize + curPktSize buff.length run.sentSize,
              run.writes ++ [blockWrite response fd buff (env number) run.client run.sentSize]⟩ rfl
          rw [if_pos rfl]
          refine ⟨_ :: writes, .goesOn more answered counted later, ?_, ?_, ?_, ?_⟩
          · rw [all, List.append_assoc, List.singleton_append]
          · have length : (blockWrite response fd buff (env number) run.client
                run.sentSize).bytes.length = curPktSize buff.length run.sentSize := length_block
            rw [size, List.takeWhile_cons_of_pos counted, bytesOf, bytesOf, List.map_cons,
              List.sum_cons, length, Nat.add_assoc]
          · rw [endSign, if_neg (List.cons_ne_nil _ _)]
            split
            · exact sign
            · rfl
          · rintro mode noPost _ ⟨⟩
            exact prompted mode noPost
        | false =>
          rw [if_neg Bool.false_ne_true]
          refine ⟨[_], .ended more answered counted, rfl, ?_, ?_, ?_⟩
          · rw [List.takeWhile_cons_of_neg (by rw [counted]; exact Bool.false_ne_true)]
            rfl
          · rw [if_neg (List.cons_ne_nil _ _)]
            exact sign
          · rintro mode noPost _ ⟨⟩
            exact prompted mode noPost
    · rw [sendBlocks, dif_neg more]
      refine ⟨[], .finished (Nat.not_lt.mp more), (List.append_nil _).symm, rfl, rfl, ?_⟩
      intro _ _ write mem
      cases mem

end Blocks

/-! ## The right return -/

/-- The end sign is cleared, every block is written behind its prompt, and what is returned is the
    number of bytes of the blocks in front of the first one that was not fully written or has been
    reported as failed. -/
structure SendRight (returned : Int × SendRun) : Prop where
  endSign : returned.2.client.endSign = 0
  prompted : ∀ write ∈ returned.2.writes, write.prompted = true
  size : returned.1 = bytesOf (returned.2.writes.takeWhile Write.sent)

/-- A failure that is reported without a success is not noticed. -/
def Write.Noticed (write : Write) : Prop :=
  write.complete = true → write.flags.sendFail = true → write.flags.sendOk = true

instance (write : Write) : Decidable write.Noticed := inferInstanceAs (Decidable (_ → _ → _))

theorem counted_eq_sent {write : Write} (noticed : write.Noticed) : write.counted = write.sent := by
  unfold Write.counted Write.sent AtClient.sendFailed
  unfold Write.Noticed at noticed
  revert noticed
  cases write.complete <;> cases write.flags.sendFail <;> cases write.flags.sendOk <;> decide

theorem takeWhile_counted {writes : List Write} (noticed : ∀ write ∈ writes, write.Noticed) :
    writes.takeWhile Write.counted = writes.takeWhile Write.sent := by
  induction writes with
  | nil => rfl
  | cons write writes ih =>
    obtain ⟨here, later⟩ := List.forall_mem_cons.mp noticed
    rw [List.takeWhile_cons, List.takeWhile_cons, counted_eq_sent here, ih later]

/-- The number that is counted is returned as an `int`. -/
theorem toInt_eq_iff (counted sent : Nat) :
    (BitVec.ofNat 32 counted).toInt = sent ↔
      sent < 2 ^ 31 ∧ (2 ^ 32 : Int) ∣ (counted : Int) - sent := by
  have bound := (BitVec.ofNat 32 counted).isLt
  have value : (BitVec.ofNat 32 counted).toNat = counted % 2 ^ 32 := BitVec.toNat_ofNat counted 32
  rw [BitVec.toInt_eq_toNat_cond, value]
  constructor
  · intro same
    split at same
    · omega
    · omega
  · rintro ⟨small, whole⟩
    split
    · omega
    · omega

/-- The blocks of a call, and what is returned for them. -/
theorem esp8266Send_writes (client : AtClient) (memory : List UInt8) (env : Nat → BlockEnv)
    (fd : Int) (buff : List UInt8) :
    let returned := esp8266Send client (some memory) env fd (some buff)
    ∃ writes : List Write,
      Attempts (createResp memory) fd env buff 0 { client with endSign := promptSign } 0 writes ∧
      returned.2.writes = writes ∧
      returned.1 = (BitVec.ofNat 32 (bytesOf (writes.takeWhile Write.counted))).toInt ∧
      returned.2.client.endSign = (if writes = [] then promptSign else 0) ∧
      (client.respSem = 0 → ∀ write ∈ writes.head?, write.prompted = true) := by
  obtain ⟨writes, attempts, all, size, endSign, prompted⟩ := @sendBlocks_writes (createResp memory)
    fd env buff 0 ⟨{ client with endSign := promptSign }, 0, []⟩
  rw [Nat.zero_add] at size
  exact ⟨writes, attempts, all, congrArg (fun n => (BitVec.ofNat 32 n).toInt) size, endSign,
    prompted rfl⟩

/-- The first block is written at all and not for a post that was left over, every other one is
    written behind its prompt, fewer than 2^31 bytes are sent, and every failure that is reported is
    noticed, or as many bytes as are counted too much are a multiple of 2^32. -/
structure BlocksFit (client : AtClient) (writes : List Write) : Prop where
  written : writes ≠ []
  first : client.respSem = 0 ∨ ∀ write ∈ writes.head?, write.prompted = true
  later : ∀ write ∈ writes.tail, write.prompted = true
  small : bytesOf (writes.takeWhile Write.sent) < 2 ^ 31
  noticed : (∀ write ∈ writes, write.Noticed) ∨
    (2 ^ 32 : Int) ∣ bytesOf (writes.takeWhile Write.counted) -
      bytesOf (writes.takeWhile Write.sent)

/-- What is returned for the blocks is right if they fit, and only then. -/
theorem sendRight_iff_fit {client : AtClient} {writes : List Write} {returned : Int × SendRun}
    (all : returned.2.writes = writes)
    (size : returned.1 = (BitVec.ofNat 32 (bytesOf (writes.takeWhile Write.counted))).toInt)
    (endSign : returned.2.client.endSign = if writes = [] then promptSign else 0)
    (first : client.respSem = 0 → ∀ write ∈ writes.head?, write.prompted = true) :
    SendRight returned ↔ BlocksFit client writes := by
  subst all
  constructor
  · intro right
    have sameSize := right.size
    rw [size, toInt_eq_iff] at sameSize
    refine ⟨?_, .inr ?_, ?_, sameSize.1, .inr sameSize.2⟩
    · intro none
      have cleared := right.endSign
      rw [endSign, if_pos none] at cleared
      revert cleared
      decide
    · intro write mem
      exact right.prompted write (List.mem_of_head? mem)
    · intro write mem
      exact right.prompted write (List.mem_of_mem_tail mem)
  · intro fit
    refine ⟨endSign.trans (if_neg fit.written), ?_, ?_⟩
    · have head : ∀ write ∈ returned.2.writes.head?, write.prompted = true := fit.first.elim first id
      have tail := fit.later
      intro write mem
      cases writes : returned.2.writes with
      | nil => exact absurd writes fit.written
      | cons other writes' =>
        rw [writes] at mem head tail
        rcases List.mem_cons.mp mem with rfl | mem
        · exact head write rfl
        · exact tail write mem
    · refine size.trans ((toInt_eq_iff _ _).mpr ⟨fit.small, ?_⟩)
      rcases fit.noticed with every | whole
      · rw [takeWhile_counted every, Int.sub_self]
        exact dvd_zero _
      · exact whole

/-- A client that nothing has been delivered to. -/
def idleClient : AtClient :=
  ⟨0, [], false, 0, false, ⟨[], 0, 0⟩, .ok, 0, 0, 0, [], ⟨false, false⟩⟩

end QcloudIot.Network
