import QcloudIot.Http.Proofs.Head

/-!
# A body of announced length

`qcloud_http_recv_data` is called until `is_more` is false. The local buffer does not outlive a
call: what has come with the head but does not fit into the first response buffer is dropped.
-/

namespace QcloudIot.Http

open Early
open Json (isSpace isDigit digitValue)

variable {data content body : List UInt8} {client : HttpClient} {reads : List Read} {n : Nat}

/-! ## The announced length -/

theorem digitValue_of_digit {b : UInt8} (digit : isDigit b = true) : digitValue b < 10 := by
  have bounds := digit
  simp only [isDigit, Bool.and_eq_true, decide_eq_true_eq, UInt8.le_iff_toNat_le,
    UInt8.toNat_ofNat] at bounds
  rw [digitValue, if_pos digit]
  omega

theorem digitValue_of_other {b : UInt8} (other : isDigit b = false) : ¬ digitValue b < 10 := by
  rw [digitValue, if_neg (by rw [other]; decide)]
  split_ifs with lower upper
  · have least : 97 ≤ b.toNat := UInt8.le_iff_toNat_le.mp lower.1
    omega
  · have least : 65 ≤ b.toNat := UInt8.le_iff_toNat_le.mp upper.1
    omega
  · decide

theorem digit_not_space {b : UInt8} (digit : isDigit b = true) : isSpace b = false := by
  simp only [isDigit, Bool.and_eq_true, decide_eq_true_eq, UInt8.le_iff_toNat_le,
    UInt8.toNat_ofNat] at digit
  rw [isSpace, decide_eq_false_iff_not]
  rintro (space | ⟨-, most⟩)
  · rw [space] at digit
    exact absurd digit.1 (by decide)
  · have bound : b.toNat ≤ 13 := UInt8.le_iff_toNat_le.mp most
    omega

theorem signOf_digit {b : UInt8} (text : List UInt8) (minus : b ≠ 45) (plus : b ≠ 43) :
    signOf (b :: text) = (false, b :: text) := by
  rw [signOf.eq_def]
  split
  · next isMinus => cases isMinus; exact absurd rfl minus
  · next isPlus => cases isPlus; exact absurd rfl plus
  · rfl

/-- `atoi` reads a number up to what is not a digit. -/
theorem atoi_digits {digits after : List UInt8} {b : UInt8} (some : digits ≠ [])
    (areDigits : ∀ d ∈ digits, isDigit d = true) (behind : isDigit b = false)
    (fits : numberOf 10 digits < 2 ^ 31) :
    atoi (digits ++ b :: after) = numberOf 10 digits := by
  have digitsOnly : (digits ++ b :: after).takeWhile (fun d => digitValue d < 10) = digits := by
    rw [List.takeWhile_append_of_pos fun d mem =>
      decide_eq_true (digitValue_of_digit (areDigits d mem)),
      List.takeWhile_cons_of_neg (by rw [decide_eq_true_eq]; exact digitValue_of_other behind),
      List.append_nil]
  cases digits with
  | nil => exact absurd rfl some
  | cons d ds =>
    have digit := areDigits d List.mem_cons_self
    have noSpace : (d :: ds ++ b :: after).dropWhile isSpace = d :: ds ++ b :: after := by
      rw [List.cons_append, List.dropWhile_cons_of_neg (by rw [digit_not_space digit]; decide)]
    have minus : d ≠ 45 := by
      intro isMinus
      rw [isMinus] at digit
      exact absurd digit (by decide)
    have plus : d ≠ 43 := by
      intro isPlus
      rw [isPlus] at digit
      exact absurd digit (by decide)
    rw [atoi, noSpace, List.cons_append, signOf_digit _ minus plus]
    rw [List.cons_append] at digitsOnly
    simp only [digitsOnly, Bool.false_eq_true, if_false]
    generalize numberOf 10 (d :: ds) = value at fits
    rw [min_eq_left (by omega)]
    exact BitVec.toInt_ofInt_eq_self (by decide) (by omega) (by omega)

/-- The first field of the name `Content-Length` in the head announces `n` bytes. -/
def Head.Announces (head : Head) (n : Nat) : Prop :=
  ∃ before digits b after, head.fields = before ++ contentLength ++ [58, 32] ++ digits ++ b :: after ∧
    strstr contentLength head.fields = some before.length ∧ digits ≠ [] ∧
    (∀ d ∈ digits, isDigit d = true) ∧ isDigit b = false ∧ numberOf 10 digits = n

theorem readFields_announced {head : Head} (announces : head.Announces n) (fits : n < 2 ^ 31)
    (holds : Holds data (head.fields ++ content)) :
    readFields data client =
      .ok () { client with responseContentLen := n, retrieveLen := n } := by
  obtain ⟨before, digits, b, after, isFields, found, some, areDigits, behind, value⟩ := announces
  have front : head.fields <+: cString data :=
    holds.cString head.noNul_fields (List.prefix_append _ _)
  have foundIn : strstr contentLength (cString data) = Option.some before.length := by
    obtain ⟨rest, isString⟩ := front
    rw [← isString]
    exact strstr_append (by decide) found
  have noNul : 0 ∉ digits ++ b :: after := fun mem => head.noNul_fields (by
    rw [isFields, List.append_assoc]
    exact List.mem_append_right _ mem)
  obtain ⟨stale, isData⟩ := holds.exists_stale
  have length : (before ++ contentLength ++ [58, 32]).length = before.length + 16 := by
    simp only [List.length_append, List.length_cons, List.length_nil]
  have there : data.drop (before.length + 16) = digits ++ b :: after ++ (content ++ 0 :: stale) := by
    rw [isData, isFields, ← length]
    generalize before ++ contentLength ++ [58, 32] = front
    simp only [List.append_assoc, List.drop_left]
  have inside : ¬ data.length ≤ before.length + 16 := by
    intro outside
    rw [List.drop_eq_nil_of_le outside] at there
    have nothing := congrArg List.length there
    simp only [List.length_append, List.length_cons, List.length_nil] at nothing
    omega
  have number : atoi (cString (data.drop (before.length + 16))) = n := by
    rw [there, cString_append noNul, List.append_assoc, List.cons_append,
      atoi_digits some areDigits behind (by rw [value]; exact fits), value]
  rw [readFields, foundIn]
  simp only [ite_run, if_neg inside, number, modify_run]

/-! ## One call -/

theorem toUint32_natCast (n : Nat) : toUint32 n = n := by
  rw [toUint32, if_pos (Int.natCast_nonneg n)]
  rfl

/-- How a call ends that waits for `r` more bytes of the body. -/
inductive CallEnds (client : HttpClient) (len r : Nat) (placed incoming : List UInt8)
    (reads : List Read) : EStateM.Result Halt HttpClient Int → Prop where
  | done (length : placed.length = r) :
      CallEnds client len r placed incoming reads
        (.ok qcloudRetSuccess { client.after placed incoming reads with isMore := false })
  | more (short : placed.length ≤ r) (length : placed.length = client.responseBufLen - 1) :
      CallEnds client len r placed incoming reads
        (.error (.exit httpRetrieveMoreData) (client.after placed incoming reads))
  | starved (notPlenty : ¬ Plenty (r - len) client.incoming client.reads) :
      CallEnds client len r placed incoming reads
        (.error (.exit qcloudErrHttpTimeout) (client.after placed incoming reads))

/-- A client in a call that copies the body. -/
structure HttpClient.Copying (client : HttpClient) (r : Nat) : Prop where
  isMore : client.isMore = true
  notChunked : client.isChunked = false
  announced : client.responseContentLen ≠ -1
  left : client.retrieveLen = r
  empty : client.responseBuf = []
  good : ∀ read ∈ client.reads, read.Good

theorem retrieveLoop_run {rounds len r : Nat} (copying : client.Copying r)
    (size : data.length = httpClientChunkSize) (here : len < httpClientChunkSize) (within : len ≤ r)
    (fits : len ≤ client.responseBufLen - 1) :
    ∃ placed incoming reads, Copied client (data.take len) placed incoming reads ∧
      CallEnds client len r placed incoming reads (retrieveLoop (rounds + 1) data len client) := by
  obtain ⟨placed, incoming, reads, copied, ends⟩ :=
    @retrieveData_run data client (client.reads.length + 1) len r size here within
      (by rw [copying.empty, List.length_nil]; omega) copying.good (Nat.lt_succ_self _)
  refine ⟨placed, incoming, reads, copied, ?_⟩
  have notChunk : ¬ (client.isChunked = true ∧ client.retrieveLen ≤ 0) := by
    rw [copying.notChunked]
    exact fun both => absurd both.1 Bool.false_ne_true
  rw [retrieveLoop, bind_get, if_neg notChunk, bind_pure]
  simp only [copying.left, toUint32_natCast]
  rw [bind_get]
  generalize isResult : retrieveData (client.reads.length + 1) data len r client = result at ends
  cases ends with
  | all _ length _ =>
    have notChunked : (client.after placed incoming reads).isChunked = false := copying.notChunked
    rw [bind_ok isResult, bind_get, if_neg (by rw [notChunked]; decide), bind_set]
    exact .done length
  | full short length =>
    rw [bind_error isResult]
    rw [copying.empty, List.length_nil, Nat.zero_add] at length
    exact .more short length
  | starved _ notPlenty =>
    rw [bind_error isResult]
    exact .starved notPlenty

theorem httpClientRetrieveContent_run {len r : Nat} (copying : client.Copying r)
    (size : data.length = httpClientChunkSize) (here : len < httpClientChunkSize) (within : len ≤ r)
    (fits : len ≤ client.responseBufLen - 1) :
    ∃ placed incoming reads, Copied client (data.take len) placed incoming reads ∧
      CallEnds client len r placed incoming reads (httpClientRetrieveContent data len client) := by
  have same : { client with isMore := true, responseBuf := [] } = client := by
    rw [← copying.isMore, ← copying.empty]
  have announced : ¬ (client.responseContentLen = -1 ∧ ¬ client.isChunked = true) := by
    exact fun both => copying.announced both.1
  rw [httpClientRetrieveContent, bind_modify, same, bind_get, if_neg announced]
  exact retrieveLoop_run copying size here within fits

/-! ## Calls of `qcloud_http_recv_data` -/

/-- A client between two calls, with `r` of the `n` bytes of the body still to deliver. -/
structure HttpClient.Midway (client : HttpClient) (n r : Nat) : Prop where
  connected : client.connected = true
  isMore : client.isMore = true
  notChunked : client.isChunked = false
  length : client.responseContentLen = n
  left : client.retrieveLen = r
  good : ∀ read ∈ client.reads, read.Good

/-- What a call returns that had `r` of `n` bytes to deliver, `pending` being those in the local
    buffer and those that the server still sent. -/
inductive Received (n r room : Nat) (pending : List UInt8) (plenty : Prop) :
    Option (Int × HttpClient) → Prop where
  | done {client : HttpClient} (isMore : client.isMore = false)
      (bytes : pending = client.responseBuf ++ client.incoming)
      (length : client.responseBuf.length = r)
      (counts : client.responseContentLen - client.retrieveLen = n) :
      Received n r room pending plenty (some (qcloudRetSuccess, client))
  | more {client : HttpClient} (midway : client.Midway n (r - client.responseBuf.length))
      (bytes : pending = client.responseBuf ++ client.incoming)
      (short : client.responseBuf.length ≤ r) (length : client.responseBuf.length = room)
      (brought : plenty → client.incoming.length ≤ bringing client.reads) :
      Received n r room pending plenty (some (qcloudRetSuccess, client))
  | starved {rc : Int} {client : HttpClient} (failed : rc ≠ qcloudRetSuccess)
      (notPlenty : ¬ plenty) : Received n r room pending plenty (some (rc, client))

theorem received_of_ends {len r : Nat} {placed incoming : List UInt8}
    {result : EStateM.Result Halt HttpClient Int} (copying : client.Copying r)
    (connected : client.connected = true) (isLength : client.responseContentLen = n)
    (copied : Copied client content placed incoming reads)
    (ends : CallEnds client len r placed incoming reads result) :
    Received n r (client.responseBufLen - 1) (content ++ client.incoming) (Plenty (r - len)
        client.incoming client.reads)
      ((returned result).map fun (rc, client) =>
        if rc < 0 then (rc, { client with connected := false }) else (qcloudRetSuccess, client)) := by
  have buffer : (client.after placed incoming reads).responseBuf = placed := by
    rw [HttpClient.after, copying.empty]
    exact List.nil_append placed
  cases ends with
  | done length =>
    refine .done rfl ?_ ?_ ?_
    · rw [buffer]
      exact copied.bytes
    · exact (congrArg List.length buffer).trans length
    · show client.responseContentLen - (client.retrieveLen - placed.length) = n
      rw [isLength, copying.left, length, sub_self, sub_zero]
  | more short length =>
    refine .more ⟨connected, copying.isMore, copying.notChunked, isLength, ?_, copied.good⟩ ?_ ?_ ?_
      fun plenty => copied.brought plenty.brought
    · rw [buffer]
      show client.retrieveLen - placed.length = _
      rw [copying.left]
      omega
    · rw [buffer]
      exact copied.bytes
    · rw [buffer]
      exact short
    · rw [buffer]
      exact length
  | starved notPlenty => exact .starved (by decide) notPlenty

/-- A call between the first and the last. -/
theorem HttpClient.Midway.received {r bufLen : Nat} (midway : client.Midway n r)
    (size : bufLen ≠ 0) :
    Received n r (bufLen - 1) client.incoming (Plenty r client.incoming client.reads)
      (qcloudHttpRecvData bufLen client) := by
  have copying : ({ client with responseBufLen := bufLen, responseBuf := [] }).Copying r :=
    ⟨midway.isMore, midway.notChunked, by rw [midway.length]; omega, midway.left, rfl, midway.good⟩
  obtain ⟨placed, incoming, reads, copied, ends⟩ := @httpClientRetrieveContent_run _ _ 0 _ copying
    holds_empty.size (by decide) (Nat.zero_le r) (Nat.zero_le _)
  have received := received_of_ends copying midway.connected midway.length copied ends
  have run : httpClientRecvResponse { client with responseBufLen := bufLen, responseBuf := [] } =
      httpClientRetrieveContent (List.replicate httpClientChunkSize 0) 0
        { client with responseBufLen := bufLen, responseBuf := [] } := by
    rw [httpClientRecvResponse, bind_get]
    simp only [ite_run]
    rw [if_neg (not_not.mpr midway.connected), if_pos midway.isMore, bind_set]
  rw [qcloudHttpRecvData, if_neg size, run]
  exact received

/-- A client in front of a response, its counters as `memset` leaves them. -/
structure HttpClient.Idle (client : HttpClient) : Prop where
  connected : client.connected = true
  isMore : client.isMore = false
  retrieveLen : client.retrieveLen = 0
  responseContentLen : client.responseContentLen = 0
  good : ∀ read ∈ client.reads, read.Good

/-- The client in the first call, when the head has been read. -/
def HttpClient.inBody (client : HttpClient) (head : Head) (n bufLen : Nat)
    (incoming : List UInt8) (reads : List Read) : HttpClient :=
  { ({ client with
      responseBufLen := bufLen, responseBuf := [], isMore := true,
      incoming, reads } : HttpClient).answered head with
    responseContentLen := n, retrieveLen := n }

theorem HttpClient.inBody_copying {head : Head} {bufLen : Nat} {incoming : List UInt8}
    (good : ∀ read ∈ reads, read.Good) :
    (client.inBody head n bufLen incoming reads).Copying n where
  isMore := rfl
  notChunked := rfl
  announced := by
    show (n : Int) ≠ -1
    omega
  left := rfl
  empty := rfl
  good := good

/-- What the first call does once it has read the head. -/
theorem firstCall {head : Head} {bufLen extra : Nat} (idle : client.Idle)
    (announces : head.Announces n) (fits : n < 2 ^ 31) (size : bufLen ≠ 0)
    (isIncoming : client.incoming = head.text ++ body)
    (read : head.read client.reads = some (extra, reads)) :
    ∃ data, Holds data (body.take extra) ∧
      qcloudHttpRecvData bufLen client =
        (returned (httpClientRetrieveContent data (body.take extra).length
            (client.inBody head n bufLen (body.drop extra) reads))).map
          fun (rc, client) =>
            if rc < 0 then (rc, { client with connected := false })
            else (qcloudRetSuccess, client) := by
  obtain ⟨data, holds, run⟩ := @httpClientRecvResponse_head body
    { client with responseBufLen := bufLen, responseBuf := [] } reads head extra idle.isMore
    idle.connected isIncoming idle.good read
  obtain ⟨stale, isData⟩ := holds.exists_stale
  have behind : body.take extra ++ [0] <+: data.drop head.fields.length := by
    rw [isData, List.append_assoc, List.drop_left]
    exact ⟨stale, List.append_assoc _ _ _⟩
  obtain ⟨data', moved, holds'⟩ := @Holds.of_memmove data (body.take extra)
    (client.inBody head n bufLen (body.drop extra) reads) _ holds.size behind
  have whole : parseBody head.fields.length data (head.fields ++ body.take extra).length
      (({ client with
          responseBufLen := bufLen, responseBuf := [], isMore := true,
          incoming := body.drop extra, reads } : HttpClient).answered head) =
      httpClientRetrieveContent data' (body.take extra).length
        (client.inBody head n bufLen (body.drop extra) reads) := by
    have fields : readFields data
        (({ client with
            responseBufLen := bufLen, responseBuf := [], isMore := true,
            incoming := body.drop extra, reads } : HttpClient).answered head) =
        .ok () (client.inBody head n bufLen (body.drop extra) reads) :=
      readFields_announced announces fits holds
    rw [parseBody, bind_ok fields, List.length_append, Nat.add_sub_cancel_left, bind_ok moved]
  refine ⟨data', holds', ?_⟩
  rw [qcloudHttpRecvData, if_neg size, run]
  exact congrArg (fun result => (returned result).map _) whole

/-- When the response buffer has no room for what has come with the head, the rest is dropped. -/
theorem httpClientRetrieveContent_overflow {len r : Nat} (copying : client.Copying r)
    (here : len ≤ data.length) (within : len ≤ r) (small : client.responseBufLen - 1 < len) :
    httpClientRetrieveContent data len client =
      .error (.exit httpRetrieveMoreData)
        (client.after (data.take (client.responseBufLen - 1)) client.incoming client.reads) := by
  have same : { client with isMore := true, responseBuf := [] } = client := by
    rw [← copying.isMore, ← copying.empty]
  have announced : ¬ (client.responseContentLen = -1 ∧ ¬ client.isChunked = true) := by
    exact fun both => copying.announced both.1
  have notChunk : ¬ (client.isChunked = true ∧ client.retrieveLen ≤ 0) := by
    rw [copying.notChunked]
    exact fun both => absurd both.1 Bool.false_ne_true
  have templen : min len r = len := Nat.min_eq_left within
  have none : client.responseBuf.length = 0 := by rw [copying.empty, List.length_nil]
  have run : retrieveData (client.reads.length + 1) data len r client =
      .error (.exit httpRetrieveMoreData)
        (client.after (data.take (client.responseBufLen - 1)) client.incoming client.reads) := by
    rw [retrieveData, bind_get]
    simp only [templen, none, ite_run, if_neg (Nat.not_lt.mpr (show client.responseBufLen - 1 ≤
      0 + len by omega)), Nat.sub_zero]
    rw [place_run (by omega)]
    rfl
  rw [httpClientRetrieveContent, bind_modify, same, bind_get, if_neg announced, retrieveLoop,
    bind_get, if_neg notChunk, bind_pure]
  simp only [copying.left, toUint32_natCast]
  rw [bind_get, bind_error run]

/-! ## Runs -/

/-- `k` successful calls, with the lengths that `response_buf` has in each: what they have put
    into it, one after the other, and the client afterwards. -/
def fetch (bufLen : Nat → Nat) (client : HttpClient) : Nat → Option (List UInt8 × HttpClient)
  | 0 => some ([], client)
  | k + 1 =>
    (fetch bufLen client k).bind fun (delivered, client) =>
      (qcloudHttpRecvData (bufLen k) client).bind fun (rc, client) =>
        if rc = qcloudRetSuccess then some (delivered ++ client.responseBuf, client) else none

/-- After each of the first `k` calls there is more, and the counters tell what is delivered. -/
def Ongoing (bufLen : Nat → Nat) (client : HttpClient) (k : Nat) : Prop :=
  ∀ j ≤ k, ∃ delivered now, fetch bufLen client j = some (delivered, now) ∧
    now.responseContentLen - now.retrieveLen = delivered.length ∧ (0 < j → now.isMore = true)

/-- The calls up to the one after which `is_more` is false deliver exactly `body`, and the
    counters tell at any time what is delivered. -/
def Delivers (bufLen : Nat → Nat) (client : HttpClient) (body : List UInt8) : Prop :=
  ∃ k last, Ongoing bufLen client k ∧ fetch bufLen client (k + 1) = some (body, last) ∧
    last.isMore = false ∧ last.responseContentLen - last.retrieveLen = body.length

theorem fetch_succ {bufLen : Nat → Nat} {k : Nat} {delivered : List UInt8} {now next : HttpClient}
    (before : fetch bufLen client k = some (delivered, now))
    (call : qcloudHttpRecvData (bufLen k) now = some (qcloudRetSuccess, next)) :
    fetch bufLen client (k + 1) = some (delivered ++ next.responseBuf, next) := by
  rw [fetch, before]
  simp only [Option.bind_some, call]
  rfl

theorem Ongoing.succ {bufLen : Nat → Nat} {k : Nat} {delivered : List UInt8} {next : HttpClient}
    (ongoing : Ongoing bufLen client k)
    (after : fetch bufLen client (k + 1) = some (delivered, next))
    (counts : next.responseContentLen - next.retrieveLen = delivered.length)
    (isMore : next.isMore = true) : Ongoing bufLen client (k + 1) := by
  intro j most
  by_cases last : j = k + 1
  · exact ⟨delivered, next, by rw [last]; exact after, counts, fun _ => isMore⟩
  · exact ongoing j (by omega)

/-- A run that goes on ends with the whole body: the induction is on what is left of it. -/
theorem delivers_of_received {bufLen : Nat → Nat} {k r : Nat} {delivered pending : List UInt8}
    {now : HttpClient} {plenty : Prop} (sizes : ∀ k, 2 ≤ bufLen k)
    (ongoing : Ongoing bufLen client k) (before : fetch bufLen client k = some (delivered, now))
    (received : Received n r (bufLen k - 1) pending plenty (qcloudHttpRecvData (bufLen k) now))
    (whole : delivered ++ pending = body) (length : body.length = n) (left : pending.length = r)
    (enough : plenty) : Delivers bufLen client body := by
  induction r using Nat.strong_induction_on generalizing k delivered pending now plenty with
  | _ r ih =>
    generalize isCall : qcloudHttpRecvData (bufLen k) now = call at received
    cases received with
    | @done next isMore bytes last counts =>
      have nothing : next.incoming = [] := by
        have lengths := congrArg List.length bytes
        rw [List.length_append] at lengths
        exact List.length_eq_zero_iff.mp (by omega)
      have after := fetch_succ before isCall
      rw [nothing, List.append_nil] at bytes
      rw [← bytes, whole] at after
      exact ⟨k, next, ongoing, after, isMore, by rw [counts, length]⟩
    | @more next midway bytes short full brought =>
      have after := fetch_succ before isCall
      have lengths := congrArg List.length bytes
      have total := congrArg List.length whole
      rw [List.length_append] at lengths total
      have size := sizes k
      have counts : next.responseContentLen - next.retrieveLen =
          (delivered ++ next.responseBuf).length := by
        rw [midway.length, midway.left, List.length_append]
        omega
      refine ih (r - next.responseBuf.length) (by omega) (ongoing.succ after counts midway.isMore)
        after (midway.received (by have later := sizes (k + 1); omega)) ?_ (by omega)
        ⟨by omega, brought enough⟩
      rw [List.append_assoc, ← bytes, whole]
    | starved failed notPlenty => exact absurd enough notPlenty

/-- Bytes that were dropped are missing at the end. -/
theorem not_delivers_of_dropped {bufLen : Nat → Nat} {r : Nat} {delivered : List UInt8}
    {now : HttpClient} (sizes : ∀ k, 2 ≤ bufLen k)
    (first : fetch bufLen client 1 = some (delivered, now)) (midway : now.Midway n r)
    (dropped : delivered.length + now.incoming.length < body.length) :
    ¬ Delivers bufLen client body := by
  intro ⟨k, last, ongoing, complete, isLast, _⟩
  -- the bytes delivered and those still to come never get more
  have bound : ∀ j, j ≤ k → ∃ delivered now r, fetch bufLen client (j + 1) = some (delivered, now) ∧
      (HttpClient.Midway now n r ∨ now.isMore = false) ∧
      delivered.length + now.incoming.length < body.length := by
    intro j most
    induction j with
    | zero => exact ⟨delivered, now, r, first, .inl midway, dropped⟩
    | succ j ih =>
      obtain ⟨delivered, now, r, before, state, fewer⟩ := ih (by omega)
      obtain ⟨_, _, same, _, isMore⟩ := ongoing (j + 1) most
      rw [before] at same
      cases same
      have midway : now.Midway n r := by
        rcases state with midway | ended
        · exact midway
        · rw [isMore (by omega)] at ended
          cases ended
      have size := sizes (j + 1)
      have received := midway.received (show bufLen (j + 1) ≠ 0 by omega)
      have fetched : ∃ result, fetch bufLen client (j + 1 + 1) = some result := by
        by_cases end_ : j + 1 = k
        · rw [end_]
          exact ⟨_, complete⟩
        · obtain ⟨delivered, now, same, _⟩ := ongoing (j + 1 + 1) (by omega)
          exact ⟨_, same⟩
      generalize isCall : qcloudHttpRecvData (bufLen (j + 1)) now = call at received
      cases received with
      | done ended bytes _ _ =>
        have lengths := congrArg List.length bytes
        rw [List.length_append] at lengths
        refine ⟨_, _, 0, fetch_succ before isCall, .inr ended, ?_⟩
        rw [List.length_append]
        omega
      | more later bytes _ _ _ =>
        have lengths := congrArg List.length bytes
        rw [List.length_append] at lengths
        refine ⟨_, _, _, fetch_succ before isCall, .inl later, ?_⟩
        rw [List.length_append]
        omega
      | starved failed _ =>
        obtain ⟨result, fetched⟩ := fetched
        rw [fetch, before] at fetched
        simp only [Option.bind_some, isCall, if_neg failed] at fetched
        cases fetched
  obtain ⟨_, _, _, same, _, fewer⟩ := bound k (Nat.le_refl k)
  rw [complete] at same
  cases same
  omega

/-- A body of announced length is delivered exactly if the part of it that comes with the head
    fits into the first response buffer (with the terminating zero byte). -/
theorem contentLength_delivered_iff {head : Head} {bufLen : Nat → Nat} {extra : Nat}
    (idle : client.Idle) (announces : head.Announces n) (fits : n < 2 ^ 31)
    (isIncoming : client.incoming = head.text ++ body) (length : body.length = n)
    (read : head.read client.reads = some (extra, reads))
    (brought : (body.drop extra).length ≤ bringing reads) (sizes : ∀ k, 2 ≤ bufLen k) :
    Delivers bufLen client body ↔ min extra n ≤ bufLen 0 - 1 := by
  have size := sizes 0
  have good := head.read_good idle.good read
  obtain ⟨data, holds, call⟩ := firstCall idle announces fits
    (show bufLen 0 ≠ 0 by omega) isIncoming read
  have copying : (client.inBody head n (bufLen 0) (body.drop extra) reads).Copying n :=
    HttpClient.inBody_copying good
  have extraLength : (body.take extra).length = min extra n := by
    rw [List.length_take, length]
  have here := holds.length_lt
  have front := holds.take
  have start : fetch bufLen client 0 = some ([], client) := rfl
  constructor
  · intro delivers
    by_contra small
    rw [httpClientRetrieveContent_overflow copying (by rw [holds.size]; omega)
      (by rw [extraLength]; exact Nat.min_le_right _ _)
      (by rw [extraLength]; exact Nat.not_le.mp small)] at call
    have placed : (data.take (bufLen 0 - 1)).length = bufLen 0 - 1 := by
      rw [List.length_take, holds.size]
      omega
    have first := fetch_succ start call
    refine not_delivers_of_dropped (r := n - (bufLen 0 - 1)) sizes first
      ⟨idle.connected, rfl, rfl, rfl, ?_, good⟩ ?_ delivers
    · show (n : Int) - (data.take (bufLen 0 - 1)).length = _
      rw [placed]
      omega
    · show ([] ++ ([] ++ data.take (bufLen 0 - 1))).length + (body.drop extra).length < body.length
      rw [List.nil_append, List.nil_append, placed, List.length_drop]
      omega
  · intro room
    obtain ⟨placed, incoming, reads', copied, ends⟩ := httpClientRetrieveContent_run copying
      holds.size here (by omega) (by rw [extraLength]; exact room)
    have received := received_of_ends copying idle.connected rfl copied ends
    rw [← call, front] at received
    refine delivers_of_received sizes (k := 0) ?_ start received ?_ length ?_ ⟨?_, brought⟩
    · intro j most
      rw [Nat.le_zero.mp most]
      refine ⟨[], client, rfl, ?_, fun positive => absurd positive (Nat.lt_irrefl 0)⟩
      rw [idle.responseContentLen, idle.retrieveLen]
      rfl
    · exact List.take_append_drop extra body
    · show (body.take extra ++ body.drop extra).length = n
      rw [List.take_append_drop, length]
    · show n - (body.take extra).length ≤ (body.drop extra).length
      rw [List.length_drop, extraLength]
      omega

/-- `HTTP/1.1 200 OK` and `Content-Length: 3`. -/
def okHead : Head where
  statusLine := [72, 84, 84, 80, 47, 49, 46, 49, 32, 50, 48, 48, 32, 79, 75]
  fields := contentLength ++ [58, 32, 51] ++ crlf ++ crlf
  noCr := by decide
  noNul := by decide
  status := by decide
  allowed := by decide +kernel
  ends := by decide +kernel

theorem okHead_announces : okHead.Announces 3 := by
  refine ⟨[], [51], 13, [10, 13, 10], rfl, by with_unfolding_all decide,
    List.cons_ne_nil _ _, ?_, rfl, rfl⟩
  intro d mem
  rw [List.mem_singleton.mp mem]
  rfl

/-- A client to which the head and the body `abc` come in reads of these lengths. -/
def okClient (counts : List Nat) : HttpClient where
  isMore := false
  isChunked := false
  retrieveLen := 0
  responseContentLen := 0
  responseBufLen := 0
  responseBuf := []
  responseCode := 0
  connected := true
  incoming := okHead.text ++ [97, 98, 99]
  reads := counts.map fun count => { count, rc := qcloudRetSuccess, inTime := true }

theorem okClient_idle (counts : List Nat) : (okClient counts).Idle where
  connected := rfl
  isMore := rfl
  retrieveLen := rfl
  responseContentLen := rfl
  good := by
    intro read mem
    obtain ⟨count, _, rfl⟩ := List.mem_map.mp mem
    exact ⟨rfl, rfl⟩

/-- One byte comes with the head, and one more call is needed. -/
theorem contentLength_delivered_iff_small :
    Delivers (fun _ => 3) (okClient [39, 1, 5]) [97, 98, 99] :=
  (@contentLength_delivered_iff [97, 98, 99] _
    [⟨1, qcloudRetSuccess, true⟩, ⟨5, qcloudRetSuccess, true⟩] 3 okHead _ 1
    (okClient_idle [39, 1, 5]) okHead_announces (by decide) rfl rfl
    (by decide +kernel) (by decide) (fun _ => by decide)).mpr (by decide)

/-- The whole body comes with the head, but only two bytes fit into `response_buf`: the third one
    is never delivered. -/
theorem contentLength_dropped : ¬ Delivers (fun _ => 3) (okClient [1024, 1, 1]) [97, 98, 99] := by
  have first : fetch (fun _ => 3) (okClient [1024, 1, 1]) 1 = some ([97, 98],
      { okClient [1, 1] with
        isMore := true
        retrieveLen := 1
        responseContentLen := 3
        responseBufLen := 3
        responseBuf := [97, 98]
        responseCode := 200
        incoming := [] }) := by
    decide +kernel
  refine not_delivers_of_dropped (n := 3) (r := 1) (fun _ => by decide) first
    ⟨rfl, rfl, rfl, rfl, rfl, ?_⟩ (show 2 + 0 < 3 by decide)
  exact (okClient_idle [1, 1]).good

end QcloudIot.Http
