import QcloudIot.Http.Client
import QcloudIot.Misc.Early

/-!
# Reads and copies

What one read of the network does, and the loop of `_http_client_retrieve_content` that copies
`readLen` bytes to the response buffer.
-/

namespace QcloudIot.Http

open Early

variable {data content bytes : List UInt8} {client : HttpClient} {read : Read} {reads : List Read}

/-! ## The local buffer -/

/-- The local buffer holds `content`, followed by a zero byte. -/
structure Holds (data content : List UInt8) : Prop where
  size : data.length = httpClientChunkSize
  front : content ++ [0] <+: data

theorem Holds.exists_stale (holds : Holds data content) :
    ∃ stale, data = content ++ 0 :: stale := by
  obtain ⟨stale, isData⟩ := holds.front
  exact ⟨stale, by rw [← isData, List.append_assoc]; rfl⟩

theorem Holds.length_lt (holds : Holds data content) : content.length < httpClientChunkSize := by
  have short := holds.front.length_le
  rw [List.length_append, List.length_singleton, holds.size] at short
  exact short

theorem Holds.take (holds : Holds data content) : data.take content.length = content := by
  obtain ⟨stale, rfl⟩ := holds.exists_stale
  exact List.take_left

theorem store_run {offset : Nat} (fits : offset + bytes.length ≤ data.length) :
    store data offset bytes client =
      .ok (data.take offset ++ bytes ++ data.drop (offset + bytes.length)) client := by
  rw [store, if_pos fits]
  rfl

theorem length_store {offset : Nat} (fits : offset + bytes.length ≤ data.length) :
    (data.take offset ++ bytes ++ data.drop (offset + bytes.length)).length = data.length := by
  simp only [List.length_append, List.length_take, List.length_drop]
  omega

theorem memmove_run {src n : Nat} (fits : src + n ≤ data.length) :
    memmove data src n client = .ok ((data.drop src).take n ++ data.drop n) client := by
  rw [memmove, if_pos fits]
  rfl

theorem length_memmove {src n : Nat} (fits : src + n ≤ data.length) :
    ((data.drop src).take n ++ data.drop n).length = data.length := by
  simp only [List.length_append, List.length_take, List.length_drop]
  omega

/-- The string that the local buffer holds, or begins with. -/
theorem Holds.cString {text : List UInt8} (holds : Holds data content) (noNul : 0 ∉ text)
    (front : text <+: content) : text <+: cString data := by
  obtain ⟨stale, rfl⟩ := holds.exists_stale
  obtain ⟨rest, rfl⟩ := front
  rw [List.append_assoc, cString_append noNul]
  exact List.prefix_append _ _

theorem Holds.cString_eq (holds : Holds data content) (noNul : 0 ∉ content) :
    QcloudIot.cString data = content := by
  obtain ⟨stale, rfl⟩ := holds.exists_stale
  exact cString_nul noNul stale

/-! ## Reads -/

/-- A read that succeeds, with time left. -/
structure Read.Good (read : Read) : Prop where
  rc : read.rc = qcloudRetSuccess
  inTime : read.inTime = true

/-- How many of the reads bring something. -/
def bringing (reads : List Read) : Nat := reads.countP fun read => 0 < read.count

theorem httpClientRecv_run {offset maxLen : Nat} (isReads : client.reads = read :: reads)
    (good : read.Good) (fits : offset + maxLen ≤ data.length)
    (isBytes : client.incoming.take (min read.count maxLen) = bytes) :
    httpClientRecv data offset maxLen client =
      .ok (qcloudRetSuccess, data.take offset ++ bytes ++ data.drop (offset + bytes.length),
        bytes.length, true)
        { client with incoming := client.incoming.drop bytes.length, reads } := by
  have length : bytes.length = min (min read.count maxLen) client.incoming.length := by
    rw [← isBytes, List.length_take]
  have behind : client.incoming.drop (min read.count maxLen) =
      client.incoming.drop bytes.length := by
    by_cases all : client.incoming.length ≤ min read.count maxLen
    · rw [List.drop_eq_nil_of_le all, List.drop_eq_nil_of_le (by omega)]
    · have whole : bytes.length = min read.count maxLen := by omega
      rw [whole]
  have read : networkRead maxLen client = .ok (qcloudRetSuccess, bytes, true)
      { client with incoming := client.incoming.drop bytes.length, reads } := by
    rw [networkRead, bind_get, isReads]
    simp only [bind_set, pure_run, good.rc, good.inTime, isBytes, behind]
  rw [httpClientRecv, bind_ok read]
  have code : httpClientRecvCode qcloudRetSuccess bytes.length
      { client with incoming := client.incoming.drop bytes.length, reads } =
      .ok qcloudRetSuccess { client with incoming := client.incoming.drop bytes.length, reads } := by
    rfl
  simp only
  rw [bind_ok code, bind_ok (store_run (by omega))]
  rfl

/-- Without further reads nothing comes until the time is up. -/
theorem httpClientRecv_nil {offset : Nat} (maxLen : Nat) (none : client.reads = [])
    (fits : offset ≤ data.length) :
    httpClientRecv data offset maxLen client = .ok (qcloudRetSuccess, data, 0, false) client := by
  have read : networkRead maxLen client = .ok (qcloudErrTcpNothingToRead, [], false) client := by
    rw [networkRead, bind_get, none]
    rfl
  have code : httpClientRecvCode qcloudErrTcpNothingToRead 0 client =
      .ok qcloudRetSuccess client := by
    rfl
  rw [httpClientRecv, bind_ok read]
  simp only [List.length_nil]
  rw [bind_ok code, bind_ok (store_run (by rw [List.length_nil]; omega)), List.length_nil,
    Nat.add_zero, List.append_nil, List.take_append_drop]
  rfl

/-! ## Copying -/

/-- The server sends the `n` bytes that are waited for, and the reads bring what it sends. -/
structure Plenty (n : Nat) (incoming : List UInt8) (reads : List Read) : Prop where
  sent : n ≤ incoming.length
  brought : incoming.length ≤ bringing reads

/-- The client when `placed` has been copied to the response buffer. -/
def HttpClient.after (client : HttpClient) (placed incoming : List UInt8) (reads : List Read) :
    HttpClient :=
  { client with
    incoming
    reads
    responseBuf := client.responseBuf ++ placed
    retrieveLen := client.retrieveLen - placed.length }

/-- The reads that are left when `n` bytes have been read, at most 1024 at a time. -/
def drain : Nat → List Read → List Read
  | _, [] => []
  | 0, reads => reads
  | n + 1, read :: reads => drain (n + 1 - min read.count (httpClientChunkSize - 1)) reads

theorem drain_cons {n : Nat} (some : n ≠ 0) (read : Read) (reads : List Read) :
    drain n (read :: reads) = drain (n - min read.count (httpClientChunkSize - 1)) reads := by
  cases n with
  | zero => exact absurd rfl some
  | succ n => rfl

/-- What is left to drain after a read that neither the buffer nor the network cuts short. -/
theorem drained_sub {count most room n sent : Nat} (fits : n ≤ room) (all : n ≤ sent) :
    n - min (min count (min (min most room) n)) sent = n - min count most := by
  rw [Nat.min_assoc most, Nat.min_eq_right fits, Nat.min_eq_left (by omega)]
  omega

theorem drain_zero (reads : List Read) : drain 0 reads = reads := by
  cases reads <;> rfl

/-- The bytes in the local buffer and those that come are placed, or still to come. -/
structure Copied (client : HttpClient) (content placed incoming : List UInt8)
    (reads : List Read) : Prop where
  bytes : content ++ client.incoming = placed ++ incoming
  good : ∀ read ∈ reads, read.Good
  brought : client.incoming.length ≤ bringing client.reads → incoming.length ≤ bringing reads

/-- How the loop ends that copies `readLen` bytes. -/
inductive CopyEnds (client : HttpClient) (len readLen : Nat) (placed incoming : List UInt8)
    (reads : List Read) : EStateM.Result Halt HttpClient (List UInt8) → Prop where
  | all {data : List UInt8} (size : data.length = httpClientChunkSize)
      (length : placed.length = readLen)
      (drained : client.responseBuf.length + readLen ≤ client.responseBufLen - 1 →
        readLen - len ≤ client.incoming.length → reads = drain (readLen - len) client.reads) :
      CopyEnds client len readLen placed incoming reads (.ok data (client.after placed incoming reads))
  | full (short : placed.length ≤ readLen)
      (length : client.responseBuf.length + placed.length = client.responseBufLen - 1) :
      CopyEnds client len readLen placed incoming reads
        (.error (.exit httpRetrieveMoreData) (client.after placed incoming reads))
  | starved (short : placed.length ≤ readLen) (notPlenty : ¬ Plenty (readLen - len) client.incoming
      client.reads) :
      CopyEnds client len readLen placed incoming reads
        (.error (.exit qcloudErrHttpTimeout) (client.after placed incoming reads))

theorem HttpClient.after_after (placed placed' incoming incoming' : List UInt8)
    (reads reads' : List Read) :
    (client.after placed incoming reads).after placed' incoming' reads' =
      client.after (placed ++ placed') incoming' reads' := by
  simp only [after, List.append_assoc, List.length_append, Nat.cast_add, sub_add_eq_sub_sub]

/-- A read that brings something leaves fewer such reads and fewer bytes. -/
theorem brought_of_read {maxLen : Nat} (isReads : client.reads = read :: reads)
    (isBytes : client.incoming.take (min read.count maxLen) = bytes) (some : 0 < maxLen)
    (brought : client.incoming.length ≤ bringing client.reads) :
    (client.incoming.drop bytes.length).length ≤ bringing reads := by
  rw [isReads, bringing, List.countP_cons] at brought
  rw [bringing, List.length_drop, ← isBytes, List.length_take]
  by_cases brings : 0 < read.count
  · rw [if_pos (decide_eq_true brings)] at brought
    omega
  · rw [if_neg (by simpa using brings)] at brought
    omega

/-- What is placed is subtracted from the length that is left. -/
theorem place_run {len : Nat} {next : PUnit → Recv α} (here : len ≤ data.length) :
    (place data len >>= fun _ =>
        modify (fun client => { client with retrieveLen := client.retrieveLen - len }) >>= next)
        client =
      next () (client.after (data.take len) client.incoming client.reads) := by
  have placed : (data.take len).length = len := by
    rw [List.length_take]
    omega
  rw [place, bind_modify, bind_modify, HttpClient.after, placed]

/-- One round of the loop: what is here is copied, and if more is missing it is read. -/
theorem retrieveData_step (rounds : Nat) {len readLen : Nat} (size : data.length = httpClientChunkSize)
    (here : len < httpClientChunkSize) (within : len ≤ readLen)
    (fits : client.responseBuf.length + len < client.responseBufLen - 1)
    (isReads : client.reads = read :: reads) (good : read.Good) (missing : readLen - len ≠ 0) :
    ∃ bytes, client.incoming.take (min read.count (min (min (httpClientChunkSize - 1)
          (client.responseBufLen - 1 - (client.responseBuf.length + len))) (readLen - len))) = bytes ∧
      retrieveData (rounds + 1) data len readLen client =
        retrieveData rounds (bytes ++ data.drop bytes.length) bytes.length (readLen - len)
          (client.after (data.take len) (client.incoming.drop bytes.length) reads) := by
  have templen : min len readLen = len := Nat.min_eq_left within
  refine ⟨_, rfl, ?_⟩
  rw [retrieveData, bind_get]
  simp only [templen, ite_run, if_pos fits, if_neg (Nat.not_lt.mpr within), if_neg missing]
  rw [place_run (by omega)]
  generalize isMax : min (min (httpClientChunkSize - 1)
    (client.responseBufLen - 1 - (client.responseBuf.length + len))) (readLen - len) = maxLen
  have short : 0 + maxLen ≤ data.length := by omega
  have recv := httpClientRecv_run
    (show (client.after (data.take len) client.incoming client.reads).reads = read :: reads from
        isReads)
    good short rfl
  rw [bind_ok recv]
  simp only [ne_eq, not_true_eq_false, if_false, ite_run, List.take_zero, List.nil_append,
    Nat.zero_add]
  rfl

theorem retrieveData_run {rounds len readLen : Nat} (size : data.length = httpClientChunkSize)
    (here : len < httpClientChunkSize) (within : len ≤ readLen)
    (fits : client.responseBuf.length + len ≤ client.responseBufLen - 1)
    (good : ∀ read ∈ client.reads, read.Good) (enough : client.reads.length < rounds) :
    ∃ placed incoming reads, Copied client (data.take len) placed incoming reads ∧
      CopyEnds client len readLen placed incoming reads
        (retrieveData rounds data len readLen client) := by
  induction rounds generalizing data len readLen client with
  | zero => exact absurd enough (Nat.not_lt_zero _)
  | succ rounds ih =>
    have placed : (data.take len).length = len := by
      rw [List.length_take, size]
      omega
    have copied : Copied client (data.take len) (data.take len) client.incoming client.reads :=
      ⟨rfl, good, id⟩
    have templen : min len readLen = len := Nat.min_eq_left within
    by_cases room : client.responseBuf.length + len < client.responseBufLen - 1
    · by_cases last : readLen - len = 0
      · refine ⟨_, _, _, copied, ?_⟩
        have run : retrieveData (rounds + 1) data len readLen client =
            .ok data (client.after (data.take len) client.incoming client.reads) := by
          rw [retrieveData, bind_get]
          simp only [templen, ite_run, if_pos room, if_neg (Nat.not_lt.mpr within), if_pos last]
          rw [place_run (by omega)]
          rfl
        rw [run]
        refine .all size (by omega) fun _ _ => ?_
        rw [last, drain_zero]
      · cases isReads : client.reads with
        | nil =>
          refine ⟨_, _, _, copied, ?_⟩
          have run : retrieveData (rounds + 1) data len readLen client =
              .error (.exit qcloudErrHttpTimeout)
                (client.after (data.take len) client.incoming client.reads) := by
            have recv (maxLen : Nat) := httpClientRecv_nil maxLen
              (show (client.after (data.take len) client.incoming client.reads).reads = []
                from isReads) (Nat.zero_le data.length)
            rw [retrieveData, bind_get]
            simp only [templen, ite_run, if_pos room, if_neg (Nat.not_lt.mpr within), if_neg last]
            rw [place_run (by omega), bind_ok (recv _)]
            rfl
          rw [run]
          refine .starved (by omega) fun plenty => ?_
          have sent := plenty.sent
          have brought := plenty.brought
          rw [isReads] at brought
          exact last (Nat.le_zero.mp (sent.trans brought))
        | cons read reads =>
          obtain ⟨bytes, isBytes, run⟩ := retrieveData_step rounds size here within room isReads
            (good read (by rw [isReads]; exact List.mem_cons_self)) last
          have length := congrArg List.length isBytes
          rw [List.length_take] at length
          have asked : 0 < min (min (httpClientChunkSize - 1)
              (client.responseBufLen - 1 - (client.responseBuf.length + len))) (readLen - len) := by
            have chunk : httpClientChunkSize - 1 = 1024 := rfl
            omega
          obtain ⟨placed', incoming', reads', copied', ends⟩ :=
            @ih (bytes ++ data.drop bytes.length)
              (client.after (data.take len) (client.incoming.drop bytes.length) reads)
              bytes.length (readLen - len)
              (by rw [List.length_append, List.length_drop]; omega) (by omega) (by omega)
              (by simp only [HttpClient.after, List.length_append]; omega)
              (fun r mem => good r (by rw [isReads]; exact List.mem_cons_of_mem _ mem))
              (by rw [isReads, List.length_cons] at enough; exact Nat.lt_of_succ_lt_succ enough)
          have whole : bytes ++ client.incoming.drop bytes.length = client.incoming := by
            have front : bytes <+: client.incoming := isBytes ▸ List.take_prefix _ _
            exact List.prefix_iff_eq_append.mp front
          have moved := copied'.bytes
          rw [List.take_left, HttpClient.after, whole] at moved
          refine ⟨data.take len ++ placed', incoming', reads',
            ⟨by rw [moved, List.append_assoc], copied'.good, fun brought => copied'.brought ?_⟩, ?_⟩
          · exact brought_of_read isReads isBytes asked brought
          · rw [run]
            generalize retrieveData rounds _ _ _ _ = result at ends
            cases ends with
            | all size' length' drained =>
              rw [HttpClient.after_after]
              refine .all size' (by rw [List.length_append]; omega) fun fits' sent => ?_
              rw [drained (by simp only [HttpClient.after, List.length_append]; omega)
                (by simp only [HttpClient.after, List.length_drop]; omega), isReads, drain_cons last]
              rw [← length]
              congr 1
              exact drained_sub (by omega) sent
            | full short' length' =>
              rw [HttpClient.after_after]
              simp only [HttpClient.after, List.length_append] at length'
              exact .full (by rw [List.length_append]; omega) (by rw [List.length_append]; omega)
            | starved short' notPlenty =>
              rw [HttpClient.after_after]
              refine .starved (by rw [List.length_append]; omega) fun plenty => notPlenty ⟨?_, ?_⟩
              · have sent := plenty.sent
                simp only [HttpClient.after, List.length_drop]
                omega
              · exact brought_of_read isReads isBytes asked plenty.brought
    · have whole : client.responseBuf.length + len = client.responseBufLen - 1 := by omega
      refine ⟨_, _, _, copied, ?_⟩
      have run : retrieveData (rounds + 1) data len readLen client =
          .error (.exit httpRetrieveMoreData)
            (client.after (data.take len) client.incoming client.reads) := by
        rw [retrieveData, bind_get]
        have left : client.responseBufLen - 1 - client.responseBuf.length = len := by omega
        simp only [templen, ite_run, if_neg room, left]
        rw [place_run (by omega)]
        rfl
      rw [run]
      exact .full (by omega) (by omega)

end QcloudIot.Http
