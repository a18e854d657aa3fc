import QcloudIot.Http.Proofs.Reading

/-!
# The head of a response

The status line and the fields, as `_http_client_response_parse` requires them, and what it
leaves of the bytes that have come with them.
-/

namespace QcloudIot.Http

open Early

variable {data content bytes following : List UInt8} {client : HttpClient} {reads : List Read}

/-- The status line and the fields of a response; `fields` ends with the empty line. Codes 403
    and 404 make the client give up. -/
structure Head where
  statusLine : List UInt8
  fields : List UInt8
  noCr : 13 ∉ statusLine
  noNul : 0 ∉ statusLine ++ fields
  status : 9 ≤ statusLine.length
  allowed : atoi (statusLine.drop 9) ≠ 403 ∧ atoi (statusLine.drop 9) ≠ 404
  ends : strstr (crlf ++ crlf) fields = some (fields.length - 4)

def Head.text (head : Head) : List UInt8 := head.statusLine ++ crlf ++ head.fields

/-- How many bytes behind the head the first reads ask for, and the reads that are left: the
    status line has to come with the first read, the fields with the first two. -/
def Head.read (head : Head) : List Read → Option (Nat × List Read)
  | [] => none
  | first :: reads =>
    let n := min first.count (httpClientChunkSize - 1)
    if n < head.statusLine.length + 2 then none
    else if head.text.length ≤ n then some (n - head.text.length, reads)
    else match reads with
    | [] => none
    | second :: reads =>
      let n := n + min second.count
        (httpClientChunkSize - (n - (head.statusLine.length + 2)) - 1)
      if head.text.length ≤ n then some (n - head.text.length, reads) else none

theorem Head.read_good {head : Head} {left : List Read} {extra : Nat}
    (good : ∀ read ∈ reads, read.Good) (fits : head.read reads = some (extra, left)) :
    ∀ read ∈ left, read.Good := by
  rw [Head.read.eq_def] at fits
  cases reads with
  | nil => cases fits
  | cons first reads =>
    have later : ∀ read ∈ reads, read.Good := fun read mem =>
      good read (List.mem_cons_of_mem _ mem)
    simp only at fits
    split_ifs at fits
    · cases fits
      exact later
    · cases reads with
      | nil => cases fits
      | cons second reads =>
        simp only at fits
        split_ifs at fits
        cases fits
        exact fun read mem => later read (List.mem_cons_of_mem _ mem)

theorem Head.length_text (head : Head) :
    head.text.length = head.statusLine.length + 2 + head.fields.length := by
  rw [text, List.length_append, List.length_append]
  rfl

theorem Head.four_le (head : Head) : 4 ≤ head.fields.length := by
  have within := strstr_within (by decide) head.ends
  have two : (crlf ++ crlf).length = 4 := rfl
  omega

theorem strstr_crlf {line : List UInt8} (noCr : 13 ∉ line) (rest : List UInt8) :
    strstr crlf (line ++ crlf ++ rest) = some line.length := by
  refine strstr_append (by decide) ?_
  induction line with
  | nil => rfl
  | cons b line ih =>
    rw [List.mem_cons, not_or] at noCr
    have notHere : ¬ crlf <+: b :: (line ++ crlf) := by
      intro front
      rw [List.cons_prefix_cons] at front
      exact noCr.1 front.1
    rw [List.cons_append, strstr, if_neg notHere, ih noCr.2]
    rfl

/-! ## The buffer -/

/-- A zero byte behind what has been read. -/
theorem Holds.of_store (size : data.length = httpClientChunkSize)
    (front : data.take content.length = content) (room : content.length < httpClientChunkSize) :
    Holds (data.take content.length ++ [0] ++ data.drop (content.length + 1)) content where
  size := by
    simp only [List.length_append, List.length_take, List.length_drop, List.length_singleton]
    omega
  front := by
    rw [front]
    exact List.prefix_append _ _

/-- Moving what is behind `src` to the front, with its zero byte. -/
theorem Holds.of_memmove {src : Nat} (size : data.length = httpClientChunkSize)
    (behind : content ++ [0] <+: data.drop src) :
    ∃ data', memmove data src (content.length + 1) client = .ok data' client ∧
      Holds data' content := by
  have fits := behind.length_le
  rw [List.length_append, List.length_singleton, List.length_drop] at fits
  have within : src + (content.length + 1) ≤ data.length := by omega
  have front := List.prefix_iff_eq_take.mp behind
  rw [List.length_append, List.length_singleton] at front
  refine ⟨_, memmove_run within, ?_, ?_⟩
  · rw [length_memmove within, size]
  · rw [← front]
    exact List.prefix_append _ _

/-- Bytes stored behind the content, and a zero byte behind them. -/
theorem Holds.of_read (holds : Holds data content)
    (room : content.length + bytes.length < httpClientChunkSize) :
    ∃ data', store (data.take content.length ++ bytes ++ data.drop (content.length + bytes.length))
        (content.length + bytes.length) [0] client = .ok data' client ∧
      Holds data' (content ++ bytes) := by
  have fits : content.length + bytes.length ≤ data.length := by
    rw [holds.size]
    omega
  have front : (data.take content.length ++ bytes ++
      data.drop (content.length + bytes.length)).take (content ++ bytes).length =
        content ++ bytes := by
    rw [holds.take]
    exact List.take_left
  have size := length_store fits
  rw [holds.size] at size
  rw [List.length_append] at front
  refine ⟨_, store_run (by rw [List.length_singleton, size]; exact room), ?_⟩
  have stored := @Holds.of_store _ (content ++ bytes) size
    (by rw [List.length_append]; exact front) (by rw [List.length_append]; exact room)
  rw [List.length_append] at stored
  exact stored

/-! ## The end of the head -/

theorem Head.noNul_fields (head : Head) : 0 ∉ head.fields := fun mem =>
  head.noNul (List.mem_append_right _ mem)

/-- The empty line is found at the end of the fields, whatever follows. -/
theorem Head.ends_in (head : Head) (holds : Holds data content) (front : head.fields <+: content) :
    strstr (crlf ++ crlf) (cString data) = some (head.fields.length - 4) := by
  obtain ⟨rest, isString⟩ := holds.cString head.noNul_fields front
  rw [← isString]
  exact strstr_append (by decide) head.ends

theorem findHeaderEnd_first (head : Head) {len : Nat} (holds : Holds data content)
    (front : head.fields <+: content) :
    findHeaderEnd data len client = .ok (head.fields.length - 4, data, len) client := by
  rw [findHeaderEnd, head.ends_in holds front]
  rfl

/-- More is read if the fields are not complete. -/
theorem findHeaderEnd_second (head : Head) {read : Read} (holds : Holds data content)
    (part : content <+: head.fields) (missing : content.length < head.fields.length)
    (isReads : client.reads = read :: reads) (good : read.Good)
    (isBytes : client.incoming.take
      (min read.count (httpClientChunkSize - content.length - 1)) = bytes)
    (front : head.fields <+: content ++ bytes) :
    ∃ data', Holds data' (content ++ bytes) ∧
      findHeaderEnd data content.length client =
        .ok (head.fields.length - 4, data', content.length + bytes.length)
          { client with incoming := client.incoming.drop bytes.length, reads } := by
  have chunk : httpClientChunkSize = 1025 := rfl
  have short := holds.length_lt
  have length := congrArg List.length isBytes
  rw [List.length_take] at length
  obtain ⟨more, isFields⟩ := part
  have four := head.four_le
  have ends := head.ends
  rw [← isFields] at ends
  have notYet : strstr (crlf ++ crlf) (cString data) = none := by
    have noNul : 0 ∉ content := fun mem =>
      head.noNul_fields (by rw [← isFields]; exact List.mem_append_left _ mem)
    rw [holds.cString_eq noNul]
    refine strstr_cut (by decide) ends ?_
    have two : (crlf ++ crlf).length = 4 := rfl
    rw [isFields]
    omega
  have fits : content.length + (httpClientChunkSize - content.length - 1) ≤ data.length := by
    rw [holds.size]
    omega
  have recv := httpClientRecv_run isReads good fits isBytes
  obtain ⟨data', stored, holds'⟩ := @Holds.of_read data content bytes
    { client with incoming := client.incoming.drop bytes.length, reads } holds (by omega)
  refine ⟨data', holds', ?_⟩
  rw [findHeaderEnd, notYet]
  simp only
  rw [bind_ok recv]
  simp only [ne_eq, not_true_eq_false, if_false, ite_run]
  rw [bind_ok stored, head.ends_in holds' front]
  rfl

/-! ## The whole head -/

/-- What follows the status line (`utils_httpc.c:586-625`). -/
def parseFields (data : List UInt8) (len : Nat) : Recv Int := do
  let (bodyEnd, data, len) ← findHeaderEnd data len
  readFields data
  let data ← memmove data (bodyEnd + 4) (len - (bodyEnd + 4) + 1)
  httpClientRetrieveContent data (len - (bodyEnd + 4))

/-- The client when the status line has been read. -/
def HttpClient.answered (client : HttpClient) (head : Head) : HttpClient :=
  { client with
    responseContentLen := -1
    responseCode := atoi (head.statusLine.drop 9)
    isChunked := false }

theorem httpClientResponseParse_run (head : Head)
    (holds : Holds data (head.statusLine ++ crlf ++ content)) :
    ∃ data', Holds data' content ∧
      httpClientResponseParse data (head.statusLine.length + 2 + content.length) client =
        parseFields data' content.length (client.answered head) := by
  obtain ⟨stale, isData⟩ := holds.exists_stale
  have noNul : 0 ∉ head.statusLine := fun mem => head.noNul (List.mem_append_left _ mem)
  have line : (head.statusLine ++ crlf).length = head.statusLine.length + 2 := List.length_append
  have found : strstr crlf (cString data) = some head.statusLine.length := by
    obtain ⟨rest, isString⟩ := holds.cString
      (by rw [List.mem_append, not_or]; exact ⟨noNul, by decide⟩) (List.prefix_append _ _)
    rw [← isString]
    exact strstr_crlf head.noCr rest
  have short := holds.length_lt
  rw [List.length_append, line] at short
  -- the status line is cut off in the buffer, and then moved out of it
  have cut : data.take head.statusLine.length ++ [0] ++ data.drop (head.statusLine.length + 1) =
      head.statusLine ++ 0 :: 10 :: (content ++ 0 :: stale) := by
    have front : head.statusLine ++ crlf ++ content ++ 0 :: stale =
        head.statusLine ++ 13 :: 10 :: (content ++ 0 :: stale) := by
      simp only [List.append_assoc, List.cons_append, List.nil_append]
    rw [isData, front, List.take_left, List.append_assoc, ← List.drop_drop, List.drop_left]
    rfl
  have stored := @store_run data [0] { client with responseContentLen := -1 }
    head.statusLine.length (by rw [holds.size, List.length_singleton]; omega)
  rw [List.length_singleton, cut] at stored
  have code : cString ((head.statusLine ++ 0 :: 10 :: (content ++ 0 :: stale)).drop 9) =
      head.statusLine.drop 9 := by
    rw [List.drop_append_of_le_length head.status]
    exact cString_nul (fun mem => noNul (List.mem_of_mem_drop mem)) _
  have behind : content ++ [0] <+:
      (head.statusLine ++ 0 :: 10 :: (content ++ 0 :: stale)).drop (head.statusLine.length + 2) := by
    rw [← List.drop_drop, List.drop_left]
    exact ⟨stale, List.append_assoc _ _ _⟩
  have size : (head.statusLine ++ 0 :: 10 :: (content ++ 0 :: stale)).length =
      httpClientChunkSize := by
    have sizes := holds.size
    rw [isData] at sizes
    simp only [List.length_append, List.length_cons, List.length_nil] at sizes ⊢
    omega
  obtain ⟨data', moved, holds'⟩ := @Holds.of_memmove _ content
    { client with
      responseContentLen := -1
      responseCode := atoi (head.statusLine.drop 9) } _ size behind
  refine ⟨data', holds', ?_⟩
  rw [httpClientResponseParse, bind_modify, found]
  simp only
  rw [bind_ok stored, bind_modify]
  simp only [code, ite_run, if_neg head.allowed.1, if_neg head.allowed.2, Nat.add_sub_cancel_left]
  rw [bind_ok moved, bind_modify]
  rfl

/-- What follows the search for the end of the head, of which `n` bytes are the fields. -/
def parseBody (n : Nat) (data : List UInt8) (len : Nat) : Recv Int := do
  readFields data
  let data ← memmove data n (len - n + 1)
  httpClientRetrieveContent data (len - n)

theorem parseFields_run {head : Head} {data' : List UInt8} {len len' : Nat} {client' : HttpClient}
    (found : findHeaderEnd data len client = .ok (head.fields.length - 4, data', len') client') :
    parseFields data len client = parseBody head.fields.length data' len' client' := by
  have four := head.four_le
  rw [parseFields, bind_ok found]
  simp only [Nat.sub_add_cancel four]
  rfl

theorem holds_empty : Holds (List.replicate httpClientChunkSize 0) [] where
  size := List.length_replicate
  front := ⟨List.replicate 1024 0, rfl⟩

/-- The first read, which has to bring the status line. -/
theorem httpClientRecvResponse_first (head : Head) {first : Read} {n : Nat}
    (idle : client.isMore = false) (connected : client.connected = true)
    (isIncoming : client.incoming = head.text ++ following) (isReads : client.reads = first :: reads)
    (good : first.Good) (isN : min first.count (httpClientChunkSize - 1) = n)
    (line : head.statusLine.length + 2 ≤ n) :
    ∃ data, Holds data ((head.fields ++ following).take (n - (head.statusLine.length + 2))) ∧
      httpClientRecvResponse client = parseFields data
        ((head.fields ++ following).take (n - (head.statusLine.length + 2))).length
        ({ client with
            isMore := true
            incoming := (head.fields ++ following).drop (n - (head.statusLine.length + 2))
            reads }.answered head) := by
  generalize isContent :
    (head.fields ++ following).take (n - (head.statusLine.length + 2)) = content
  have chunk : httpClientChunkSize = 1025 := rfl
  have lineLength : (head.statusLine ++ crlf).length = head.statusLine.length + 2 :=
    List.length_append
  have split : client.incoming = (head.statusLine ++ crlf) ++ (head.fields ++ following) := by
    rw [isIncoming, Head.text, List.append_assoc]
  have isBytes : client.incoming.take n = head.statusLine ++ crlf ++ content := by
    rw [split, List.take_append, List.take_of_length_le (by rw [lineLength]; exact line), lineLength,
      isContent]
  have isLeft : client.incoming.drop (head.statusLine ++ crlf ++ content).length =
      (head.fields ++ following).drop (n - (head.statusLine.length + 2)) := by
    have length : (head.statusLine ++ crlf ++ content).length =
        min n client.incoming.length := by
      rw [← isBytes, List.length_take]
    have both : client.incoming.drop (min n client.incoming.length) = client.incoming.drop n := by
      by_cases all : n ≤ client.incoming.length
      · rw [Nat.min_eq_left all]
      · rw [Nat.min_eq_right (by omega), List.drop_length, List.drop_eq_nil_of_le (by omega)]
    rw [length, both, split, List.drop_append, lineLength,
      List.drop_eq_nil_of_le (by rw [lineLength]; exact line), List.nil_append]
  have short : (head.statusLine ++ crlf ++ content).length ≤ n := by
    rw [← isBytes, List.length_take]
    omega
  have fits : 0 + (httpClientChunkSize - 1) ≤
      (List.replicate httpClientChunkSize (0 : UInt8)).length := by
    rw [List.length_replicate]
    omega
  rw [← isN] at isBytes
  have recv := @httpClientRecv_run _ _ { client with isMore := true } _ _ _ _
    isReads good fits isBytes
  rw [← isLeft]
  obtain ⟨data, stored, holds⟩ := @Holds.of_read _ [] (head.statusLine ++ crlf ++ content)
    { client with
      isMore := true
      incoming := client.incoming.drop (head.statusLine ++ crlf ++ content).length
      reads }
    holds_empty (by rw [List.length_nil]; omega)
  rw [List.length_nil, Nat.zero_add] at stored
  rw [Nat.zero_add] at recv
  obtain ⟨data', holds', parsed⟩ := @httpClientResponseParse_run data content
    { client with
      isMore := true
      incoming := client.incoming.drop (head.statusLine ++ crlf ++ content).length
      reads } head holds
  refine ⟨data', holds', ?_⟩
  have some : (head.statusLine ++ crlf ++ content).length ≠ 0 := by
    rw [List.length_append, lineLength]
    omega
  have reclen : (head.statusLine ++ crlf ++ content).length =
      head.statusLine.length + 2 + content.length := by
    rw [List.length_append, lineLength]
  rw [httpClientRecvResponse, bind_get]
  simp only [ite_run]
  rw [if_neg (not_not.mpr connected), if_neg (by rw [idle]; decide), bind_set, bind_ok recv]
  simp only [ne_eq, not_true_eq_false, if_false, ite_run]
  rw [← reclen] at parsed
  rw [bind_ok stored, ite_run, if_pos some]
  exact parsed

/-- The first call, up to the fields: what has come behind the head is in the buffer. -/
theorem httpClientRecvResponse_head (head : Head) {extra : Nat} (idle : client.isMore = false)
    (connected : client.connected = true) (isIncoming : client.incoming = head.text ++ following)
    (good : ∀ read ∈ client.reads, read.Good)
    (fits : head.read client.reads = some (extra, reads)) :
    ∃ data, Holds data (head.fields ++ following.take extra) ∧
      httpClientRecvResponse client =
        parseBody head.fields.length data (head.fields ++ following.take extra).length
          ({ client with
              isMore := true, incoming := following.drop extra, reads }.answered head) := by
  have text := head.length_text
  rw [Head.read.eq_def] at fits
  cases isReads : client.reads with
  | nil =>
    rw [isReads] at fits
    cases fits
  | cons first rest =>
    rw [isReads] at fits
    have goodFirst : first.Good := good first (by rw [isReads]; exact List.mem_cons_self)
    obtain ⟨n, isN⟩ : ∃ n, min first.count (httpClientChunkSize - 1) = n := ⟨_, rfl⟩
    simp only [isN] at fits
    by_cases noLine : n < head.statusLine.length + 2
    · rw [if_pos noLine] at fits
      cases fits
    obtain ⟨data, holds, parsed⟩ := httpClientRecvResponse_first head idle connected isIncoming
      isReads goodFirst isN (Nat.not_lt.mp noLine)
    rw [if_neg noLine] at fits
    by_cases whole : head.text.length ≤ n
    · -- the head has come with the first read
      rw [if_pos whole] at fits
      cases fits
      have more : n - (head.statusLine.length + 2) =
          head.fields.length + (n - head.text.length) := by omega
      rw [more, List.take_length_add_append, List.drop_length_add_append] at parsed
      rw [more, List.take_length_add_append] at holds
      exact ⟨data, holds, parsed.trans
        (parseFields_run (findHeaderEnd_first head holds (List.prefix_append _ _)))⟩
    · rw [if_neg whole] at fits
      have less : n - (head.statusLine.length + 2) ≤ head.fields.length := by omega
      rw [List.take_append_of_le_length less, List.drop_append_of_le_length less] at parsed
      rw [List.take_append_of_le_length less] at holds
      cases rest with
      | nil => cases fits
      | cons second rest =>
        obtain ⟨k, isK⟩ : ∃ k, min second.count
            (httpClientChunkSize - (n - (head.statusLine.length + 2)) - 1) = k := ⟨_, rfl⟩
        simp only [isK] at fits
        split_ifs at fits with complete
        cases fits
        have goodSecond : second.Good := good second (by
          rw [isReads]
          exact List.mem_cons_of_mem _ List.mem_cons_self)
        have length : (head.fields.take (n - (head.statusLine.length + 2))).length =
            n - (head.statusLine.length + 2) := by
          rw [List.length_take]
          omega
        have isBytes : ((head.fields.drop (n - (head.statusLine.length + 2))) ++ following).take
            (min second.count (httpClientChunkSize -
              (head.fields.take (n - (head.statusLine.length + 2))).length - 1)) =
            head.fields.drop (n - (head.statusLine.length + 2)) ++
              following.take (n + k - head.text.length) := by
          rw [length, isK, List.take_append, List.take_of_length_le
            (by rw [List.length_drop]; omega), List.length_drop]
          congr 2
          omega
        have joined : head.fields.take (n - (head.statusLine.length + 2)) ++
            (head.fields.drop (n - (head.statusLine.length + 2)) ++
              following.take (n + k - head.text.length)) =
            head.fields ++ following.take (n + k - head.text.length) := by
          rw [← List.append_assoc, List.take_append_drop]
        obtain ⟨data', holds', found⟩ := @findHeaderEnd_second data _ _
          ({ client with
            isMore := true
            incoming := head.fields.drop (n - (head.statusLine.length + 2)) ++ following
            reads := second :: reads }.answered head)
          reads head second holds (List.take_prefix _ _) (by omega) rfl goodSecond isBytes
          (by rw [joined]; exact List.prefix_append _ _)
        rw [joined] at holds'
        refine ⟨data', holds', parsed.trans ((parseFields_run found).trans ?_)⟩
        have behind : (head.fields.drop (n - (head.statusLine.length + 2)) ++ following).drop
            (head.fields.drop (n - (head.statusLine.length + 2)) ++
              following.take (n + k - head.text.length)).length =
            following.drop (n + k - head.text.length) := by
          rw [List.length_append, List.drop_length_add_append, List.length_take]
          by_cases all : n + k - head.text.length ≤ following.length
          · rw [Nat.min_eq_left all]
          · rw [Nat.min_eq_right (by omega), List.drop_length, List.drop_eq_nil_of_le (by omega)]
        have lengths := congrArg List.length joined
        rw [List.length_append] at lengths
        rw [lengths]
        show parseBody _ _ _ ({ client with
          isMore := true
          incoming := List.drop _ (_ ++ following)
          reads }.answered head) = _
        rw [behind]

end QcloudIot.Http
