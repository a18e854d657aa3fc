import QcloudIot.Json.Proofs.Token
import QcloudIot.Ota.Client
import QcloudIot.Utils.Proofs.Md5

/-!
# The firmware check

The context of the client is fed with the chunks that are fetched, so that the first check
compares the announced digest with that of the download. A check finishes the context it
looks at: the next one sees the digest of the padded download.
-/

namespace QcloudIot.Ota

open Mqtt (CStr)
open Shadow (textOf)
open Json (Fault Overrun strlen ofMessage ofCopy liteJsonValueOf liteJsonValueOf_allocated)
open Http (Crash)
open Md5 (hexString padded paddedTimes)

/-! ## What a handle keeps -/

/-- The fields that neither a report of the progress nor a fetch changes. -/
structure OtaStruct.Keeps (h h' : OtaStruct) : Prop where
  md5sum : h'.md5sum = h.md5sum
  version : h'.version = h.version
  productId : h'.productId = h.productId
  deviceName : h'.deviceName = h.deviceName

theorem OtaStruct.Keeps.refl (h : OtaStruct) : h.Keeps h := ⟨rfl, rfl, rfl, rfl⟩

theorem OtaStruct.Keeps.trans {h h' h'' : OtaStruct} (first : h.Keeps h') (second : h'.Keeps h'') :
    h.Keeps h'' :=
  ⟨second.md5sum.trans first.md5sum, second.version.trans first.version,
    second.productId.trans first.productId, second.deviceName.trans first.deviceName⟩

/-- A report that does not reset the handle changes `err` and the list of reports only. -/
theorem otamqttPublish_eq (h : OtaStruct) (qos : Mqtt.QoS) (message : List UInt8)
    (published : Int) :
    ∃ reports, (h.otamqttPublish qos message published).2 = { h with reports } := by
  rw [OtaStruct.otamqttPublish]
  cases h.reportTopic with
  | error _ => exact ⟨h.reports, rfl⟩
  | ok _ => exact ⟨_, rfl⟩

theorem reportProgress_eq (h : OtaStruct) (progress : Int) (reportType : ReportType)
    (env : ReportEnv) :
    ∃ err reports, (h.reportProgress progress reportType env).2 = { h with err, reports } := by
  rw [OtaStruct.reportProgress]
  by_cases uninited : h.state = .uninited
  · rw [if_pos uninited]
    exact ⟨_, h.reports, rfl⟩
  rw [if_neg uninited]
  by_cases invalid : ¬ otaCheckProgress progress
  · rw [if_pos invalid]
    exact ⟨_, h.reports, rfl⟩
  rw [if_neg invalid]
  by_cases full : ¬ env.allocated
  · rw [if_pos full]
    exact ⟨_, h.reports, rfl⟩
  rw [if_neg full]
  cases genReportMsg msgReportLen h.version progress reportType with
  | error ret => exact ⟨_, h.reports, rfl⟩
  | ok message =>
    obtain ⟨reports, published⟩ := otamqttPublish_eq h .qos0 message env.published
    simp only [published]
    split_ifs
    · exact ⟨_, reports, rfl⟩
    · exact ⟨h.err, reports, rfl⟩

/-! ## The report of a mismatch -/

/-- The report of an upgrade result is sent: there is a version to name, the message can be
    allocated, its topic is not too long, and it is published. -/
def OtaStruct.Reportable (h : OtaStruct) (report : ReportEnv) : Prop :=
  (h.version.any fun version => 1 ≤ version.length ∧ version.length ≤ 32) = true ∧
    report.allocated = true ∧ h.productId.length + h.deviceName.length < 51 ∧ 0 ≤ report.published

instance (h : OtaStruct) (report : ReportEnv) : Decidable (h.Reportable report) :=
  inferInstanceAs (Decidable (_ ∧ _))

theorem OtaStruct.Keeps.reportable {h h' : OtaStruct} (keeps : h.Keeps h') (report : ReportEnv) :
    h'.Reportable report ↔ h.Reportable report := by
  rw [OtaStruct.Reportable, OtaStruct.Reportable, keeps.version, keeps.productId, keeps.deviceName]

theorem reportTopic_ok (h : OtaStruct) :
    (∃ topic, h.reportTopic = .ok topic) ↔ h.productId.length + h.deviceName.length < 51 := by
  have length : (utf8 "$ota/report/" ++ h.productId.bytes ++ utf8 "/" ++
      h.deviceName.bytes).length = 13 + (h.productId.length + h.deviceName.length) := by
    have slash : (utf8 "/").length = 1 := by with_unfolding_all decide
    have front : (utf8 "$ota/report/").length = 12 := by with_unfolding_all decide
    rw [List.length_append, List.length_append, List.length_append, slash, front, CStr.length,
      CStr.length]
    omega
  rw [OtaStruct.reportTopic]
  by_cases long : h.productId.length + h.deviceName.length < 51
  · rw [if_neg (by rw [length]; show ¬ _ ≥ 64; omega)]
    exact iff_of_true ⟨_, rfl⟩ long
  · rw [if_pos (by rw [length]; show _ ≥ 64; omega)]
    refine iff_of_false ?_ long
    rintro ⟨topic, ok⟩
    cases ok

/-- The report of a mismatch fits into its buffer. -/
theorem genReportMsg_mismatch {version : CStr} (short : version.length ≤ 32) :
    ∃ message, genReportMsg msgReportLen (some version) 1 .md5NotMatch = .ok message := by
  have front : (utf8 "\x7b\"type\": \"report_progress\", " ++
      utf8 "\"report\": \x7b\"progress\": \x7b\"state\":" ++
      utf8 "\"fail\", \"result_code\":\"" ++ decimal ReportType.md5NotMatch.code ++
      utf8 "\", \"result_msg\":\"time_out\"\x7d, \"version\": \"").length ≤ 150 := by
    decide +kernel
  have back : (utf8 "\"\x7d\x7d").length = 3 := by with_unfolding_all decide
  have printed_length : (printed (some version)).length = version.length := rfl
  refine ⟨_, if_neg ?_⟩
  rw [List.length_append, List.length_append, back, printed_length]
  show ¬ _ ≥ 256
  omega

/-- A message is published, or a negative code is returned. -/
theorem otamqttPublish_cases (h : OtaStruct) (qos : Mqtt.QoS) (message : List UInt8)
    (published : Int) :
    (h.productId.length + h.deviceName.length < 51 ∧ 0 ≤ published ∧
      h.otamqttPublish qos message published =
        (published, { h with reports := h.reports ++ [⟨qos, message⟩] })) ∨
    (¬ (h.productId.length + h.deviceName.length < 51 ∧ 0 ≤ published) ∧
      ∃ rc reports, rc < 0 ∧ h.otamqttPublish qos message published = (rc, { h with reports })) := by
  have topic := reportTopic_ok h
  rw [OtaStruct.otamqttPublish]
  cases sent : h.reportTopic with
  | error rc =>
    have long : ¬ h.productId.length + h.deviceName.length < 51 := by
      intro fits
      obtain ⟨name, ok⟩ := topic.mpr fits
      cases sent.symm.trans ok
    exact .inr ⟨fun fits => long fits.1, iotOtaErrFail, h.reports, by decide, rfl⟩
  | ok name =>
    have fits := topic.mp ⟨name, sent⟩
    by_cases negative : published < 0
    · refine .inr ⟨fun both => absurd both.2 (not_le.mpr negative), iotOtaErrOscFailed,
        h.reports ++ [⟨qos, message⟩], by decide, ?_⟩
      simp only [if_pos negative]
    · refine .inl ⟨fits, not_lt.mp negative, ?_⟩
      simp only [if_neg negative]

/-- The report of a mismatch resets the handle if it is sent; otherwise only `err` and the list
    of reports change. -/
theorem reportUpgradeResult_mismatch (h : OtaStruct) (inited : h.state ≠ .uninited)
    (version : Option CStr) (report : ReportEnv) :
    ((version.any fun version => 1 ≤ version.length ∧ version.length ≤ 32) = true ∧
        report.allocated = true ∧ h.productId.length + h.deviceName.length < 51 ∧
        0 ≤ report.published ∧
      ∃ reports, (h.reportUpgradeResult version .md5NotMatch report).2 =
        { h with reports, state := .inited, err := 0, purl := none, version := none }) ∨
    (¬ ((version.any fun version => 1 ≤ version.length ∧ version.length ≤ 32) = true ∧
        report.allocated = true ∧ h.productId.length + h.deviceName.length < 51 ∧
        0 ≤ report.published) ∧
      ∃ err reports, (h.reportUpgradeResult version .md5NotMatch report).2 =
        { h with err, reports }) := by
  unfold OtaStruct.reportUpgradeResult
  cases version with
  | none =>
    refine .inr ⟨fun sendable => ?_, h.err, h.reports, rfl⟩
    cases sendable.1
  | some version =>
    have lengths : ((some version).any fun version => 1 ≤ version.length ∧ version.length ≤ 32) =
        true ↔ ¬ (version.length < 1 ∨ 32 < version.length) := by
      rw [Option.any_some, decide_eq_true_iff]
      omega
    rw [lengths]
    simp only [if_neg inited]
    by_cases bad : version.length < 1 ∨ 32 < version.length
    · simp only [if_pos bad]
      exact .inr ⟨fun sendable => absurd bad sendable.1, _, h.reports, rfl⟩
    simp only [if_neg bad]
    cases allocated : report.allocated with
    | false =>
      refine .inr ⟨fun sendable => ?_, iotOtaErrNomem, h.reports, rfl⟩
      cases sendable.2.1
    | true =>
      obtain ⟨message, generated⟩ := @genReportMsg_mismatch version (by omega)
      simp only [not_true, if_false, generated]
      rcases otamqttPublish_cases h .qos1 message report.published with
        ⟨fits, positive, sent⟩ | ⟨unsent, rc, reports, negative, failed⟩
      · rw [sent]
        refine .inl ⟨bad, trivial, fits, positive, h.reports ++ [⟨.qos1, message⟩], ?_⟩
        simp only [if_neg (not_lt.mpr positive)]
        rfl
      · rw [failed]
        refine .inr ⟨fun sendable => unsent ⟨sendable.2.2.1, sendable.2.2.2⟩, rc, reports, ?_⟩
        simp only [if_pos negative]

/-! ## The announced digest -/

/-- The text copied is the value of the key. -/
theorem getFirmwareFixlenPara_some {json key : CStr} {destLen : Nat} {env : LookupEnv}
    {text : { text : CStr // text.length ≤ destLen }}
    (found : getFirmwareFixlenPara json key destLen env = .ok (some text)) :
    ∃ value, liteJsonValueOf key json true = .ok (some value) ∧ text.1 = textOf value := by
  rw [getFirmwareFixlenPara] at found
  by_cases copies : env.keyAllocated ∧ env.docAllocated
  · simp only [if_pos copies, bind, Except.bind, pure, Except.pure] at found
    cases looked : liteJsonValueOf key json env.valueAllocated with
    | error fault =>
      rw [looked] at found
      cases found
    | ok value =>
      rw [looked] at found
      cases value with
      | none => cases found
      | some value =>
        refine ⟨value, liteJsonValueOf_allocated looked, ?_⟩
        by_cases short : (textOf value).length ≤ destLen
        · simp only [dif_pos short] at found
          cases found
          rfl
        · simp only [dif_neg short] at found
          cases found
  · rw [if_neg copies] at found
    cases found

/-- `md5sum` as the message at the front of the memory announces it. -/
def announcedMd5 (memory : List UInt8) : Option (List UInt8) :=
  match liteJsonValueOf md5Field (textOf memory) true with
  | .ok value => value.map fun value => (textOf value).bytes
  | .error _ => none

/-- The lookups assign fields of the announcement; `md5sum` is written last but one. -/
theorem getParams_md5sum {h h' : OtaStruct} {json : CStr} {env : CallbackEnv} {rc : Int}
    (got : h.getParams json env = .ok (rc, h')) :
    h'.state = h.state ∧ (rc = 0 → ∃ value,
      ∃ short : (textOf value).length ≤ 32, liteJsonValueOf md5Field json true = .ok (some value) ∧
        h'.md5sum = h.md5sum.store (textOf value).bytes short) := by
  have failed : ∀ {h₁ : OtaStruct},
      (Except.ok (iotOtaErrFail, h₁) : Except Fault (Int × OtaStruct)) = .ok (rc, h') →
      h₁.state = h.state → h'.state = h.state ∧ (rc = 0 → ∃ value,
        ∃ short : (textOf value).length ≤ 32,
          liteJsonValueOf md5Field json true = .ok (some value) ∧
            h'.md5sum = h.md5sum.store (textOf value).bytes short) := by
    intro h₁ returned same
    cases returned
    exact ⟨same, fun zero => absurd zero (by decide)⟩
  simp only [OtaStruct.getParams, bind, Except.bind, pure, Except.pure] at got
  cases type : getFirmwareVarlenPara json typeField env.type with
  | error fault =>
    rw [type] at got
    cases got
  | ok type' =>
  rw [type] at got
  rcases type' with _ | _ | type'
  · exact failed got rfl
  · exact failed got rfl
  simp only at got
  cases version : getFirmwareVarlenPara json versionField env.version with
  | error fault =>
    rw [version] at got
    cases got
  | ok version' =>
  rw [version] at got
  rcases version' with _ | _ | version'
  · exact failed got rfl
  · simp only [if_true] at got
    exact failed got rfl
  simp only [reduceCtorEq, if_false] at got
  cases url : getFirmwareVarlenPara json urlField env.url with
  | error fault =>
    rw [url] at got
    cases got
  | ok url' =>
  rw [url] at got
  rcases url' with _ | _ | url'
  · exact failed got rfl
  · simp only [if_true] at got
    exact failed got rfl
  simp only [reduceCtorEq, if_false] at got
  cases digest : getFirmwareFixlenPara json md5Field 32 env.md5 with
  | error fault =>
    rw [digest] at got
    cases got
  | ok text =>
  rw [digest] at got
  cases text with
  | none => exact failed got rfl
  | some text =>
  obtain ⟨value, found, same⟩ := getFirmwareFixlenPara_some digest
  obtain ⟨text, short⟩ := text
  cases same
  simp only at got
  cases size : getFirmwareFixlenPara json filesizeField otaFilesizeStrLen env.fileSize with
  | error fault =>
    rw [size] at got
    cases got
  | ok size' =>
  rw [size] at got
  cases size' with
  | none => exact failed got rfl
  | some size' =>
    cases got
    exact ⟨rfl, fun _ => ⟨value, short, found, rfl⟩⟩

/-- A document that starts a download has its digest stored. -/
theorem dispatch_announced {before h : OtaStruct} {json : CStr} {env : CallbackEnv}
    (delivered : before.dispatch json env = .ok h) (kept : before.state ≠ .fetching)
    (fetching : h.state = .fetching) :
    ∃ value short, liteJsonValueOf md5Field json true = .ok (some value) ∧
      h.md5sum = before.md5sum.store (textOf value).bytes short := by
  simp only [OtaStruct.dispatch, bind, Except.bind, pure, Except.pure] at delivered
  cases type : getFirmwareVarlenPara json typeField env.firmwareType with
  | error fault =>
    rw [type] at delivered
    cases delivered
  | ok type' =>
  rw [type] at delivered
  rcases type' with _ | _ | type'
  · cases delivered
    exact absurd fetching kept
  · cases delivered
    exact absurd fetching kept
  simp only at delivered
  by_cases version : type'.bytes = reportVersionRsp
  · rw [if_pos version] at delivered
    cases result : getReportVersionResult json env.resultCode with
    | error fault =>
      rw [result] at delivered
      cases delivered
    | ok result' =>
      rw [result] at delivered
      simp only at delivered
      split_ifs at delivered
      · cases delivered
        cases fetching
      · cases delivered
        exact absurd fetching kept
  · rw [if_neg version] at delivered
    by_cases other : type'.bytes ≠ updateFirmware
    · rw [if_pos other] at delivered
      cases delivered
      exact absurd fetching kept
    rw [if_neg other] at delivered
    cases params : before.getParams json env with
    | error fault =>
      rw [params] at delivered
      cases delivered
    | ok result =>
      obtain ⟨rc, h₁⟩ := result
      obtain ⟨same, stored⟩ := getParams_md5sum params
      rw [params] at delivered
      by_cases zero : rc = 0
      · obtain ⟨value, short, found, md5sum⟩ := stored zero
        simp only [zero, ne_eq, not_true, if_false] at delivered
        cases delivered
        exact ⟨value, short, found, md5sum⟩
      · simp only [ne_eq, zero, not_false_eq_true, if_true] at delivered
        cases delivered
        exact absurd (same.symm.trans fetching) kept

/-- A message that starts a download has stored the digest it announces. -/
theorem otaCallback_announced {before h : OtaStruct} {memory : List UInt8} {msgLen : Nat}
    {env : CallbackEnv} (delivered : before.otaCallback memory msgLen env = .ok h)
    (idle : before.state.started = false) (fetching : h.state = .fetching) :
    ∃ announced, announcedMd5 memory = some announced ∧
      ∃ short, h.md5sum = before.md5sum.store announced short := by
  have kept : before.state ≠ .fetching := by
    intro same
    rw [same] at idle
    cases idle
  rw [OtaStruct.otaCallback, if_neg (by rw [idle]; decide)] at delivered
  by_cases empty : msgLen = 0
  · rw [if_pos empty] at delivered
    cases delivered
    exact absurd fetching kept
  rw [if_neg empty] at delivered
  by_cases unread : ¬ env.firmwareType.keyAllocated
  · rw [if_pos unread] at delivered
    cases delivered
    exact absurd fetching kept
  rw [if_neg unread] at delivered
  simp only [textAt, bind, Except.bind, pure, Except.pure] at delivered
  cases measured : strlen memory with
  | error fault => simp [measured, ofMessage] at delivered
  | ok len =>
    simp only [measured, ofMessage] at delivered
    cases handled : before.dispatch (textOf memory) env with
    | error fault => simp [handled, ofCopy] at delivered
    | ok after =>
      simp only [handled, ofCopy] at delivered
      cases delivered
      obtain ⟨value, short, found, md5sum⟩ := dispatch_announced handled kept fetching
      refine ⟨(textOf value).bytes, ?_, short, md5sum⟩
      rw [announcedMd5, found]
      rfl

/-! ## Downloading -/

/-- The context of the client has been fed with the data. -/
def OtaStruct.Fed (h : OtaStruct) (data : List UInt8) : Prop :=
  ∃ ctx, h.md5 = some ctx ∧ ctx.Holds data

/-- A download from the start begins with an empty context. -/
theorem startDownload_fed {h h' : OtaStruct} {size : UInt32} {env : StartEnv}
    (started : h.startDownload 0 size env = .ok (qcloudRetSuccess, h')) :
    h'.Fed [] ∧ h.Keeps h' := by
  cases allocated : env.md5Allocated with
  | false =>
    simp [OtaStruct.startDownload, allocated, pure, Except.pure] at started
  | true =>
    simp only [OtaStruct.startDownload, allocated, ne_eq, not_true, if_false, if_true,
      reduceCtorEq, false_and, bind, Except.bind, pure, Except.pure] at started
    cases released : Http.qcloudOfcDeinit h.chFetch with
    | error crash =>
      rw [released] at started
      cases started
    | ok _ =>
      rw [released] at started
      simp only at started
      cases opened : Http.ofcInit h.purl (0 : UInt32).toNat size.toNat env.fetchAllocated with
      | none =>
        rw [opened] at started
        cases started
      | some channel =>
        rw [opened] at started
        simp only at started
        cases connected : Http.qcloudOfcConnect channel env.connect with
        | error crash =>
          rw [connected] at started
          cases started
        | ok result =>
          obtain ⟨ret, channel'⟩ := result
          rw [connected] at started
          by_cases failed : ret = qcloudRetSuccess
          · simp only [failed, not_true, if_false] at started
            cases started
            exact ⟨⟨Md5.utilsMd5Starts, rfl, Md5.utilsMd5Starts_holds⟩, rfl, rfl, rfl, rfl⟩
          · simp only [failed, not_false_eq_true, if_true] at started
            cases started
            exact absurd rfl failed

/-- What is fetched is counted by an `int`. -/
theorem qcloudOfcFetch_short {channel channel' : Option Http.FetchChannel}
    {result : Http.FetchResult} {code : Int} {bytes : List UInt8}
    (fetched : Http.qcloudOfcFetch channel result = .ok ((code, bytes), channel'))
    (good : ¬ code < 0) : bytes.length < 2 ^ 32 := by
  cases channel with
  | none => cases fetched
  | some channel =>
    rw [Http.qcloudOfcFetch.eq_def] at fetched
    by_cases closed : ¬ channel.stack.connected
    · simp only [if_pos closed] at fetched
      cases fetched
      exact absurd (show Http.qcloudErrHttpConn < 0 by decide) good
    · simp only [if_neg closed] at fetched
      cases result with
      | bytes chunk stillOpen short =>
        cases fetched
        exact lt_trans short (by decide)
      | failed rc negative =>
        cases fetched
        exact Nat.pow_pos (by decide)

theorem md5Update_keeps {h h' : OtaStruct} {chunk : List UInt8}
    (updated : h.md5Update chunk = .ok h') : h.Keeps h' := by
  rw [OtaStruct.md5Update] at updated
  split_ifs at updated
  · cases updated
    exact OtaStruct.Keeps.refl _
  · cases md5 : h.md5 with
    | none =>
      rw [md5] at updated
      cases updated
    | some ctx =>
      rw [md5] at updated
      cases updated
      exact ⟨rfl, rfl, rfl, rfl⟩

theorem md5Update_fed {h h' : OtaStruct} {data chunk : List UInt8} (fed : h.Fed data)
    (short : chunk.length < 2 ^ 32) (updated : h.md5Update chunk = .ok h') :
    h'.Fed (data ++ chunk) := by
  obtain ⟨ctx, md5, holds⟩ := fed
  rw [OtaStruct.md5Update] at updated
  by_cases empty : chunk.length = 0
  · rw [if_pos empty] at updated
    cases updated
    rw [List.eq_nil_of_length_eq_zero empty, List.append_nil]
    exact ⟨ctx, md5, holds⟩
  · rw [if_neg empty, md5] at updated
    cases updated
    exact ⟨_, rfl, holds.update short⟩

/-- What `IOT_OTA_FetchYield` does between the fetch and the update of the digest changes
    neither the context nor the announcement. -/
theorem fetchDone_update {h h' : OtaStruct} {chunk : List UInt8} {env : FetchEnv}
    (done : h.fetchDone chunk env = .ok h') :
    ∃ h₁, (h₁.md5 = h.md5 ∧ h.Keeps h₁) ∧ h₁.md5Update chunk = .ok h' := by
  rw [OtaStruct.fetchDone] at done
  -- each of the changes in turn, with what they keep
  have reported : ∀ {h₁ : OtaStruct}, h₁.md5 = h.md5 ∧ h.Keeps h₁ →
      ∀ (wanted : Prop) [Decidable wanted] progress reportType report,
        (if wanted then (h₁.reportProgress progress reportType report).2 else h₁).md5 = h.md5 ∧
          h.Keeps (if wanted then (h₁.reportProgress progress reportType report).2 else h₁) := by
    intro h₁ kept wanted _ progress reportType report
    by_cases yes : wanted
    · obtain ⟨err, reports, same⟩ := reportProgress_eq h₁ progress reportType report
      rw [if_pos yes, same]
      exact ⟨kept.1, kept.2.trans ⟨rfl, rfl, rfl, rfl⟩⟩
    · rw [if_neg yes]
      exact kept
  have first := reported ⟨rfl, OtaStruct.Keeps.refl h⟩ (h.sizeFetched = 0) 0 .downloadBegin
    env.beginReport
  generalize (if h.sizeFetched = 0 then (h.reportProgress 0 .downloadBegin env.beginReport).2
    else h) = h₁ at done first
  have sized : { h₁ with
      sizeLastFetched := UInt32.ofNat chunk.length
      sizeFetched := h₁.sizeFetched + UInt32.ofNat chunk.length }.md5 = h.md5 ∧ h.Keeps { h₁ with
        sizeLastFetched := UInt32.ofNat chunk.length
        sizeFetched := h₁.sizeFetched + UInt32.ofNat chunk.length } :=
    ⟨first.1, first.2.trans ⟨rfl, rfl, rfl, rfl⟩⟩
  generalize { h₁ with
      sizeLastFetched := UInt32.ofNat chunk.length
      sizeFetched := h₁.sizeFetched + UInt32.ofNat chunk.length } = h₂ at done sized
  by_cases zero : h₂.sizeFile = 0
  · simp only [if_pos zero, bind, Except.bind] at done
    cases done
  simp only [if_neg zero, bind, Except.bind] at done
  have second := reported sized (h₂.sizeFetched * 100 / h₂.sizeFile = 100 ∨
    (h₂.sizeLastFetched > 0 ∧ env.expired = true))
    (Http.toInt32 (h₂.sizeFetched * 100 / h₂.sizeFile).toNat) .downloading env.progressReport
  generalize (if h₂.sizeFetched * 100 / h₂.sizeFile = 100 ∨
      (h₂.sizeLastFetched > 0 ∧ env.expired = true) then
    (h₂.reportProgress (Http.toInt32 (h₂.sizeFetched * 100 / h₂.sizeFile).toNat) .downloading
      env.progressReport).2 else h₂) = h₃ at done second
  refine ⟨_, ?_, done⟩
  split_ifs
  · exact ⟨second.1, second.2.trans ⟨rfl, rfl, rfl, rfl⟩⟩
  · exact second

/-- A fetch that does not fail feeds the context with what it puts into the buffer. -/
theorem fetchYield_fed {h h' : OtaStruct} {data chunk : List UInt8} {bufLen : UInt32}
    {env : FetchEnv} {ret : Int} (fed : h.Fed data)
    (yielded : h.fetchYield bufLen env = .ok (ret, chunk, h')) (good : ¬ ret < 0) :
    h'.Fed (data ++ chunk) ∧ h.Keeps h' := by
  rw [OtaStruct.fetchYield] at yielded
  by_cases empty : bufLen = 0
  · simp only [if_pos empty, pure, Except.pure] at yielded
    cases yielded
    exact absurd (show iotOtaErrInvalidParam < 0 by decide) good
  simp only [if_neg empty] at yielded
  by_cases idle : h.state ≠ .fetching
  · simp only [if_pos idle, pure, Except.pure] at yielded
    cases yielded
    exact absurd (show iotOtaErrInvalidState < 0 by decide) good
  simp only [if_neg idle, bind, Except.bind, pure, Except.pure] at yielded
  cases fetched : Http.qcloudOfcFetch h.chFetch env.fetched with
  | error crash =>
    rw [fetched] at yielded
    cases yielded
  | ok result =>
    obtain ⟨⟨code, bytes⟩, channel⟩ := result
    rw [fetched] at yielded
    simp only at yielded
    by_cases negative : code < 0
    · simp only [if_pos negative] at yielded
      cases yielded
      exact absurd negative good
    · simp only [if_neg negative] at yielded
      have short := qcloudOfcFetch_short fetched negative
      obtain ⟨ctx, md5, holds⟩ := fed
      cases done : { h with chFetch := channel }.fetchDone bytes env with
      | error crash =>
        rw [done] at yielded
        cases yielded
      | ok h₁ =>
        rw [done] at yielded
        cases yielded
        obtain ⟨h₂, ⟨same, keeps⟩, updated⟩ := fetchDone_update done
        have keeps' := keeps.trans (md5Update_keeps updated)
        exact ⟨md5Update_fed ⟨ctx, same.trans md5, holds⟩ short updated,
          keeps'.md5sum, keeps'.version, keeps'.productId, keeps'.deviceName⟩

/-- A call of `IOT_OTA_FetchYield`. -/
structure Yield where
  bufLen : UInt32
  env : FetchEnv
  deriving DecidableEq, Repr

/-- Calls of `IOT_OTA_FetchYield` none of which fails: the handle and what they fetched. -/
def OtaStruct.fetchAll : OtaStruct → List Yield → Option (OtaStruct × List UInt8)
  | h, [] => some (h, [])
  | h, yield :: yields =>
    match h.fetchYield yield.bufLen yield.env with
    | .error _ => none
    | .ok (ret, chunk, h) =>
      if ret < 0 then none
      else (h.fetchAll yields).map fun (h, data) => (h, chunk ++ data)

theorem fetchAll_fed {h h' : OtaStruct} {data fetched : List UInt8} {yields : List Yield}
    (fed : h.Fed data) (run : h.fetchAll yields = some (h', fetched)) :
    h'.Fed (data ++ fetched) ∧ h.Keeps h' := by
  induction yields generalizing h data fetched with
  | nil =>
    cases run
    rw [List.append_nil]
    exact ⟨fed, OtaStruct.Keeps.refl _⟩
  | cons yield yields ih =>
    rw [OtaStruct.fetchAll] at run
    cases yielded : h.fetchYield yield.bufLen yield.env with
    | error crash =>
      rw [yielded] at run
      cases run
    | ok result =>
      obtain ⟨ret, chunk, h₁⟩ := result
      rw [yielded] at run
      by_cases negative : ret < 0
      · simp only [if_pos negative] at run
        cases run
      · simp only [if_neg negative] at run
        obtain ⟨⟨h₂, rest⟩, later, same⟩ := Option.map_eq_some_iff.mp run
        cases same
        obtain ⟨fed', keeps⟩ := fetchYield_fed fed yielded negative
        obtain ⟨fed'', keeps'⟩ := ih fed' later
        rw [List.append_assoc] at fed''
        exact ⟨fed'', keeps.trans keeps'⟩

/-! ## Checking -/

/-- The digest of the data in lower-case hexadecimal. -/
def md5Text (data : List UInt8) : List UInt8 := hexString (Md5.md5 data)

/-- A call of `IOT_OTA_Ioctl` with `IOT_OTAG_CHECK_FIRMWARE`. -/
structure Check where
  bufLen : Nat
  aligned : Bool
  report : ReportEnv
  deriving DecidableEq, Repr

/-- The buffer is a word. -/
def Check.WellFormed (check : Check) : Prop := check.bufLen = 4 ∧ check.aligned = true

instance (check : Check) : Decidable check.WellFormed := inferInstanceAs (Decidable (_ ∧ _))

/-- What calls of `IOT_OTA_Ioctl` one after another answer. -/
def OtaStruct.checkAll : OtaStruct → List Check → Except Crash (List (Int × Option Stored))
  | _, [] => return []
  | h, check :: checks => do
    let (rc, stored, h) ← h.ioctl .checkFirmware check.bufLen check.aligned check.report
    let answers ← h.checkAll checks
    return (rc, stored) :: answers

/-- How many checks compare the digest of the data, or of the data padded for the checks before,
    with that of the handle: after a mismatch whose report is sent no more do. -/
def OtaStruct.answered (h : OtaStruct) : List UInt8 → List Check → Nat
  | _, [] => 0
  | data, check :: checks =>
    if ¬ check.WellFormed then h.answered data checks
    else if h.md5sum.text ≠ md5Text data ∧ h.Reportable check.report then 1
    else h.answered (padded data) checks + 1

theorem OtaStruct.Keeps.answered {h h' : OtaStruct} (keeps : h.Keeps h') (data : List UInt8)
    (checks : List Check) : h'.answered data checks = h.answered data checks := by
  induction checks generalizing data with
  | nil => rfl
  | cons check checks ih =>
    simp only [OtaStruct.answered, keeps.md5sum, keeps.reportable, ih]

/-- Every answer without an error tells by the word 1 that the claim is true. -/
def Told (answers : List (Int × Option Stored)) (claim : Prop) : Prop :=
  ∀ answer ∈ answers, answer.1 = 0 → (answer.2 = some (.word 1) ↔ claim)

theorem told_cons {answer : Int × Option Stored} {answers : List (Int × Option Stored)}
    {claim : Prop} : Told (answer :: answers) claim ↔
      (answer.1 = 0 → (answer.2 = some (.word 1) ↔ claim)) ∧ Told answers claim :=
  List.forall_mem_cons

/-- Without a download the checks are refused. -/
theorem checkAll_idle {h : OtaStruct} (idle : h.state.started = false) (checks : List Check) :
    ∃ answers, h.checkAll checks = .ok answers ∧ ∀ claim, Told answers claim := by
  induction checks generalizing h with
  | nil =>
    refine ⟨[], rfl, fun claim answer member => ?_⟩
    cases member
  | cons check checks ih =>
    have refused : ∃ rc h', rc ≠ 0 ∧ h'.state.started = false ∧
        h.ioctl .checkFirmware check.bufLen check.aligned check.report = .ok (rc, none, h') := by
      rw [OtaStruct.ioctl]
      by_cases empty : check.bufLen = 0
      · rw [if_pos empty]
        exact ⟨iotOtaErrInvalidParam, h, by decide, idle, rfl⟩
      · rw [if_neg empty, if_pos (by rw [idle]; decide)]
        exact ⟨iotOtaErrInvalidState, { h with err := iotOtaErrInvalidState }, by decide, idle, rfl⟩
    obtain ⟨rc, h', nonzero, idle', answer⟩ := refused
    obtain ⟨answers, run, told⟩ := ih idle'
    refine ⟨(rc, none) :: answers, ?_, fun claim => told_cons.mpr ⟨?_, told claim⟩⟩
    · simp only [OtaStruct.checkAll, answer, run, bind, Except.bind, pure, Except.pure]
    · intro zero
      exact absurd zero nonzero

/-- The first comparison and those behind it. -/
theorem answered_succ {text data : List UInt8} {n : Nat} {stored claim : Prop}
    (first : stored ↔ text = md5Text data) :
    ((0 : Int) = 0 → (stored ↔ claim)) ∧
        (∀ k < n, (text = md5Text (paddedTimes k (padded data)) ↔ claim)) ↔
      ∀ k < n + 1, (text = md5Text (paddedTimes k data) ↔ claim) := by
  rw [Nat.forall_lt_succ_left, first]
  exact and_congr ⟨fun holds => holds rfl, fun holds _ => holds⟩ Iff.rfl

/-- Every check that compares tells whether the field is the digest of the data, padded as often
    as there were checks before. -/
theorem checkAll_iff {h : OtaStruct} {data : List UInt8} (fetched : h.state = .fetched)
    (fed : h.Fed data) (checks : List Check) (claim : Prop) :
    ∃ answers, h.checkAll checks = .ok answers ∧ (Told answers claim ↔
      ∀ k < h.answered data checks, (h.md5sum.text = md5Text (paddedTimes k data) ↔ claim)) := by
  induction checks generalizing h data with
  | nil =>
    refine ⟨[], rfl, iff_of_true ?_ ?_⟩
    · intro answer member
      cases member
    · intro k below
      exact absurd below (Nat.not_lt_zero k)
  | cons check checks ih =>
    have started : ¬ ¬ h.state.started := by
      rw [fetched]
      decide
    by_cases formed : check.WellFormed
    · obtain ⟨four, aligned⟩ := formed
      obtain ⟨ctx, md5, holds⟩ := fed
      obtain ⟨digest, refed⟩ := holds.finish
      have answer : h.ioctl .checkFirmware check.bufLen check.aligned check.report =
          .ok (h.checkFirmware ctx check.report) := by
        rw [OtaStruct.ioctl, four, aligned, if_neg (by decide), if_neg started]
        simp only [ne_eq, not_true, or_self, if_false, fetched, md5]
        rfl
      simp only [OtaStruct.checkAll, OtaStruct.answered, answer, bind, Except.bind, pure,
        Except.pure]
      rw [if_neg (not_not.mpr ⟨four, aligned⟩)]
      by_cases matches_ : h.md5sum.text = md5Text data
      · -- the digest matches: the context has been finished
        have stored : h.checkFirmware ctx check.report =
            (0, some (.word 1), { h with md5 := some (Md5.utilsMd5Finish ctx).1 }) := by
          unfold OtaStruct.checkFirmware
          simp only [digest]
          exact if_pos matches_
        have kept : h.Keeps { h with md5 := some (Md5.utilsMd5Finish ctx).1 } := ⟨rfl, rfl, rfl, rfl⟩
        obtain ⟨answers, run, told⟩ := ih
          (h := { h with md5 := some (Md5.utilsMd5Finish ctx).1 }) fetched ⟨_, rfl, refed⟩
        rw [kept.answered] at told
        simp only [stored, run]
        refine ⟨_, rfl, ?_⟩
        rw [told_cons, told, if_neg (fun both => both.1 matches_)]
        exact answered_succ (iff_of_true rfl matches_)
      · have unmatched : h.checkFirmware ctx check.report = (0, some (.word 0),
            ({ h with md5 := some (Md5.utilsMd5Finish ctx).1 }.reportUpgradeResult h.version
              .md5NotMatch check.report).2) := by
          unfold OtaStruct.checkFirmware
          simp only [digest]
          exact if_neg matches_
        have inited : { h with md5 := some (Md5.utilsMd5Finish ctx).1 }.state ≠ .uninited := by
          rw [fetched]
          decide
        have zero : some (Stored.word 0) ≠ some (.word 1) := by decide
        simp only [unmatched]
        rcases reportUpgradeResult_mismatch _ inited h.version check.report with
          ⟨named, allocated, fits, sent, reports, reset⟩ | ⟨unsent, err, reports, kept⟩
        · -- the report resets the handle
          obtain ⟨answers, run, told⟩ := checkAll_idle (h := { h with
            md5 := some (Md5.utilsMd5Finish ctx).1, reports, state := .inited, err := 0,
            purl := none, version := none }) rfl checks
          simp only [reset, run]
          refine ⟨_, rfl, ?_⟩
          rw [told_cons, if_pos ⟨matches_, named, allocated, fits, sent⟩]
          refine Iff.trans (and_congr_right fun _ => iff_of_true (told claim) ?_)
            (answered_succ (n := 0) (iff_of_false zero matches_))
          intro k below
          exact absurd below (Nat.not_lt_zero k)
        · obtain ⟨answers, run, told⟩ := ih (h := { h with
            md5 := some (Md5.utilsMd5Finish ctx).1, err, reports }) fetched ⟨_, rfl, refed⟩
          have keeps : h.Keeps { h with
            md5 := some (Md5.utilsMd5Finish ctx).1, err, reports } := ⟨rfl, rfl, rfl, rfl⟩
          rw [keeps.answered] at told
          simp only [kept, run]
          refine ⟨_, rfl, ?_⟩
          rw [told_cons, told, if_neg (fun both => unsent both.2)]
          exact answered_succ (iff_of_false zero matches_)
    · -- nothing is looked at
      have refused : ∃ rc err, rc ≠ 0 ∧
          h.ioctl .checkFirmware check.bufLen check.aligned check.report =
            .ok (rc, none, { h with err }) := by
        rw [OtaStruct.ioctl]
        by_cases empty : check.bufLen = 0
        · rw [if_pos empty]
          exact ⟨iotOtaErrInvalidParam, h.err, by decide, rfl⟩
        · have wrong : check.bufLen ≠ 4 ∨ ¬ check.aligned := by
            by_contra right
            rw [not_or, not_not, not_not] at right
            exact formed right
          rw [if_neg empty, if_neg started]
          simp only [if_pos wrong]
          exact ⟨qcloudErrFailure, iotOtaErrInvalidParam, by decide, rfl⟩
      obtain ⟨rc, err, nonzero, answer⟩ := refused
      obtain ⟨ctx, md5, holds⟩ := fed
      obtain ⟨answers, run, told⟩ := ih (h := { h with err }) fetched ⟨ctx, md5, holds⟩
      have keeps : h.Keeps { h with err } := ⟨rfl, rfl, rfl, rfl⟩
      rw [keeps.answered] at told
      simp only [OtaStruct.checkAll, OtaStruct.answered, answer, run, bind, Except.bind, pure,
        Except.pure]
      refine ⟨_, rfl, ?_⟩
      rw [told_cons, told, if_pos formed]
      exact and_iff_right fun zero => absurd zero nonzero

/-! ## Calls behind an announcement -/

theorem succeeded {ε α : Type} {result : Except ε α} {a : α} (found : result.toOption = some a) :
    result = .ok a := by
  cases result with
  | error fault => cases found
  | ok a' =>
    cases found
    rfl

theorem reportUpgradeResult_md5sum (h : OtaStruct) (version : Option CStr) (reportType : ReportType)
    (env : ReportEnv) : (h.reportUpgradeResult version reportType env).2.md5sum = h.md5sum := by
  unfold OtaStruct.reportUpgradeResult
  cases version with
  | none => rfl
  | some version =>
    by_cases uninited : h.state = .uninited
    · simp only [if_pos uninited]
    simp only [if_neg uninited]
    by_cases bad : version.length < 1 ∨ 32 < version.length
    · simp only [if_pos bad]
    simp only [if_neg bad]
    by_cases full : ¬ env.allocated
    · simp only [if_pos full]
    simp only [if_neg full]
    cases genReportMsg msgReportLen (some version) 1 reportType with
    | error ret => rfl
    | ok message =>
      obtain ⟨reports, published⟩ := otamqttPublish_eq h .qos1 message env.published
      simp only [published]
      split_ifs <;> rfl

theorem fetchYield_md5sum {h h' : OtaStruct} {chunk : List UInt8} {bufLen : UInt32}
    {env : FetchEnv} {ret : Int} (yielded : h.fetchYield bufLen env = .ok (ret, chunk, h')) :
    h'.md5sum = h.md5sum := by
  rw [OtaStruct.fetchYield] at yielded
  by_cases empty : bufLen = 0
  · simp only [if_pos empty, pure, Except.pure] at yielded
    cases yielded
    rfl
  simp only [if_neg empty] at yielded
  by_cases idle : h.state ≠ .fetching
  · simp only [if_pos idle, pure, Except.pure] at yielded
    cases yielded
    rfl
  simp only [if_neg idle, bind, Except.bind, pure, Except.pure] at yielded
  cases fetched : Http.qcloudOfcFetch h.chFetch env.fetched with
  | error crash =>
    rw [fetched] at yielded
    cases yielded
  | ok result =>
    obtain ⟨⟨code, bytes⟩, channel⟩ := result
    rw [fetched] at yielded
    simp only at yielded
    by_cases negative : code < 0
    · simp only [if_pos negative] at yielded
      cases yielded
      rw [OtaStruct.fetchFailed]
      cases failureReport ret with
      | none => rfl
      | some reportType => exact reportUpgradeResult_md5sum _ _ _ _
    · simp only [if_neg negative] at yielded
      cases done : { h with chFetch := channel }.fetchDone bytes env with
      | error crash =>
        rw [done] at yielded
        cases yielded
      | ok h₁ =>
        rw [done] at yielded
        cases yielded
        obtain ⟨h₂, ⟨_, keeps⟩, updated⟩ := fetchDone_update done
        exact (keeps.trans (md5Update_keeps updated)).md5sum

theorem startDownload_md5sum {h h' : OtaStruct} {offset size : UInt32} {env : StartEnv} {ret : Int}
    (started : h.startDownload offset size env = .ok (ret, h')) : h'.md5sum = h.md5sum := by
  simp only [OtaStruct.startDownload, bind, Except.bind, pure, Except.pure] at started
  have reset : (if offset ≠ 0 then { h with sizeFetched := offset } else
      { h with sizeFetched := offset,
               md5 := if env.md5Allocated then some Md5.utilsMd5Starts else none }).md5sum =
        h.md5sum := by
    split_ifs <;> rfl
  generalize (if offset ≠ 0 then { h with sizeFetched := offset } else
      { h with sizeFetched := offset,
               md5 := if env.md5Allocated then some Md5.utilsMd5Starts else none }) = h₁
    at started reset
  split_ifs at started
  · cases started
    exact reset
  · cases released : Http.qcloudOfcDeinit h₁.chFetch with
    | error crash =>
      rw [released] at started
      cases started
    | ok _ =>
      rw [released] at started
      simp only at started
      cases opened : Http.ofcInit h₁.purl offset.toNat size.toNat env.fetchAllocated with
      | none =>
        rw [opened] at started
        cases started
        exact reset
      | some channel =>
        rw [opened] at started
        simp only at started
        cases connected : Http.qcloudOfcConnect channel env.connect with
        | error crash =>
          rw [connected] at started
          cases started
        | ok result =>
          rw [connected] at started
          simp only at started
          split_ifs at started
          · cases started
            exact reset
          · cases started
            exact reset

theorem ioctl_md5sum {h h' : OtaStruct} {type : CmdType} {bufLen : Nat} {aligned : Bool}
    {report : ReportEnv} {rc : Int} {stored : Option Stored}
    (answered : h.ioctl type bufLen aligned report = .ok (rc, stored, h')) :
    h'.md5sum = h.md5sum := by
  unfold OtaStruct.ioctl at answered
  by_cases empty : bufLen = 0
  · simp only [if_pos empty, pure, Except.pure] at answered
    cases answered
    rfl
  simp only [if_neg empty] at answered
  by_cases idle : ¬ h.state.started
  · simp only [if_pos idle, pure, Except.pure] at answered
    cases answered
    rfl
  simp only [if_neg idle, pure, Except.pure] at answered
  by_cases wrong : bufLen ≠ 4 ∨ ¬ aligned
  · simp only [if_pos wrong] at answered
    cases type with
    | version => cases version : h.version <;> simp only [version] at answered <;> cases answered; rfl
    | fetchedSize | fileSize | md5sum | checkFirmware =>
      cases answered
      rfl
  simp only [if_neg wrong] at answered
  cases type with
  | version => cases version : h.version <;> simp only [version] at answered <;> cases answered; rfl
  | fetchedSize | fileSize | md5sum =>
    cases answered
    rfl
  | checkFirmware =>
    simp only at answered
    by_cases unfinished : h.state ≠ .fetched
    · simp only [if_pos unfinished] at answered
      cases answered
      rfl
    simp only [if_neg unfinished] at answered
    cases md5 : h.md5 with
    | none =>
      simp only [md5] at answered
      cases answered
    | some ctx =>
      simp only [md5] at answered
      have kept : (h.checkFirmware ctx report).2.2.md5sum = h.md5sum := by
        unfold OtaStruct.checkFirmware
        simp only
        split_ifs
        · rfl
        · exact reportUpgradeResult_md5sum _ _ _ _
      rw [Except.ok.inj answered] at kept
      exact kept

theorem reportVersion_md5sum (h : OtaStruct) (version : CStr) (env : ReportEnv) :
    (h.reportVersion version env).2.md5sum = h.md5sum := by
  rw [OtaStruct.reportVersion]
  by_cases bad : version.length < 1 ∨ 32 < version.length
  · rw [if_pos bad]
  rw [if_neg bad]
  by_cases uninited : h.state = .uninited
  · rw [if_pos uninited]
  rw [if_neg uninited]
  by_cases full : ¬ env.allocated
  · simp only [if_pos full]
    rfl
  simp only [if_neg full]
  obtain ⟨reports, published⟩ := otamqttPublish_eq h.resetStatus .qos1
    (genInfoMsg msgInformLen version) env.published
  simp only [published]
  split_ifs <;> rfl

/-- Once a firmware has been announced, no call and no message changes the digest. -/
theorem after_md5sum {h h' : OtaStruct} {call : Call} (started : h.state.started = true)
    (done : h.after call = some h') : h'.md5sum = h.md5sum := by
  cases call with
  | message memory msgLen env =>
    have ignored : h.otaCallback memory msgLen env = .ok h := by
      rw [OtaStruct.otaCallback, if_pos started]
      rfl
    rw [OtaStruct.after, ignored] at done
    cases done
    rfl
  | startDownload offset size env =>
    obtain ⟨⟨ret, h₁⟩, ok, same⟩ := Option.map_eq_some_iff.mp done
    cases same
    exact startDownload_md5sum (succeeded ok)
  | fetchYield bufLen env =>
    obtain ⟨⟨ret, chunk, h₁⟩, ok, same⟩ := Option.map_eq_some_iff.mp done
    cases same
    exact fetchYield_md5sum (succeeded ok)
  | ioctl type bufLen aligned report =>
    obtain ⟨⟨rc, stored, h₁⟩, ok, same⟩ := Option.map_eq_some_iff.mp done
    cases same
    exact ioctl_md5sum (succeeded ok)
  | updateClientMd5 buff => exact (md5Update_keeps (succeeded done)).md5sum
  | resetClientMd5 allocated =>
    cases done
    rfl
  | reportVersion version env =>
    cases done
    exact reportVersion_md5sum h version env
  | reportUpgradeResult version reportType env =>
    cases done
    exact reportUpgradeResult_md5sum h version reportType env

/-- Calls in each of which a download is under way, as long as they leave the state
    `IOT_OTAS_FETCHING`. -/
def OtaStruct.afterAll : OtaStruct → List Call → Option OtaStruct
  | h, [] => some h
  | h, call :: calls =>
    if h.state = .fetching then (h.after call).bind fun h => h.afterAll calls else none

theorem afterAll_md5sum {h h' : OtaStruct} {calls : List Call}
    (done : h.afterAll calls = some h') : h'.md5sum = h.md5sum := by
  induction calls generalizing h with
  | nil =>
    cases done
    rfl
  | cons call calls ih =>
    rw [OtaStruct.afterAll] at done
    split_ifs at done with fetching
    obtain ⟨h₁, first, later⟩ := Option.bind_eq_some_iff.mp done
    have started : h.state.started = true := by
      rw [fetching]
      rfl
    exact (ih later).trans (after_md5sum started first)

/-! ## Downloads -/

/-- A message that announces a firmware, calls before the download, the download from the start,
    and the checks behind it. -/
structure Download where
  before : OtaStruct
  memory : List UInt8
  msgLen : Nat
  callback : CallbackEnv
  calls : List Call
  size : UInt32
  start : StartEnv
  yields : List Yield
  checks : List Check
  deriving DecidableEq, Repr

/-- A download without errors up to the state `IOT_OTAS_FETCHED`: the digest announced, the bytes
    fetched, and the handle then. -/
def Download.run (d : Download) : Option (List UInt8 × List UInt8 × OtaStruct) := do
  let announced ← announcedMd5 d.memory
  let accepted ← (d.before.otaCallback d.memory d.msgLen d.callback).toOption
  guard (d.before.state.started = false ∧ accepted.state = .fetching)
  let ready ← accepted.afterAll d.calls
  let (ret, started) ← (ready.startDownload 0 d.size d.start).toOption
  guard (ret = qcloudRetSuccess)
  let (h, data) ← started.fetchAll d.yields
  guard (h.state = .fetched)
  return (announced, data, h)

/-- What the field `md5sum` holds behind the message: the digest announced, and what an earlier
    one has left behind it. -/
def Download.field (d : Download) (announced : List UInt8) : List UInt8 :=
  announced ++ cString (d.before.md5sum.bytes.drop announced.length)

theorem guard_passed {p : Prop} [Decidable p] {u : Unit} (passed : (guard p : Option Unit) = some u) :
    p := by
  by_contra fails
  rw [guard, if_neg fails] at passed
  cases passed

theorem announcedMd5_noNul {memory announced : List UInt8}
    (announces : announcedMd5 memory = some announced) : 0 ∉ announced := by
  rw [announcedMd5] at announces
  cases found : liteJsonValueOf md5Field (textOf memory) true with
  | error fault =>
    rw [found] at announces
    cases announces
  | ok value =>
    rw [found] at announces
    obtain ⟨value, _, same⟩ := Option.map_eq_some_iff.mp announces
    rw [← same]
    exact (textOf value).noNul

theorem run_fetched {d : Download} {announced data : List UInt8} {h : OtaStruct}
    (run : d.run = some (announced, data, h)) :
    h.state = .fetched ∧ h.Fed data ∧ h.md5sum.text = d.field announced := by
  simp only [Download.run, bind, Option.bind_eq_some_iff] at run
  obtain ⟨announced', announces, accepted, delivered, _, looked, ready, called, ⟨ret, started⟩,
    begun, _, success, ⟨h', data'⟩, fetched, _, done, same⟩ := run
  cases same
  obtain ⟨idle, fetching⟩ := guard_passed looked
  cases guard_passed success
  have stored := otaCallback_announced (succeeded delivered) idle fetching
  obtain ⟨fed, keeps⟩ := startDownload_fed (succeeded begun)
  obtain ⟨fed', keeps'⟩ := fetchAll_fed fed fetched
  refine ⟨guard_passed done, fed', ?_⟩
  obtain ⟨value, announces', short, md5sum⟩ := stored
  cases announces.symm.trans announces'
  rw [(keeps.trans keeps').md5sum, afterAll_md5sum called, md5sum, Md5Sum.text, Md5Sum.store,
      Download.field]
  exact cString_append (announcedMd5_noNul announces) _

/-- After a download without errors every check that is answered tells whether the announced
    digest is that of the download, exactly if each of them compares equal texts when these are
    equal: the field holds the announced digest, and the download padded for the checks before
    has the same digest. -/
theorem firmwareCheck_iff {d : Download} {announced data : List UInt8} {h : OtaStruct}
    (run : d.run = some (announced, data, h)) :
    ∃ answers, h.checkAll d.checks = .ok answers ∧
      (Told answers (announced = md5Text data) ↔
        ∀ k < h.answered data d.checks,
          (d.field announced = md5Text (paddedTimes k data) ↔ announced = md5Text data)) := by
  obtain ⟨fetched, fed, field⟩ := run_fetched run
  rw [← field]
  exact checkAll_iff fetched fed d.checks (announced = md5Text data)

theorem noNul_utf8_p : 0 ∉ utf8 "p" := by with_unfolding_all decide

theorem noNul_utf8_d : 0 ∉ utf8 "d" := by with_unfolding_all decide

/-- A client that has not been told of a firmware. -/
def idleClient : OtaStruct where
  productId := ⟨utf8 "p", noNul_utf8_p⟩
  deviceName := ⟨utf8 "d", noNul_utf8_d⟩
  state := .inited
  sizeLastFetched := 0
  sizeFetched := 0
  sizeFile := 0
  purl := none
  version := none
  md5sum := .cleared
  md5 := some Md5.utilsMd5Starts
  chFetch := none
  err := 0
  reports := []

theorem length_byteA : [(65 : UInt8)].length < 2 ^ 31 := by decide

/-- A firmware of one byte, announced with its digest and fetched by one call. -/
def byteDownload (checks : List Check) : Download where
  before := idleClient
  memory :=
    utf8 "\x7b\"type\":\"update_firmware\",\"version\":\"2\",\"url\":\"http://h/f\"," ++
      utf8 "\"md5sum\":\"7fc56270e7a70fa81a5935b72eacbe29\",\"file_size\":\"1\"\x7d" ++ [0]
  msgLen := 119
  callback :=
    let granted : LookupEnv := ⟨true, true, true⟩
    ⟨granted, granted, granted, granted, granted, granted, granted⟩
  calls := []
  size := 1
  start := ⟨true, true, ⟨0, true, 0⟩⟩
  yields := [⟨64, ⟨.bytes [65] true length_byteA, false, ⟨true, 0⟩, ⟨true, 0⟩, ⟨true, 0⟩⟩⟩]
  checks

/-- A check with a word for the answer. -/
def wordCheck : Check := ⟨4, true, ⟨true, 0⟩⟩

theorem firmwareCheck_iff_byte :
    ∃ announced data h answers, (byteDownload [wordCheck]).run = some (announced, data, h) ∧
      h.checkAll [wordCheck] = .ok answers ∧
      (Told answers (announced = md5Text data) ↔ ∀ k < h.answered data [wordCheck],
        ((byteDownload [wordCheck]).field announced = md5Text (paddedTimes k data) ↔
          announced = md5Text data)) := by
  have runs : (byteDownload [wordCheck]).run.isSome = true := by decide +kernel
  obtain ⟨⟨announced, data, h⟩, run⟩ := Option.isSome_iff_exists.mp runs
  obtain ⟨answers, checked, told⟩ := firmwareCheck_iff run
  exact ⟨announced, data, h, answers, run, checked, told⟩

/-- The second check of a firmware that is right stores 0. -/
theorem firmwareCheck_twice :
    ∃ announced data h answers,
      (byteDownload [wordCheck, wordCheck]).run = some (announced, data, h) ∧
        h.checkAll [wordCheck, wordCheck] = .ok answers ∧
          ¬ Told answers (announced = md5Text data) := by
  have runs : ((byteDownload [wordCheck, wordCheck]).run.map fun (announced, data, h) =>
      (decide (announced = md5Text data), (h.checkAll [wordCheck, wordCheck]).toOption)) =
        some (true, some [(0, some (.word 1)), (0, some (.word 0))]) := by
    decide +kernel
  obtain ⟨⟨announced, data, h⟩, run, same⟩ := Option.map_eq_some_iff.mp runs
  obtain ⟨right, answers⟩ := Prod.mk.inj same
  refine ⟨announced, data, h, _, run, succeeded answers, fun told => ?_⟩
  have second := told (0, some (.word 0)) (by simp) rfl
  exact absurd (second.mpr (of_decide_eq_true right)) (by decide)

end QcloudIot.Ota
