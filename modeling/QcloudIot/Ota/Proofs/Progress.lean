import QcloudIot.Json.Proofs.Decimal
import QcloudIot.Misc.Progress
import QcloudIot.Ota.Proofs.Firmware

/-!
# The progress of a download

`IOT_OTA_FetchYield` computes the percentage in 32 bits, and divides by the announced size without
a look at it.
-/

namespace QcloudIot.Ota

open Mqtt (CStr)
open Progress (Transfer Reported percent told wordPercent)

/-! ## Reports of percents -/

/-- A report that tells a percentage. -/
def Report.Tells (report : Report) (version : Option CStr) (p : Nat) : Prop :=
  genReportMsg msgReportLen version p .downloading = .ok report.message ∨
    (p = 0 ∧ genReportMsg msgReportLen version 0 .downloadBegin = .ok report.message)

/-- The percents reported from one state to another. -/
def OtaStruct.Shows (h h' : OtaStruct) (percents : List Nat) : Prop :=
  h'.version = h.version ∧ ∃ sent, h'.reports = h.reports ++ sent ∧
    List.Forall₂ (fun p report => report.Tells h.version p) percents sent

theorem OtaStruct.Shows.refl (h : OtaStruct) : h.Shows h [] :=
  ⟨rfl, [], (List.append_nil _).symm, .nil⟩

theorem OtaStruct.Shows.trans {h h' h'' : OtaStruct} {now later : List Nat}
    (first : h.Shows h' now) (second : h'.Shows h'' later) : h.Shows h'' (now ++ later) := by
  obtain ⟨version, sent, grown, tells⟩ := first
  obtain ⟨version', sent', grown', tells'⟩ := second
  rw [version] at tells'
  refine ⟨version'.trans version, sent ++ sent', ?_, List.rel_append tells tells'⟩
  rw [grown', grown, List.append_assoc]

/-- A download by `IOT_OTA_FetchYield`, whose blocks are what the calls return. -/
def fetching : Transfer OtaStruct where
  size h := h.sizeFile.toNat
  bytes h := h.sizeFetched.toNat
  yields h block h' := ∃ bufLen env ret chunk,
    h.fetchYield bufLen env = .ok (ret, chunk, h') ∧ 0 ≤ ret ∧ chunk.length = block
  divides h block := ∃ bufLen env chunk stillOpen short,
    env.fetched = .bytes chunk stillOpen short ∧ chunk.length = block ∧
      h.fetchYield bufLen env = .error .divisionByZero
  reports := OtaStruct.Shows

/-! ## One call -/

/-- A report changes no number of the download, and tells its percentage if it is sent. -/
theorem reportProgress_shows {h : OtaStruct} {progress : Int} {reportType : ReportType} {p : Nat}
    (tells : ∀ message, genReportMsg msgReportLen h.version progress reportType = .ok message →
      Report.Tells ⟨.qos0, message⟩ h.version p) (env : ReportEnv) :
    ∃ now, now.Sublist [p] ∧ h.Shows (h.reportProgress progress reportType env).2 now := by
  have silent : ∀ err, h.Shows { h with err } [] := fun err =>
    ⟨rfl, [], (List.append_nil _).symm, .nil⟩
  rw [OtaStruct.reportProgress]
  by_cases uninited : h.state = .uninited
  · rw [if_pos uninited]
    exact ⟨[], List.nil_sublist _, silent _⟩
  rw [if_neg uninited]
  by_cases invalid : ¬ otaCheckProgress progress
  · rw [if_pos invalid]
    exact ⟨[], List.nil_sublist _, silent _⟩
  rw [if_neg invalid]
  by_cases full : ¬ env.allocated
  · rw [if_pos full]
    exact ⟨[], List.nil_sublist _, silent _⟩
  rw [if_neg full]
  cases generated : genReportMsg msgReportLen h.version progress reportType with
  | error ret => exact ⟨[], List.nil_sublist _, silent _⟩
  | ok message =>
    dsimp only
    rw [OtaStruct.otamqttPublish]
    cases h.reportTopic with
    | error _ => exact ⟨[], List.nil_sublist _, silent _⟩
    | ok topic =>
      refine ⟨[p], List.Sublist.refl _, ?_⟩
      have sent : ∀ err, h.Shows { h with err, reports := h.reports ++ [⟨.qos0, message⟩] } [p] :=
        fun err => ⟨rfl, _, rfl, .cons (tells message generated) .nil⟩
      dsimp only
      split_ifs <;> exact sent _

/-- The report of the begin. -/
theorem reportBegin_shows (h : OtaStruct) (env : ReportEnv) :
    ∃ now, now.Sublist [0] ∧ h.Shows (h.reportProgress 0 .downloadBegin env).2 now :=
  reportProgress_shows (fun _ generated => .inr ⟨rfl, generated⟩) env

theorem md5Update_shows {h h' : OtaStruct} {chunk : List UInt8}
    (updated : h.md5Update chunk = .ok h') :
    ∃ md5, h' = { h with md5 } := by
  rw [OtaStruct.md5Update] at updated
  by_cases empty : chunk.length = 0
  · rw [if_pos empty] at updated
    cases updated
    exact ⟨h.md5, rfl⟩
  · rw [if_neg empty] at updated
    cases isMd5 : h.md5 with
    | none =>
      rw [isMd5] at updated
      cases updated
    | some md5 =>
      rw [isMd5] at updated
      cases updated
      exact ⟨_, rfl⟩

/-- The part of `IOT_OTA_FetchYield` between the fetch and the digest, for a size that is not zero
    and a block that is not beyond it. -/
theorem fetchDone_shows {h h' : OtaStruct} {chunk : List UInt8} {env : FetchEnv}
    (done : h.fetchDone chunk env = .ok h')
    (inside : h.sizeFetched.toNat + chunk.length ≤ h.sizeFile.toNat) :
    (∃ now, h.Shows h' now ∧ now.Sublist (told h.sizeFetched.toNat
      (wordPercent 32 h.sizeFile.toNat (h.sizeFetched.toNat + chunk.length)))) ∧
    h'.sizeFile = h.sizeFile ∧ h'.sizeFetched.toNat = h.sizeFetched.toNat + chunk.length := by
  rw [OtaStruct.fetchDone] at done
  -- the report of the begin
  obtain ⟨begun, isBegun, h₁, isFirst, begins, sizes⟩ : ∃ begun : List Nat,
      begun.Sublist (if h.sizeFetched.toNat = 0 then [0] else []) ∧ ∃ h₁,
        (if h.sizeFetched = 0 then (h.reportProgress 0 .downloadBegin env.beginReport).2 else h) =
          h₁ ∧ h.Shows h₁ begun ∧ h₁.sizeFile = h.sizeFile ∧ h₁.sizeFetched = h.sizeFetched := by
    by_cases start : h.sizeFetched = 0
    · obtain ⟨now, isNow, shows⟩ := reportBegin_shows h env.beginReport
      obtain ⟨err, reports, same⟩ := reportProgress_eq h 0 .downloadBegin env.beginReport
      have isZero : h.sizeFetched.toNat = 0 := congrArg UInt32.toNat start
      rw [if_pos start, if_pos isZero]
      exact ⟨now, isNow, _, rfl, shows, by rw [same], by rw [same]⟩
    · rw [if_neg start]
      exact ⟨[], List.nil_sublist _, h, rfl, .refl h, rfl, rfl⟩
  rw [isFirst] at done
  -- the sizes
  have sized : h₁.Shows { h₁ with
      sizeLastFetched := UInt32.ofNat chunk.length
      sizeFetched := h₁.sizeFetched + UInt32.ofNat chunk.length } [] ∧ h₁.sizeFile = h.sizeFile ∧
        (h₁.sizeFetched + UInt32.ofNat chunk.length).toNat =
          h.sizeFetched.toNat + chunk.length := by
    refine ⟨⟨rfl, [], (List.append_nil _).symm, .nil⟩, sizes.1, ?_⟩
    have below := h.sizeFile.toNat_lt
    rw [sizes.2, UInt32.toNat_add, UInt32.toNat_ofNat']
    omega
  generalize isSecond : { h₁ with
      sizeLastFetched := UInt32.ofNat chunk.length
      sizeFetched := h₁.sizeFetched + UInt32.ofNat chunk.length } = h₂ at done sized
  have fetched : h₂.sizeFetched.toNat = h.sizeFetched.toNat + chunk.length := by
    rw [← isSecond]
    exact sized.2.2
  have file : h₂.sizeFile = h.sizeFile := by
    rw [← isSecond]
    exact sized.2.1
  have counted := sized.1
  by_cases zero : h₂.sizeFile = 0
  · simp only [if_pos zero, bind, Except.bind] at done
    cases done
  simp only [if_neg zero, bind, Except.bind] at done
  -- the report of the percentage
  have isPercent : (h₂.sizeFetched * 100 / h₂.sizeFile).toNat =
      wordPercent 32 h.sizeFile.toNat (h.sizeFetched.toNat + chunk.length) := by
    rw [UInt32.toNat_div, UInt32.toNat_mul, file, fetched]
    rfl
  have small := Progress.wordPercent_le 32 inside
  have isInt : Http.toInt32 (h₂.sizeFetched * 100 / h₂.sizeFile).toNat =
      wordPercent 32 h.sizeFile.toNat (h.sizeFetched.toNat + chunk.length) := by
    rw [isPercent, Http.toInt32, if_pos (by omega)]
  obtain ⟨told, isTold, h₃, isThird, tells, sizes'⟩ : ∃ told : List Nat, told.Sublist
      [wordPercent 32 h.sizeFile.toNat (h.sizeFetched.toNat + chunk.length)] ∧ ∃ h₃,
        (if h₂.sizeFetched * 100 / h₂.sizeFile = 100 ∨
            (h₂.sizeLastFetched > 0 ∧ env.expired = true) then
          (h₂.reportProgress (Http.toInt32 (h₂.sizeFetched * 100 / h₂.sizeFile).toNat) .downloading
            env.progressReport).2 else h₂) = h₃ ∧ h₂.Shows h₃ told ∧
          h₃.sizeFile = h₂.sizeFile ∧ h₃.sizeFetched = h₂.sizeFetched := by
    split
    · rw [isInt]
      obtain ⟨now, isNow, shows⟩ := @reportProgress_shows h₂ _ .downloading _
        (fun _ generated => .inl generated) env.progressReport
      obtain ⟨err, reports, same⟩ := reportProgress_eq h₂
        (wordPercent 32 h.sizeFile.toNat (h.sizeFetched.toNat + chunk.length)) .downloading
          env.progressReport
      exact ⟨now, isNow, _, rfl, shows, by rw [same], by rw [same]⟩
    · exact ⟨[], List.nil_sublist _, h₂, rfl, .refl h₂, rfl, rfl⟩
  rw [isThird] at done
  obtain ⟨md5, rfl⟩ := md5Update_shows done
  have whole := (begins.trans counted).trans tells
  rw [List.append_nil] at whole
  refine ⟨⟨begun ++ told, ?_, isBegun.append isTold⟩, ?_, ?_⟩
  · split_ifs <;> exact whole
  · rw [← file, ← sizes'.1]
    split_ifs <;> rfl
  · rw [← fetched, ← sizes'.2]
    split_ifs <;> rfl

/-- Without a size there is a division by zero, and only then. -/
theorem fetchDone_divides (h : OtaStruct) (chunk : List UInt8) (env : FetchEnv) :
    h.fetchDone chunk env = .error .divisionByZero ↔ h.sizeFile = 0 := by
  have file : (if h.sizeFetched = 0 then (h.reportProgress 0 .downloadBegin env.beginReport).2
      else h).sizeFile = h.sizeFile := by
    obtain ⟨err, reports, same⟩ := reportProgress_eq h 0 .downloadBegin env.beginReport
    rw [same]
    split <;> rfl
  rw [OtaStruct.fetchDone]
  generalize (if h.sizeFetched = 0 then (h.reportProgress 0 .downloadBegin env.beginReport).2
    else h) = h₁ at file ⊢
  by_cases zero : h.sizeFile = 0
  · rw [← file] at zero
    simp only [if_pos zero]
    exact iff_of_true rfl (file.symm.trans zero)
  · refine iff_of_false (fun divides => ?_) zero
    rw [← file] at zero
    simp only [if_neg zero, bind, Except.bind] at divides
    rw [OtaStruct.md5Update] at divides
    split_ifs at divides
    all_goals
      split at divides
      · cases divides
      · cases divides

/-- A call that puts a block through. -/
theorem fetchYield_block {h h' : OtaStruct} {bufLen : UInt32} {env : FetchEnv} {ret : Int}
    {chunk : List UInt8} (yielded : h.fetchYield bufLen env = .ok (ret, chunk, h'))
    (good : 0 ≤ ret) : ∃ chFetch, { h with chFetch }.fetchDone chunk env = .ok h' := by
  rw [OtaStruct.fetchYield] at yielded
  by_cases empty : bufLen = 0
  · simp only [if_pos empty, pure, Except.pure] at yielded
    cases yielded
    exact absurd good (by decide)
  simp only [if_neg empty] at yielded
  by_cases idle : h.state ≠ .fetching
  · simp only [if_pos idle, pure, Except.pure] at yielded
    cases yielded
    exact absurd good (by decide)
  simp only [if_neg idle, bind, Except.bind, pure, Except.pure] at yielded
  cases fetched : Http.qcloudOfcFetch h.chFetch env.fetched with
  | error crash =>
    rw [fetched] at yielded
    cases yielded
  | ok result =>
    obtain ⟨⟨code, bytes⟩, channel⟩ := result
    rw [fetched] at yielded
    simp only at yielded
    by_cases negative : code < 0
    · simp only [if_pos negative] at yielded
      cases yielded
      exact absurd good (Int.not_le.mpr negative)
    · simp only [if_neg negative] at yielded
      cases done : { h with chFetch := channel }.fetchDone bytes env with
      | error crash =>
        rw [done] at yielded
        cases yielded
      | ok h₁ =>
        rw [done] at yielded
        cases yielded
        exact ⟨channel, done⟩

theorem fetchYield_divides {h : OtaStruct} {bufLen : UInt32} {env : FetchEnv}
    (divides : h.fetchYield bufLen env = .error .divisionByZero) : h.sizeFile = 0 := by
  rw [OtaStruct.fetchYield] at divides
  by_cases empty : bufLen = 0
  · simp only [if_pos empty, pure, Except.pure] at divides
    cases divides
  simp only [if_neg empty] at divides
  by_cases idle : h.state ≠ .fetching
  · simp only [if_pos idle, pure, Except.pure] at divides
    cases divides
  simp only [if_neg idle, bind, Except.bind, pure, Except.pure] at divides
  cases fetched : Http.qcloudOfcFetch h.chFetch env.fetched with
  | error crash =>
    rw [fetched] at divides
    cases divides
    unfold Http.qcloudOfcFetch at fetched
    split at fetched
    · cases fetched
    · split_ifs at fetched
      split at fetched <;> cases fetched
  | ok result =>
    obtain ⟨⟨code, bytes⟩, channel⟩ := result
    rw [fetched] at divides
    simp only at divides
    by_cases negative : code < 0
    · simp only [if_pos negative] at divides
      cases divides
    · simp only [if_neg negative] at divides
      cases done : { h with chFetch := channel }.fetchDone bytes env with
      | error crash =>
        rw [done] at divides
        cases divides
        exact (fetchDone_divides { h with chFetch := channel } bytes env).mp done
      | ok h₁ =>
        rw [done] at divides
        cases divides

theorem fetching_lawful : fetching.Lawful 32 where
  refl := .refl
  trans _ _ _ _ _ first second := first.trans second
  divides h block divides := by
    obtain ⟨bufLen, env, -, -, -, -, -, divides⟩ := divides
    exact congrArg UInt32.toNat (fetchYield_divides divides)
  step h block h' yields inside := by
    obtain ⟨bufLen, env, ret, chunk, yielded, good, rfl⟩ := yields
    obtain ⟨chFetch, done⟩ := fetchYield_block yielded good
    obtain ⟨shows, file, fetched⟩ := fetchDone_shows done inside
    exact ⟨shows, .inl ⟨congrArg UInt32.toNat file, fetched⟩⟩

/-! ## A download that is too large -/

/-- The report of nothing tells nothing else. -/
theorem Report.Tells.zero {report : Report} {version : Option CStr} {p : Nat}
    (tells : report.Tells version p)
    (nothing : genReportMsg msgReportLen version 0 .downloading = .ok report.message) : p = 0 := by
  rcases tells with generated | ⟨isZero, -⟩
  · rw [genReportMsg] at nothing generated
    split_ifs at nothing generated
    have same := Except.ok.inj (generated.trans nothing.symm)
    have digits := List.append_cancel_left
      (List.append_cancel_right (List.append_cancel_right (List.append_cancel_right same)))
    have first : (utf8 p.repr).head? = some 48 := by
      rw [← Json.decimal_natCast, digits]
      with_unfolding_all decide
    exact (Json.utf8_repr p).2.2 first
  · exact isZero

theorem reportProgress_sent {h : OtaStruct} {progress : Int} {reportType : ReportType}
    {env : ReportEnv} {message : List UInt8} (inited : h.state ≠ .uninited)
    (valid : otaCheckProgress progress = true) (allocated : env.allocated = true)
    (generated : genReportMsg msgReportLen h.version progress reportType = .ok message)
    (short : h.productId.length + h.deviceName.length < 51) (published : env.published = 0) :
    (h.reportProgress progress reportType env).2 =
      { h with reports := h.reports ++ [⟨.qos0, message⟩] } := by
  obtain ⟨topic, isTopic⟩ := (reportTopic_ok h).mpr short
  rw [OtaStruct.reportProgress, if_neg inited, if_neg (not_not.mpr valid),
    if_neg (not_not.mpr allocated), generated]
  dsimp only
  rw [OtaStruct.otamqttPublish, isTopic, published]
  rfl

/-- The middle of a download. -/
def midway (size : UInt32) : OtaStruct where
  productId := ⟨utf8 "p", noNul_utf8_p⟩
  deviceName := ⟨utf8 "d", noNul_utf8_d⟩
  state := .fetching
  sizeLastFetched := 0
  sizeFetched := 42949672
  sizeFile := size
  purl := none
  version := none
  md5sum := .cleared
  md5 := some Md5.utilsMd5Starts
  chFetch := some ⟨none, 0, 0, ⟨true, true⟩⟩
  err := 0
  reports := []

/-- One byte more is fetched, and the report timer has expired. -/
def oneByte : FetchEnv where
  fetched := .bytes [0] true (by decide)
  expired := true
  beginReport := ⟨true, 0⟩
  progressReport := ⟨true, 0⟩
  failReport := ⟨true, 0⟩

/-- The next byte is reported with nothing, since the product by 100 is 4. -/
theorem midway_wraps {size : UInt32} (large : 42949673 ≤ size.toNat) :
    ∃ h', (midway size).fetchYield 1 oneByte = .ok (1, [0], h') ∧
      ∃ report, h'.reports = [report] ∧
        genReportMsg msgReportLen none 0 .downloading = .ok report.message := by
  have nonzero : ¬ size = 0 := by
    rintro rfl
    exact absurd large (by decide)
  have isZero : (42949672 + UInt32.ofNat [(0 : UInt8)].length) * 100 / size = 0 := by
    refine UInt32.toNat_inj.mp ?_
    rw [UInt32.toNat_div]
    exact Nat.div_eq_of_lt (Nat.lt_of_lt_of_le (by decide) large)
  obtain ⟨message, generated⟩ : ∃ message,
      genReportMsg msgReportLen none 0 .downloading = .ok message :=
    ⟨_, if_neg (by decide +kernel)⟩
  let counted : OtaStruct := { midway size with sizeLastFetched := 1, sizeFetched := 42949673 }
  let reported : OtaStruct := { counted with reports := [⟨.qos0, message⟩] }
  have short : counted.productId.length + counted.deviceName.length < 51 := by
    show (utf8 "p").length + (utf8 "d").length < 51
    with_unfolding_all decide
  have report : (counted.reportProgress 0 .downloading oneByte.progressReport).2 = reported :=
    reportProgress_sent (show State.fetching ≠ .uninited by decide) (by decide) rfl generated short
      rfl
  have begun : ¬ (midway size).sizeFetched = 0 := show ¬ (42949672 : UInt32) = 0 by decide
  have sized : ¬ (midway size).sizeFile = 0 := nonzero
  have nothing : ((midway size).sizeFetched + UInt32.ofNat [(0 : UInt8)].length) * 100 /
      (midway size).sizeFile = 0 := isZero
  have expired : (0 : UInt32) = 100 ∨
      (UInt32.ofNat [(0 : UInt8)].length > 0 ∧ oneByte.expired = true) := .inr ⟨by decide, rfl⟩
  have done : (midway size).fetchDone [0] oneByte = OtaStruct.md5Update
      (if reported.sizeFetched ≥ reported.sizeFile then { reported with state := .fetched }
        else reported) [0] := by
    rw [← report, OtaStruct.fetchDone]
    simp only [if_neg begun, if_neg sized, bind, Except.bind, nothing, if_pos expired]
    rfl
  obtain ⟨h', updated, sent⟩ : ∃ h', (midway size).fetchDone [0] oneByte = .ok h' ∧
      h'.reports = [⟨.qos0, message⟩] := by
    rw [done, OtaStruct.md5Update, if_neg (by decide)]
    split_ifs <;> exact ⟨_, rfl, rfl⟩
  have yielded : (midway size).fetchYield 1 oneByte =
      (do let h ← (midway size).fetchDone [0] oneByte; return (1, [0], h)) := rfl
  rw [yielded, updated]
  exact ⟨h', rfl, ⟨.qos0, message⟩, sent, generated⟩

/-- The progress of a download is right for a size whose percents fit into 32 bits, and for no
    other. -/
theorem fetching_rightFor_iff (size : UInt32) :
    fetching.RightFor size.toNat ↔ 0 < size.toNat ∧ 100 * size.toNat < 2 ^ 32 := by
  constructor
  · intro right
    refine ⟨?_, ?_⟩
    · by_contra zero
      have isZero : size.toNat = 0 := Nat.eq_zero_of_not_pos zero
      obtain ⟨never, -⟩ := right { midway size with sizeFetched := 0 } _ [] rfl (.nil _)
        (Nat.zero_le _)
      refine never 0 (Nat.zero_le _) ⟨1, { oneByte with fetched := .bytes [] true (by decide) },
        [], true, by decide, rfl, rfl, ?_⟩
      have divides := (fetchDone_divides { midway size with sizeFetched := 0 } []
        { oneByte with fetched := .bytes [] true (by decide) }).mpr (UInt32.toNat_inj.mp isZero)
      have yielded : OtaStruct.fetchYield { midway size with sizeFetched := 0 } 1
          { oneByte with fetched := .bytes [] true (by decide) } =
        (do let h ← OtaStruct.fetchDone { midway size with sizeFetched := 0 } []
              { oneByte with fetched := .bytes [] true (by decide) }
            return (0, [], h)) := rfl
      rw [yielded, divides]
      rfl
    · by_contra tooLarge
      have large : 42949673 ≤ size.toNat := by omega
      obtain ⟨h', yielded, report, sent, nothing⟩ := midway_wraps large
      have middle : fetching.yields (midway size) 1 h' :=
        ⟨1, oneByte, 1, [0], yielded, by decide, rfl⟩
      have begun : fetching.bytes (midway size) ≠ 0 := show (42949672 : UInt32).toNat ≠ 0 by decide
      have wraps : 2 ^ 32 ≤ 100 * (fetching.bytes (midway size) + 1) :=
        show 2 ^ 32 ≤ 100 * ((42949672 : UInt32).toNat + 1) by decide
      obtain ⟨percents, ⟨-, sent', grown, tells⟩, sublist⟩ :=
        right.reported rfl begun middle large
      have same : sent' = [report] := grown.symm.trans sent
      rw [same] at tells
      cases tells with
      | cons tell none =>
        cases none
        rw [tell.zero nothing, List.singleton_sublist, List.mem_singleton] at sublist
        exact absurd sublist (Nat.ne_of_lt (Progress.percent_pos size.toNat_lt wraps (by omega)))
  · exact fun fits => fetching_lawful.rightFor fits.1 fits.2

end QcloudIot.Ota
