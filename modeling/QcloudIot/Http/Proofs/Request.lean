import QcloudIot.Http.Request

/-!
# Sending the header

A part of the header that fills the send buffer is not finished: what the buffer held before is
sent again, and the rest of the part is not sent; without progress on the network it is tried for
ever. So the header is sent as it should be exactly where the buffer is never full.
-/

namespace QcloudIot.Http

open Mqtt (CStr)

/-! ## The buffer is never written beyond its end -/

/-- The index and what has been written are inside of `send_buf`. -/
structure Sender.Inside (s : Sender) : Prop where
  size : s.sendBuf.length = httpClientSendBufSize
  sendIdx : s.sendIdx ≤ httpClientSendBufSize
  extent : s.extent ≤ httpClientSendBufSize

/-- What is inside stays inside. -/
def Sender.KeepsInside (s s' : Sender) : Prop := s.Inside → s'.Inside

instance : Std.Refl Sender.KeepsInside := ⟨fun _ => id⟩

instance : IsTrans Sender Sender.KeepsInside where
  trans _ _ _ first second := second ∘ first

theorem networkWrite_inside (network : Network) (len : Nat) :
    Prog.Within Sender.KeepsInside (networkWrite network len) :=
  fun _ inside => ⟨inside.size, inside.sendIdx, inside.extent⟩

theorem copyToSendBuf_inside {idx : Nat} {bytes : List UInt8}
    (fits : idx + bytes.length ≤ httpClientSendBufSize) :
    Prog.Within Sender.KeepsInside (copyToSendBuf idx bytes) := by
  intro s inside
  have size := inside.size
  exact ⟨(length_overwrite (by omega) bytes).trans size, inside.sendIdx,
    Nat.max_le.mpr ⟨inside.extent, fits⟩⟩

theorem getInfoLoop_inside (network : Network) (buf : List UInt8) (fuel : Nat) (rc : Int)
    {idx : Nat} (small : idx ≤ httpClientSendBufSize) (len : Nat) :
    Prog.Within Sender.KeepsInside (getInfoLoop network buf fuel rc idx len) := by
  have limit : httpClientSendBufSize = 1024 := rfl
  induction fuel generalizing rc idx len with
  | zero => exact .pure _
  | succ fuel ih =>
    have fits : idx + (if (httpClientSendBufSize + 2 ^ 32 - idx) % 2 ^ 32 ≥ len then len
        else httpClientSendBufSize - idx) ≤ httpClientSendBufSize := by
      split <;> omega
    have finish : Prog.Within Sender.KeepsInside (Prog.change fun s : Sender => { s with
        sendIdx := idx + if (httpClientSendBufSize + 2 ^ 32 - idx) % 2 ^ 32 ≥ len then len
          else httpClientSendBufSize - idx }) :=
      .change fun s inside => ⟨inside.size, fits, inside.extent⟩
    refine .bind (copyToSendBuf_inside ?_) fun _ => .ite ?_ (.ite (ih _ fits _) ?_)
    · exact Nat.le_trans (Nat.add_le_add_left (List.length_take_le _ _) idx) fits
    · refine .bind (networkWrite_inside _ _) fun outcome => .ite (.pure _) (.ite (ih _ fits _) ?_)
      exact .bind finish fun _ => .pure _
    · exact .bind finish fun _ => .pure _

theorem httpClientGetInfo_inside (network : Network) (fuel : Nat) (buf : List UInt8) :
    Prog.Within Sender.KeepsInside (httpClientGetInfo network fuel buf) :=
  fun s inside => getInfoLoop_inside network buf fuel _ inside.sendIdx _ s inside

theorem andThen_inside {loop : Prog Sender (Option Int)} {next : Int → Prog Sender (Option Int)}
    (first : Prog.Within Sender.KeepsInside loop)
    (later : ∀ rc, Prog.Within Sender.KeepsInside (next rc)) :
    Prog.Within Sender.KeepsInside (andThen loop next) := by
  refine .bind first fun rc => ?_
  cases rc with
  | none => exact .pure _
  | some rc => exact later rc

/-! ## A list of parts -/

/-- The parts are put into the buffer one after the other. -/
def sendParts (network : Network) (fuel : Nat) (next : Prog Sender (Option Int)) :
    List (List UInt8) → Prog Sender (Option Int)
  | [] => next
  | part :: parts =>
    andThen (httpClientGetInfo network fuel part) fun _ => sendParts network fuel next parts

theorem sendParts_append (network : Network) (fuel : Nat) (next : Prog Sender (Option Int))
    (front back : List (List UInt8)) : sendParts network fuel next (front ++ back) =
      sendParts network fuel (sendParts network fuel next back) front := by
  induction front with
  | nil => rfl
  | cons part front ih => rw [List.cons_append, sendParts, sendParts, ih]

theorem andThen_some (rc : Int) (next : Int → Prog Sender (Option Int)) :
    andThen (return some rc) next = next rc := rfl

theorem andThen_assoc (loop : Prog Sender (Option Int))
    (next after : Int → Prog Sender (Option Int)) :
    andThen (andThen loop next) after = andThen loop fun rc => andThen (next rc) after := by
  funext s
  change (andThen (andThen loop next) after).run s = (andThen loop _).run s
  rw [andThen, andThen, andThen]
  simp only [Prog.run_bind]
  cases (loop.run s).1 with
  | none => rfl
  | some rc => rfl

def Request.authParts (request : Request) : List (List UInt8) :=
  if request.authUser.isSome then
    [authorization, bAuth request.authUser request.authPassword ++ [10]]
  else []

def Request.headerParts (request : Request) : List (List UInt8) :=
  match request.header with
  | none => []
  | some header => [header.bytes]

/-- The lines about the content, each of them as `format` leaves it. -/
def Request.contentParts (request : Request) (format : List UInt8 → List UInt8) :
    List (List UInt8) :=
  if request.postBuf then
    format (contentLengthLine request.postBufLen) ::
      match request.postContentType with
      | none => []
      | some contentType => [format (contentTypeLine contentType)]
  else []

/-- The header is sent part by part. -/
theorem sendHeaderTo_eq (network : Network) (fuel : Nat) (request : Request)
    (host path : List UInt8) : sendHeaderTo network fuel request host path =
      andThen (httpClientGetInfo network fuel
        (snprintf httpClientSendBufSize (requestLines request.method host path))) fun rc =>
          if rc ≠ 0 then return some qcloudErrHttpConn
          else sendParts network fuel (sendRest network) (request.authParts ++
            (request.headerParts ++
              (request.contentParts (snprintf httpClientSendBufSize) ++ [crlf]))) := by
  have auth : ∀ next, (andThen (if request.authUser.isSome then
        httpClientSendAuth network fuel request.authUser request.authPassword
      else return some qcloudRetSuccess) fun _ => next) =
      sendParts network fuel next request.authParts := by
    intro next
    rw [Request.authParts]
    by_cases isSome : request.authUser.isSome = true
    · rw [if_pos isSome, if_pos isSome, httpClientSendAuth, andThen_assoc]
      simp only [andThen_assoc, andThen_some]
      rfl
    · rw [if_neg isSome, if_neg isSome, andThen_some]
      rfl
  have header : ∀ next, (andThen (sendClientHeader network fuel request.header) fun _ => next) =
      sendParts network fuel next request.headerParts := by
    intro next
    rw [Request.headerParts]
    cases request.header with
    | none => rfl
    | some header => rfl
  have content : ∀ next, (andThen (sendContent network fuel request) fun _ => next) =
      sendParts network fuel next (request.contentParts (snprintf httpClientSendBufSize)) := by
    intro next
    rw [Request.contentParts, sendContent]
    by_cases post : request.postBuf = true
    · rw [if_pos post, if_pos post, andThen_assoc]
      cases request.postContentType with
      | none => rfl
      | some contentType => rfl
    · rw [if_neg post, if_neg post, andThen_some]
      rfl
  rw [sendHeaderTo]
  refine congrArg (andThen _) (funext fun rc => if_congr Iff.rfl rfl ?_)
  rw [auth, header, content, sendParts_append, sendParts_append, sendParts_append]
  rfl

theorem sendHeaderTo_inside (network : Network) (fuel : Nat) (request : Request)
    (host path : List UInt8) :
    Prog.Within Sender.KeepsInside (sendHeaderTo network fuel request host path) := by
  have rest : Prog.Within Sender.KeepsInside (sendRest network) :=
    .bind .read fun s => .bind (networkWrite_inside _ _) fun _ => .ite (.pure _) (.pure _)
  have parts : ∀ parts, Prog.Within Sender.KeepsInside
      (sendParts network fuel (sendRest network) parts) := by
    intro parts
    induction parts with
    | nil => exact rest
    | cons part parts ih => exact andThen_inside (httpClientGetInfo_inside _ _ _) fun _ => ih
  rw [sendHeaderTo_eq]
  exact andThen_inside (httpClientGetInfo_inside _ _ _) fun rc => .ite (.pure _) (parts _)

theorem Sender.empty_inside : Sender.empty.Inside where
  size := List.length_replicate
  sendIdx := Nat.zero_le _
  extent := Nat.zero_le _

/-! ## Parts that fit -/

/-- A part as `_http_client_get_info` takes it, with its length cut to 32 bits. -/
def cut (part : List UInt8) : List UInt8 := part.take (part.length % 2 ^ 32)

theorem length_cut (part : List UInt8) : (cut part).length = part.length % 2 ^ 32 := by
  rw [cut, List.length_take]
  exact Nat.min_eq_left (Nat.mod_le _ _)

theorem cut_eq {part : List UInt8} (short : part.length < 2 ^ 32) : cut part = part := by
  rw [cut, Nat.mod_eq_of_lt short, List.take_length]

/-- The buffer holds a text, and some bytes have been sent. -/
structure Sender.Holds (s : Sender) (text sent : List UInt8) : Prop extends s.Inside where
  front : s.sendBuf.take s.sendIdx = text
  isSent : s.sent = sent

theorem Sender.Holds.length {s : Sender} {text sent : List UInt8} (holds : s.Holds text sent) :
    text.length = s.sendIdx := by
  have size := holds.size
  have small := holds.sendIdx
  rw [← holds.front, List.length_take]
  omega

theorem wp_andThen {loop : Prog Sender (Option Int)} {next : Int → Prog Sender (Option Int)}
    {Q : Option Int → Sender → Prop} {s : Sender} : (andThen loop next).wp Q s ↔
      loop.wp (fun rc s' => match rc with
        | none => Q none s'
        | some rc => (next rc).wp Q s') s := by
  rw [andThen, Prog.wp_bind]
  simp only [Prog.wp]
  cases (loop.run s).1 with
  | none => rfl
  | some rc => rfl

/-- The room that is computed without a sign. -/
theorem unsigned_room {idx : Nat} (small : idx ≤ httpClientSendBufSize) :
    (httpClientSendBufSize + 2 ^ 32 - idx) % 2 ^ 32 = httpClientSendBufSize - idx := by
  have limit : httpClientSendBufSize = 1024 := rfl
  omega

/-- A part that leaves room is put behind the text. -/
theorem httpClientGetInfo_fits {s : Sender} {text sent part : List UInt8}
    (holds : s.Holds text sent) (fits : text.length + (cut part).length < httpClientSendBufSize)
    (network : Network) (fuel : Nat) :
    (httpClientGetInfo network (fuel + 1) part).wp (fun rc s' => rc = some qcloudRetSuccess ∧
      s'.Holds (text ++ cut part) sent) s := by
  have size := holds.size
  rw [holds.length] at fits
  rw [length_cut] at fits
  rw [httpClientGetInfo]
  simp only [Prog.wp_bind, Prog.wp_read, getInfoLoop]
  rw [unsigned_room holds.sendIdx, if_pos (by omega), copyToSendBuf, Prog.wp_change, Prog.wp_ite]
  refine ⟨fun full => absurd full (by omega), fun _ => ?_⟩
  have length := length_cut part
  have inside : s.sendIdx + (cut part).length ≤ s.sendBuf.length := by omega
  rw [Prog.wp_ite]
  refine ⟨fun more => absurd (Nat.sub_self _) more, fun _ => ?_⟩
  rw [Prog.wp_bind, Prog.wp_change, Prog.wp_pure, ← cut, ← length]
  refine ⟨rfl, ⟨(length_overwrite (by omega) _).trans size, ?_,
    Nat.max_le.mpr ⟨holds.extent, ?_⟩⟩, ?_, holds.isSent⟩
  · dsimp only
    omega
  · omega
  · dsimp only
    rw [take_overwrite inside, holds.front]

/-- Parts that leave room are all put behind the text. -/
theorem sendParts_fits {text sent : List UInt8} {parts : List (List UInt8)} {s : Sender}
    (holds : s.Holds text sent)
    (fits : text.length + (parts.map cut).flatten.length < httpClientSendBufSize)
    (network : Network) (fuel : Nat) {next : Prog Sender (Option Int)}
    {Q : Option Int → Sender → Prop}
    (later : ∀ s', s'.Holds (text ++ (parts.map cut).flatten) sent → next.wp Q s') :
    (sendParts network (fuel + 1) next parts).wp Q s := by
  induction parts generalizing s text with
  | nil =>
    refine later s ?_
    rw [List.map_nil, List.flatten_nil, List.append_nil]
    exact holds
  | cons part parts ih =>
    rw [List.map_cons, List.flatten_cons, List.length_append] at fits
    rw [sendParts, wp_andThen]
    refine Prog.wp_mono (httpClientGetInfo_fits holds (by omega) network fuel) ?_
    rintro _ s' ⟨rfl, holds'⟩
    refine ih holds' (by rw [List.length_append]; omega) fun s'' holds'' => later s'' ?_
    rw [List.map_cons, List.flatten_cons, ← List.append_assoc]
    exact holds''

/-! ## A full buffer -/

/-- Everything that is to be written is sent. -/
def Network.Complete (network : Network) : Prop :=
  ∀ n, httpClientSendBufSize ≤ (network n).written

/-- A part that just fills the buffer is sent with the text, and forgotten. -/
theorem httpClientGetInfo_fills {s : Sender} {text sent part : List UInt8}
    (holds : s.Holds text sent) (full : text.length + (cut part).length = httpClientSendBufSize)
    {network : Network} (complete : network.Complete) (fuel : Nat) :
    (httpClientGetInfo network (fuel + 1) part).wp (fun rc s' => rc ≠ none ∧
      s'.sendIdx = s.sendIdx ∧ s'.sendBuf.length = httpClientSendBufSize ∧
      s'.sent.length = sent.length + httpClientSendBufSize) s := by
  have size := holds.size
  have limit : httpClientSendBufSize = 1024 := rfl
  rw [holds.length, length_cut] at full
  rw [httpClientGetInfo]
  simp only [Prog.wp_bind, Prog.wp_read, getInfoLoop]
  rw [unsigned_room holds.sendIdx, if_pos (by omega), copyToSendBuf, Prog.wp_change, Prog.wp_ite]
  refine ⟨fun _ => ?_, fun notFull => absurd full notFull⟩
  rw [Prog.wp_bind, networkWrite, Prog.wp_prim, Prog.wp_ite]
  dsimp only
  have all := Nat.min_eq_right (complete s.writes)
  rw [all]
  refine ⟨fun _ => ?_, fun nothing => absurd (by decide) nothing⟩
  rw [Prog.wp_pure]
  refine ⟨Option.some_ne_none _, rfl, (length_overwrite (by omega) _).trans size, ?_⟩
  dsimp only
  rw [List.length_append, List.length_take, length_overwrite (by omega), size, Nat.min_self,
    holds.isSent]

/-- Nothing is ever sent. -/
def stalled : Network := fun _ => ⟨0, 0⟩

/-- A stalled network is tried for ever for a part that is longer than the room left. -/
theorem httpClientGetInfo_stalls {s : Sender} (inside : s.sendIdx ≤ httpClientSendBufSize)
    (fuel : Nat) (part : List UInt8) :
    (httpClientGetInfo stalled fuel part).wp (fun rc s' => rc ≠ none → rc = some 0 ∧
      s'.sendIdx = s.sendIdx + (cut part).length ∧ s'.sendIdx ≤ httpClientSendBufSize) s := by
  have loop : ∀ fuel idx len s, idx ≤ httpClientSendBufSize →
      (getInfoLoop stalled part fuel 0 idx len).wp (fun rc s' => rc ≠ none → rc = some 0 ∧
        s'.sendIdx = idx + len ∧ s'.sendIdx ≤ httpClientSendBufSize) s := by
    intro fuel
    induction fuel with
    | zero => exact fun _ _ _ _ terminated => absurd rfl terminated
    | succ fuel ih =>
      intro idx len s small
      have limit : httpClientSendBufSize = 1024 := rfl
      rw [getInfoLoop]
      dsimp only
      rw [unsigned_room small, Prog.wp_bind, copyToSendBuf, Prog.wp_change, Prog.wp_ite,
        Prog.wp_bind, networkWrite, Prog.wp_prim, Prog.wp_ite, Prog.wp_ite, Prog.wp_ite]
      by_cases room : httpClientSendBufSize - idx ≥ len
      · rw [if_pos room, Nat.sub_self, Prog.wp_bind, Prog.wp_bind, Prog.wp_change, Prog.wp_change,
          Prog.wp_pure, Prog.wp_pure]
        have isLast : idx + len ≤ httpClientSendBufSize := by omega
        exact ⟨fun _ => ⟨fun sent => absurd rfl sent, fun _ => ⟨fun more => absurd rfl more,
          fun _ _ => ⟨rfl, rfl, isLast⟩⟩⟩, fun _ => ⟨fun more => absurd rfl more,
          fun _ _ => ⟨rfl, rfl, isLast⟩⟩⟩
      · -- the loop goes on with a full buffer, into which nothing more goes
        rw [if_neg room]
        have full : idx + (httpClientSendBufSize - idx) = httpClientSendBufSize := by omega
        refine ⟨fun _ => ⟨fun sent => absurd rfl sent, fun _ => ⟨fun _ => ?_, fun done => ?_⟩⟩,
          fun notFull => absurd full notFull⟩
        · refine Prog.wp_mono (ih _ (len - (httpClientSendBufSize - idx)) _ (Nat.le_of_eq full)) ?_
          intro rc s' outcome terminated
          obtain ⟨-, isIdx, small'⟩ := outcome terminated
          omega
        · omega
  rw [httpClientGetInfo, Prog.wp_bind, Prog.wp_read, length_cut]
  exact loop fuel _ _ s inside

/-- A stalled network gets no further than the parts that the buffer holds. -/
theorem sendParts_stalls {s : Sender} (inside : s.sendIdx ≤ httpClientSendBufSize) (fuel : Nat)
    (next : Prog Sender (Option Int)) (parts : List (List UInt8)) :
    (sendParts stalled fuel next parts).wp (fun rc _ => rc ≠ none →
      s.sendIdx + (parts.map cut).flatten.length ≤ httpClientSendBufSize) s := by
  induction parts generalizing s with
  | nil => exact fun _ => inside
  | cons part parts ih =>
    rw [sendParts, wp_andThen]
    refine Prog.wp_mono (httpClientGetInfo_stalls inside fuel part) ?_
    rintro (_ | rc) s' outcome
    · exact fun terminated => absurd rfl terminated
    · obtain ⟨-, isIdx, small⟩ := outcome nofun
      refine Prog.wp_mono (ih small) fun _ _ later terminated => ?_
      have fits := later terminated
      rw [List.map_cons, List.flatten_cons, List.length_append]
      omega

/-! ## The header as it should be -/

/-- The lines behind the Host line. -/
def Request.lines (request : Request) (format : List UInt8 → List UInt8) : List (List UInt8) :=
  request.authParts ++ (request.headerParts ++ request.contentParts format)

/-- The request line, the Host line, the lines behind them and an empty line. -/
def Request.headerText (request : Request) (host path : List UInt8) : List UInt8 :=
  requestLines request.method host path ++ (request.lines id).flatten ++ crlf

/-- A part as the buffer gets it: as it should be, or cut to the size of `buf`, or with its length
    cut to 32 bits. -/
def Given (part given : List UInt8) : Prop :=
  given = part ∨ (given.length = httpClientSendBufSize - 1 ∧ httpClientSendBufSize ≤ part.length) ∨
    (given.length < part.length ∧ 2 ^ 32 ≤ part.length)

theorem given_cut (part : List UInt8) : Given part (cut part) := by
  by_cases short : part.length < 2 ^ 32
  · exact .inl (cut_eq short)
  · refine .inr (.inr ⟨?_, by omega⟩)
    rw [length_cut]
    omega

theorem given_snprintf (part : List UInt8) :
    Given part (cut (snprintf httpClientSendBufSize part)) := by
  have limit : httpClientSendBufSize = 1024 := rfl
  have length : (snprintf httpClientSendBufSize part).length =
      min (httpClientSendBufSize - 1) part.length := List.length_take
  rw [cut_eq (by omega)]
  by_cases short : part.length < httpClientSendBufSize
  · exact .inl (List.take_of_length_le (by omega))
  · exact .inr (.inl ⟨by omega, by omega⟩)

theorem Given.length_le {part given : List UInt8} (isGiven : Given part given) :
    given.length ≤ part.length := by
  have limit : httpClientSendBufSize = 1024 := rfl
  rcases isGiven with rfl | ⟨full, long⟩ | ⟨shorter, -⟩
  · exact Nat.le_refl _
  · omega
  · exact Nat.le_of_lt shorter

/-- The lines of a request as the buffer gets them. -/
theorem Request.lines_given (request : Request) : List.Forall₂ Given (request.lines id)
    ((request.lines (snprintf httpClientSendBufSize)).map cut) := by
  have cuts : ∀ parts : List (List UInt8), List.Forall₂ Given parts (parts.map cut) := by
    intro parts
    induction parts with
    | nil => exact .nil
    | cons part parts ih => exact .cons (given_cut part) ih
  rw [Request.lines, Request.lines, List.map_append, List.map_append]
  refine List.rel_append (cuts _) (List.rel_append (cuts _) ?_)
  rw [Request.contentParts, Request.contentParts]
  split
  · refine .cons (given_snprintf _) ?_
    cases request.postContentType with
    | none => exact .nil
    | some contentType => exact .cons (given_snprintf _) .nil
  · exact .nil

theorem flatten_length_le {parts givens : List (List UInt8)}
    (given : List.Forall₂ Given parts givens) :
    givens.flatten.length ≤ parts.flatten.length := by
  induction given with
  | nil => exact Nat.le_refl _
  | cons isGiven _ ih =>
    rw [List.flatten_cons, List.flatten_cons, List.length_append, List.length_append]
    exact Nat.add_le_add isGiven.length_le ih

/-- What is short has not been cut. -/
theorem given_eq {parts givens : List (List UInt8)} (given : List.Forall₂ Given parts givens)
    (small : parts.flatten.length < 2 ^ 32)
    (short : givens.flatten.length < httpClientSendBufSize - 1) : givens = parts := by
  induction given with
  | nil => rfl
  | cons isGiven _ ih =>
    rw [List.flatten_cons, List.length_append] at small short
    rcases isGiven with rfl | ⟨full, -⟩ | ⟨-, long⟩
    · rw [ih (by omega) (by omega)]
    · omega
    · omega

/-! ## The whole header -/

theorem httpClientSendHeader_accepted {url host path : List UInt8}
    (accepted : acceptedUrl url = some (host, path)) (network : Network) (fuel : Nat)
    (request : Request) : httpClientSendHeader network fuel request url =
      sendHeaderTo network fuel request host path := by
  rw [acceptedUrl] at accepted
  rw [httpClientSendHeader]
  split at accepted
  · obtain ⟨rfl, rfl⟩ := Prod.mk.inj (Option.some.inj accepted)
    rfl
  · nomatch accepted

/-- The first part always fits: it is formatted into a buffer that is no longer than `send_buf`. -/
theorem sendHeaderTo_wp {network : Network} {fuel : Nat} {request : Request}
    {host path : List UInt8} {Q : Option Int → Sender → Prop}
    (later : ∀ s, s.Holds (cut (snprintf httpClientSendBufSize
        (requestLines request.method host path))) [] →
      (sendParts network (fuel + 1) (sendRest network)
        (request.lines (snprintf httpClientSendBufSize) ++ [crlf])).wp Q s) :
    (sendHeaderTo network (fuel + 1) request host path).wp Q .empty := by
  have holds : Sender.empty.Holds [] [] := ⟨Sender.empty_inside, rfl, rfl⟩
  have fits : ([] : List UInt8).length + (cut (snprintf httpClientSendBufSize
      (requestLines request.method host path))).length < httpClientSendBufSize := by
    have limit : httpClientSendBufSize = 1024 := rfl
    rw [length_cut, snprintf, List.length_take, List.length_nil]
    omega
  rw [sendHeaderTo_eq, wp_andThen]
  refine Prog.wp_mono (httpClientGetInfo_fits holds fits network fuel) ?_
  rintro _ s ⟨rfl, holds'⟩
  refine (Prog.wp_ite _ _ _).mpr ⟨fun failed => absurd rfl failed, fun _ => ?_⟩
  rw [← List.append_assoc, ← List.append_assoc, List.append_assoc request.authParts,
    ← Request.lines]
  exact later s holds'

/-- The last write sends what the buffer holds. -/
theorem sendRest_wp {s : Sender} {text sent : List UInt8} (holds : s.Holds text sent)
    (network : Network) : (sendRest network).wp (fun rc s' => rc ≠ none ∧
      (network.Complete → 0 < text.length →
        rc = some qcloudRetSuccess ∧ s'.sent = sent ++ text)) s := by
  have inside := holds.sendIdx
  rw [sendRest, Prog.wp_bind, Prog.wp_read, Prog.wp_bind, networkWrite, Prog.wp_prim, Prog.wp_ite,
    Prog.wp_pure, Prog.wp_pure]
  refine ⟨fun _ => ⟨nofun, fun complete _ => ⟨rfl, ?_⟩⟩, fun nothing => ⟨nofun, fun complete some =>
    absurd ?_ nothing⟩⟩
  · dsimp only
    rw [Nat.min_eq_right (Nat.le_trans inside (complete s.writes)), holds.isSent, holds.front]
  · rw [Nat.min_eq_right (Nat.le_trans inside (complete s.writes)), ← holds.length]
    exact some

/-- What is put into the buffer in front of the empty line. -/
def Request.givenText (request : Request) (host path : List UInt8) : List UInt8 :=
  cut (snprintf httpClientSendBufSize (requestLines request.method host path)) ++
    ((request.lines (snprintf httpClientSendBufSize)).map cut).flatten

theorem sendHeaderTo_short {request : Request} {host path : List UInt8}
    (short : (request.givenText host path).length + crlf.length < httpClientSendBufSize)
    (network : Network) (fuel : Nat) : (sendHeaderTo network (fuel + 1) request host path).wp
      (fun rc s => rc ≠ none ∧ (network.Complete → rc = some qcloudRetSuccess ∧
        s.sent = request.givenText host path ++ crlf)) .empty := by
  have isText : cut (snprintf httpClientSendBufSize (requestLines request.method host path)) ++
      ((request.lines (snprintf httpClientSendBufSize) ++ [crlf]).map cut).flatten =
        request.givenText host path ++ crlf := by
    rw [List.map_append, List.flatten_append, ← List.append_assoc, ← Request.givenText]
    rfl
  refine sendHeaderTo_wp fun s holds => sendParts_fits holds ?_ network fuel fun s' holds' => ?_
  · rw [← List.length_append, isText, List.length_append]
    exact short
  · rw [isText] at holds'
    refine Prog.wp_mono (sendRest_wp holds' network) fun rc s'' outcome => ?_
    refine ⟨outcome.1, fun complete => outcome.2 complete ?_⟩
    rw [List.length_append]
    exact Nat.add_pos_right _ (by decide)

/-- Where the empty line just fills the buffer, what the buffer held before is sent twice. -/
theorem sendHeaderTo_full {request : Request} {host path : List UInt8}
    (full : (request.givenText host path).length + crlf.length = httpClientSendBufSize)
    {network : Network} (complete : network.Complete) (fuel : Nat) :
    (sendHeaderTo network (fuel + 1) request host path).wp (fun rc s =>
      rc = some qcloudRetSuccess ∧
        s.sent.length = httpClientSendBufSize + (request.givenText host path).length) .empty := by
  have limit : httpClientSendBufSize = 1024 := rfl
  have two : crlf.length = 2 := rfl
  have fills : (request.givenText host path).length + (cut crlf).length =
      httpClientSendBufSize := full
  refine sendHeaderTo_wp fun s holds => ?_
  rw [sendParts_append]
  refine sendParts_fits holds ?_ network fuel fun s' holds' => ?_
  · rw [← List.length_append, ← Request.givenText]
    omega
  · rw [← Request.givenText] at holds'
    rw [sendParts, wp_andThen]
    refine Prog.wp_mono (httpClientGetInfo_fills holds' fills complete fuel) ?_
    rintro (_ | rc) s'' ⟨terminated, isIdx, size, isSent⟩
    · exact absurd rfl terminated
    · have isLength := holds'.length
      rw [sendParts, sendRest, Prog.wp_bind, Prog.wp_read, Prog.wp_bind, networkWrite,
        Prog.wp_prim, Prog.wp_ite, Prog.wp_pure, Prog.wp_pure]
      have all : min (network s''.writes).written s''.sendIdx = s''.sendIdx :=
        Nat.min_eq_right (Nat.le_trans (by omega) (complete s''.writes))
      refine ⟨fun _ => ⟨rfl, ?_⟩, fun nothing => ?_⟩
      · dsimp only
        rw [all, List.length_append, List.length_take, size, isSent, List.length_nil]
        omega
      · rw [all] at nothing
        exact absurd (show 0 < s''.sendIdx by omega) nothing

theorem sendHeaderTo_stalled (request : Request) (host path : List UInt8) (fuel : Nat)
    (terminated : ((sendHeaderTo stalled fuel request host path).run .empty).1 ≠ none) :
    (request.givenText host path).length + crlf.length ≤ httpClientSendBufSize := by
  cases fuel with
  | zero => exact absurd rfl terminated
  | succ fuel =>
    have run : (sendHeaderTo stalled (fuel + 1) request host path).wp (fun rc _ => rc ≠ none →
        (request.givenText host path).length + crlf.length ≤ httpClientSendBufSize) .empty := by
      refine sendHeaderTo_wp fun s holds => ?_
      refine Prog.wp_mono (sendParts_stalls holds.sendIdx (fuel + 1) _ _) fun _ _ fits later => ?_
      have inside := fits later
      rw [← holds.length, ← List.length_append, List.map_append, List.flatten_append,
        ← List.append_assoc, ← Request.givenText, List.length_append] at inside
      exact inside
    exact run terminated

/-- A header is sent as it should be: by a network that takes all it is given, a success has sent
    the whole header; whatever the network does, the loops end, and nothing is written outside of
    `send_buf`. -/
structure HeaderSound (request : Request) (url host path : List UInt8) : Prop where
  complete : ∀ network : Network, network.Complete → ∀ fuel s,
    (httpClientSendHeader network fuel request url).run .empty = (some qcloudRetSuccess, s) →
      s.sent = request.headerText host path
  terminates : ∀ network, ∃ fuel,
    ((httpClientSendHeader network fuel request url).run .empty).1 ≠ none
  inside : ∀ network fuel,
    ((httpClientSendHeader network fuel request url).run .empty).2.extent ≤ httpClientSendBufSize

/-- The parts of a header as the buffer gets them. -/
theorem Request.given (request : Request) (host path : List UInt8) :
    List.Forall₂ Given (requestLines request.method host path :: request.lines id)
      (cut (snprintf httpClientSendBufSize (requestLines request.method host path)) ::
        (request.lines (snprintf httpClientSendBufSize)).map cut) :=
  .cons (given_snprintf _) request.lines_given

/-- A text that leaves room for the empty line is the header as it should be. -/
theorem Request.givenText_eq {request : Request} {host path : List UInt8}
    (small : (request.headerText host path).length < 2 ^ 32)
    (short : (request.givenText host path).length + crlf.length ≤ httpClientSendBufSize) :
    request.givenText host path ++ crlf = request.headerText host path := by
  have two : crlf.length = 2 := rfl
  have limit : httpClientSendBufSize = 1024 := rfl
  rw [Request.headerText, List.length_append] at small
  have same := given_eq (request.given host path)
    (by rw [List.flatten_cons]; omega)
    (by rw [List.flatten_cons, ← Request.givenText]; omega)
  rw [Request.givenText, Request.headerText, ← List.flatten_cons, same, List.flatten_cons]

/-- Of a sound header, the last byte of the send buffer is never needed. -/
theorem HeaderSound.short {request : Request} {url host path : List UInt8}
    (sound : HeaderSound request url host path)
    (accepted : acceptedUrl url = some (host, path)) :
    (request.headerText host path).length < httpClientSendBufSize := by
  have two : crlf.length = 2 := rfl
  have limit : httpClientSendBufSize = 1024 := rfl
  have isSend := fun network fuel => httpClientSendHeader_accepted accepted network fuel request
  by_contra long
  let complete : Network := fun _ => ⟨0, httpClientSendBufSize⟩
  have isComplete : complete.Complete := fun _ => Nat.le_refl _
  -- a network that sends nothing shows that the buffer holds what it is given
  obtain ⟨fuel, terminated⟩ := sound.terminates stalled
  rw [isSend] at terminated
  have holds := sendHeaderTo_stalled request host path fuel terminated
  rcases Nat.lt_or_eq_of_le holds with short | full
  · obtain ⟨-, outcome⟩ := sendHeaderTo_short short complete 0
    obtain ⟨success, isSent⟩ := outcome isComplete
    have whole := sound.complete complete isComplete 1 _
      (Prod.ext (by rw [isSend]; exact success) rfl)
    rw [isSend, isSent] at whole
    rw [← whole, List.length_append] at long
    exact long short
  · obtain ⟨success, isLength⟩ := sendHeaderTo_full full isComplete 0
    have whole := sound.complete complete isComplete 1 _
      (Prod.ext (by rw [isSend]; exact success) rfl)
    rw [isSend] at whole
    rw [whole] at isLength
    have same := congrArg List.length (Request.givenText_eq (by omega) holds)
    rw [List.length_append] at same
    omega

/-- A header that never fills the send buffer is sent as it should be. -/
theorem headerSound_of_short {request : Request} {url host path : List UInt8}
    (accepted : acceptedUrl url = some (host, path))
    (short : (request.headerText host path).length < httpClientSendBufSize) :
    HeaderSound request url host path := by
  have limit : httpClientSendBufSize = 1024 := rfl
  have isSend := fun network fuel => httpClientSendHeader_accepted accepted network fuel request
  have shorter := flatten_length_le (request.given host path)
  rw [List.flatten_cons, List.flatten_cons, ← Request.givenText] at shorter
  have isLength : (request.headerText host path).length =
      (requestLines request.method host path ++ (request.lines id).flatten).length +
        crlf.length := List.length_append
  have fits : (request.givenText host path).length + crlf.length < httpClientSendBufSize := by
    omega
  refine ⟨?_, ?_, ?_⟩
  · intro network isComplete fuel s success
    rw [isSend] at success
    cases fuel with
    | zero => exact absurd (congrArg Prod.fst success) nofun
    | succ fuel =>
      obtain ⟨-, outcome⟩ := sendHeaderTo_short fits network fuel
      have isSent := (outcome isComplete).2
      rw [success] at isSent
      rw [isSent]
      exact Request.givenText_eq (by omega) (Nat.le_of_lt fits)
  · intro network
    refine ⟨1, ?_⟩
    rw [isSend]
    exact (sendHeaderTo_short fits network 0).1
  · intro network fuel
    rw [isSend]
    exact (sendHeaderTo_inside network fuel request host path .empty Sender.empty_inside).extent

/-- **The header of a request is sent as it should be where it is shorter than the send buffer, and
    nowhere else.** -/
theorem headerSound_iff {url host path : List UInt8}
    (accepted : acceptedUrl url = some (host, path)) (request : Request) :
    HeaderSound request url host path ↔
      (request.headerText host path).length < httpClientSendBufSize :=
  ⟨fun sound => sound.short accepted, headerSound_of_short accepted⟩

/-- `http://h/` -/
def shortUrl : List UInt8 := chars ['h', 't', 't', 'p', ':', '/', '/', 'h', '/']

/-- `GET` with some header. -/
def getRequest (header : Option CStr) : Request := ⟨.get, header, none, none, false, 0, none⟩

theorem headerSound_iff_get : HeaderSound (getRequest none) shortUrl [104] [47] :=
  (headerSound_iff (by decide) (getRequest none)).mpr (by decide)

def longHeader : CStr where
  bytes := List.replicate httpClientSendBufSize 97
  noNul isNul := absurd (List.eq_of_mem_replicate isNul) (by decide)

/-- A header of 1024 bytes is not sent to its end, and the lines before it are sent twice. -/
theorem header_unfinished :
    ¬ HeaderSound (getRequest (some longHeader)) shortUrl [104] [47] := by
  intro sound
  have short := sound.short (by decide)
  simp only [Request.headerText, Request.lines, Request.headerParts, getRequest, longHeader,
    List.length_append, List.flatten_append, List.flatten_cons, List.flatten_nil,
    List.length_replicate] at short
  omega

end QcloudIot.Http
