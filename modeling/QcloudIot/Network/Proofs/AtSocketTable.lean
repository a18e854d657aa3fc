import QcloudIot.Network.AtSocket

/-!
# The table of sockets

Between two calls every entry of the table is closed or connected. An entry that is being connected
is allocated, and has neither its own descriptor nor one that a callback should name.
-/

namespace QcloudIot.Network

/-! ## What holds of a table -/

/-- An entry that is free. -/
structure AtSocketCtx.Closed (ctx : AtSocketCtx) : Prop where
  state : ctx.state = .closed
  fd : ctx.fd = unusedSocket
  recvpktList : ctx.recvpktList = none

/-- An entry in use. -/
structure AtSocketCtx.Connected (ctx : AtSocketCtx) : Prop where
  state : ctx.state = .connected
  fd : ctx.fd ≠ unusedSocket
  recvpktList : ctx.recvpktList.isSome = true

/-- An entry that is being connected. -/
structure AtSocketCtx.Alloced (ctx : AtSocketCtx) : Prop where
  state : ctx.state = .alloced
  fd : ctx.fd = unusedSocket
  recvpktList : ctx.recvpktList.isSome = true

/-- Neither state nor descriptor nor receive list of an entry differ. -/
structure AtSocketCtx.SameAs (ctx ctx' : AtSocketCtx) : Prop where
  state : ctx'.state = ctx.state
  fd : ctx'.fd = ctx.fd
  recvpktList : ctx'.recvpktList = ctx.recvpktList

namespace AtSockets

/-- The table is as it was. -/
def SameTable (s s' : AtSockets) : Prop :=
  ∀ i, (s.atSocketCtxs i).SameAs (s'.atSocketCtxs i)

/-- A socket that the driver knows as `fd` is connected. -/
def ConnectedFd (s : AtSockets) (fd : Int) : Prop :=
  ∃ i, (s.atSocketCtxs i).state = .connected ∧ (s.atSocketCtxs i).fd = fd + maxAtSocketNum

/-- Every entry is closed or connected, with a descriptor of its own, but for an entry that is being
    connected, and no `NULL` pointer has been followed. -/
structure SoundBut (pending : Option (Fin maxAtSocketNum)) (s : AtSockets) : Prop where
  entries : ∀ i, pending ≠ some i →
    (s.atSocketCtxs i).Closed ∨ (s.atSocketCtxs i).Connected
  waiting : ∀ i, pending = some i → (s.atSocketCtxs i).Alloced
  apart : ∀ i j, i ≠ j → (s.atSocketCtxs i).state = .connected →
    (s.atSocketCtxs i).fd ≠ (s.atSocketCtxs j).fd
  noFault : s.fault = false

end AtSockets

/-- The socket that a callback is about, as the driver knows it. -/
def AtSocketEvt.fd : AtSocketEvt → Int
  | .recv fd _ _ _ => fd
  | .closed fd => fd

/-- A callback for a socket that is not connected changes nothing and follows no `NULL`. -/
def AtSockets.Harmless (s : AtSockets) (event : AtSocketEvt) : Prop :=
  ¬ s.ConnectedFd event.fd → s.SameTable (s.handle event) ∧ (s.handle event).fault = s.fault

/-! ## Calls -/

/-- A call of the application, or a callback of the driver outside of one. -/
inductive AtSocketCall where
  | connect (lock list : Bool) (events : List AtSocketEvt) (fd : Int)
  | event (event : AtSocketEvt)
  | close (fd : Int) (events : List AtSocketEvt) (closed : Int)
  deriving DecidableEq, Repr

namespace AtSockets

/-- The table after a call; nothing follows a fault. -/
def after (s : AtSockets) (call : AtSocketCall) : AtSockets :=
  if s.fault then s
  else match call with
  | .connect lock list events fd => (s.atSocketConnect lock list events fd).2
  | .event event => s.handle event
  | .close fd events closed => (s.atSocketClose fd events closed).2

/-- The table when the driver makes the first callback of a call, and the callbacks. -/
def during (s : AtSockets) : AtSocketCall → Option (AtSockets × List AtSocketEvt)
  | .connect lock list events _ =>
    (s.connecting lock list).1.map fun _ => ((s.connecting lock list).2, events)
  | .event event => some (s, [event])
  | .close fd events _ =>
    match s.atSocketFind fd with
    | none => none
    | some i =>
      match (s.atSocketCtxs i).devOp with
      | none => none
      | some devOp =>
        if (s.atSocketCtxs i).state = .connected ∧ devOp.close = true then some (s, events)
        else none

/-- What a call should keep to: every callback made during it is harmless, and a connect that fails
    leaves the table as the callbacks have it. -/
structure Keeps (s : AtSockets) (call : AtSocketCall) : Prop where
  events : ∀ t events, s.during call = some (t, events) → ∀ k event, events[k]? = some event →
    (t.handleAll (events.take k)).Harmless event
  failed : ∀ lock list events fd, call = .connect lock list events fd →
    (s.atSocketConnect lock list events fd).1 < 0 →
    (if (s.during call).isSome then s.handleAll events else s).SameTable (s.after call)

/-! ## When all goes well -/

/-- A block arrives for a connected socket only, and while a socket is being connected none is
    closed whose descriptor is that of the free entries. -/
def EventMeets (connecting : Bool) (s : AtSockets) : AtSocketEvt → Prop
  | .recv fd buff _ _ => buff.isSome = true → s.ConnectedFd fd
  | .closed fd => connecting = true → fd + maxAtSocketNum ≠ unusedSocket

/-- The callbacks made one behind the other. -/
def AllMeet (connecting : Bool) : AtSockets → List AtSocketEvt → Prop
  | _, [] => True
  | s, event :: events => s.EventMeets connecting event ∧ (s.handle event).AllMeet connecting events

/-- The driver returns a descriptor that no entry has. -/
def Fresh (s : AtSockets) : AtSocketCall → Prop
  | .connect lock list events fd => ∀ t, s.during (.connect lock list events fd) =
      some (t, events) → 0 ≤ fd →
        ∀ i, ((t.handleAll events).atSocketCtxs i).fd ≠ fd + maxAtSocketNum
  | .event _ => True
  | .close _ _ _ => True

/-- A connect for which there is an entry has a driver that connects, and the callbacks meet the
    condition. -/
def Meets (s : AtSockets) : AtSocketCall → Prop
  | .connect lock list events fd => (s.atSocketCtxAlloc lock list).1.isSome = true →
      (s.connecting lock list).1.isSome = true ∧ 0 ≤ fd ∧
        (s.connecting lock list).2.AllMeet true events
  | .event event => s.EventMeets false event
  | .close fd events closed => ∀ t, s.during (.close fd events closed) = some (t, events) →
      t.AllMeet false events

end AtSockets

/-- The table at work. -/
def atSocketTable : Machine AtSockets AtSocketCall := ⟨AtSockets.after⟩

/-! ## Entries -/

theorem AtSocketCtx.SameAs.refl (ctx : AtSocketCtx) : ctx.SameAs ctx := ⟨rfl, rfl, rfl⟩

theorem AtSocketCtx.SameAs.trans {ctx ctx' ctx'' : AtSocketCtx} (first : ctx.SameAs ctx')
    (second : ctx'.SameAs ctx'') : ctx.SameAs ctx'' :=
  ⟨second.state.trans first.state, second.fd.trans first.fd,
    second.recvpktList.trans first.recvpktList⟩

namespace AtSockets

variable {s : AtSockets}

theorem SameTable.refl (s : AtSockets) : s.SameTable s := fun _ => .refl _

theorem atSocketFind_some {fd : Int} {i : Fin maxAtSocketNum} (found : s.atSocketFind fd = some i) :
    (s.atSocketCtxs i).fd = fd := by
  have holds := List.find?_some found
  exact of_decide_eq_true holds

theorem atSocketFind_none {fd : Int} (missing : s.atSocketFind fd = none)
    (i : Fin maxAtSocketNum) : (s.atSocketCtxs i).fd ≠ fd := by
  have other := List.find?_eq_none.mp missing i (List.mem_finRange i)
  exact fun same => other (decide_eq_true same)

theorem firstClosed_some {i : Fin maxAtSocketNum} (found : s.firstClosed = some i) :
    (s.atSocketCtxs i).state = .closed := by
  have holds := List.find?_some found
  exact of_decide_eq_true holds

@[simp] theorem setCtx_self (i : Fin maxAtSocketNum) (ctx : AtSocketCtx) :
    (s.setCtx i ctx).atSocketCtxs i = ctx :=
  Function.update_self _ _ _

theorem setCtx_other {i j : Fin maxAtSocketNum} (other : j ≠ i) (ctx : AtSocketCtx) :
    (s.setCtx i ctx).atSocketCtxs j = s.atSocketCtxs j :=
  Function.update_of_ne other _ _

/-- An entry that is replaced by one like it leaves the table as it was. -/
theorem sameTable_setCtx {i : Fin maxAtSocketNum} {ctx : AtSocketCtx}
    (same : (s.atSocketCtxs i).SameAs ctx) : s.SameTable (s.setCtx i ctx) := by
  intro j
  by_cases here : j = i
  · subst here
    rw [setCtx_self]
    exact same
  · rw [setCtx_other here]
    exact .refl _

/-- An entry in use is replaced by one that is in use or closed, with a descriptor of its own. -/
theorem SoundBut.setCtx {pending pending' : Option (Fin maxAtSocketNum)}
    (sound : s.SoundBut pending) {i : Fin maxAtSocketNum} {ctx : AtSocketCtx}
    (others : ∀ j, j ≠ i → (pending' = some j ↔ pending = some j))
    (entry : pending' ≠ some i → ctx.Closed ∨ ctx.Connected)
    (waits : pending' = some i → ctx.Alloced)
    (own : ctx.state = .connected → ∀ j, j ≠ i → ctx.fd ≠ (s.atSocketCtxs j).fd)
    (free : ∀ j, j ≠ i → (s.atSocketCtxs j).state = .connected → (s.atSocketCtxs j).fd ≠ ctx.fd) :
    (s.setCtx i ctx).SoundBut pending' where
  entries := by
    intro j settled
    by_cases here : j = i
    · subst here
      rw [setCtx_self]
      exact entry settled
    · rw [setCtx_other here]
      exact sound.entries j fun waiting => settled ((others j here).mpr waiting)
  waiting := by
    intro j isPending
    by_cases here : j = i
    · subst here
      rw [setCtx_self]
      exact waits isPending
    · rw [setCtx_other here]
      exact sound.waiting j ((others j here).mp isPending)
  apart := by
    intro j k different connected
    by_cases here : j = i
    · subst here
      rw [setCtx_self] at connected ⊢
      rw [setCtx_other (Ne.symm different)]
      exact own connected k (Ne.symm different)
    · rw [setCtx_other here] at connected ⊢
      by_cases there : k = i
      · subst there
        rw [setCtx_self]
        exact free j here connected
      · rw [setCtx_other there]
        exact sound.apart j k different connected
  noFault := sound.noFault

/-- An entry whose state is connected is in use. -/
theorem SoundBut.inUse {pending : Option (Fin maxAtSocketNum)} (sound : s.SoundBut pending)
    {i : Fin maxAtSocketNum} (connected : (s.atSocketCtxs i).state = .connected) :
    (s.atSocketCtxs i).Connected ∧ pending ≠ some i := by
  have settled : pending ≠ some i := by
    intro waiting
    have alloced := (sound.waiting i waiting).state
    rw [connected] at alloced
    exact absurd alloced nofun
  refine ⟨?_, settled⟩
  rcases sound.entries i settled with closed | inUse
  · have state := closed.state
    rw [connected] at state
    exact absurd state nofun
  · exact inUse

/-- The entry found for a connected socket is that of the socket. -/
theorem SoundBut.find_connected {pending : Option (Fin maxAtSocketNum)} (sound : s.SoundBut pending)
    {fd : Int} (connectedFd : s.ConnectedFd fd) :
    ∃ i, s.atSocketFind (fd + maxAtSocketNum) = some i ∧ (s.atSocketCtxs i).Connected ∧
      pending ≠ some i := by
  obtain ⟨i, connected, isFd⟩ := connectedFd
  obtain ⟨inUse, settled⟩ := sound.inUse connected
  cases found : s.atSocketFind (fd + maxAtSocketNum) with
  | none => exact absurd isFd (atSocketFind_none found i)
  | some j =>
    have same : j = i := by
      by_contra other
      exact sound.apart i j (Ne.symm other) connected
        (isFd.trans (atSocketFind_some found).symm)
    subst same
    exact ⟨j, rfl, inUse, settled⟩

/-! ## Callbacks -/

/-- The list of a connected socket is replaced. -/
theorem SoundBut.setList {pending : Option (Fin maxAtSocketNum)} (sound : s.SoundBut pending)
    {i : Fin maxAtSocketNum} (inUse : (s.atSocketCtxs i).Connected) (settled : pending ≠ some i)
    (rlist : List AtRecvPkt) :
    (s.setCtx i { s.atSocketCtxs i with recvpktList := some rlist }).SoundBut pending :=
  sound.setCtx (fun _ _ => Iff.rfl) (fun _ => .inr ⟨inUse.state, inUse.fd, rfl⟩)
    (fun waiting => absurd waiting settled)
    (fun connected j other => sound.apart i j (Ne.symm other) connected)
    (fun j other connected => sound.apart j i other connected)

theorem SoundBut.recvCb {pending : Option (Fin maxAtSocketNum)} (sound : s.SoundBut pending)
    {fd : Int} {buff : Option Block} (pkt node : Bool)
    (meets : buff.isSome = true → s.ConnectedFd fd) :
    (s.atSocketRecvCb fd buff pkt node).SoundBut pending ∧
      s.Harmless (.recv fd buff pkt node) := by
  cases buff with
  | none => exact ⟨sound, fun _ => ⟨.refl s, rfl⟩⟩
  | some buff =>
    have connectedFd := meets rfl
    refine ⟨?_, fun unconnected => absurd connectedFd unconnected⟩
    obtain ⟨i, found, inUse, settled⟩ := sound.find_connected connectedFd
    obtain ⟨rlist, isList⟩ := Option.isSome_iff_exists.mp inUse.recvpktList
    have put := sound.setList inUse settled (atRecvpktPut rlist buff pkt node).2
    rw [atSocketRecvCb, found]
    simp only [isList]
    split
    · exact ⟨put.entries, put.waiting, put.apart, put.noFault⟩
    · exact put

/-- An entry becomes free. -/
theorem closed_free (ctx : AtSocketCtx) :
    AtSocketCtx.Closed { ctx with state := .closed }.atSocketCtxFree :=
  ⟨rfl, rfl, rfl⟩

theorem SoundBut.closedCb {pending : Option (Fin maxAtSocketNum)} (sound : s.SoundBut pending)
    {fd : Int} (meets : pending.isSome = true → fd + maxAtSocketNum ≠ unusedSocket) :
    (s.atSocketClosedCb fd).SoundBut pending ∧ s.Harmless (.closed fd) := by
  rw [Harmless, handle, atSocketClosedCb]
  cases found : s.atSocketFind (fd + maxAtSocketNum) with
  | none => exact ⟨sound, fun _ => ⟨.refl s, rfl⟩⟩
  | some i =>
    have isFd := atSocketFind_some found
    have settled : pending ≠ some i := by
      intro waiting
      refine meets (by rw [waiting]; rfl) ?_
      rw [← isFd]
      exact (sound.waiting i waiting).fd
    refine ⟨?_, fun unconnected => ⟨?_, rfl⟩⟩
    · exact sound.setCtx (fun _ _ => Iff.rfl) (fun _ => .inl (closed_free _))
        (fun waiting => absurd waiting settled) (fun connected => absurd connected nofun)
        (fun j _ connected => (sound.inUse connected).1.fd)
    · refine sameTable_setCtx ?_
      rcases sound.entries i settled with closed | inUse
      · exact ⟨closed.state.symm, closed.fd.symm, closed.recvpktList.symm⟩
      · exact absurd ⟨i, inUse.state, isFd⟩ unconnected

/-- One callback. -/
theorem SoundBut.handle {pending : Option (Fin maxAtSocketNum)} (sound : s.SoundBut pending)
    {event : AtSocketEvt} (meets : s.EventMeets pending.isSome event) :
    (s.handle event).SoundBut pending ∧ s.Harmless event := by
  cases event with
  | recv fd buff pkt node => exact sound.recvCb pkt node meets
  | closed fd => exact sound.closedCb meets

/-- The callbacks of a call. Induction on them. -/
theorem SoundBut.handleAll {pending : Option (Fin maxAtSocketNum)} (sound : s.SoundBut pending)
    {events : List AtSocketEvt} (meets : s.AllMeet pending.isSome events) :
    (s.handleAll events).SoundBut pending ∧ ∀ k event, events[k]? = some event →
      (s.handleAll (events.take k)).Harmless event := by
  induction events generalizing s with
  | nil => exact ⟨sound, fun k event found => absurd found nofun⟩
  | cons first events ih =>
    obtain ⟨sound', harmless⟩ := sound.handle meets.1
    obtain ⟨after, rest⟩ := ih sound' meets.2
    have goesOn : ¬ s.fault = true := by rw [sound.noFault]; decide
    refine ⟨?_, ?_⟩
    · rw [AtSockets.handleAll, if_neg goesOn]
      exact after
    · intro k event found
      cases k with
      | zero =>
        obtain rfl := Option.some.inj found
        exact harmless
      | succ k =>
        rw [List.take_succ_cons, AtSockets.handleAll, if_neg goesOn]
        exact rest k event found

/-! ## Calls of the application -/

/-- An allocation either finds a free entry or leaves the table as it was. -/
theorem SoundBut.alloc (sound : s.SoundBut none) (lock list : Bool) :
    (∃ i, (s.atSocketCtxAlloc lock list).1 = some i ∧
      (s.atSocketCtxAlloc lock list).2.SoundBut (some i)) ∨
    (s.atSocketCtxAlloc lock list).1 = none ∧
      (s.atSocketCtxAlloc lock list).2.SoundBut none ∧
      s.SameTable (s.atSocketCtxAlloc lock list).2 := by
  rw [atSocketCtxAlloc]
  cases found : s.firstClosed with
  | none => exact .inr ⟨rfl, sound, .refl s⟩
  | some i =>
    have state := firstClosed_some found
    have closed : (s.atSocketCtxs i).Closed := by
      rcases sound.entries i nofun with closed | inUse
      · exact closed
      · have connected := inUse.state
        rw [state] at connected
        exact absurd connected nofun
    have freed : ∀ ctx : AtSocketCtx, ctx.Closed →
        (s.setCtx i ctx).SoundBut none ∧ s.SameTable (s.setCtx i ctx) := by
      intro ctx free
      refine ⟨?_, sameTable_setCtx ⟨free.state.trans closed.state.symm,
        free.fd.trans closed.fd.symm, free.recvpktList.trans closed.recvpktList.symm⟩⟩
      refine sound.setCtx (fun _ _ => Iff.rfl) (fun _ => .inl free) nofun
        (fun connected => ?_) (fun j _ connected => ?_)
      · rw [free.state] at connected
        exact absurd connected nofun
      · rw [free.fd]
        exact (sound.inUse connected).1.fd
    cases lock with
    | false => exact .inr ⟨rfl, freed _ ⟨state, rfl, rfl⟩⟩
    | true =>
      cases list with
      | false => exact .inr ⟨rfl, freed _ ⟨state, rfl, rfl⟩⟩
      | true =>
        refine .inl ⟨i, rfl, ?_⟩
        refine sound.setCtx (fun j other => ?_) (fun settled => absurd rfl settled)
          (fun _ => ⟨rfl, closed.fd, rfl⟩) (fun connected => absurd connected nofun)
          (fun j _ connected => ?_)
        · exact iff_of_false (fun same => other (Option.some.inj same).symm) nofun
        · exact (sound.inUse connected).1.fd.trans_eq closed.fd.symm

/-- The driver is called for a free entry, or the table is as it was. -/
theorem SoundBut.connecting (sound : s.SoundBut none) {lock list : Bool}
    (reaches : (s.atSocketCtxAlloc lock list).1.isSome = true →
      (s.connecting lock list).1.isSome = true) :
    (∃ i, (s.connecting lock list).1 = some i ∧ (s.connecting lock list).2.SoundBut (some i)) ∨
    (s.connecting lock list).1 = none ∧ (s.connecting lock list).2.SoundBut none ∧
      s.SameTable (s.connecting lock list).2 := by
  have alloc := sound.alloc lock list
  rw [AtSockets.connecting] at reaches ⊢
  generalize s.atSocketCtxAlloc lock list = allocated at alloc reaches ⊢
  obtain ⟨entry, t⟩ := allocated
  rcases alloc with ⟨i, rfl, sound'⟩ | ⟨rfl, same⟩
  · cases device : (t.atSocketCtxs i).devOp with
    | none =>
      simp only [device] at reaches
      exact absurd (reaches rfl) nofun
    | some devOp =>
      simp only [device] at reaches ⊢
      by_cases missing : (!devOp.connect) = true
      · rw [if_pos missing] at reaches
        exact absurd (reaches rfl) nofun
      · rw [if_neg missing]
        exact .inl ⟨i, rfl, sound'⟩
  · exact .inr ⟨rfl, same⟩

/-- An entry that has been allocated is given the descriptor of the driver. -/
theorem SoundBut.connected {i : Fin maxAtSocketNum} (sound : s.SoundBut (some i)) {fd : Int}
    (success : 0 ≤ fd) (fresh : ∀ j, (s.atSocketCtxs j).fd ≠ fd + maxAtSocketNum) :
    (s.setCtx i { s.atSocketCtxs i with
      fd := fd + maxAtSocketNum, state := .connected }).SoundBut none := by
  have alloced := sound.waiting i rfl
  have used : fd + maxAtSocketNum ≠ unusedSocket := by
    change fd + 5 ≠ -1
    omega
  refine sound.setCtx (fun j other => ?_) (fun _ => .inr ⟨rfl, used, alloced.recvpktList⟩) nofun
    (fun _ j _ => (fresh j).symm) (fun j _ _ => fresh j)
  exact iff_of_false nofun fun same => other (Option.some.inj same).symm

theorem SoundBut.connect (sound : s.SoundBut none) {lock list : Bool} {events : List AtSocketEvt}
    {fd : Int} (fresh : s.Fresh (.connect lock list events fd))
    (meets : s.Meets (.connect lock list events fd)) :
    (s.after (.connect lock list events fd)).SoundBut none ∧
      s.Keeps (.connect lock list events fd) := by
  have goesOn : ¬ s.fault = true := by rw [sound.noFault]; decide
  have reaches := fun some => (meets some).1
  have allocated : (s.connecting lock list).1.isSome = true →
      (s.atSocketCtxAlloc lock list).1.isSome = true := by
    intro connects
    rw [AtSockets.connecting] at connects
    generalize s.atSocketCtxAlloc lock list = allocated at connects ⊢
    obtain ⟨_ | i, t⟩ := allocated
    · exact connects
    · rfl
  rcases connects : s.connecting lock list with ⟨entry, t⟩
  have outcome := sound.connecting reaches
  rw [connects] at outcome
  rcases outcome with ⟨i, rfl, sound'⟩ | ⟨rfl, sound', same⟩
  · obtain ⟨-, success, allMeet⟩ := meets (allocated (by rw [connects]; rfl))
    rw [connects] at allMeet
    obtain ⟨sound'', harmless⟩ := sound'.handleAll allMeet
    have isDuring : s.during (.connect lock list events fd) = some (t, events) := by
      rw [during, connects]
      rfl
    have returns : s.atSocketConnect lock list events fd = (fd + maxAtSocketNum,
        (t.handleAll events).setCtx i { (t.handleAll events).atSocketCtxs i with
          fd := fd + maxAtSocketNum, state := .connected }) := by
      rw [atSocketConnect, connects]
      simp only [if_neg (Int.not_lt.mpr success), setCtx_self]
    refine ⟨?_, ⟨?_, ?_⟩⟩
    · rw [after, if_neg goesOn]
      rw [returns]
      exact sound''.connected success (fresh t isDuring success)
    · intro t' events' isDuring'
      rw [isDuring] at isDuring'
      obtain ⟨rfl, rfl⟩ := Prod.mk.inj (Option.some.inj isDuring')
      exact harmless
    · intro lock' list' events' fd' same failed
      obtain ⟨rfl, rfl, rfl, rfl⟩ := AtSocketCall.connect.inj same
      rw [returns] at failed
      have negative : fd + 5 < 0 := failed
      omega
  · have isDuring : s.during (.connect lock list events fd) = none := by
      rw [during, connects]
      rfl
    have returns : s.atSocketConnect lock list events fd = (Mqtt.qcloudErrFailure, t) := by
      rw [atSocketConnect, connects]
    have left : s.after (.connect lock list events fd) = t := by
      rw [after, if_neg goesOn]
      rw [returns]
    refine ⟨by rw [left]; exact sound', ⟨?_, ?_⟩⟩
    · intro t' events' isDuring'
      rw [isDuring] at isDuring'
      exact absurd isDuring' nofun
    · intro lock' list' events' fd' _ _
      rw [isDuring, left]
      exact same

/-- A close is what happens while it lasts, if it reaches the device. -/
theorem atSocketClose_during (fd : Int) (events : List AtSocketEvt) (closed : Int) :
    (s.atSocketClose fd events closed).2 =
      match s.during (.close fd events closed) with
      | none => s
      | some (t, events) => t.handleAll events := by
  rw [atSocketClose, during]
  cases s.atSocketFind fd with
  | none => rfl
  | some i =>
    simp only
    cases (s.atSocketCtxs i).devOp with
    | none => rfl
    | some devOp =>
      simp only
      split <;> rfl

theorem SoundBut.close (sound : s.SoundBut none) {fd : Int} {events : List AtSocketEvt}
    {closed : Int} (meets : s.Meets (.close fd events closed)) :
    (s.after (.close fd events closed)).SoundBut none ∧ s.Keeps (.close fd events closed) := by
  have goesOn : ¬ s.fault = true := by rw [sound.noFault]; decide
  have calls : ∀ t events', s.during (.close fd events closed) = some (t, events') →
      t = s ∧ events' = events := by
    intro t events' isDuring
    rw [during] at isDuring
    split at isDuring
    · cases isDuring
    · split at isDuring
      · cases isDuring
      · split at isDuring
        · obtain ⟨rfl, rfl⟩ := Prod.mk.inj (Option.some.inj isDuring)
          exact ⟨rfl, rfl⟩
        · cases isDuring
  refine ⟨?_, ⟨?_, fun _ _ _ _ same => by cases same⟩⟩
  · rw [after, if_neg goesOn]
    simp only [atSocketClose_during]
    rcases isDuring : s.during (.close fd events closed) with _ | ⟨t, events'⟩
    · exact sound
    · obtain ⟨rfl, rfl⟩ := calls t events' isDuring
      exact (sound.handleAll (meets _ isDuring)).1
  · intro t events' isDuring
    obtain ⟨rfl, rfl⟩ := calls t events' isDuring
    exact (sound.handleAll (meets _ isDuring)).2

/-- One call. -/
theorem SoundBut.after (sound : s.SoundBut none) {call : AtSocketCall} (fresh : s.Fresh call)
    (meets : s.Meets call) : (s.after call).SoundBut none ∧ s.Keeps call := by
  cases call with
  | connect lock list events fd => exact sound.connect fresh meets
  | event event =>
    have goesOn : ¬ s.fault = true := by rw [sound.noFault]; decide
    obtain ⟨sound', harmless⟩ := sound.handle meets
    refine ⟨?_, ⟨?_, fun _ _ _ _ same => absurd same nofun⟩⟩
    · rw [AtSockets.after, if_neg goesOn]
      exact sound'
    · intro t events isDuring
      obtain ⟨rfl, rfl⟩ := Prod.mk.inj (Option.some.inj isDuring)
      exact (@SoundBut.handleAll _ _ sound [event] ⟨meets, trivial⟩).2
  | close fd events closed => exact sound.close meets

theorem soundBut_init (deviceOp : Option AtDeviceOp) : (atSocketInit deviceOp).SoundBut none where
  entries := fun _ _ => .inl ⟨rfl, rfl, rfl⟩
  waiting := nofun
  apart := fun _ _ _ connected => absurd connected nofun
  noFault := rfl

end AtSockets

/-- In every run that meets the condition the table is sound between two calls, and every call keeps
    to what it should. -/
theorem atSocketTable_sound (deviceOp : Option AtDeviceOp) (calls : List AtSocketCall)
    (guarded : atSocketTable.Guarded (fun s call => s.Fresh call ∧ s.Meets call)
      (.atSocketInit deviceOp) calls) (n : Nat) :
    (atSocketTable.exec (.atSocketInit deviceOp) (calls.take n)).SoundBut none ∧
      ∀ call, calls[n]? = some call →
        (atSocketTable.exec (.atSocketInit deviceOp) (calls.take n)).Keeps call := by
  have sound := guarded.invariant_take (AtSockets.soundBut_init deviceOp)
    (fun _ _ both sound => (sound.after both.1 both.2).1) n
  refine ⟨sound, fun call found => ?_⟩
  obtain ⟨fresh, meets⟩ := guarded.at found
  exact (sound.after fresh meets).2

/-- A driver that lacks no function. -/
def fullDriver : AtDeviceOp := ⟨true, true, true⟩

theorem atSocketTable_sound_connect :
    (atSocketTable.exec (.atSocketInit (some fullDriver))
      ([.connect true true [] 0, .event (.closed 0)].take 2)).SoundBut none ∧
    ∀ call, [AtSocketCall.connect true true [] 0, .event (.closed 0)][2]? = some call →
      (atSocketTable.exec (.atSocketInit (some fullDriver))
        ([.connect true true [] 0, .event (.closed 0)].take 2)).Keeps call := by
  refine atSocketTable_sound (some fullDriver) [.connect true true [] 0, .event (.closed 0)] ?_ 2
  refine ⟨⟨?_, fun _ => ⟨rfl, Int.le_refl 0, trivial⟩⟩, ⟨trivial, nofun⟩, trivial⟩
  intro t isDuring _
  obtain ⟨rfl, _⟩ := Prod.mk.inj (Option.some.inj isDuring)
  decide

/-- After a connect that the driver has failed, the entry stays allocated. -/
theorem atSocketTable_leaks : ¬ ∀ (deviceOp : Option AtDeviceOp) (calls : List AtSocketCall),
    atSocketTable.Guarded (fun s call => s.Fresh call) (.atSocketInit deviceOp) calls →
    ∀ n, (atSocketTable.exec (.atSocketInit deviceOp) (calls.take n)).SoundBut none ∧
      ∀ call, calls[n]? = some call →
        (atSocketTable.exec (.atSocketInit deviceOp) (calls.take n)).Keeps call := by
  intro all
  have fresh : atSocketTable.Guarded (fun s call => s.Fresh call)
      (.atSocketInit (some fullDriver)) [.connect true true [] (-1)] :=
    ⟨fun _ _ negative => absurd negative (by decide), trivial⟩
  have sound := (all (some fullDriver) [.connect true true [] (-1)] fresh 1).1
  rcases sound.entries 0 nofun with closed | connected
  · exact absurd closed.state (by decide)
  · exact absurd connected.state (by decide)

end QcloudIot.Network
