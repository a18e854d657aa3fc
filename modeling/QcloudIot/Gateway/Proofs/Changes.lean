import QcloudIot.Gateway.Proofs.Acknowledgement

/-!
# Changes of the bound devices

A change is processed in one pass over its entries and acknowledged in another one. What the first
pass does to the list of bound devices and to the strings that it parses, and when both passes
together do what a change asks for.
-/

namespace QcloudIot.Gateway

open Mqtt (CStr)
open Ota (utf8)
open Json (bind_ok)
open Shadow (typeField)

/-! ## One entry -/

/-- The round for what an entry says. -/
def subdevProcStep (type : SubdevOp) (pass : DevPass) :
    DeviceEntry → Except Fault (DevPass × Bool)
  | .idless => do return (← { pass with subdevProductId := .null }.release, false)
  | .nameless => do
    let pass := { pass with subdevProductId := .live, parsed := pass.parsed + 1 }
    return (← { pass with subdevDeviceName := .null }.release, false)
  | .device productId deviceName => do
    let pass := { pass with
      subdevProductId := .live, subdevDeviceName := .live, parsed := pass.parsed + 1 + 1 }
    let (applied, bindList) := subdevOp type pass.bindList productId deviceName true
    return (← { pass with bindList := bindList }.release, !applied)

theorem subdevProcEntry_knows {env : Nat → EntryEnv} (ample : Ample env) (type : SubdevOp)
    (pass : DevPass) (entry : CStr) (said : DeviceEntry) (isSaid : entryOf entry = .ok said) :
    subdevProcEntry type env pass entry = subdevProcStep type pass said := by
  obtain ⟨hasProductId, hasDeviceName, hasBindInfo⟩ := ample pass.entries
  unfold subdevProcEntry
  dsimp only
  rw [hasProductId, hasDeviceName, hasBindInfo]
  obtain ⟨productId, identified, isSaid⟩ := bind_ok isSaid
  rw [identified]
  cases productId with
  | none =>
    cases isSaid
    rfl
  | some productId =>
    obtain ⟨deviceName, named, isSaid⟩ := bind_ok isSaid
    dsimp only [bind, Except.bind]
    rw [named]
    cases deviceName with
    | none =>
      cases isSaid
      rfl
    | some deviceName =>
      cases isSaid
      rfl

/-- A list of bound devices with the number of its nodes, all of which have ids. -/
structure SubdevBindList.WellFormed (list : SubdevBindList) : Prop where
  counted : list.bindNum = list.bindlistHead.length
  filled : ∀ info ∈ list.bindlistHead, info.productId.bytes ≠ [] ∧ info.deviceName.bytes ≠ []

/-- A node is compared with a device by the ids that it would have itself. -/
theorem isDevice_eq (productId deviceName : CStr) (info : SubdevBindInfo) :
    info.isDevice productId deviceName = decide (info = bindInfo productId deviceName) := by
  obtain ⟨id, name, idFits, nameFits⟩ := info
  have wholeId : id.bytes.take maxSizeOfProductId = id.bytes := List.take_of_length_le idFits
  have wholeName : name.bytes.take maxSizeOfDeviceName = name.bytes :=
    List.take_of_length_le nameFits
  unfold SubdevBindInfo.isDevice strncmpEq
  dsimp only
  rw [wholeId, wholeName, ← Bool.decide_and]
  apply decide_eq_decide.mpr
  unfold bindInfo
  rw [SubdevBindInfo.mk.injEq, ← CStr.bytes_inj, ← CStr.bytes_inj]
  exact and_congr eq_comm eq_comm

/-- A device is added in front of the list, if it has ids. -/
theorem subdevOp_bind (list : SubdevBindList) (productId deviceName : CStr) :
    subdevOp .bind list productId deviceName true =
      if productId.bytes ≠ [] ∧ deviceName.bytes ≠ [] then
        (true, ⟨bindInfo productId deviceName :: list.bindlistHead, list.bindNum + 1⟩)
      else (false, list) := by
  unfold subdevOp subdevAddBindinfo
  by_cases filled : productId.bytes ≠ [] ∧ deviceName.bytes ≠ []
  · have none : ¬ (productId.bytes = [] ∨ deviceName.bytes = [] ∨ ¬ true = true) := by
      rintro (empty | empty | lost)
      · exact filled.1 empty
      · exact filled.2 empty
      · exact lost rfl
    rw [if_pos filled]
    dsimp only
    rw [if_neg none]
  · have some : productId.bytes = [] ∨ deviceName.bytes = [] ∨ ¬ true = true := by
      rcases not_and_or.mp filled with empty | empty
      · exact .inl (not_not.mp empty)
      · exact .inr (.inl (not_not.mp empty))
    rw [if_neg filled]
    dsimp only
    rw [if_pos some]

/-- A device is taken from the list once, if it is there. -/
theorem subdevOp_unbind (list : SubdevBindList) (productId deviceName : CStr) :
    subdevOp .unbind list productId deviceName true =
      if bindInfo productId deviceName ∈ list.bindlistHead then
        (true, ⟨list.bindlistHead.erase (bindInfo productId deviceName), list.bindNum - 1⟩)
      else (false, list) := by
  have isDevice : SubdevBindInfo.isDevice productId deviceName =
      fun info => decide (info = bindInfo productId deviceName) :=
    funext (isDevice_eq productId deviceName)
  have found : list.bindlistHead.any (·.isDevice productId deviceName) = true ↔
      bindInfo productId deviceName ∈ list.bindlistHead := by
    rw [isDevice, List.any_eq_true]
    constructor
    · rintro ⟨info, mem, same⟩
      exact of_decide_eq_true same ▸ mem
    · intro mem
      exact ⟨_, mem, decide_eq_true rfl⟩
  unfold subdevOp subdevUnbindDevice
  dsimp only
  by_cases mem : bindInfo productId deviceName ∈ list.bindlistHead
  · rw [if_pos (found.mpr mem), if_pos mem, isDevice, List.erase_eq_eraseP']
    rfl
  · rw [if_neg (fun any => mem (found.mp any)), if_neg mem]

/-! ## All entries -/

/-- The entries in front of the first one on which the operation fails. -/
def reached (type : SubdevOp) : SubdevBindList → List DeviceEntry → List DeviceEntry
  | _, [] => []
  | list, .device productId deviceName :: entries =>
    let (applied, list) := subdevOp type list productId deviceName true
    if applied then .device productId deviceName :: reached type list entries else []
  | list, .nameless :: entries => .nameless :: reached type list entries
  | list, .idless :: entries => .idless :: reached type list entries

/-- The list of bound devices behind those entries. -/
def finalList (type : SubdevOp) : SubdevBindList → List DeviceEntry → SubdevBindList
  | list, [] => list
  | list, .device productId deviceName :: entries =>
    let (applied, list) := subdevOp type list productId deviceName true
    if applied then finalList type list entries else list
  | list, .nameless :: entries => finalList type list entries
  | list, .idless :: entries => finalList type list entries

section

variable {type : SubdevOp} {list list' : SubdevBindList} {productId deviceName : CStr}

theorem reached_applied (op : subdevOp type list productId deviceName true = (true, list'))
    (entries : List DeviceEntry) :
    reached type list (.device productId deviceName :: entries) =
      .device productId deviceName :: reached type list' entries := by
  rw [reached, op]
  rfl

theorem reached_failed (op : subdevOp type list productId deviceName true = (false, list'))
    (entries : List DeviceEntry) :
    reached type list (.device productId deviceName :: entries) = [] := by
  rw [reached, op]
  rfl

theorem finalList_applied (op : subdevOp type list productId deviceName true = (true, list'))
    (entries : List DeviceEntry) :
    finalList type list (.device productId deviceName :: entries) =
      finalList type list' entries := by
  rw [finalList, op]
  rfl

theorem finalList_failed (op : subdevOp type list productId deviceName true = (false, list'))
    (entries : List DeviceEntry) :
    finalList type list (.device productId deviceName :: entries) = list' := by
  rw [finalList, op]
  rfl

end

/-- No entry without a product id follows a complete one: the variable for the device name would be
    released again. `dangles` tells whether a complete one is in front. -/
def settled (dangles : Bool) : List DeviceEntry → Bool
  | [] => true
  | .device _ _ :: entries => settled true entries
  | .nameless :: entries => settled false entries
  | .idless :: entries => !dangles && settled false entries

/-- The variable for the device name between two rounds. -/
def StringPtr.ofDangles (dangles : Bool) : StringPtr := if dangles then .dangling else .null

/-- Between two rounds no string is in the variable for the device name, and all that have been
    parsed are released. -/
structure DevPass.Between (pass : DevPass) (dangles : Bool) : Prop where
  deviceName : pass.subdevDeviceName = .ofDangles dangles
  released : pass.released = pass.parsed

/-- All rounds, unless a string is released twice. Induction on the entries. -/
theorem runEntries_proc {type : SubdevOp} {pass : DevPass} {dangles : Bool}
    (between : pass.Between dangles) (entries : List DeviceEntry) :
    (settled dangles (reached type pass.bindList entries) = true →
      ∃ pass', runEntries (subdevProcStep type) pass entries = .ok pass' ∧
        pass'.bindList = finalList type pass.bindList entries ∧ pass'.released = pass'.parsed) ∧
      (settled dangles (reached type pass.bindList entries) = false →
        runEntries (subdevProcStep type) pass entries = .error .doubleFree) := by
  induction entries generalizing pass dangles with
  | nil => exact ⟨fun _ => ⟨pass, rfl, rfl, between.released⟩, fun same => by cases same⟩
  | cons entry entries ih =>
    obtain ⟨list, productPtr, namePtr, looked, parsed, released⟩ := pass
    obtain ⟨isName, isReleased⟩ := between
    dsimp only at isName isReleased ⊢
    rw [isName, isReleased]
    cases entry with
    | device productId deviceName =>
      rcases op : subdevOp type list productId deviceName true with ⟨applied, list'⟩
      have stepped : subdevProcStep type ⟨list, productPtr, .ofDangles dangles, looked, parsed,
          parsed⟩ (.device productId deviceName) =
            .ok (⟨list', .dangling, .dangling, looked + 1, parsed + 1 + 1, parsed + 1 + 1⟩,
              !applied) := by
        unfold subdevProcStep
        dsimp only
        rw [op]
        rfl
      cases applied with
      | true =>
        rw [reached_applied op, finalList_applied op, settled, runEntries, stepped]
        exact @ih ⟨list', .dangling, .dangling, looked + 1, parsed + 1 + 1, parsed + 1 + 1⟩ true
          ⟨rfl, rfl⟩
      | false =>
        rw [reached_failed op, finalList_failed op, runEntries, stepped]
        exact ⟨fun _ => ⟨_, rfl, rfl, rfl⟩, fun same => by cases same⟩
    | nameless =>
      rw [reached, finalList, settled]
      exact @ih ⟨list, .dangling, .null, looked + 1, parsed + 1, parsed + 1⟩ false ⟨rfl, rfl⟩
    | idless =>
      rw [reached, finalList, settled]
      cases dangles with
      | true => exact ⟨fun same => (by cases same), fun _ => rfl⟩
      | false =>
        exact @ih ⟨list, .null, .null, looked + 1, parsed, parsed⟩ false ⟨rfl, rfl⟩

theorem reached_front (type : SubdevOp) (list : SubdevBindList) (entries : List DeviceEntry) :
    reached type list entries <+: entries := by
  induction entries generalizing list with
  | nil => exact List.prefix_rfl
  | cons entry entries ih =>
    cases entry with
    | device productId deviceName =>
      rcases op : subdevOp type list productId deviceName true with ⟨applied, list'⟩
      cases applied with
      | true =>
        rw [reached_applied op]
        exact List.cons_prefix_cons.mpr ⟨rfl, ih _⟩
      | false =>
        rw [reached_failed op]
        exact List.nil_prefix
    | nameless => exact List.cons_prefix_cons.mpr ⟨rfl, ih _⟩
    | idless => exact List.cons_prefix_cons.mpr ⟨rfl, ih _⟩

theorem subdevOp_failed {type : SubdevOp} {list list' : SubdevBindList}
    {productId deviceName : CStr}
    (op : subdevOp type list productId deviceName true = (false, list')) : list' = list := by
  cases type with
  | unbind =>
    rw [subdevOp_unbind] at op
    split at op
    · cases op
    · exact (congrArg Prod.snd op).symm
  | bind =>
    rw [subdevOp_bind] at op
    split at op
    · cases op
    · exact (congrArg Prod.snd op).symm
  | describe =>
    rw [show subdevOp .describe list productId deviceName true =
      subdevOp .bind list productId deviceName true from rfl, subdevOp_bind] at op
    split at op
    · cases op
    · exact (congrArg Prod.snd op).symm

theorem subdevOp_bound {list list' : SubdevBindList} {productId deviceName : CStr}
    (op : subdevOp .bind list productId deviceName true = (true, list')) :
    (productId.bytes ≠ [] ∧ deviceName.bytes ≠ []) ∧
      list' = ⟨bindInfo productId deviceName :: list.bindlistHead, list.bindNum + 1⟩ := by
  rw [subdevOp_bind] at op
  split at op
  · rename_i filled
    exact ⟨filled, (congrArg Prod.snd op).symm⟩
  · cases op

theorem subdevOp_unbound {list list' : SubdevBindList} {productId deviceName : CStr}
    (op : subdevOp .unbind list productId deviceName true = (true, list')) :
    bindInfo productId deviceName ∈ list.bindlistHead ∧
      list' = ⟨list.bindlistHead.erase (bindInfo productId deviceName), list.bindNum - 1⟩ := by
  rw [subdevOp_unbind] at op
  split at op
  · rename_i mem
    exact ⟨mem, (congrArg Prod.snd op).symm⟩
  · cases op

/-- What holds of no entry, and goes on from one that is applied or incomplete, holds of those in
    front of the first failure and of the list behind them. -/
theorem reached_induct {type : SubdevOp}
    {Holds : SubdevBindList → List DeviceEntry → SubdevBindList → Prop}
    (none : ∀ list, Holds list [] list)
    (device : ∀ {list list' front final productId deviceName},
      subdevOp type list productId deviceName true = (true, list') → Holds list' front final →
        Holds list (.device productId deviceName :: front) final)
    (incomplete : ∀ {list front final entry}, entry.complete = false → Holds list front final →
      Holds list (entry :: front) final)
    (list : SubdevBindList) (entries : List DeviceEntry) :
    Holds list (reached type list entries) (finalList type list entries) := by
  induction entries generalizing list with
  | nil => exact none list
  | cons entry entries ih =>
    cases entry with
    | device productId deviceName =>
      rcases op : subdevOp type list productId deviceName true with ⟨applied, list'⟩
      cases applied with
      | true =>
        rw [reached_applied op, finalList_applied op]
        exact device op (ih list')
      | false =>
        rw [reached_failed op, finalList_failed op, subdevOp_failed op]
        exact none list
    | nameless => exact incomplete rfl (ih list)
    | idless => exact incomplete rfl (ih list)

/-- The entry is a complete one whose node has the property. -/
def DeviceEntry.tells (has : SubdevBindInfo → Bool) : DeviceEntry → Bool
  | .device productId deviceName => has (bindInfo productId deviceName)
  | .nameless => false
  | .idless => false

theorem tells_incomplete {entry : DeviceEntry} (incomplete : entry.complete = false)
    (has : SubdevBindInfo → Bool) : entry.tells has = false := by
  cases entry with
  | device => cases incomplete
  | nameless => rfl
  | idless => rfl

/-- Binding adds the nodes of the entries that it reaches. -/
theorem countP_bind (has : SubdevBindInfo → Bool) (list : SubdevBindList)
    (entries : List DeviceEntry) :
    (finalList .bind list entries).bindlistHead.countP has =
      list.bindlistHead.countP has + (reached .bind list entries).countP (·.tells has) := by
  apply @reached_induct _ (fun list front final =>
    final.bindlistHead.countP has = list.bindlistHead.countP has + front.countP (·.tells has))
  · intro list
    rfl
  · intro list list' front final productId deviceName op rest
    obtain ⟨_, rfl⟩ := subdevOp_bound op
    dsimp only at rest
    rw [rest, List.countP_cons, List.countP_cons, DeviceEntry.tells]
    omega
  · intro list front final entry incomplete rest
    rw [rest, List.countP_cons_of_neg]
    rw [tells_incomplete incomplete]
    exact Bool.false_ne_true

/-- Unbinding takes away the nodes of the entries that it reaches. -/
theorem countP_unbind (has : SubdevBindInfo → Bool) (list : SubdevBindList)
    (entries : List DeviceEntry) :
    (finalList .unbind list entries).bindlistHead.countP has +
      (reached .unbind list entries).countP (·.tells has) = list.bindlistHead.countP has := by
  apply @reached_induct _ (fun list front final =>
    final.bindlistHead.countP has + front.countP (·.tells has) = list.bindlistHead.countP has)
  · intro list
    rfl
  · intro list list' front final productId deviceName op rest
    obtain ⟨mem, rfl⟩ := subdevOp_unbound op
    dsimp only at rest
    rw [(List.perm_cons_erase mem).countP_eq, List.countP_cons, List.countP_cons, ← rest,
      DeviceEntry.tells]
    omega
  · intro list front final entry incomplete rest
    rw [← rest, List.countP_cons_of_neg]
    rw [tells_incomplete incomplete]
    exact Bool.false_ne_true

theorem subdevOp_counted {type : SubdevOp} {list list' : SubdevBindList}
    {productId deviceName : CStr}
    (op : subdevOp type list productId deviceName true = (true, list'))
    (counted : list.bindNum = list.bindlistHead.length) :
    list'.bindNum = list'.bindlistHead.length := by
  have added (op : subdevOp .bind list productId deviceName true = (true, list')) :
      list'.bindNum = list'.bindlistHead.length := by
    obtain ⟨_, rfl⟩ := subdevOp_bound op
    dsimp only
    rw [counted, List.length_cons]
    push_cast
    rfl
  cases type with
  | bind => exact added op
  | describe => exact added op
  | unbind =>
    obtain ⟨mem, rfl⟩ := subdevOp_unbound op
    have positive : 0 < list.bindlistHead.length := List.length_pos_of_mem mem
    dsimp only
    rw [counted, List.length_erase_of_mem mem]
    omega

theorem subdevOp_filled {type : SubdevOp} {list list' : SubdevBindList}
    {productId deviceName : CStr}
    (op : subdevOp type list productId deviceName true = (true, list'))
    (filled : ∀ info ∈ list.bindlistHead,
      info.productId.bytes ≠ [] ∧ info.deviceName.bytes ≠ []) :
    ∀ info ∈ list'.bindlistHead, info.productId.bytes ≠ [] ∧ info.deviceName.bytes ≠ [] := by
  have added (op : subdevOp .bind list productId deviceName true = (true, list')) :
      ∀ info ∈ list'.bindlistHead, info.productId.bytes ≠ [] ∧ info.deviceName.bytes ≠ [] := by
    obtain ⟨⟨id, name⟩, rfl⟩ := subdevOp_bound op
    intro info mem
    rcases List.mem_cons.mp mem with rfl | mem
    · refine ⟨?_, ?_⟩
      · intro empty
        exact id ((List.take_eq_nil_iff.mp empty).resolve_left (by decide))
      · intro empty
        exact name ((List.take_eq_nil_iff.mp empty).resolve_left (by decide))
    · exact filled info mem
  cases type with
  | bind => exact added op
  | describe => exact added op
  | unbind =>
    obtain ⟨_, rfl⟩ := subdevOp_unbound op
    intro info mem
    exact filled info (List.mem_of_mem_erase mem)

/-- A list stays well formed. -/
theorem finalList_wellFormed {type : SubdevOp} {list : SubdevBindList}
    (wellFormed : list.WellFormed) (entries : List DeviceEntry) :
    (finalList type list entries).WellFormed := by
  apply @reached_induct type (fun list _ final =>
    list.WellFormed → final.WellFormed)
  · intro list wellFormed
    exact wellFormed
  · intro list list' front final productId deviceName op rest wellFormed
    exact rest ⟨subdevOp_counted op wellFormed.counted, subdevOp_filled op wellFormed.filled⟩
  · intro list front final entry _ rest wellFormed
    exact rest wellFormed
  · exact wellFormed

theorem subdevOp_filter {type : SubdevOp} {list list' : SubdevBindList}
    {productId deviceName : CStr} {has : SubdevBindInfo → Bool}
    (op : subdevOp type list productId deviceName true = (true, list'))
    (hasNot : has (bindInfo productId deviceName) = false) :
    list'.bindlistHead.filter has = list.bindlistHead.filter has := by
  have isNot : ¬ has (bindInfo productId deviceName) = true := by
    rw [hasNot]
    exact Bool.false_ne_true
  have added (op : subdevOp .bind list productId deviceName true = (true, list')) :
      list'.bindlistHead.filter has = list.bindlistHead.filter has := by
    obtain ⟨_, rfl⟩ := subdevOp_bound op
    exact List.filter_cons_of_neg isNot
  cases type with
  | bind => exact added op
  | describe => exact added op
  | unbind =>
    obtain ⟨_, rfl⟩ := subdevOp_unbound op
    dsimp only
    rw [← List.erase_filter]
    exact List.erase_of_not_mem fun mem => isNot (List.mem_filter.mp mem).2

/-- The nodes that no entry speaks of stay. -/
theorem finalList_filter {type : SubdevOp} {list : SubdevBindList} {has : SubdevBindInfo → Bool}
    {entries : List DeviceEntry}
    (hasNot : ∀ entry ∈ reached type list entries, entry.tells has = false) :
    (finalList type list entries).bindlistHead.filter has = list.bindlistHead.filter has := by
  apply @reached_induct type (fun list front final =>
    (∀ entry ∈ front, entry.tells has = false) →
      final.bindlistHead.filter has = list.bindlistHead.filter has)
  · intro list _
    rfl
  · intro list list' front final productId deviceName op rest hasNot
    rw [rest fun entry mem => hasNot entry (List.mem_cons_of_mem _ mem)]
    exact subdevOp_filter op (hasNot _ List.mem_cons_self)
  · intro list front final entry _ rest hasNot
    exact rest fun entry mem => hasNot entry (List.mem_cons_of_mem _ mem)
  · exact hasNot

/-! ## The change -/

/-- The operation that a status asks for. -/
def changeType (status : Int) : SubdevOp := if status ≠ 0 then .bind else .unbind

/-- A message that asks for a change: its status, its list of devices and the entries of it. -/
structure IsChange (message : Message) (status : Int) (devices : CStr)
    (entries : List DeviceEntry) : Prop where
  taken : message.Taken
  typed : ∃ type, getJsonString typeField message.received true = .ok (some type) ∧
    type.bytes = changeOp
  hasStatus : getJsonInt32 payloadStatus message.received true = .ok (some status)
  hasDevices : getJsonString payloadDevices message.received true = .ok (some devices)
  hasEntries : entriesOf devices = .ok entries

/-- Every allocation for a change succeeds. -/
structure MessageEnv.Ample (env : MessageEnv) : Prop where
  type : env.type = true
  status : env.status = true
  devices : env.devices = true
  processed : QcloudIot.Gateway.Ample env.processed
  acknowledged : QcloudIot.Gateway.Ample env.acknowledged

/-- Both passes over the entries. -/
theorem messageHandler_change {g : Gateway} {message : Message} {env : MessageEnv} {status : Int}
    {devices : CStr} {entries : List DeviceEntry}
    (isChange : IsChange message status devices entries) (ample : env.Ample) :
    g.messageHandler message env = do
      let pass ← runEntries (subdevProcStep (changeType status)) (.start g.bindList) entries
      let reply ← gatewayAckChange devices status env.acknowledged
      return { g with bindList := pass.bindList }.record (.published reply) := by
  obtain ⟨taken, ⟨type, typed, isText⟩, isStatus, isDevices, areEntries⟩ := isChange
  have notUnbindAll : isType type unbindAllOp = false := by
    rw [isType, isText]
    with_unfolding_all decide
  have notSearch : isType type searchOp = false := by
    rw [isType, isText]
    with_unfolding_all decide
  have notDescribe : isType type describeOp = false := by
    rw [isType, isText]
    with_unfolding_all decide
  have change : isType type changeOp = true := by
    rw [isType, isText]
    with_unfolding_all decide
  rw [Gateway.messageHandler, if_pos taken, Gateway.handleText, ample.type, typed]
  dsimp only [bind, Except.bind]
  rw [if_neg (by rw [notUnbindAll]; exact Bool.false_ne_true),
    if_neg (by rw [notSearch]; exact Bool.false_ne_true), ample.devices, isDevices]
  dsimp only
  rw [if_neg (by rw [notDescribe]; exact Bool.false_ne_true), if_pos change, Gateway.change,
    ample.status, isStatus]
  dsimp only [bind, Except.bind, changedList, Option.getD]
  rw [subdevProcDevlist, forEachEntry_entries (subdevProcEntry_knows ample.processed _) areEntries,
    changeType]
  cases runEntries (subdevProcStep (if status ≠ 0 then .bind else .unbind)) (.start g.bindList)
    entries <;> rfl

/-- The node has just these ids. -/
def SubdevBindInfo.isFor (productId deviceName : CStr) (info : SubdevBindInfo) : Bool :=
  info.productId = productId && info.deviceName = deviceName

/-- No entry has the ids of the node. -/
def SubdevBindInfo.isOther (entries : List DeviceEntry) (info : SubdevBindInfo) : Bool :=
  .device info.productId info.deviceName ∉ entries

/-- What a change is to make of a list: every device of an entry is bound once, or not at all, the
    nodes are counted, and those of other devices are the same. -/
structure Changed (before after : SubdevBindList) (status : Int) (entries : List DeviceEntry) :
    Prop where
  bound : ∀ productId deviceName, .device productId deviceName ∈ entries →
    after.bindlistHead.countP (·.isFor productId deviceName) = if status = 0 then 0 else 1
  counted : after.bindNum = after.bindlistHead.length
  others : after.bindlistHead.filter (·.isOther entries) =
    before.bindlistHead.filter (·.isOther entries)

/-- What a change is to do: the list is changed, every string that is parsed from an entry is
    released once, and the complete entries to which the operation has been applied are
    acknowledged. -/
def ChangeApplied (g : Gateway) (message : Message) (env : MessageEnv) (status : Int)
    (devices : CStr) (entries : List DeviceEntry) : Prop :=
  ∃ g' pass, g.messageHandler message env = .ok g' ∧
    subdevProcDevlist g.bindList devices (changeType status) env.processed = .ok pass ∧
    pass.released = pass.parsed ∧
    Changed g.bindList g'.bindList status entries ∧
    g'.history = g.history ++ [.published (ackText status
      ((reached (changeType status) g.bindList entries).filter DeviceEntry.complete))]

/-- The strings are released once, the list is changed and the acknowledgement is the right one,
    each in terms of the entries. -/
theorem changeApplied_iff_list {g : Gateway} {message : Message} {env : MessageEnv} {status : Int}
    {devices : CStr} {entries : List DeviceEntry}
    (isChange : IsChange message status devices entries) (ample : env.Ample) :
    ChangeApplied g message env status devices entries ↔
      settled false (reached (changeType status) g.bindList entries) = true ∧
        AckLists status entries
          ((reached (changeType status) g.bindList entries).filter DeviceEntry.complete) ∧
        Changed g.bindList (finalList (changeType status) g.bindList entries) status entries := by
  have handled := messageHandler_change (g := g) isChange ample
  have processed : subdevProcDevlist g.bindList devices (changeType status) env.processed =
      runEntries (subdevProcStep (changeType status)) (.start g.bindList) entries :=
    forEachEntry_entries (subdevProcEntry_knows ample.processed _) isChange.hasEntries _
  have lists := gatewayAckChange_lists ample.acknowledged isChange.hasEntries
    (getJsonInt32_range isChange.hasStatus)
    ((reached_front (changeType status) g.bindList entries).filter DeviceEntry.complete)
  obtain ⟨runs, fails⟩ := @runEntries_proc (changeType status) (.start g.bindList) false ⟨rfl, rfl⟩
      entries
  unfold ChangeApplied
  rw [handled, processed]
  cases isSettled : settled false (reached (changeType status) g.bindList entries) with
  | false =>
    rw [fails isSettled]
    constructor
    · rintro ⟨_, _, failed, _⟩
      cases failed
    · rintro ⟨settles, _⟩
      cases settles
  | true =>
    obtain ⟨pass, ran, isFinal, released⟩ := runs isSettled
    rw [ran, ← lists]
    dsimp only [bind, Except.bind]
    have final : pass.bindList = finalList (changeType status) g.bindList entries := isFinal
    constructor
    · rintro ⟨g', pass', handled, same, _, changed, history⟩
      cases same
      cases acked : gatewayAckChange devices status env.acknowledged with
      | error fault =>
        rw [acked] at handled
        cases handled
      | ok reply =>
        rw [acked] at handled
        cases handled
        have published := List.append_cancel_left history
        simp only [List.cons.injEq, Event.published.injEq, and_true] at published
        refine ⟨rfl, congrArg _ published, ?_⟩
        rw [← final]
        exact changed
    · rintro ⟨_, acked, changed⟩
      rw [acked]
      refine ⟨_, pass, rfl, rfl, released, ?_, rfl⟩
      rw [← final] at changed
      exact changed

/-! ## Binding -/

/-- The ids fit into a node and are not empty. -/
def FitsNode (productId deviceName : CStr) : Prop :=
  (productId.bytes ≠ [] ∧ productId.length ≤ maxSizeOfProductId) ∧
    deviceName.bytes ≠ [] ∧ deviceName.length ≤ maxSizeOfDeviceName

instance (productId deviceName : CStr) : Decidable (FitsNode productId deviceName) :=
  inferInstanceAs (Decidable (_ ∧ _))

theorem bindInfo_isFor {productId deviceName : CStr} (fits : FitsNode productId deviceName)
    (otherId otherName : CStr) : (bindInfo productId deviceName).isFor otherId otherName = true ↔
      DeviceEntry.device productId deviceName = .device otherId otherName := by
  have wholeId : (bindInfo productId deviceName).productId = productId := cut_of_le fits.1.2
  have wholeName : (bindInfo productId deviceName).deviceName = deviceName := cut_of_le fits.2.2
  rw [SubdevBindInfo.isFor, wholeId, wholeName, Bool.and_eq_true, decide_eq_true_iff,
    decide_eq_true_iff, DeviceEntry.device.injEq]

theorem reached_bind {list : SubdevBindList} {entries : List DeviceEntry}
    (fits : ∀ productId deviceName, .device productId deviceName ∈ entries →
      FitsNode productId deviceName) : reached .bind list entries = entries := by
  induction entries generalizing list with
  | nil => rfl
  | cons entry entries ih =>
    have rest : ∀ list, reached .bind list entries = entries := fun list =>
      ih fun productId deviceName mem => fits _ _ (List.mem_cons_of_mem _ mem)
    cases entry with
    | device productId deviceName =>
      obtain ⟨⟨id, _⟩, name, _⟩ := fits _ _ List.mem_cons_self
      have op := subdevOp_bind list productId deviceName
      rw [if_pos ⟨id, name⟩] at op
      rw [reached_applied op, rest]
    | nameless => rw [reached, rest]
    | idless => rw [reached, rest]

/-- Every device of an entry can be bound: its ids fit, no other entry has them, and no node. -/
def Bindable (list : List SubdevBindInfo) (entries : List DeviceEntry) : Prop :=
  ∀ productId deviceName, .device productId deviceName ∈ entries →
    FitsNode productId deviceName ∧ entries.count (.device productId deviceName) = 1 ∧
      list.countP (·.isFor productId deviceName) = 0

theorem countP_tells_isFor {entries : List DeviceEntry}
    (fits : ∀ productId deviceName, .device productId deviceName ∈ entries →
      FitsNode productId deviceName) (otherId otherName : CStr) :
    entries.countP (·.tells (·.isFor otherId otherName)) =
      entries.count (.device otherId otherName) := by
  rw [List.count_eq_countP]
  apply List.countP_congr
  intro entry mem
  cases entry with
  | device productId deviceName =>
    rw [DeviceEntry.tells, bindInfo_isFor (fits _ _ mem), beq_iff_eq]
  | nameless => exact ⟨nofun, nofun⟩
  | idless => exact ⟨nofun, nofun⟩

theorem changed_bind_iff {list : SubdevBindList} {status : Int} {entries : List DeviceEntry}
    (wellFormed : list.WellFormed) (nonzero : status ≠ 0) :
    Changed list (finalList .bind list entries) status entries ↔
      Bindable list.bindlistHead entries := by
  constructor
  · rintro ⟨bound, _, _⟩
    have fits : ∀ productId deviceName, .device productId deviceName ∈ entries →
        FitsNode productId deviceName := by
      intro productId deviceName mem
      have one := bound _ _ mem
      rw [if_neg nonzero] at one
      obtain ⟨info, inList, isFor⟩ := List.countP_pos_iff.mp (by rw [one]; exact Nat.one_pos)
      obtain ⟨id, name⟩ := (finalList_wellFormed wellFormed entries).filled info inList
      rw [SubdevBindInfo.isFor, Bool.and_eq_true, decide_eq_true_iff, decide_eq_true_iff] at isFor
      obtain ⟨rfl, rfl⟩ := isFor
      exact ⟨⟨id, info.productIdFits⟩, name, info.deviceNameFits⟩
    intro productId deviceName mem
    have one := bound _ _ mem
    rw [if_neg nonzero, countP_bind, reached_bind fits, countP_tells_isFor fits] at one
    have atLeast : 0 < entries.count (.device productId deviceName) := List.count_pos_iff.mpr mem
    exact ⟨fits _ _ mem, by omega, by omega⟩
  · intro bindable
    have fits : ∀ productId deviceName, .device productId deviceName ∈ entries →
        FitsNode productId deviceName := fun _ _ mem => (bindable _ _ mem).1
    refine ⟨?_, (finalList_wellFormed wellFormed entries).counted, ?_⟩
    · intro productId deviceName mem
      obtain ⟨_, once, unbound⟩ := bindable _ _ mem
      rw [if_neg nonzero, countP_bind, reached_bind fits, countP_tells_isFor fits, once, unbound]
    · apply finalList_filter
      rw [reached_bind fits]
      intro entry mem
      cases entry with
      | device productId deviceName =>
        have wholeId : (bindInfo productId deviceName).productId = productId :=
          cut_of_le (fits _ _ mem).1.2
        have wholeName : (bindInfo productId deviceName).deviceName = deviceName :=
          cut_of_le (fits _ _ mem).2.2
        rw [DeviceEntry.tells, SubdevBindInfo.isOther, wholeId, wholeName]
        exact decide_eq_false (not_not.mpr mem)
      | nameless => rfl
      | idless => rfl

/-! ## Unbinding -/

/-- The entries in front of the first one whose device is not on the list, from which the devices
    of those before have been taken. -/
def stillBound : List SubdevBindInfo → List DeviceEntry → List DeviceEntry
  | _, [] => []
  | list, .device productId deviceName :: entries =>
    if bindInfo productId deviceName ∈ list then
      .device productId deviceName ::
        stillBound (list.erase (bindInfo productId deviceName)) entries
    else []
  | list, .nameless :: entries => .nameless :: stillBound list entries
  | list, .idless :: entries => .idless :: stillBound list entries

theorem reached_unbind (list : SubdevBindList) (entries : List DeviceEntry) :
    reached .unbind list entries = stillBound list.bindlistHead entries := by
  induction entries generalizing list with
  | nil => rfl
  | cons entry entries ih =>
    cases entry with
    | device productId deviceName =>
      have op := subdevOp_unbind list productId deviceName
      rw [stillBound]
      by_cases mem : bindInfo productId deviceName ∈ list.bindlistHead
      · rw [if_pos mem] at op
        rw [if_pos mem, reached_applied op, ih]
      · rw [if_neg mem] at op
        rw [if_neg mem, reached_failed op]
    | nameless => rw [reached, stillBound, ih]
    | idless => rw [reached, stillBound, ih]

/-- Every device of an entry is on the list as often as it is taken from it, and none is taken from
    it that has not the ids of an entry. -/
def Unbindable (list : List SubdevBindInfo) (entries front : List DeviceEntry) : Prop :=
  (∀ productId deviceName, .device productId deviceName ∈ entries →
    list.countP (·.isFor productId deviceName) =
      front.countP (·.tells (·.isFor productId deviceName))) ∧
    ∀ productId deviceName, .device productId deviceName ∈ front →
      .device (cut productId maxSizeOfProductId) (cut deviceName maxSizeOfDeviceName) ∈ entries

theorem changed_unbind_iff {list : SubdevBindList} {entries : List DeviceEntry}
    (wellFormed : list.WellFormed) :
    Changed list (finalList .unbind list entries) 0 entries ↔
      Unbindable list.bindlistHead entries (stillBound list.bindlistHead entries) := by
  rw [← reached_unbind]
  constructor
  · rintro ⟨bound, _, others⟩
    constructor
    · intro productId deviceName mem
      have none := bound _ _ mem
      rw [if_pos rfl] at none
      rw [← countP_unbind _ list entries, none, Nat.zero_add]
    · intro productId deviceName mem
      have same := countP_unbind (·.isOther entries) list entries
      rw [List.countP_eq_length_filter, others, ← List.countP_eq_length_filter] at same
      have none : (reached .unbind list entries).countP (·.tells (·.isOther entries)) = 0 := by
        omega
      have isOther := List.countP_eq_zero.mp none _ mem
      rw [DeviceEntry.tells, SubdevBindInfo.isOther, decide_eq_true_iff] at isOther
      exact not_not.mp isOther
  · rintro ⟨often, taken⟩
    refine ⟨?_, (finalList_wellFormed wellFormed entries).counted, ?_⟩
    · intro productId deviceName mem
      have all := countP_unbind (·.isFor productId deviceName) list entries
      rw [often _ _ mem] at all
      rw [if_pos rfl]
      omega
    · apply finalList_filter
      intro entry mem
      cases entry with
      | device productId deviceName => exact decide_eq_false (not_not.mpr (taken _ _ mem))
      | nameless => rfl
      | idless => rfl

/-! ## Both -/

/-- The change is one that is applied and acknowledged: no entry that is reached is without a
    product id behind a complete one, the devices can be bound or unbound, and the acknowledgement
    lists those that are. -/
def ChangeFits (list : List SubdevBindInfo) (status : Int) (entries : List DeviceEntry) : Prop :=
  let front := if status = 0 then stillBound list entries else entries
  settled false front = true ∧ AckLists status entries (front.filter DeviceEntry.complete) ∧
    if status = 0 then Unbindable list entries front else Bindable list entries

/-- A change of the devices in a list. -/
def changeMessage (status devices : List UInt8) : Message where
  topicLen := 1
  payload := utf8 "\x7b\"type\":\"change\",\"payload\":\x7b\"status\":" ++ status ++
    utf8 ",\"devices\":" ++ devices ++ utf8 "\x7d\x7d"

/-- A device of the product `P`. -/
def deviceText (deviceName : CStr) : List UInt8 :=
  utf8 "\x7b\"product_id\":\"P\",\"device_name\":\"" ++ deviceName.bytes ++ utf8 "\"\x7d"

def oneDevice : CStr := ⟨utf8 "[" ++ deviceText dev1 ++ utf8 "]", by decide +kernel⟩

def twoDevices : CStr :=
  ⟨utf8 "[" ++ deviceText dev10 ++ utf8 "," ++ deviceText dev1 ++ utf8 "]", by decide +kernel⟩

theorem isChange_oneDevice : IsChange (changeMessage (utf8 "1") oneDevice.bytes) 1 oneDevice
    [.device productP dev1] where
  taken := by with_unfolding_all decide
  typed := ⟨⟨changeOp, by decide +kernel⟩, by decide +kernel, rfl⟩
  hasStatus := by decide +kernel
  hasDevices := by decide +kernel
  hasEntries := by with_unfolding_all decide

theorem isChange_twoDevices : IsChange (changeMessage (utf8 "0") twoDevices.bytes) 0 twoDevices
    [.device productP dev10, .device productP dev1] where
  taken := by decide +kernel
  typed := ⟨⟨changeOp, by decide +kernel⟩, by decide +kernel, rfl⟩
  hasStatus := by decide +kernel
  hasDevices := by decide +kernel
  hasEntries := by with_unfolding_all decide

theorem MessageEnv.ample_ample : MessageEnv.ample.Ample :=
  ⟨rfl, rfl, rfl, fun _ => ⟨rfl, rfl, rfl⟩, fun _ => ⟨rfl, rfl, rfl⟩⟩

/-- A gateway with bound devices. -/
def withBound (list : SubdevBindList) : Gateway := { waiting dev1 with bindList := list }

end QcloudIot.Gateway
