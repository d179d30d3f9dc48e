import Mathlib.Tactic.IntervalCases
import Mac802154.Mac802154MRFImpl.Theorems
import Mac802154.MRF24J40.Theorems
import Mac802154.System.Theorems

namespace Mac802154

open Library FrameHeader802154

-- The registers that tell the chip who it is: pan id, addresses and channel.
def IsIdentity (address : UInt16) : Prop :=
  (1 ≤ address.toNat ∧ address.toNat ≤ 12) ∨ address = mrf_register_rf_control0

theorem not_volatile_of_isIdentity {address : UInt16} (h : IsIdentity address) :
    ¬Volatile address := by
  have hstatus : mrf_register_interrupt_status.toUInt16.toNat = 0x31 := rfl
  have hstart : mrf_rx_fifo_start.toNat = 0x300 := rfl
  have hcontrol : mrf_register_rf_control0.toNat = 0x200 := rfl
  unfold Volatile
  rcases h with h | rfl
  · rintro (rfl | hv) <;> omega
  · rintro (he | hv)
    · exact absurd he (by decide)
    · omega

-- The setters that have returned, oldest first.
def setterCalls : List Happening → List SetterCall
  | [] => []
  | .returned (.setter call) _ :: history => setterCalls history ++ [call]
  | _ :: history => setterCalls history

namespace Chip

def Identifies (config : Mac802154Config) (chip : Chip) : Prop :=
  ∀ address value, IsIdentity address →
    writtenLast isReset (configureWrites config) address = some value → chip.register address = value

-- From the one to the other, neither the identity nor the record of the setters changes.
structure Keeps (chip next : Chip) : Prop where
  register : ∀ address, IsIdentity address → next.register address = chip.register address
  setterCalls : setterCalls next.history = Mac802154.setterCalls chip.history

theorem Keeps.identifies {config : Mac802154Config} {chip next : Chip} (h : chip.Keeps next)
    (hi : chip.Identifies config) : next.Identifies config := by
  intro address value ha hw
  rw [h.register address ha]
  exact hi address value ha hw

theorem keeps_occur (e : ChipEvent) (chip : Chip) : chip.Keeps (occur e chip) := by
  refine ⟨fun address ha => register_occur e chip address (not_volatile_of_isIdentity ha), ?_⟩
  cases e with
  | arrival frame =>
      simp only [occur]
      split <;> rfl
  | transmissionFinished => rfl

section Device

variable (softwareReset : Chip → Memories)

theorem keeps_write (address : UInt16) (value : UInt8) (chip : Chip) (ha : ¬IsIdentity address)
    (hr : isReset (address, value) = false) :
    chip.Keeps ((device softwareReset).write address value chip) := by
  refine ⟨fun other ho => ?_, ?_⟩
  · have hne : other ≠ address := fun he => ha (he ▸ ho)
    rw [register_write softwareReset (address, value) chip hr other, if_neg hne]
  · rcases write_cases softwareReset (address, value) chip with ⟨hr', -⟩ | ⟨-, he⟩ | ⟨-, -, he⟩
    · rw [hr] at hr'
      cases hr'
    · rw [he]
    · rw [he]
      rfl

theorem keeps_read_status (chip : Chip) :
    chip.Keeps ((device softwareReset).read mrf_register_interrupt_status.toUInt16 chip).2 := by
  refine ⟨fun address ha => ?_, rfl⟩
  have hne : address ≠ mrf_register_interrupt_status.toUInt16 := fun he =>
    not_volatile_of_isIdentity ha (.inl he)
  have := Memories.register_write mrf_register_interrupt_status.toUInt16 0 chip.memories address
  rwa [if_neg hne] at this

theorem keeps_writeLongs (address : Nat) (bytes : List UInt8) (chip : Chip)
    (h : address + bytes.length ≤ 0x200) :
    chip.Keeps ((device softwareReset).writeLongs address bytes chip) := by
  rw [writeLongs_eq]
  refine ⟨fun other ho => ?_, rfl⟩
  unfold register Memories.register
  split
  · rename_i hlong
    refine Memory.overwrite_of_not_mem _ _ _ _ (.inr ?_)
    rcases ho with ho | rfl
    · simp only [isLongAddress, gt_iff_lt, decide_eq_true_eq, UInt16.lt_iff_toNat_lt] at hlong
      have hlast : (0x3F : UInt16).toNat = 63 := rfl
      omega
    · exact h
  · rfl

end Device

-- The channel register of the channels that there are.
private theorem channelRegister : ∀ channel : UInt8, 11 ≤ channel.toNat → channel.toNat ≤ 26 →
    (MRF_getRegisterValueForChannelNumber channel).toNat = (channel.toNat - 11) * 16 + 3 :=
  forall_byte (by decide +kernel)

theorem Identifies.short {config : Mac802154Config} {chip : Chip} (h : chip.Identifies config)
    (start : Nat) (bytes : List UInt8) (hlo : 1 ≤ start) (hhi : start + bytes.length ≤ 13)
    (hw : ∀ i < bytes.length, writtenLast isReset (configureWrites config)
      (UInt16.ofNat (start + i)) = some (bytes.getD i 0)) :
    chip.memories.short.contents start bytes.length = bytes := by
  refine Memory.contents_eq_of_getD _ _ _ fun i hi => ?_
  have hnat : (UInt16.ofNat (start + i)).toNat = start + i :=
    UInt16.toNat_ofNat_of_lt' (by unfold UInt16.size; omega)
  have hshort : isLongAddress (UInt16.ofNat (start + i)) = false := by
    have hlast : (0x3F : UInt16).toNat = 63 := rfl
    simp only [isLongAddress, gt_iff_lt, decide_eq_false_iff_not, UInt16.lt_iff_toNat_lt, hnat]
    omega
  have hr := h (UInt16.ofNat (start + i)) _ (.inl (by omega)) (hw i hi)
  rwa [register, Memories.register, hshort, hnat] at hr

theorem Identifies.pan_id {config : Mac802154Config} {chip : Chip} (h : chip.Identifies config) :
    chip.memories.short.contents 1 2 = config.pan_id.toList := by
  have hlen : config.pan_id.toList.length = 2 := Vector.length_toList
  have := h.short 1 config.pan_id.toList (Nat.le_refl 1) (by omega) fun i hi => by
    rw [hlen] at hi
    interval_cases i <;> rfl
  rwa [hlen] at this

theorem Identifies.short_source_address {config : Mac802154Config} {chip : Chip}
    (h : chip.Identifies config) :
    chip.memories.short.contents 3 2 = config.short_source_address.toList := by
  have hlen : config.short_source_address.toList.length = 2 := Vector.length_toList
  have := h.short 3 config.short_source_address.toList (by omega) (by omega) fun i hi => by
    rw [hlen] at hi
    interval_cases i <;> rfl
  rwa [hlen] at this

theorem Identifies.extended_source_address {config : Mac802154Config} {chip : Chip}
    (h : chip.Identifies config) :
    chip.memories.short.contents 5 8 = config.extended_source_address.toList := by
  have hlen : config.extended_source_address.toList.length = 8 := Vector.length_toList
  have := h.short 5 config.extended_source_address.toList (by omega) (by omega) fun i hi => by
    rw [hlen] at hi
    interval_cases i <;> rfl
  rwa [hlen] at this

-- The register is set twice: with a recommended value and then with the channel.
theorem Identifies.channel {config : Mac802154Config} {chip : Chip} (h : chip.Identifies config)
    (hlo : 11 ≤ config.channel.toNat) (hhi : config.channel.toNat ≤ 26) :
    (chip.memories.long mrf_register_rf_control0.toNat).toNat =
      (config.channel.toNat - 11) * 16 + 3 := by
  have hr := h mrf_register_rf_control0 (MRF_getRegisterValueForChannelNumber config.channel)
    (.inr rfl) rfl
  have hlong : isLongAddress mrf_register_rf_control0 = true := rfl
  rw [register, Memories.register, hlong] at hr
  rw [← channelRegister config.channel hlo hhi, ← hr]
  rfl

end Chip

namespace System

variable (config : Mac802154Config)

-- What holds after a configure, with the setters that have returned since.
structure Agrees (system : System) (chip : Chip) : Prop where
  identifies : chip.Identifies config
  impl_config : system.impl.config = config
  message : ∃ message, system.impl.state.Holds message ∧
    message.fields = selectedFields config (setterCalls chip.history)

variable {config}

theorem Agrees.keeps {system : System} {chip next : Chip} (h : Agrees config system chip)
    (hk : chip.Keeps next) : Agrees config system next := by
  obtain ⟨message, hholds, hfields⟩ := h.message
  exact ⟨hk.identifies h.identifies, h.impl_config, message, hholds, by rw [hk.setterCalls, hfields]⟩

theorem Agrees.io {system : System} {chip : Chip} (h : Agrees config system chip) (io : MrfIo) :
    Agrees config { system with impl := { system.impl with io } } chip :=
  ⟨h.identifies, h.impl_config, h.message⟩

theorem keeps_returned {c : Call} (hc : ∀ call, c ≠ .setter call) (answer : Answer) (chip : Chip) :
    chip.Keeps (chip.log (.returned c answer)) := by
  refine ⟨fun _ _ => rfl, ?_⟩
  cases c with
  | setter call => exact absurd rfl (hc call)
  | _ => rfl

private theorem not_isIdentity {address : UInt16}
    (h : address = mrf_register_receive_mac_control.toUInt16 ∨
      address = mrf_register_tx_normal_fifo_control.toUInt16) : ¬IsIdentity address := by
  rcases h with rfl | rfl
  · rintro (h | h)
    · exact absurd h.1 (by decide)
    · exact absurd h (by decide)
  · rintro (h | h)
    · exact absurd h.2 (by decide)
    · exact absurd h (by decide)

private theorem isReset_eq_false {write : RegisterWrite}
    (h : write.1 = mrf_register_receive_mac_control.toUInt16 ∨
      write.1 = mrf_register_tx_normal_fifo_control.toUInt16) : isReset write = false := by
  rw [isReset]
  rcases h with h | h
  · rw [h]
    rfl
  · rw [h]
    rfl

variable [BitManipulation] (softwareReset : Chip → Memories)

-- Outside of a configure, everything keeps the agreement up.
theorem agrees_kept : Kept softwareReset (Agrees config) where
  io _ _ io hs := hs.io io
  event _ chip e hs := hs.keeps (Chip.keeps_occur e chip)
  write _ chip write hw hs :=
    hs.keeps (Chip.keeps_write softwareReset write.1 write.2 chip (not_isIdentity hw)
      (isReset_eq_false hw))
  writeLongs _ chip address bytes hlength hs :=
    hs.keeps (Chip.keeps_writeLongs softwareReset address bytes chip hlength)
  readStatus _ chip hs := hs.keeps (Chip.keeps_read_status softwareReset chip)
  polled _ chip hs := (hs.keeps (Chip.keeps_read_status softwareReset chip)).keeps
    (keeps_returned (fun _ h => by cases h) _ _)
  sized _ chip hs := hs.keeps (keeps_returned (fun _ h => by cases h) _ chip)
  fetched _ chip _ _ hs := hs.keeps (keeps_returned (fun _ h => by cases h) _ chip)
  finished _ chip c hc hs := by
    refine hs.keeps (keeps_returned (fun call h => ?_) _ chip)
    rcases hc with rfl | rfl | rfl <;> cases h
  setter system chip call state hstate hs := by
    obtain ⟨message, hholds, hfields⟩ := hs.message
    obtain ⟨next, hnext, hlast⟩ := Mrf.setter_returns hholds call
    rw [hstate] at hnext
    cases hnext
    rw [hs.impl_config] at hlast
    exact ⟨hs.identifies, hs.impl_config, _, hlast,
      selectedFields_append config _ message hfields call⟩
  overwritten _ _ _ hs := ⟨hs.identifies, hs.impl_config, hs.message⟩

section Configure

omit [BitManipulation]

-- No call has returned yet.
def Unanswered (chip : Chip) : Prop :=
  ∀ c answer, .returned c answer ∉ chip.history

theorem Unanswered.setterCalls {chip : Chip} (h : Unanswered chip) :
    setterCalls chip.history = [] := by
  unfold Unanswered at h
  generalize chip.history = history at h
  induction history with
  | nil => rfl
  | cons happening history ih =>
      have hrest := ih fun c answer hm => h c answer (List.mem_cons_of_mem _ hm)
      cases happening with
      | returned c answer => exact absurd List.mem_cons_self (h c answer)
      | _ => exact hrest

theorem Unanswered.log {chip : Chip} (h : Unanswered chip) {happening : Happening}
    (hh : ∀ c answer, .returned c answer ≠ happening) : Unanswered (chip.log happening) := by
  intro c answer hm
  rcases List.mem_cons.mp hm with he | hm
  · exact hh c answer he
  · exact h c answer hm

theorem Unanswered.occur {chip : Chip} (h : Unanswered chip) (e : ChipEvent) :
    Unanswered (Chip.occur e chip) := by
  cases e with
  | arrival frame =>
      simp only [Chip.occur]
      split
      · exact Unanswered.log h fun _ _ he => by cases he
      · exact h
  | transmissionFinished => exact Unanswered.log h fun _ _ he => by cases he

theorem Unanswered.write {chip : Chip} (h : Unanswered chip) (write : RegisterWrite) :
    Unanswered ((Chip.device softwareReset).write write.1 write.2 chip) := by
  rcases Chip.write_cases softwareReset write chip with ⟨-, he⟩ | ⟨-, he⟩ | ⟨-, -, he⟩
  · rw [he]
    exact Unanswered.log h fun _ _ he => by cases he
  · rw [he]
    exact h
  · rw [he]
    exact Unanswered.log h fun _ _ he => by cases he

variable [BitManipulation]

theorem configure_agrees (system : System) :
    (Chip.machine softwareReset).Triple (OnDevice Unanswered) (OnDevice Unanswered)
      (component.call .configure system)
      fun r bus => OnDevice (Agrees system.config r.1) (component.answered .configure r.2 bus) := by
  have hperforms : Performs (Chip.device softwareReset) Chip.occur _ (configureWrites system.config) _ :=
    system.impl.reconfigure_performs system.config
  have h := hperforms Unanswered (fun before chip => Unanswered chip ∧ chip.Shows before)
    (fun _ _ hs => hs.1) (fun _ _ e hs => ⟨hs.1.occur e, hs.2.occur e⟩)
    (fun _ write _ _ hs => ⟨hs.1.write softwareReset write, hs.2.write softwareReset write⟩) []
  refine (h.consequence (fun bus hs => ⟨hs, fun _ _ _ hw => by cases hw⟩) fun _ _ hq => hq).map _ ?_
  rintro impl bus ⟨⟨hanswer, hshows⟩, hconfig, hholds⟩
  refine Agrees.keeps ?_ (keeps_returned (fun _ h => by cases h) .nothing bus.device)
  refine ⟨fun address value ha hw => hshows address value (not_volatile_of_isIdentity ha) hw, hconfig,
    _, hholds, ?_⟩
  rw [Unanswered.setterCalls hanswer]
  rfl

end Configure

theorem configure_returns (system : System) (memories : Memories) :
    ∃ n, .returned .configure .nothing ∈ (run softwareReset system memories
      (.call .configure :: List.replicate n .act)).world.device.history := by
  obtain ⟨ops, impl, last, hr⟩ := Machine.Returns.of_tame (M := Chip.machine softwareReset)
    (system.impl.reconfigure_tame system.config) ⟨.deselected, ⟨memories, []⟩⟩
  have hcall : (Chip.machine softwareReset).Returns (component.call .configure system)
      ⟨.deselected, ⟨memories, []⟩⟩ (ops ++ []) ({ system with impl }, .nothing) last :=
    hr.bind (.ret _ _)
  have hrun : ∃ n, run softwareReset system memories (.call .configure :: List.replicate n .act) =
      ⟨{ system with impl }, component.answered .configure .nothing last, none⟩ :=
    Session.run_returns hcall
  obtain ⟨n, hn⟩ := hrun
  refine ⟨n, ?_⟩
  rw [hn]
  exact List.mem_cons_self

-- Once a configure has returned, chip, driver and header name the same
-- identity, whatever calls and events follow and whatever the caller does to
-- its own configuration; and it does return.
theorem identity_agrees (impl : Mrf) (config : Mac802154Config) (memories : Memories)
    (hlo : 11 ≤ config.channel.toNat) (hhi : config.channel.toNat ≤ 26) :
    (∀ moves : List (SessionMove Call ChipEvent), .call .configure ∉ moves →
      let session := run softwareReset ⟨impl, config⟩ memories (.call .configure :: moves)
      let chip := session.world.device
      let state := session.state.impl.state
      let header := state.header.frame_header
      ∀ answer, .returned .configure answer ∈ chip.history →
        chip.memories.short.contents 1 2 = config.pan_id.toList ∧
        chip.memories.short.contents 3 2 = config.short_source_address.toList ∧
        chip.memories.short.contents 5 8 = config.extended_source_address.toList ∧
        (chip.memories.long 0x200).toNat = (config.channel.toNat - 11) * 16 + 3 ∧
        slice header.data.toList header.getPanIdOffset.toNat 2 = config.pan_id.toList ∧
        slice header.data.toList header.getSourceAddressPtr header.getSourceAddressSize.toNat =
          (selectedSource config (setterCalls chip.history)).toList ∧
        state.header.frame_header_length = header.getHeaderSize) ∧
    ∃ n, .returned .configure .nothing ∈ (run softwareReset ⟨impl, config⟩ memories
      (.call .configure :: List.replicate n .act)).world.device.history := by
  refine ⟨?_, configure_returns softwareReset ⟨impl, config⟩ memories⟩
  intro moves hmoves session chip state header answer hanswer
  have hsession : OnDevice (Agrees config session.state) session.world ∨
      OnDevice Unanswered session.world :=
    Session.run_established (agrees_kept softwareReset).stable
      (fun c system hc => (agrees_kept softwareReset).call c system hc)
      (configure_agrees softwareReset ⟨impl, config⟩) (fun _ _ hm => by cases hm) moves
      fun c hc he => hmoves (he ▸ hc)
  rcases hsession with hs | hs
  · obtain ⟨message, hholds, hfields⟩ := hs.message
    have hr := hholds.represents
    rw [hfields] at hr
    refine ⟨hs.identifies.pan_id, hs.identifies.short_source_address,
      hs.identifies.extended_source_address, hs.identifies.channel hlo hhi, hr.slice_panId,
      hr.slice_source, ?_⟩
    rw [← UInt8.toNat_inj, hholds.frame_header_length, Message.headerSize, hfields, hr.getHeaderSize]
  · exact absurd hanswer (hs .configure answer)

section Runs

omit [BitManipulation]

-- After the configure: another source address, a message that is sent, a poll,
-- and the caller writes to its own configuration.
def laterMoves : List (SessionMove Call ChipEvent) :=
  List.replicate 121 .act ++ .call (.setter .useExtendedSourceAddress) ::
    .call (.setter (.setPayload (fun _ => 0x41) 1)) :: .call .sendBlocking ::
    List.replicate 32 .act ++ .event .transmissionFinished :: List.replicate 17 .act ++
    .call .newPacketAvailable :: List.replicate 4 .act ++ [.call (.overwriteConfig Mrf.zeroed.config)]

private theorem not_mem_laterMoves : .call .configure ∉ laterMoves := by
  simp only [laterMoves, List.mem_append, List.mem_cons, List.mem_replicate, List.not_mem_nil,
    reduceCtorEq, SessionMove.call.injEq, and_false, or_false, not_false_eq_true]

def laterSession (config : Mac802154Config) :
    Session PeripheralOp PeripheralOp.Response (Bus Chip) System Call Answer :=
  @run BitManipulation.reference (fun _ => ⟨fun _ => 0xFF, fun _ => 0xFF⟩) ⟨Mrf.zeroed, config⟩
    ⟨fun _ => 0, fun _ => 0⟩ (.call .configure :: laterMoves)

theorem identity_agrees_after_configure :
    let session := laterSession ⟨#v[0xAA, 0xAB], #v[8, 7, 6, 5, 4, 3, 2, 1], #v[0xCC, 0xDD], 12⟩
    let memories := session.world.device.memories
    let header := session.state.impl.state.header.frame_header
    session.running.isNone ∧ session.state.config = Mrf.zeroed.config ∧
      memories.short.contents 1 2 = [0xCC, 0xDD] ∧ memories.short.contents 3 2 = [0xAA, 0xAB] ∧
      memories.short.contents 5 8 = [8, 7, 6, 5, 4, 3, 2, 1] ∧ (memories.long 0x200).toNat = 19 ∧
      slice header.data.toList (@getSourceAddressPtr BitManipulation.reference header)
        (@getSourceAddressSize BitManipulation.reference header).toNat = [8, 7, 6, 5, 4, 3, 2, 1] := by
  obtain ⟨hagrees, -⟩ := @identity_agrees BitManipulation.reference
    (fun _ => ⟨fun _ => 0xFF, fun _ => 0xFF⟩)
    Mrf.zeroed ⟨#v[0xAA, 0xAB], #v[8, 7, 6, 5, 4, 3, 2, 1], #v[0xCC, 0xDD], 12⟩
    ⟨fun _ => 0, fun _ => 0⟩ (by decide) (by decide)
  obtain ⟨hpan, hshort, hextended, hchannel, -, hsource, -⟩ := hagrees laterMoves
    not_mem_laterMoves .nothing (configured_of_any (by decide +kernel))
  have hidle : (laterSession ⟨#v[0xAA, 0xAB], #v[8, 7, 6, 5, 4, 3, 2, 1],
    #v[0xCC, 0xDD], 12⟩).running.isNone := by decide +kernel
  have hconfig : (laterSession ⟨#v[0xAA, 0xAB], #v[8, 7, 6, 5, 4, 3, 2, 1],
    #v[0xCC, 0xDD], 12⟩).state.config = Mrf.zeroed.config := by decide +kernel
  unfold laterSession at hidle hconfig ⊢
  exact ⟨hidle, hconfig, hpan, hshort, hextended, hchannel, hsource.trans (by decide +kernel)⟩

end Runs

end System

end Mac802154
