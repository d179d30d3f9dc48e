import Mac802154.Mac802154MRFImpl.Theorems
import Mac802154.MRF24J40.Theorems
import Mac802154.System

namespace Mac802154.System

open Library

variable [BitManipulation] (softwareReset : Chip → Memories)

-- What driver and chip have to go through in the calls that neither configure
-- nor send: every event, every access to the chip, and every answer that is noted.
structure Served (Inv : System → Chip → Prop) : Prop where
  io : ∀ system chip io, Inv system chip → Inv { system with impl := { system.impl with io } } chip
  event : ∀ system chip e, Inv system chip → Inv system (Chip.occur e chip)
  promiscuousMode : ∀ system chip value, Inv system chip → Inv system
    ((Chip.device softwareReset).write mrf_register_receive_mac_control.toUInt16 value chip)
  readStatus : ∀ system chip, Inv system chip → Inv system
    ((Chip.device softwareReset).read mrf_register_interrupt_status.toUInt16 chip).2
  polled : ∀ system chip, Inv system chip → Inv system
    (Chip.log ((Chip.device softwareReset).read mrf_register_interrupt_status.toUInt16 chip).2
      (.returned .newPacketAvailable (.flag
        (chip.memories.short mrf_register_interrupt_status.toNat >>> 3 &&& 1 != 0))))
  sized : ∀ system chip, Inv system chip → Inv system
    (chip.log (.returned .getReceivedPacketSize
      (.size (chip.memories.long mrf_rx_fifo_start.toNat + frame_length_field_size))))
  fetched : ∀ system chip buffer (size : UInt8), Inv system chip → Inv system
    (chip.log (.returned (.fetchPacketBlocking buffer size) (.packet
      (Memory.overwrite buffer 0
        (chip.memories.long.contents mrf_rx_fifo_start.toNat size.toNat)))))
  finished : ∀ system chip c, c = .enablePromiscuousMode ∨ c = .disablePromiscuousMode →
    Inv system chip → Inv system (chip.log (.returned c .nothing))
  setter : ∀ system chip call state, SetterCall.apply system.impl call =
      .ret { system.impl with state } →
    Inv system chip → Inv { system with impl := { system.impl with state } }
      (chip.log (.returned (.setter call) .nothing))
  overwritten : ∀ system chip config, Inv system chip →
    Inv { system with config } (chip.log (.returned (.overwriteConfig config) .nothing))

namespace Served

variable {softwareReset} {Inv : System → Chip → Prop}

theorem stable (h : Served softwareReset Inv) (system : System) :
    (Chip.machine softwareReset).Stable (OnDevice (Inv system)) :=
  OnDevice.stable fun chip e hs => h.event system chip e hs

-- A call of one transaction.
private theorem transacts (h : Served softwareReset Inv) {system : System} {c : Call}
    {p : Driver (System × Answer)}
    (hp : ∀ chip, Inv system chip → ∃ io answer next,
      Transacts (Chip.device softwareReset) Chip.occur (Inv system) p chip
        ({ system with impl := { system.impl with io } }, answer) next ∧
        Inv system (Chip.log next (.returned c answer))) :
    (Chip.machine softwareReset).Triple (OnDevice (Inv system)) (OnDevice (Inv system)) p
      fun r bus => OnDevice (Inv r.1) (component.answered c r.2 bus) := by
  refine Transacts.triple
    (Q := fun (r : System × Answer) chip => Inv r.1 (Chip.log chip (.returned c r.2)))
    (fun _ hs => hs) (fun chip e hs => h.event system chip e hs) fun chip hs => ?_
  obtain ⟨io, answer, next, ht, hnext⟩ := hp chip hs
  exact ⟨_, next, ht, h.io system _ io hnext⟩

private theorem promiscuousMode_call (h : Served softwareReset Inv) (system : System) {c : Call}
    (hc : c = .enablePromiscuousMode ∨ c = .disablePromiscuousMode)
    (value : UInt8) : (Chip.machine softwareReset).Triple (OnDevice (Inv system))
      (OnDevice (Inv system)) (system.procedure (system.impl.onIo fun io =>
        io.setControlRegister mrf_register_receive_mac_control.toUInt16 value))
      fun r bus => OnDevice (Inv r.1) (component.answered c r.2 bus) := by
  refine h.transacts fun chip hs => ?_
  have hwrite := h.promiscuousMode system chip value hs
  obtain ⟨io, ht⟩ := system.impl.promiscuousMode_transacts (Chip.device softwareReset) Chip.occur
    value hs hwrite
  exact ⟨io, .nothing, _, ht.map fun impl => (({ system with impl }, .nothing) : System × Answer),
    h.finished system _ c hc hwrite⟩

private theorem ret {system next : System} {c : Call} {answer : Answer}
    (hnext : ∀ chip, Inv system chip → Inv next (chip.log (.returned c answer))) :
    (Chip.machine softwareReset).Triple (OnDevice (Inv system)) (OnDevice (Inv system))
      (.ret (next, answer)) fun r bus => OnDevice (Inv r.1) (component.answered c r.2 bus) :=
  .ret (fun _ hs => hs) fun bus hs => hnext bus.device hs

-- Then each of these calls keeps it up, from its start to its end.
theorem call (h : Served softwareReset Inv) (c : Call) (system : System) (hc : c ≠ .configure)
    (hsend : c ≠ .sendBlocking) :
    (Chip.machine softwareReset).Triple (OnDevice (Inv system)) (OnDevice (Inv system))
      (component.call c system)
      fun r bus => OnDevice (Inv r.1) (component.answered c r.2 bus) := by
  cases c with
  | configure => exact absurd rfl hc
  | sendBlocking => exact absurd rfl hsend
  | setter setter =>
      obtain ⟨state, hstate⟩ := system.impl.setter_returns_always setter
      have hcall : component.call (.setter setter) system =
          .ret ({ system with impl := { system.impl with state } }, .nothing) := by
        simp only [component, System.call, procedure, hstate]
        rfl
      rw [hcall]
      exact ret fun chip hs => h.setter system chip setter state hstate hs
  | enablePromiscuousMode => exact h.promiscuousMode_call system (.inl rfl) 1
  | disablePromiscuousMode => exact h.promiscuousMode_call system (.inr rfl) 0
  | newPacketAvailable =>
      refine h.transacts fun chip hs => ?_
      obtain ⟨io, ht⟩ := system.impl.newMessageAvailable_transacts (Chip.device softwareReset)
        Chip.occur hs (h.readStatus system chip hs)
      exact ⟨io, _, _, ht.map fun r => (({ system with impl := r.1 }, .flag r.2) : System × Answer),
        h.polled system chip hs⟩
  | getReceivedPacketSize =>
      refine h.transacts fun chip hs => ?_
      have hread : Inv system
          ((Chip.device softwareReset).readLongs mrf_rx_fifo_start.toNat 1 chip).2 := by
        rwa [Chip.readLongs_eq]
      obtain ⟨io, ht⟩ := system.impl.getReceivedMessageSize_transacts (Chip.device softwareReset)
        Chip.occur hs hread
      rw [Chip.readLongs_eq] at ht
      exact ⟨io, _, _, ht.map fun r => (({ system with impl := r.1 }, .size r.2) : System × Answer),
        h.sized system chip hs⟩
  | fetchPacketBlocking buffer size =>
      refine h.transacts fun chip hs => ?_
      have hread : Inv system
          ((Chip.device softwareReset).readLongs mrf_rx_fifo_start.toNat size.toNat chip).2 := by
        rwa [Chip.readLongs_eq]
      obtain ⟨io, ht⟩ := system.impl.fetchMessageBlocking_transacts (Chip.device softwareReset)
        Chip.occur buffer size hs hread
      rw [Chip.readLongs_eq] at ht
      exact ⟨io, _, _, ht.map fun r => (({ system with impl := r.1 }, .packet r.2) : System × Answer),
        h.fetched system chip buffer size hs⟩
  | overwriteConfig config => exact ret fun chip hs => h.overwritten system chip config hs

variable {I : Call → System → Chip → Prop}
  (hI : ∀ c system chip, Inv system chip → I c system chip)
  (hconfigure : ∀ system : System, (Chip.machine softwareReset).Triple
    (OnDevice (I .configure system)) (OnDevice (Inv system)) (component.call .configure system)
    fun r bus => OnDevice (Inv r.1) (component.answered .configure r.2 bus))
  (hsend : ∀ system : System, (Chip.machine softwareReset).Triple
    (OnDevice (I .sendBlocking system)) (OnDevice (Inv system))
    (component.call .sendBlocking system)
    fun r bus => OnDevice (Inv r.1) (component.answered .sendBlocking r.2 bus))

include hI hconfigure hsend

-- Every call leads back to it if configuring and sending do.
theorem triple (h : Served softwareReset Inv) (c : Call) (system : System) :
    (Chip.machine softwareReset).Triple (OnDevice (I c system)) (OnDevice (Inv system))
      (component.call c system)
      fun r bus => OnDevice (Inv r.1) (component.answered c r.2 bus) := by
  by_cases hc : c = .configure
  · rw [hc]
    exact hconfigure system
  · by_cases hs : c = .sendBlocking
    · rw [hs]
      exact hsend system
    · exact (h.call c system hc hs).weaken fun bus => hI c system bus.device

theorem run (h : Served softwareReset Inv) (system : System) (memories : Memories)
    (hinit : Inv system ⟨memories, []⟩) (moves : List (SessionMove Call ChipEvent)) :
    Session.Rests (Chip.machine softwareReset) component (fun c system => OnDevice (I c system))
      (fun system => OnDevice (Inv system)) (System.run softwareReset system memories moves) := by
  have hstart : Session.Rests (Chip.machine softwareReset) component
      (fun c system => OnDevice (I c system)) (fun system => OnDevice (Inv system))
      ⟨system, ⟨.deselected, ⟨memories, []⟩⟩, none⟩ := hinit
  exact Session.run_rests h.stable (h.triple hI hconfigure hsend) hstart moves

end Served

-- What driver and chip have to go through outside of a configure: every event,
-- every access to the chip that a call makes, and every answer that is noted.
structure Kept (Inv : System → Chip → Prop) : Prop where
  io : ∀ system chip io, Inv system chip → Inv { system with impl := { system.impl with io } } chip
  event : ∀ system chip e, Inv system chip → Inv system (Chip.occur e chip)
  write : ∀ system chip (write : RegisterWrite),
    write.1 = mrf_register_receive_mac_control.toUInt16 ∨
      write.1 = mrf_register_tx_normal_fifo_control.toUInt16 →
    Inv system chip → Inv system ((Chip.device softwareReset).write write.1 write.2 chip)
  writeLongs : ∀ system chip address (bytes : List UInt8), address + bytes.length ≤ 0x200 →
    Inv system chip → Inv system ((Chip.device softwareReset).writeLongs address bytes chip)
  readStatus : ∀ system chip, Inv system chip → Inv system
    ((Chip.device softwareReset).read mrf_register_interrupt_status.toUInt16 chip).2
  polled : ∀ system chip, Inv system chip → Inv system
    (Chip.log ((Chip.device softwareReset).read mrf_register_interrupt_status.toUInt16 chip).2
      (.returned .newPacketAvailable (.flag
        (chip.memories.short mrf_register_interrupt_status.toNat >>> 3 &&& 1 != 0))))
  sized : ∀ system chip, Inv system chip → Inv system
    (chip.log (.returned .getReceivedPacketSize
      (.size (chip.memories.long mrf_rx_fifo_start.toNat + frame_length_field_size))))
  fetched : ∀ system chip buffer (size : UInt8), Inv system chip → Inv system
    (chip.log (.returned (.fetchPacketBlocking buffer size) (.packet
      (Memory.overwrite buffer 0
        (chip.memories.long.contents mrf_rx_fifo_start.toNat size.toNat)))))
  finished : ∀ system chip c,
    c = .sendBlocking ∨ c = .enablePromiscuousMode ∨ c = .disablePromiscuousMode →
    Inv system chip → Inv system (chip.log (.returned c .nothing))
  setter : ∀ system chip call state, SetterCall.apply system.impl call =
      .ret { system.impl with state } →
    Inv system chip → Inv { system with impl := { system.impl with state } }
      (chip.log (.returned (.setter call) .nothing))
  overwritten : ∀ system chip config, Inv system chip →
    Inv { system with config } (chip.log (.returned (.overwriteConfig config) .nothing))

namespace Kept

variable {softwareReset} {Inv : System → Chip → Prop}

theorem stable (h : Kept softwareReset Inv) (system : System) :
    (Chip.machine softwareReset).Stable (OnDevice (Inv system)) :=
  OnDevice.stable fun chip e hs => h.event system chip e hs

theorem served (h : Kept softwareReset Inv) : Served softwareReset Inv where
  io := h.io
  event := h.event
  promiscuousMode system chip value := h.write system chip (_, value) (.inl rfl)
  readStatus := h.readStatus
  polled := h.polled
  sized := h.sized
  fetched := h.fetched
  finished system chip c hc := h.finished system chip c (.inr hc)
  setter := h.setter
  overwritten := h.overwritten

-- Header and payload are at most 512 bytes, whatever their lengths are.
private theorem sendBlocking (h : Kept softwareReset Inv) (system : System) :
    (Chip.machine softwareReset).Triple (OnDevice (Inv system)) (OnDevice (Inv system))
      (System.call .sendBlocking system)
      fun r bus => OnDevice (Inv r.1) (component.answered .sendBlocking r.2 bus) := by
  have hlength (state : MrfState) : state.getFullHeaderField.bytes.length < 256 ∧
      state.getFullHeaderLength.toNat + state.getPayloadField.bytes.length < 0x200 := by
    have h₁ := state.getFullHeaderLength.toNat_lt
    have h₂ := state.getPayloadLength.toNat_lt
    simp only [MrfField.bytes, BytePointer.bytes, List.length_map, List.length_range]
    exact ⟨h₁, by change _ + state.getPayloadLength.toNat < _; omega⟩
  obtain ⟨hheader, hpayload⟩ := hlength system.impl.state
  refine (system.impl.sendBlocking_triple (Chip.device softwareReset) Chip.occur
    (P := fun _ => Inv system) (fun _ _ hs => hs) (fun _ chip e hs => h.event system chip e hs)
    (fun chip hs => h.writeLongs system chip _ _ (by omega) hs)
    (fun chip hs => h.writeLongs system chip _ _ (by omega) hs)
    (fun chip hs => h.write system chip (_, 1) (.inr rfl) hs)
    (fun chip hs => h.readStatus system chip hs)).map _ ?_
  rintro _ bus ⟨hs, io, rfl⟩
  exact h.io system _ io (h.finished system _ _ (.inl rfl) hs)

-- Then every call keeps it up, from its start to its end.
theorem call (h : Kept softwareReset Inv) (c : Call) (system : System) (hc : c ≠ .configure) :
    (Chip.machine softwareReset).Triple (OnDevice (Inv system)) (OnDevice (Inv system))
      (component.call c system)
      fun r bus => OnDevice (Inv r.1) (component.answered c r.2 bus) := by
  by_cases hsend : c = .sendBlocking
  · rw [hsend]
    exact h.sendBlocking system
  · exact h.served.call c system hc hsend

-- What a configure keeps up too holds all along a session.
theorem run (h : Kept softwareReset Inv)
    (hconfigure : ∀ system : System, (Chip.machine softwareReset).Triple (OnDevice (Inv system))
      (OnDevice (Inv system)) (component.call .configure system)
      fun r bus => OnDevice (Inv r.1) (component.answered .configure r.2 bus))
    (system : System) (memories : Memories) (hinit : Inv system ⟨memories, []⟩)
    (moves : List (SessionMove Call ChipEvent)) :
    Inv (System.run softwareReset system memories moves).state
      (System.run softwareReset system memories moves).world.device := by
  have hcall (c : Call) (system : System) (_ : True) :
      (Chip.machine softwareReset).Triple (OnDevice (Inv system)) (OnDevice (Inv system))
        (component.call c system)
        fun r bus => OnDevice (Inv r.1) (component.answered c r.2 bus) := by
    by_cases hc : c = .configure
    · rw [hc]
      exact hconfigure system
    · exact h.call c system hc
  have hstart : OnDevice (Inv system) ⟨.deselected, ⟨memories, []⟩⟩ := hinit
  exact Session.run_invariant h.stable hcall hstart moves fun _ _ => trivial

end Kept

section Records

omit [BitManipulation]

-- For a run that can be computed.
def isConfigured : Happening → Bool
  | .returned .configure .nothing => true
  | _ => false

theorem configured_of_any {history : List Happening} (h : history.any isConfigured) :
    .returned .configure .nothing ∈ history := by
  obtain ⟨happening, hmem, hh⟩ := List.any_eq_true.mp h
  unfold isConfigured at hh
  split at hh
  · exact hmem
  · cases hh

end Records

end Mac802154.System
