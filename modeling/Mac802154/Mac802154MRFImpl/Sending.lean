import Mac802154.Mac802154MRFImpl.Theorems
import Mac802154.MRF24J40.Theorems

namespace Mac802154

open Library

namespace Chip

-- These bytes stand at the start of the TX FIFO.
def Stores (bytes : List UInt8) (chip : Chip) : Prop :=
  chip.memories.long.StartsWith bytes

theorem Stores.occur {bytes : List UInt8} {chip : Chip} (h : chip.Stores bytes)
    (hlength : bytes.length ≤ mrf_rx_fifo_start.toNat) (e : ChipEvent) :
    (Chip.occur e chip).Stores bytes := by
  have hkeep : (Chip.occur e chip).memories.long.contents 0 bytes.length =
      chip.memories.long.contents 0 bytes.length :=
    Memory.contents_congr fun i _ hi => long_occur e chip i (.inl (by omega))
  exact hkeep.trans h

theorem Stores.writeLongs (softwareReset : Chip → Memories) {bytes : List UInt8} {chip : Chip}
    (h : chip.Stores bytes) (behind : List UInt8) :
    ((device softwareReset).writeLongs bytes.length behind chip).Stores (bytes ++ behind) := by
  rw [writeLongs_eq]
  have hbytes : chip.memories.long.contents 0 bytes.length = bytes := h
  have hbehind := Memory.contents_overwrite chip.memories.long bytes.length behind
  have hbefore := Memory.contents_overwrite_of_disjoint chip.memories.long 0 bytes.length bytes.length
    behind (.inl (by omega))
  rw [Stores, Memory.StartsWith, List.length_append, Memory.contents_append, Nat.zero_add, hbehind,
    hbefore, hbytes]

-- How far sendBlocking has got with its message on a chip of which `P` holds
-- before the trigger and `Q` after it.
def Sending (header image : List UInt8) (P Q : Chip → Prop) : Nat → Chip → Prop
  | 0, chip => P chip
  | 1, chip => P chip ∧ chip.Stores header
  | 2, chip => P chip ∧ chip.Stores image
  | _, chip => Q chip

theorem Sending.occur {header image : List UInt8} {P Q : Chip → Prop}
    (hP : ∀ chip e, P chip → P (Chip.occur e chip)) (hQ : ∀ chip e, Q chip → Q (Chip.occur e chip))
    (hheader : header.length ≤ mrf_rx_fifo_start.toNat)
    (himage : image.length ≤ mrf_rx_fifo_start.toNat) {i : Nat} {chip : Chip}
    (h : Sending header image P Q i chip) (e : ChipEvent) :
    Sending header image P Q i (Chip.occur e chip) := by
  rcases i with _ | _ | _ | i
  · exact hP chip e h
  · exact ⟨hP chip e h.1, h.2.occur hheader e⟩
  · exact ⟨hP chip e h.1, h.2.occur himage e⟩
  · exact hQ chip e h

end Chip

namespace Mrf

variable {softwareReset : Chip → Memories} {I P Q R : Chip → Prop}

-- What sendBlocking does on the chip: when the trigger is written, the two
-- fields stand in the TX FIFO one behind the other, and it returns from the
-- first read of the interrupt status that finds bit 0 set.
theorem sendBlocking_stores (impl : Mrf) (hIP : ∀ chip, P chip → I chip)
    (hIQ : ∀ chip, Q chip → I chip) (hIR : ∀ chip, R chip → I chip)
    (hP : ∀ chip e, P chip → P (Chip.occur e chip)) (hQ : ∀ chip e, Q chip → Q (Chip.occur e chip))
    (hlong : ∀ chip long, P chip → P { chip with memories := { chip.memories with long } })
    (htrigger : ∀ chip, P chip →
      chip.Stores (impl.state.getFullHeaderField.bytes ++ impl.state.getPayloadField.bytes) →
      Q ((Chip.device softwareReset).write mrf_register_tx_normal_fifo_control.toUInt16 1 chip))
    (hpoll : ∀ chip, Q chip →
      if chip.memories.short mrf_register_interrupt_status.toNat &&& 1 != 0 then
        R (Chip.log { chip with memories := Chip.setStatus chip.memories 0 } .statusRead)
      else Q (Chip.log { chip with memories := Chip.setStatus chip.memories 0 } .statusRead)) :
    (Chip.machine softwareReset).Triple (OnDevice I) (OnDevice P) impl.sendBlocking
      fun next => OnDevice fun chip => R chip ∧ ∃ io, next = { impl with io } := by
  have haddress : impl.state.getFullHeaderField.bytes.length = impl.state.getFullHeaderLength.toNat :=
    impl.state.getFullHeaderField.length_bytes
  have hheader := impl.state.getFullHeaderField.length_bytes_lt
  have hpayload := impl.state.getPayloadField.length_bytes_lt
  have hfifo : mrf_rx_fifo_start.toNat = 768 := rfl
  have hwrite (address : Nat) (bytes : List UInt8) (chip : Chip) (h : P chip) :
      P ((Chip.device softwareReset).writeLongs address bytes chip) := by
    rw [Chip.writeLongs_eq]
    exact hlong chip _ h
  refine impl.sendBlocking_waits (Chip.device softwareReset) Chip.occur
    (P := Chip.Sending impl.state.getFullHeaderField.bytes
      (impl.state.getFullHeaderField.bytes ++ impl.state.getPayloadField.bytes) P Q)
    (fun i chip h => ?_) hIR (fun i chip e h => h.occur hP hQ ?_ ?_ e) (fun chip h => ?_)
    (fun chip h => ?_) (fun chip h => htrigger chip h.1 h.2) hpoll
  · rcases i with _ | _ | _ | i
    · exact hIP chip h
    · exact hIP chip h.1
    · exact hIP chip h.1
    · exact hIQ chip h
  · omega
  · rw [List.length_append]
    omega
  · have hempty : chip.Stores [] := rfl
    exact ⟨hwrite _ _ chip h, hempty.writeLongs softwareReset _⟩
  · refine ⟨hwrite _ _ chip h.1, ?_⟩
    rw [← haddress]
    exact h.2.writeLongs softwareReset _

end Mrf

end Mac802154
