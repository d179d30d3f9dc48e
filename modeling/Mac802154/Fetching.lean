import Mac802154.Notification

namespace Mac802154

open Library

-- The first byte of a frame is its length, without this byte itself.
def frameLength (frame : Vector UInt8 mrf_rx_fifo_length) : UInt8 :=
  frame.toList.headD 0

-- The frame that has arrived last, since the chip was last reset.
def latestArrival : List Happening → Option (Vector UInt8 mrf_rx_fifo_length)
  | [] => none
  | .arrival frame :: _ => some frame
  | .softwareReset :: _ => none
  | _ :: history => latestArrival history

-- Every size that was handed out is that of the latest frame, and every packet
-- has the bytes of the latest frame, as many as were asked for, and behind them
-- what the buffer had there.
def Answered : List Happening → Prop
  | [] => True
  | .returned .getReceivedPacketSize answer :: history =>
      (∀ frame, latestArrival history = some frame →
        answer = .size (frameLength frame + frame_length_field_size)) ∧ Answered history
  | .returned (.fetchPacketBlocking buffer size) answer :: history =>
      (∃ packet, answer = .packet packet ∧ (∀ i, size.toNat ≤ i → packet i = buffer i) ∧
        ∀ frame, latestArrival history = some frame →
          ∀ i < size.toNat, i < mrf_rx_fifo_length → packet i = frame.toList.getD i 0) ∧
      Answered history
  | _ :: history => Answered history

theorem Answered.suffix {later earlier : List Happening} (h : Answered (later ++ earlier)) :
    Answered earlier := by
  induction later with
  | nil => exact h
  | cons happening later ih =>
      apply ih
      cases happening with
      | returned c answer =>
          cases c with
          | getReceivedPacketSize => exact h.2
          | fetchPacketBlocking buffer size => exact h.2
          | _ => exact h
      | _ => exact h

theorem mem_of_latestArrival {history : List Happening}
    {frame : Vector UInt8 mrf_rx_fifo_length} (h : latestArrival history = some frame) :
    .arrival frame ∈ history := by
  induction history with
  | nil => cases h
  | cons happening history ih =>
      cases happening with
      | arrival other =>
          cases h
          exact List.mem_cons_self
      | softwareReset => cases h
      | _ => exact List.mem_cons_of_mem _ (ih h)

theorem latestArrival_append {later earlier : List Happening}
    {frame : Vector UInt8 mrf_rx_fifo_length} (h : latestArrival earlier = some frame)
    (hreset : .softwareReset ∉ later) : ∃ latest, latestArrival (later ++ earlier) = some latest := by
  induction later with
  | nil => exact ⟨frame, h⟩
  | cons happening later ih =>
      obtain ⟨latest, hlatest⟩ := ih fun hr => hreset (List.mem_cons_of_mem _ hr)
      cases happening with
      | arrival other => exact ⟨other, rfl⟩
      | softwareReset => exact absurd List.mem_cons_self hreset
      | _ => exact ⟨latest, hlatest⟩

theorem latestArrival_of_arrivedSinceRead {history : List Happening}
    (h : arrivedSinceRead history = true) : ∃ frame, latestArrival history = some frame := by
  induction history with
  | nil => cases h
  | cons happening history ih =>
      cases happening with
      | arrival frame => exact ⟨frame, rfl⟩
      | statusRead => cases h
      | softwareReset => cases h
      | _ => exact ih h

-- The buffer holds one frame that has arrived, and all of it; nothing else in it
-- has changed.
def WholeFrame (history : List Happening) (buffer packet : BytePointer) (size : UInt8) : Prop :=
  ∃ frame, .arrival frame ∈ history ∧
    Memory.contents packet 0 size.toNat = frame.toList.take size.toNat ∧
    (packet 0).toNat + 1 = size.toNat ∧ ∀ i, size.toNat ≤ i → packet i = buffer i

-- The size is taken from one frame and the bytes from another.
theorem wholeFrame_iff {history : List Happening} {buffer packet : BytePointer} {size : UInt8}
    {first last : Vector UInt8 mrf_rx_fifo_length} (hlast : latestArrival history = some last)
    (hsize : size = frameLength first + frame_length_field_size)
    (hbehind : ∀ i, size.toNat ≤ i → packet i = buffer i)
    (hpacket : ∀ i < size.toNat, i < mrf_rx_fifo_length → packet i = last.toList.getD i 0) :
    WholeFrame history buffer packet size ↔
      frameLength last = frameLength first ∧ (frameLength first).toNat < mrf_rx_fifo_length := by
  have hfifo : mrf_rx_fifo_length = 0x90 := rfl
  have hlength (frame : Vector UInt8 mrf_rx_fifo_length) : frame.toList.length = 0x90 :=
    Vector.length_toList
  have hnat : size.toNat = ((frameLength first).toNat + 1) % 256 := by
    rw [hsize, UInt8.toNat_add]
    rfl
  have hfirst := (frameLength first).toNat_lt
  have hzero (h : 0 < size.toNat) : packet 0 = frameLength last := by
    rw [hpacket 0 h (by omega), frameLength, List.headD_eq_head?_getD, List.head?_eq_getElem?,
      List.getD_eq_getElem?_getD]
  constructor
  · rintro ⟨frame, -, hcontents, he, -⟩
    have htake := congrArg List.length hcontents
    rw [Memory.length_contents, List.length_take, hlength] at htake
    rw [hzero (by omega)] at he
    exact ⟨UInt8.toNat_inj.mp (by omega), by omega⟩
  · rintro ⟨he, hlt⟩
    refine ⟨last, mem_of_latestArrival hlast, ?_, ?_, hbehind⟩
    · have htake : (last.toList.take size.toNat).length = size.toNat := by
        rw [List.length_take, hlength]
        omega
      have hbytes := Memory.contents_eq_of_getD packet 0 (last.toList.take size.toNat) fun i hi => by
        rw [htake] at hi
        rw [Nat.zero_add, hpacket i hi (by omega), List.getD_eq_getElem?_getD,
          List.getD_eq_getElem?_getD, List.getElem?_take_of_lt hi]
      rwa [htake] at hbytes
    · rw [hzero (by omega), he]
      omega

namespace Chip

def receivedBytes (chip : Chip) : List UInt8 :=
  chip.memories.long.contents mrf_rx_fifo_start.toNat mrf_rx_fifo_length

-- The RX FIFO is the latest frame, and has been whenever it was read.
structure Buffers (chip : Chip) : Prop where
  fifo : ∀ frame, latestArrival chip.history = some frame → chip.receivedBytes = frame.toList
  answered : Answered chip.history

theorem Buffers.of_eq {chip next : Chip} (h : chip.Buffers)
    (hbytes : next.receivedBytes = chip.receivedBytes)
    (hlatest : latestArrival next.history = latestArrival chip.history)
    (hanswered : Answered next.history) : next.Buffers := by
  refine ⟨fun frame hf => ?_, hanswered⟩
  rw [hlatest] at hf
  rw [hbytes, h.fifo frame hf]

theorem Buffers.occur {chip : Chip} (h : chip.Buffers) (e : ChipEvent) :
    (Chip.occur e chip).Buffers := by
  cases e with
  | arrival frame =>
      simp only [Chip.occur]
      split
      · refine ⟨fun other ho => ?_, h.answered⟩
        obtain rfl : frame = other := Option.some.inj ho
        have hlength : frame.toList.length = mrf_rx_fifo_length := Vector.length_toList
        have hbytes := Memory.contents_overwrite chip.memories.long mrf_rx_fifo_start.toNat frame.toList
        rwa [hlength] at hbytes
      · exact h
  | transmissionFinished => exact h.of_eq rfl rfl h.answered

section Device

variable (softwareReset : Chip → Memories)

theorem receivedBytes_write (write : RegisterWrite) (chip : Chip) (hreset : isReset write = false)
    (hlt : write.1.toNat < mrf_rx_fifo_start.toNat) :
    ((device softwareReset).write write.1 write.2 chip).receivedBytes = chip.receivedBytes := by
  refine Memory.contents_congr fun i hlo hhi => ?_
  have hstart : mrf_rx_fifo_start.toNat = 0x300 := rfl
  have hlength : mrf_rx_fifo_length = 0x90 := rfl
  have hnat : (UInt16.ofNat i).toNat = i := UInt16.toNat_ofNat_of_lt' (by unfold UInt16.size; omega)
  have hlong : isLongAddress (UInt16.ofNat i) = true := by
    have hlast : (0x3F : UInt16).toNat = 63 := rfl
    simp only [isLongAddress, gt_iff_lt, decide_eq_true_eq, UInt16.lt_iff_toNat_lt, hnat]
    omega
  have hne : UInt16.ofNat i ≠ write.1 := fun he => by
    rw [← he, hnat] at hlt
    omega
  have hregister := register_write softwareReset write chip hreset (UInt16.ofNat i)
  rw [if_neg hne] at hregister
  unfold register Memories.register at hregister
  rwa [hlong, hnat] at hregister

theorem Buffers.write {chip : Chip} (h : chip.Buffers) (write : RegisterWrite)
    (hlt : write.1.toNat < mrf_rx_fifo_start.toNat) :
    ((device softwareReset).write write.1 write.2 chip).Buffers := by
  rcases write_cases softwareReset write chip with ⟨-, he⟩ | ⟨hr, he⟩ | ⟨hr, -, he⟩
  · rw [he]
    refine ⟨fun frame hf => ?_, h.answered⟩
    cases hf
  · have hbytes := receivedBytes_write softwareReset write chip hr hlt
    rw [he] at hbytes ⊢
    exact h.of_eq hbytes rfl h.answered
  · have hbytes := receivedBytes_write softwareReset write chip hr hlt
    rw [he] at hbytes ⊢
    exact h.of_eq hbytes rfl h.answered

theorem Buffers.writeLongs {chip : Chip} (h : chip.Buffers) (address : Nat) (bytes : List UInt8)
    (hlength : address + bytes.length ≤ mrf_rx_fifo_start.toNat) :
    ((device softwareReset).writeLongs address bytes chip).Buffers := by
  rw [writeLongs_eq]
  exact h.of_eq (Memory.contents_overwrite_of_disjoint _ _ _ _ _ (.inr hlength)) rfl h.answered

end Device

end Chip

namespace System

variable [BitManipulation] {softwareReset : Chip → Memories}

omit [BitManipulation] in
-- Answers that say nothing about the RX FIFO.
private theorem buffers_returned {chip : Chip} (h : chip.Buffers) {c : Call}
    (hsize : c ≠ .getReceivedPacketSize) (hfetch : ∀ buffer size, c ≠ .fetchPacketBlocking buffer size)
    (answer : Answer) : (chip.log (.returned c answer)).Buffers := by
  cases c with
  | getReceivedPacketSize => exact absurd rfl hsize
  | fetchPacketBlocking buffer size => exact absurd rfl (hfetch buffer size)
  | _ => exact h.of_eq rfl rfl h.answered

omit [BitManipulation] in
-- The size is the first byte of what the RX FIFO holds.
private theorem buffers_sized {chip : Chip} (h : chip.Buffers) :
    (chip.log (.returned .getReceivedPacketSize
      (.size (chip.memories.long mrf_rx_fifo_start.toNat + frame_length_field_size)))).Buffers := by
  refine h.of_eq rfl rfl ⟨fun frame hf => ?_, h.answered⟩
  rw [frameLength, ← h.fifo frame hf]
  rfl

omit [BitManipulation] in
private theorem buffers_fetched {chip : Chip} (h : chip.Buffers) (buffer : BytePointer)
    (size : UInt8) : (chip.log (.returned (.fetchPacketBlocking buffer size)
      (.packet (Memory.overwrite buffer 0
        (chip.memories.long.contents mrf_rx_fifo_start.toNat size.toNat))))).Buffers := by
  refine h.of_eq rfl rfl ⟨⟨_, rfl, fun i hi => ?_, fun frame hf i hi hlt => ?_⟩, h.answered⟩
  · exact Memory.overwrite_of_not_mem _ _ _ _ (.inr (by rw [Memory.length_contents]; omega))
  · have hcopy := Memory.overwrite_contents_of_lt buffer chip.memories.long 0
      mrf_rx_fifo_start.toNat size.toNat i hi
    rw [Nat.zero_add] at hcopy
    rw [hcopy, ← h.fifo frame hf, Chip.receivedBytes, Memory.contents, List.getD_eq_getElem?_getD,
      List.getElem?_map, List.getElem?_range' hlt, Option.map_some, Option.getD_some, Nat.one_mul]

theorem buffers_kept : Kept softwareReset fun _ chip => chip.Buffers where
  io _ _ _ hs := hs
  event _ _ e hs := hs.occur e
  write _ _ write hw hs := by
    refine hs.write softwareReset write ?_
    rcases hw with hw | hw
    · rw [hw]
      decide
    · rw [hw]
      decide
  writeLongs _ _ address bytes hlength hs :=
    hs.writeLongs softwareReset address bytes (Nat.le_trans hlength (by decide))
  readStatus _ _ hs := hs.of_eq rfl rfl hs.answered
  polled _ _ hs := hs.of_eq rfl rfl hs.answered
  sized _ _ hs := buffers_sized hs
  fetched _ _ buffer size hs := buffers_fetched hs buffer size
  finished _ _ c hc hs := by
    refine buffers_returned hs (fun h => ?_) (fun _ _ h => ?_) .nothing
    · rcases hc with rfl | rfl | rfl <;> cases h
    · rcases hc with rfl | rfl | rfl <;> cases h
  setter _ _ _ _ _ hs := buffers_returned hs (fun h => by cases h) (fun _ _ h => by cases h) .nothing
  overwritten _ _ _ hs :=
    buffers_returned hs (fun h => by cases h) (fun _ _ h => by cases h) .nothing

private theorem configure_buffers (system : System) :
    (Chip.machine softwareReset).Triple (OnDevice Chip.Buffers) (OnDevice Chip.Buffers)
      (component.call .configure system)
      fun r bus => OnDevice Chip.Buffers (component.answered .configure r.2 bus) := by
  have hperforms : Performs (Chip.device softwareReset) Chip.occur _ (configureWrites system.config) _ :=
    system.impl.reconfigure_performs system.config
  have h := hperforms Chip.Buffers (fun _ chip => chip.Buffers) (fun _ _ hs => hs)
    (fun _ _ e hs => hs.occur e)
    (fun _ write _ hw hs => hs.write softwareReset write (configureWrites_lt _ hw)) []
  refine h.map _ ?_
  rintro impl bus ⟨hs, -⟩
  exact buffers_returned hs (fun h => by cases h) (fun _ _ h => by cases h) .nothing

theorem run_buffers (system : System) (memories : Memories)
    (moves : List (SessionMove Call ChipEvent)) :
    (run softwareReset system memories moves).world.device.Buffers :=
  buffers_kept.run configure_buffers system memories ⟨fun _ hf => (by cases hf), trivial⟩ moves

section Calls

variable (hreset : ∀ chip,
  (softwareReset chip).short mrf_register_interrupt_status.toNat >>> 3 &&& 1 = 0)

include hreset

-- What has been polled as available has arrived.
theorem latestArrival_of_poll (system : System) (memories : Memories)
    (moves : List (SessionMove Call ChipEvent)) {later earlier : List Happening} {configured : Answer}
    (hhistory : (run softwareReset system memories moves).world.device.history =
      later ++ .returned .newPacketAvailable (.flag true) :: earlier)
    (hconfigured : .returned .configure configured ∈ earlier) :
    ∃ frame, latestArrival (.returned .newPacketAvailable (.flag true) :: earlier) = some frame := by
  have hrecorded := (run_notifies hreset system memories moves).recorded
  rw [hhistory] at hrecorded
  obtain ⟨⟨before, rfl, hflag⟩, hrest⟩ := Recorded.suffix hrecorded
  have hreset' := Recorded.softwareReset hrest hconfigured
  have hbefore := hflag ((List.mem_cons.mp hreset').resolve_left fun he => by cases he)
  obtain ⟨frame, hframe⟩ := latestArrival_of_arrivedSinceRead (Answer.flag.inj hbefore).symm
  exact ⟨frame, hframe⟩

-- After a configure, what a caller fetches that has polled a packet and asked
-- for its size is one whole frame exactly if no frame of another length has
-- replaced it in between, and the frame fits into the RX FIFO.
theorem fetched_packet_whole_iff (system : System) (memories : Memories)
    (moves : List (SessionMove Call ChipEvent)) (later between' between earlier : List Happening)
    (buffer : BytePointer) (size : UInt8) (fetched configured : Answer)
    (hhistory : (run softwareReset system memories moves).world.device.history =
      later ++ .returned (.fetchPacketBlocking buffer size) fetched ::
        (between' ++ .returned .getReceivedPacketSize (.size size) ::
          (between ++ .returned .newPacketAvailable (.flag true) :: earlier)))
    (hconfigured : .returned .configure configured ∈ earlier)
    (hbetween : .softwareReset ∉ between) (hbetween' : .softwareReset ∉ between') :
    let atSize := between ++ .returned .newPacketAvailable (.flag true) :: earlier
    let atFetch := between' ++ .returned .getReceivedPacketSize (.size size) :: atSize
    ∃ packet first last, fetched = .packet packet ∧ latestArrival atSize = some first ∧
      latestArrival atFetch = some last ∧
      (WholeFrame atFetch buffer packet size ↔
        frameLength last = frameLength first ∧ (frameLength first).toNat < mrf_rx_fifo_length) := by
  intro atSize atFetch
  have hanswered : Answered (run softwareReset system memories moves).world.device.history :=
    (run_buffers system memories moves).answered
  rw [hhistory] at hanswered
  obtain ⟨⟨packet, hpacket, hbehind, hbytes⟩, hrest⟩ := Answered.suffix hanswered
  obtain ⟨hsize, -⟩ := Answered.suffix hrest
  have hpolled : (run softwareReset system memories moves).world.device.history =
      (later ++ .returned (.fetchPacketBlocking buffer size) fetched ::
        (between' ++ .returned .getReceivedPacketSize (.size size) :: between)) ++
        .returned .newPacketAvailable (.flag true) :: earlier := by
    rw [hhistory]
    simp only [List.append_assoc, List.cons_append]
  obtain ⟨frame, hframe⟩ := latestArrival_of_poll hreset system memories moves hpolled hconfigured
  obtain ⟨first, hfirst⟩ := latestArrival_append hframe hbetween
  have hsized : latestArrival (.returned .getReceivedPacketSize (.size size) :: atSize) = some first :=
    hfirst
  obtain ⟨last, hlast⟩ := latestArrival_append hsized hbetween'
  exact ⟨packet, first, last, hpacket, hfirst, hlast,
    wholeFrame_iff hlast (Answer.size.inj (hsize first hfirst)) hbehind (hbytes last hlast)⟩

end Calls

section Runs

omit [BitManipulation]

-- What a run that can be computed shows of its record: a poll, the size, an
-- arrival, and then a fetch with this size.
def latestFetch : List Happening → Option (UInt8 × UInt8)
  | .returned (.fetchPacketBlocking _ size) (.packet packet) :: .arrival _ ::
      .returned .getReceivedPacketSize (.size size') ::
      .returned .newPacketAvailable (.flag true) :: _ =>
      if size = size' then some (size, packet 0) else none
  | _ => none

theorem eq_of_latestFetch {history : List Happening} {size first : UInt8}
    (h : latestFetch history = some (size, first)) :
    ∃ (buffer packet : BytePointer) (frame : Vector UInt8 mrf_rx_fifo_length), packet 0 = first ∧
      history = [] ++ .returned (.fetchPacketBlocking buffer size) (.packet packet) ::
        ([.arrival frame] ++ .returned .getReceivedPacketSize (.size size) ::
          ([] ++ .returned .newPacketAvailable (.flag true) :: history.drop 4)) := by
  unfold latestFetch at h
  split at h
  · rename_i buffer size' packet frame size'' earlier
    by_cases he : size' = size''
    · rw [if_pos he] at h
      cases he
      cases h
      exact ⟨buffer, packet, frame, rfl, rfl⟩
    · rw [if_neg he] at h
      cases h
  · cases h

-- A caller polls, asks for the size and fetches eight bytes. One frame arrives
-- before that and another one before the fetch.
def interruptedFetch (first last : UInt8) : List Happening :=
  exampleRun ⟨#v[0xAA, 0xAA], #v[8, 7, 6, 5, 4, 3, 2, 1], #v[0xCC, 0xDD], 12⟩
    (.event (.arrival (Vector.replicate _ first)) :: .call .newPacketAvailable ::
      List.replicate 4 .act ++ .call .getReceivedPacketSize :: List.replicate 4 .act ++
      .event (.arrival (Vector.replicate _ last)) ::
      .call (.fetchPacketBlocking (fun _ => 0) 8) :: List.replicate 4 .act)

theorem fetched_packet_whole :
    ∃ buffer packet, .returned (.fetchPacketBlocking buffer 8) (.packet packet) ∈
        interruptedFetch 7 7 ∧ WholeFrame ((interruptedFetch 7 7).drop 1) buffer packet 8 := by
  have hfetch : latestFetch (interruptedFetch 7 7) = some (8, 7) := by decide +kernel
  obtain ⟨buffer, packet, frame, -, hhistory⟩ := eq_of_latestFetch hfetch
  obtain ⟨packet', first, last, hpacket, hfirst, hlast, hiff⟩ := @fetched_packet_whole_iff
    BitManipulation.reference _ (fun _ => rfl) _ _ _ [] [.arrival frame] [] _ buffer 8 _ .nothing
    hhistory (configured_of_any (by decide +kernel)) (by simp) (by simp)
  have hdrop : (interruptedFetch 7 7).drop 1 = [.arrival frame] ++
      .returned .getReceivedPacketSize (.size 8) :: ([] ++
        .returned .newPacketAvailable (.flag true) :: (interruptedFetch 7 7).drop 4) :=
    congrArg (List.drop 1) hhistory
  have hfirst' : (latestArrival ([] ++ .returned .newPacketAvailable (.flag true) ::
      (interruptedFetch 7 7).drop 4)).map frameLength = some 7 := by decide +kernel
  have hlast' : (latestArrival ((interruptedFetch 7 7).drop 1)).map frameLength = some 7 := by
    decide +kernel
  rw [hfirst] at hfirst'
  rw [hdrop, hlast] at hlast'
  rw [hdrop]
  obtain rfl : packet = packet' := Answer.packet.inj hpacket
  refine ⟨buffer, packet, ?_, hiff.mpr ?_⟩
  · rw [hhistory]
    exact List.mem_cons_self
  · rw [Option.some.inj hfirst', Option.some.inj hlast']
    decide

-- An arrival between the two reads mixes the length of one frame with the
-- bytes of another.
theorem fetched_packet_mixed :
    ¬∀ (moves : List (SessionMove Call ChipEvent)) (later between' between earlier : List Happening)
      (buffer packet : BytePointer) (size : UInt8),
      exampleRun ⟨#v[0xAA, 0xAA], #v[8, 7, 6, 5, 4, 3, 2, 1], #v[0xCC, 0xDD], 12⟩ moves =
        later ++ .returned (.fetchPacketBlocking buffer size) (.packet packet) ::
          (between' ++ .returned .getReceivedPacketSize (.size size) ::
            (between ++ .returned .newPacketAvailable (.flag true) :: earlier)) →
      .returned .configure .nothing ∈ earlier →
      .softwareReset ∉ between → .softwareReset ∉ between' →
      WholeFrame (between' ++ .returned .getReceivedPacketSize (.size size) ::
        (between ++ .returned .newPacketAvailable (.flag true) :: earlier)) buffer packet size := by
  intro h
  have hfetch : latestFetch (interruptedFetch 7 3) = some (8, 3) := by decide +kernel
  obtain ⟨buffer, packet, frame, hpacket, hhistory⟩ := eq_of_latestFetch hfetch
  obtain ⟨-, -, -, hsize, -⟩ := h _ _ _ _ _ buffer packet 8 hhistory
    (configured_of_any (by decide +kernel)) (by simp) (by simp)
  rw [hpacket] at hsize
  exact absurd hsize (by decide)

end Runs

end System

end Mac802154
