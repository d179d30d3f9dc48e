import Mac802154.Library.Program.Client
import Mac802154.Attribution
import Mac802154.Network

namespace Mac802154

open Library Client

namespace Answer

instance : Inhabited Answer := ⟨nothing⟩

-- The results of the three calls that have one.
def toFlag : Answer → Bool
  | flag value => value
  | _ => false

def toSize : Answer → UInt8
  | size value => value
  | _ => 0

def toPacket : Answer → BytePointer
  | packet buffer => buffer
  | _ => fun _ => 0

theorem eq_of_toFlag {answer : Answer} (h : answer.toFlag = true) : answer = .flag true := by
  cases answer with
  | flag value => exact congrArg flag h
  | _ => cases h

end Answer

-- A packet that was fetched since the last transmission, and since then has
-- arrived what was polled before; its size is from `first` and its bytes are
-- from `last`.
def Fetches (history : List Happening) (packet : BytePointer)
    (first last : Vector UInt8 mrf_rx_fifo_length) : Prop :=
  ∃ after between before earlier buffer size frame,
    let atSize := before ++ .arrival frame :: earlier
    let atFetch := between ++ .returned .getReceivedPacketSize (.size size) :: atSize
    history = after ++ .returned (.fetchPacketBlocking buffer size) (.packet packet) :: atFetch ∧
    (∀ long, .transmission long ∉ after ++ between ++ before) ∧
    .softwareReset ∉ after ++ between ++ before ∧
    latestArrival atSize = some first ∧ size = frameLength first + frame_length_field_size ∧
    latestArrival atFetch = some last ∧
    ∀ i < size.toNat, i < mrf_rx_fifo_length → packet i = last.toList.getD i 0

namespace Fetches

variable {history : List Happening} {packet : BytePointer}
  {first last : Vector UInt8 mrf_rx_fifo_length} (h : Fetches history packet first last)

include h

theorem mem_first : .arrival first ∈ history := by
  obtain ⟨after, between, before, earlier, buffer, size, frame, rfl, -, -, hfirst, -, -, -⟩ := h
  exact List.mem_append_right _ (List.mem_cons_of_mem _ (List.mem_append_right _
    (List.mem_cons_of_mem _ (mem_of_latestArrival hfirst))))

theorem mem : .arrival last ∈ history := by
  obtain ⟨after, between, before, earlier, buffer, size, frame, rfl, -, -, -, -, hlast, -⟩ := h
  exact List.mem_append_right _ (List.mem_cons_of_mem _ (mem_of_latestArrival hlast))

theorem packet_eq : ∀ i < (frameLength first + frame_length_field_size).toNat,
    i < mrf_rx_fifo_length → packet i = last.toList.getD i 0 := by
  obtain ⟨after, between, before, earlier, buffer, size, frame, -, -, -, -, rfl, -, hpacket⟩ := h
  exact hpacket

end Fetches

section Drive

variable [BitManipulation] (softwareReset : Chip → Memories) {α : Type}

-- A program that uses the driver, on a chip that has no record yet.
def drive (system : System) (memories : Memories) (client : Client Call Answer α)
    (ms : List (Move ChipEvent)) :
    Driven PeripheralOp PeripheralOp.Response (Bus Chip) System Call Answer α :=
  Driven.run (Chip.machine softwareReset) System.component
    ⟨⟨system, ⟨.deselected, ⟨memories, []⟩⟩, none⟩, client⟩ ms

omit [BitManipulation] in
private theorem said_keeps (entries : List (Call × Answer)) :
    (Chip.device softwareReset).Keeps fun chip => said chip.history = entries where
  readShort address chip hs := by
    simp only [Chip.device]
    split <;> exact hs
  writeShort address value chip hs := by
    simp only [Chip.device]
    split
    · exact hs
    · split <;> exact hs
  readLong _ _ hs := hs
  writeLong _ _ _ hs := hs

theorem said_records : Records (Chip.machine softwareReset) System.component
    fun bus => said bus.device.history where
  perform op bus := (said_keeps softwareReset _).perform op bus rfl
  occur e bus := by
    cases e with
    | arrival frame =>
        simp only [Chip.machine, Device.machine, Chip.occur]
        split <;> rfl
    | transmissionFinished => rfl
  answered _ _ _ := rfl

variable {softwareReset}

theorem drive_session (system : System) (memories : Memories) (client : Client Call Answer α)
    (ms : List (Move ChipEvent)) : ∃ moves,
      (drive softwareReset system memories client ms).session =
        System.run softwareReset system memories moves ∧
      ∀ e, .event e ∈ moves → .event e ∈ ms :=
  Driven.run_session _ ms

-- What a client has made sure of before each sendBlocking had been said before
-- each transmission.
theorem allowed_of_transmission {G : List (Call × Answer) → Call → Prop}
    {Q : α → List (Call × Answer) → Prop} {client : Client Call Answer α}
    (hclient : Conducts G (· = []) client Q) (system : System) (memories : Memories)
    (ms : List (Move ChipEvent)) {later past : List Happening} {long : Memory}
    (hhistory : (drive softwareReset system memories client ms).session.world.device.history =
      later ++ .transmission long :: past) : G (said past) .sendBlocking := by
  obtain ⟨hguarded, hallowed, -⟩ := Driven.run_conducts (said_records softwareReset) hclient system
    ⟨.deselected, ⟨memories, []⟩⟩ rfl ms
  change Guarded G (said (drive softwareReset system memories client ms).session.world.device.history)
    at hguarded
  change ∀ c p, (drive softwareReset system memories client ms).session.running = some (c, p) →
    G (said (drive softwareReset system memories client ms).session.world.device.history) c at hallowed
  obtain ⟨moves, hsession, -⟩ := @drive_session _ softwareReset _ system memories client ms
  have hrests := @System.run_quiet _ softwareReset system memories moves
  have hattributed := @System.run_attributed _ softwareReset system memories moves
  rw [← hsession] at hrests hattributed
  rw [hhistory] at hguarded hattributed hallowed
  rcases Attributed.sendBlocking_of_transmission hattributed with ⟨htransmits, hsaid⟩ | ⟨after, answer, hsaid⟩
  · cases hrunning : (drive softwareReset system memories client ms).session.running with
    | none =>
        have hsilent := (hrests.idle hrunning).silent
        rw [hhistory, htransmits] at hsilent
        cases hsilent
    | some cp =>
        obtain ⟨c, p⟩ := cp
        have htransmits' := (hrests.running hrunning).transmits
        rw [hhistory] at htransmits'
        obtain rfl := htransmits' htransmits
        rw [hsaid] at hallowed
        exact hallowed _ p hrunning
  · rw [hsaid] at hguarded
    exact hguarded.of_append

end Drive

section Fetch

-- A poll that finds a packet comes straight from a read of the status, and a
-- frame has arrived since the read before.
theorem arrival_of_poll {history : List Happening} {configured : Answer}
    (hrecorded : Recorded (.returned .newPacketAvailable (.flag true) :: history))
    (hconfigured : (.configure, configured) ∈ said history) :
    ∃ newer frame older, history = .statusRead :: (newer ++ .arrival frame :: older) ∧
      .statusRead ∉ newer ∧ .softwareReset ∉ newer ∧
      ∃ latest, latestArrival history = some latest := by
  obtain ⟨⟨before, rfl, hflag⟩, hrest⟩ := hrecorded
  have hreset := Recorded.softwareReset hrest (returned_of_mem_said hconfigured)
  have harrived : arrivedSinceRead before = true :=
    (Answer.flag.inj (hflag ((List.mem_cons.mp hreset).resolve_left fun he => by cases he))).symm
  obtain ⟨newer, frame, older, rfl, hread, hnewer⟩ := exists_of_arrivedSinceRead harrived
  obtain ⟨latest, hlatest⟩ := latestArrival_of_arrivedSinceRead harrived
  exact ⟨newer, frame, older, rfl, hread, hnewer, latest, hlatest⟩

variable {past : List Happening} {front rest : List (Call × Answer)} {buffer : BytePointer}
  {fetched sized configured : Answer}

-- The record of a caller that has configured its driver, polled a packet and
-- then asked for the size and fetched as much, and has sent nothing since.
theorem fetches_of_said (hrecorded : Recorded past) (hanswered : Answered past)
    (hattributed : Attributed past) (hsilent : transmitting past = false)
    (hkept : resetting past = false)
    (hsaid : said past = front ++ (.fetchPacketBlocking buffer sized.toSize, fetched) ::
      (.getReceivedPacketSize, sized) :: (.newPacketAvailable, .flag true) :: rest)
    (hfront : ∀ entry ∈ front, entry.1 ≠ .sendBlocking ∧ entry.1 ≠ .configure)
    (hconfigured : (.configure, configured) ∈ rest) :
    ∃ first last, Fetches past fetched.toPacket first last := by
  obtain ⟨after, atFetch, rfl, hafter, hfetch⟩ := of_said_append_cons hsaid
  obtain ⟨between, atSize, rfl, hbetween, hsize⟩ := of_said_cons hfetch
  obtain ⟨before, atPoll, rfl, hbefore, rfl⟩ := of_said_cons hsize
  obtain ⟨⟨packet, rfl, -, hbytes⟩, hanswered'⟩ := Answered.suffix hanswered
  obtain ⟨hsized, -⟩ := Answered.suffix hanswered'
  -- What the caller has done since the poll.
  let done := before ++ [.returned .newPacketAvailable (.flag true)]
  let whole := after ++ .returned (.fetchPacketBlocking buffer sized.toSize) (.packet packet) ::
    (between ++ .returned .getReceivedPacketSize sized :: done)
  have hwhole : after ++ .returned (.fetchPacketBlocking buffer sized.toSize) (.packet packet) ::
      (between ++ .returned .getReceivedPacketSize sized ::
        (before ++ .returned .newPacketAvailable (.flag true) :: atPoll)) = whole ++ atPoll := by
    simp [whole, done]
  have hentries (entry : Call × Answer) (he : entry ∈ said whole) :
      entry.1 ≠ .sendBlocking ∧ entry.1 ≠ .configure := by
    simp only [whole, done, said_append, said, hafter, hbetween, hbefore, List.nil_append,
      List.mem_append, List.mem_cons, List.not_mem_nil, or_false] at he
    rcases he with he | rfl | rfl | rfl
    · exact hfront entry he
    · exact ⟨fun he => (by cases he), fun he => (by cases he)⟩
    · exact ⟨fun he => (by cases he), fun he => (by cases he)⟩
    · exact ⟨fun he => (by cases he), fun he => (by cases he)⟩
  have hpoll : Recorded (.returned .newPacketAvailable (.flag true) :: atPoll) :=
    @Recorded.suffix (after ++ .returned (.fetchPacketBlocking buffer sized.toSize) (.packet packet) ::
      (between ++ .returned .getReceivedPacketSize sized :: before)) _
      (by simpa only [List.append_assoc, List.cons_append] using hrecorded)
  rw [hwhole] at hattributed hsilent hkept
  obtain ⟨hquiet, hsilent'⟩ := hattributed.not_transmission hsilent fun entry he => (hentries entry he).1
  have hkept' := hattributed.not_softwareReset hkept fun entry he => (hentries entry he).2
  obtain ⟨newer, frame, older, rfl, hread, hnewer, polled, hpolled⟩ :=
    arrival_of_poll hpoll hconfigured
  have hattributed' : Attributed (newer ++ .arrival frame :: older) := hattributed.suffix
  have hnewer' := hattributed'.not_transmission_since_read hsilent' hread
  -- The two frames: there has been one at the poll, and there has been no reset.
  have hatSize : before ++ .returned .newPacketAvailable (.flag true) :: .statusRead ::
      (newer ++ .arrival frame :: older) = (before ++ .returned .newPacketAvailable (.flag true) ::
        .statusRead :: newer) ++ .arrival frame :: older := by
    simp only [List.append_assoc, List.cons_append]
  have hbefore' : .softwareReset ∉ before := fun hm => hkept' (by simp [whole, done, hm])
  have hbetween' : .softwareReset ∉ between := fun hm => hkept' (by simp [whole, hm])
  have hpolled' : latestArrival (.returned .newPacketAvailable (.flag true) :: .statusRead ::
      (newer ++ .arrival frame :: older)) = some polled := hpolled
  obtain ⟨first, hfirst⟩ := latestArrival_append hpolled' hbefore'
  obtain rfl := hsized first hfirst
  have hsize' : latestArrival (.returned .getReceivedPacketSize
      (.size (frameLength first + frame_length_field_size)) :: (before ++
        .returned .newPacketAvailable (.flag true) :: .statusRead ::
          (newer ++ .arrival frame :: older))) = some first := hfirst
  obtain ⟨last, hlast⟩ := latestArrival_append hsize' hbetween'
  have hlast' := hbytes last hlast
  rw [hatSize] at hfirst hlast ⊢
  have hmem (happening : Happening) (hm : happening ∈ after ++ between ++
      (before ++ .returned .newPacketAvailable (.flag true) :: .statusRead :: newer))
      (hne : happening ≠ .statusRead) : happening ∈ whole ∨ happening ∈ newer := by
    simp only [whole, done, List.mem_append, List.mem_cons] at hm ⊢
    grind
  refine ⟨first, last, after, between, _, older, buffer, _, frame, rfl, fun long hm => ?_,
    fun hm => ?_, hfirst, rfl, hlast, hlast'⟩
  · rcases hmem _ hm (fun he => by cases he) with hm | hm
    · exact hquiet long hm
    · exact hnewer' long hm
  · rcases hmem _ hm (fun he => by cases he) with hm | hm
    · exact hkept' hm
    · exact hnewer hm

end Fetch

section Runs

variable [BitManipulation] {softwareReset : Chip → Memories} {α : Type}

-- What the record was when something was transmitted.
theorem record_of_transmission
    (hreset : ∀ chip, (softwareReset chip).short mrf_register_interrupt_status.toNat >>> 3 &&& 1 = 0)
    (system : System) (memories : Memories) (client : Client Call Answer α)
    (ms : List (Move ChipEvent)) {later past : List Happening} {long : Memory}
    (hhistory : (drive softwareReset system memories client ms).session.world.device.history =
      later ++ .transmission long :: past) :
    Recorded past ∧ Answered past ∧ Attributed past ∧ transmitting past = false ∧
      resetting past = false ∧ Carries system past long := by
  obtain ⟨moves, hsession, -⟩ := @drive_session _ softwareReset _ system memories client ms
  rw [hsession] at hhistory
  have hrecorded := (System.run_notifies hreset system memories moves).recorded
  have hbuffers : Chip.Buffers (System.run softwareReset system memories moves).world.device :=
    System.run_buffers system memories moves
  have hanswered := hbuffers.answered
  have hattributed := @System.run_attributed _ softwareReset system memories moves
  have hfaithful := @System.run_faithful _ softwareReset system memories moves
  rw [hhistory] at hrecorded hanswered hattributed hfaithful
  obtain ⟨hsilent, hkept, hattributed⟩ := hattributed.suffix
  have hrecorded' : Recorded (.transmission long :: past) := Recorded.suffix hrecorded
  have hanswered' : Answered (.transmission long :: past) := Answered.suffix hanswered
  exact ⟨hrecorded', hanswered', hattributed, hsilent, hkept, (Faithful.suffix hfaithful).1⟩

end Runs

section Networks

variable [BitManipulation] (softwareReset : Chip → Memories) {ι : Type} [DecidableEq ι]

-- What happens at a node without the others, when a program runs there.
inductive ProgramMove where
  | act
  | transmissionFinished

def ProgramMove.inDrive : ProgramMove → Move ChipEvent
  | .act => .act
  | .transmissionFinished => .event .transmissionFinished

def programNode : Station
    (Driven PeripheralOp PeripheralOp.Response (Bus Chip) System Call Answer Unit) ProgramMove
    Memory (Nat → UInt8) where
  step m driven := driven.move (Chip.machine softwareReset) System.component m.inDrive
  emitted driven := sent driven.session.world.device.history
  receive long noise driven := driven.move (Chip.machine softwareReset) System.component
    (.event (.arrival (received long noise)))

theorem programNode_keeps : (programNode softwareReset).Keeps := by
  have hmove (driven : Driven PeripheralOp PeripheralOp.Response (Bus Chip) System Call Answer Unit)
      (m : Move ChipEvent) : sent driven.session.world.device.history ⊆
        sent (driven.move (Chip.machine softwareReset) System.component m).session.world.device.history := by
    obtain ⟨moves, hsession, -⟩ := @Driven.move_session _ _ _ _ _ _ _ _
      (Chip.machine softwareReset) System.component driven m
    rw [hsession]
    exact sent_run softwareReset driven.session moves
  exact ⟨fun m driven => hmove driven m.inDrive, fun long noise driven => hmove driven _⟩

-- Any number of programs, each with a driver and a chip that has no record yet.
def programs (systems : ι → System) (memories : ι → Memories)
    (clients : ι → Client Call Answer Unit)
    (moves : List (NetworkMove ι ProgramMove (Nat → UInt8))) :
    ι → Driven PeripheralOp PeripheralOp.Response (Bus Chip) System Call Answer Unit :=
  Network.run (programNode softwareReset)
    (fun i => ⟨⟨systems i, ⟨.deselected, ⟨memories i, []⟩⟩, none⟩, clients i⟩) moves

-- Each node runs its program, and all that arrives there has been transmitted by
-- some node, whose program had composed it.
theorem programs_drive (systems : ι → System) (memories : ι → Memories)
    (clients : ι → Client Call Answer Unit)
    (moves : List (NetworkMove ι ProgramMove (Nat → UInt8))) (i : ι) :
    ∃ ms, programs softwareReset systems memories clients moves i =
        drive softwareReset (systems i) (memories i) (clients i) ms ∧
      ∀ frame, .event (.arrival frame) ∈ ms → ∃ j long noise, frame = received long noise ∧
        .transmission long ∈
          (programs softwareReset systems memories clients moves j).session.world.device.history := by
  obtain ⟨seen, hrun, hseen⟩ := Network.run_station (programNode_keeps softwareReset)
    (fun i => ⟨⟨systems i, ⟨.deselected, ⟨memories i, []⟩⟩, none⟩, clients i⟩) moves i
  let inDrive : StationMove ProgramMove Memory (Nat → UInt8) → Move ChipEvent
    | .own m => m.inDrive
    | .receive long noise => .event (.arrival (received long noise))
  refine ⟨seen.map inDrive, hrun.trans ?_, fun frame hframe => ?_⟩
  · unfold Station.run drive Driven.run
    rw [List.foldl_map]
    congr 1
    funext driven m
    cases m <;> rfl
  · obtain ⟨m, hm, he⟩ := List.mem_map.mp hframe
    cases m with
    | own m => cases m <;> cases he
    | receive long noise =>
        have hframe' : received long noise = frame := ChipEvent.arrival.inj (Move.event.inj he)
        obtain ⟨j, hj⟩ := hseen long noise hm
        exact ⟨j, long, noise, hframe'.symm, mem_sent.mp hj⟩

variable {softwareReset} (systems : ι → System) (memories : ι → Memories)
  (clients : ι → Client Call Answer Unit) (moves : List (NetworkMove ι ProgramMove (Nat → UInt8)))

-- What has arrived at a node, and what its sender had composed.
theorem programs_arrival
    (hreset : ∀ chip, (softwareReset chip).short mrf_register_interrupt_status.toNat >>> 3 &&& 1 = 0)
    {i : ι} {frame : Vector UInt8 mrf_rx_fifo_length} (h : .arrival frame ∈
      (programs softwareReset systems memories clients moves i).session.world.device.history) :
    ∃ j after long past noise, frame = received long noise ∧
      (programs softwareReset systems memories clients moves j).session.world.device.history =
        after ++ .transmission long :: past ∧
      Carries (systems j) past long := by
  obtain ⟨ms, hdrive, hseen⟩ := programs_drive softwareReset systems memories clients moves i
  obtain ⟨seen, hsession, hevents⟩ :=
    @drive_session _ softwareReset _ (systems i) (memories i) (clients i) ms
  rw [hdrive, hsession] at h
  have harrival := arrival_of_move softwareReset (systems i) (memories i) seen h
  obtain ⟨j, long, noise, hframe, hsent⟩ := hseen frame (hevents _ harrival)
  obtain ⟨after, past, hhistory⟩ := List.append_of_mem hsent
  obtain ⟨ms', hdrive', -⟩ := programs_drive softwareReset systems memories clients moves j
  have hhistory' := hhistory
  rw [hdrive'] at hhistory'
  obtain ⟨-, -, -, -, -, hcarries⟩ :=
    record_of_transmission hreset (systems j) (memories j) (clients j) ms' hhistory'
  exact ⟨j, after, long, past, noise, hframe, hhistory, hcarries⟩

end Networks

end Mac802154
