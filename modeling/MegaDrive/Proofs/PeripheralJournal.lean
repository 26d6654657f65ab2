/-
The log as a journal of what cannot be read back.  A write that the latch or the
video ports take is noted with what they take, and nothing else is noted in the
same way.  Main statement: whatever has been asked of a machine since it was
booted, its latch is the last one that the log tells of, and its video ports
hold what the log says was stored in them.
-/
import MegaDrive.Proofs.ByteOrder
import MegaDrive.Proofs.ExecutionInduction
import MegaDrive.Proofs.FetchInduction
import MegaDrive.Proofs.LogRecords
import MegaDrive.Proofs.Restart

namespace MegaDrive

/-- Store a recorded write in the bytes of the video ports. -/
def storePort (ports : Vector Byte 16) (record : Write) :
    Option (Vector Byte 16) :=
  BigEndian.store? ports (record.address.toNat - 0xC00000) record.width
    record.value

/-- A record has only the part of a value that its width takes, and no more of
the value has been stored. -/
theorem storePort_of_fits (ports : Vector Byte 16) {address : Address}
    {width : Width} (value : Long)
    (hfits : Region.video.offset address + width.bytes ≤ 16) :
    storePort ports ⟨address, width, width.truncate value⟩ =
      some (BigEndian.put ports (Region.video.offset address) width value) := by
  rw [← BigEndian.put_truncate]
  exact BigEndian.store?_eq_some _ _ hfits

/-- Nothing among the events tells of the latch or of the video ports. -/
def Unrecorded (events : List Event) : Prop :=
  ∀ event ∈ events, event.latched? = none ∧ event.port? = none

/-- The events lead from the latch and the video ports of one bus to those of
another. -/
structure Bus.Journals (before : Bus) (events : List Event) (after : Bus) :
    Prop where
  latch : (events.filterMap Event.latched?).getLastD before.latch = after.latch
  video : (events.filterMap Event.port?).foldlM storePort before.video =
    some after.video

theorem Unrecorded.lines {events : List Event} (hevents : Unrecorded events) :
    ∀ line ∈ events.map Event.message, ¬ IsRecord line := by
  rw [List.forall_mem_map]
  intro event hevent
  rw [event.isRecord_message_iff, not_or, not_not, not_not]
  exact hevents event hevent

theorem unrecorded_nil : Unrecorded [] := nofun

theorem Unrecorded.append {earlier later : List Event}
    (hearlier : Unrecorded earlier) (hlater : Unrecorded later) :
    Unrecorded (earlier ++ later) :=
  List.forall_mem_append.mpr ⟨hearlier, hlater⟩

theorem unrecorded_singleton {event : Event}
    (hevent : event.latched? = none ∧ event.port? = none) :
    Unrecorded [event] :=
  List.forall_mem_singleton.mpr hevent

namespace Bus

namespace Journals

variable {before middle after : Bus} {events : List Event}

/-- Without a record there is no change. -/
theorem of_unrecorded (hevents : Unrecorded events)
    (hlatch : after.latch = before.latch)
    (hvideo : after.video = before.video) :
    before.Journals events after := by
  have hlatches : events.filterMap Event.latched? = [] :=
    List.filterMap_eq_nil_iff.mpr fun event hevent => (hevents event hevent).1
  have hports : events.filterMap Event.port? = [] :=
    List.filterMap_eq_nil_iff.mpr fun event hevent => (hevents event hevent).2
  constructor
  · rw [hlatches, hlatch]
    rfl
  · rw [hports, hvideo]
    rfl

theorem refl (hevents : Unrecorded events) (bus : Bus) :
    bus.Journals events bus :=
  of_unrecorded hevents rfl rfl

theorem trans {later : List Event} (hfirst : before.Journals events middle)
    (hnext : middle.Journals later after) :
    before.Journals (events ++ later) after := by
  constructor
  · rw [List.filterMap_append, List.getLastD_eq_getLast?, List.getLast?_append,
      ← hnext.latch, ← hfirst.latch, List.getLastD_eq_getLast?,
      List.getLastD_eq_getLast?]
    -- The last value of both is that of the later events, if they have any.
    cases (later.filterMap Event.latched?).getLast? <;> rfl
  · rw [List.filterMap_append, List.foldlM_append, hfirst.video]
    exact hnext.video

end Journals

/-- What a write does to the latch and to the video ports, and what it notes of
that. -/
inductive Records (bus : Bus) (address : Address) (width : Width)
    (value : Long) : Reply Bus → Prop
  | latch {stored : Long} (hat : Region.at? address = some .latch) :
      Records bus address width value
        ⟨.ok { bus with latch := stored }, [.latched stored]⟩
  | video (hat : Region.at? address = some .video)
      (hfits : Region.video.offset address + width.bytes ≤ 16) :
      Records bus address width value
        ⟨.ok { bus with
            video := BigEndian.put bus.video (Region.video.offset address) width
              value },
          [.videoWrite address width value]⟩
  | neither {reply : Reply Bus} (hevents : Unrecorded reply.events)
      (hkept : ∀ after, reply.result = .ok after →
        (Region.at? address ≠ some .latch ∧ Region.at? address ≠ some .video) ∧
          after.latch = bus.latch ∧ after.video = bus.video) :
      Records bus address width value reply

section Accesses

variable (bus : Bus) (address : Address) (width : Width) (value : Long)

theorem records_of_quiet_error (fault : Fault) :
    Records bus address width value (.quiet (.error fault)) :=
  .neither unrecorded_nil nofun

theorem records_write :
    Records bus address width value (bus.write address width value) := by
  cases hat : Region.at? address with
  | none =>
      rw [write_nowhere _ _ _ hat]
      exact bus.records_of_quiet_error address width value _
  | some region =>
      cases region with
      | cartridge =>
          rw [write_cartridge _ _ _ hat]
          exact .neither (unrecorded_singleton ⟨rfl, rfl⟩) nofun
      | workRam =>
          rw [write_workRam _ _ _ hat]
          refine .neither unrecorded_nil fun after hafter => ?_
          obtain ⟨ram, -, rfl⟩ := (map_eq_ok_iff _ _ _).mp hafter
          exact ⟨by simp [hat], rfl, rfl⟩
      | controller =>
          rw [write_controller _ _ _ hat]
          refine .neither (unrecorded_singleton ⟨rfl, rfl⟩) fun after hafter => ?_
          cases hafter
          exact ⟨by simp [hat], rfl, rfl⟩
      | latch =>
          cases hstored : latchAfter? bus.latch (Region.latch.offset address)
              width value with
          | none =>
              rw [write_latch_of_none _ _ _ hat hstored]
              exact bus.records_of_quiet_error address width value _
          | some stored =>
              rw [write_latch_of_some _ _ _ hat hstored]
              exact .latch hat
      | video =>
          by_cases hwidth : width = .byte
          · rw [write_video_of_byte _ _ _ hat hwidth]
            exact bus.records_of_quiet_error address width value _
          by_cases hfits : Region.video.offset address + width.bytes ≤ 16
          · rw [write_video_of_fits _ _ _ hat hwidth hfits]
            exact .video hat hfits
          · rw [write_video_of_pastEnd _ _ _ hat hwidth (Nat.lt_of_not_le hfits)]
            exact bus.records_of_quiet_error address width value _

variable {bus address width value} {reply : Reply Bus}

theorem Records.journals (hrecords : Records bus address width value reply)
    {after : Bus} (hreply : reply.result = .ok after) :
    bus.Journals reply.events after := by
  cases hrecords with
  | latch hat =>
      cases hreply
      exact ⟨rfl, rfl⟩
  | video hat hfits =>
      cases hreply
      refine ⟨rfl, ?_⟩
      simpa [Event.port?] using storePort_of_fits bus.video value hfits
  | neither hevents hkept =>
      obtain ⟨-, hlatch, hvideo⟩ := hkept after hreply
      exact .of_unrecorded hevents hlatch hvideo

/-- What the latch takes is noted in one line, with its new value. -/
theorem Records.latch_line (hrecords : Records bus address width value reply)
    {after : Bus} (hreply : reply.result = .ok after)
    (hlatch : Region.at? address = some .latch) :
    ∃ line, reply.events.map Event.message = [line] ∧
      latchRecord? line = some after.latch := by
  cases hrecords with
  | @latch stored _ =>
      cases hreply
      exact ⟨_, rfl, (Event.latched stored).latchRecord?_message⟩
  | video hat =>
      rw [hat] at hlatch
      cases hlatch
  | neither hevents hkept => exact absurd hlatch (hkept after hreply).1.1

/-- What the video ports take is noted in one line, with all that is stored. -/
theorem Records.port_line (hrecords : Records bus address width value reply)
    {after : Bus} (hreply : reply.result = .ok after)
    (hvideo : Region.at? address = some .video) :
    ∃ line, reply.events.map Event.message = [line] ∧
      portRecord? line = some ⟨address, width, width.truncate value⟩ := by
  cases hrecords with
  | latch hat =>
      rw [hat] at hvideo
      cases hvideo
  | video =>
      exact ⟨_, rfl, (Event.videoWrite address width value).portRecord?_message⟩
  | neither hevents hkept => exact absurd hvideo (hkept after hreply).1.2

theorem Records.unrecorded_of_error
    (hrecords : Records bus address width value reply) {fault : Fault}
    (hreply : reply.result = .error fault) : Unrecorded reply.events := by
  cases hrecords with
  | latch | video => cases hreply
  | neither hevents => exact hevents

/-- Only the latch and the video ports are recorded. -/
theorem Records.unrecorded_of_region
    (hrecords : Records bus address width value reply)
    (hlatch : Region.at? address ≠ some .latch)
    (hvideo : Region.at? address ≠ some .video) : Unrecorded reply.events := by
  cases hrecords with
  | latch hat => exact absurd hat hlatch
  | video hat => exact absurd hat hvideo
  | neither hevents => exact hevents

/-- Of what is read only the controller block is noted. -/
theorem unrecorded_read (bus : Bus) (address : Address) (width : Width) :
    Unrecorded (bus.read address width).events := by
  unfold read
  split
  case h_3 => exact unrecorded_singleton ⟨rfl, rfl⟩
  all_goals exact unrecorded_nil

end Accesses

end Bus

theorem Reply.unrecorded_bind {α β : Type} {first : Reply α}
    {next : α → Reply β} (hfirst : Unrecorded first.events)
    (hnext : ∀ value, Unrecorded (next value).events) :
    Unrecorded (first >>= next).events := by
  rw [bind_eq, andThen]
  split
  next value hvalue => exact hfirst.append (hnext value)
  next fault hfault => exact hfirst

namespace Fetch

/-- Reading that adds no record to the log. -/
def Silent {α : Type} (fetch : Fetch α) : Prop :=
  ∀ bus place, Unrecorded (fetch bus place).events

theorem silent_composes : Composes Silent where
  pure _ := fun _ _ => unrecorded_nil
  fault _ := fun _ _ => unrecorded_nil
  word := fun bus place =>
    Reply.unrecorded_bind (bus.unrecorded_read place .word) fun _ =>
      unrecorded_nil
  long := fun bus place =>
    Reply.unrecorded_bind (bus.unrecorded_read place .long) fun _ =>
      unrecorded_nil
  bind hfirst hnext := fun bus place =>
    Reply.unrecorded_bind (hfirst bus place) fun reached =>
      hnext reached.1 bus reached.2

end Fetch

theorem Bus.unrecorded_decode (bus : Bus) (pc : Address) :
    Unrecorded (bus.decode pc).events :=
  Reply.unrecorded_bind (Fetch.silent_composes.code bus pc) fun _ =>
    unrecorded_nil

namespace Exec

variable {α β : Type}

/-- An activity of which the log tells all that it does to the latch and to the
video ports. -/
def Journaled (activity : Exec α) : Prop :=
  ∀ machine : Machine, machine.bus.Journals (activity machine).events
    (activity machine).machine.bus

theorem journaled_of_kept {activity : Exec α}
    (hevents : ∀ machine, Unrecorded (activity machine).events)
    (hbus : ∀ machine, (activity machine).machine.bus = machine.bus) :
    Journaled activity := by
  intro machine
  rw [hbus]
  exact .refl (hevents machine) machine.bus

theorem journaled_writeMemory (address : Address) (width : Width)
    (value : Long) : Journaled (writeMemory address width value) := by
  intro machine
  have hrecords := machine.bus.records_write address width value
  cases hwrite : (machine.bus.write address width value).result with
  | ok bus =>
      rw [writeMemory_of_ok hwrite]
      exact hrecords.journals hwrite
  | error fault =>
      rw [writeMemory_of_error hwrite]
      exact .refl (hrecords.unrecorded_of_error hwrite) machine.bus

theorem Journaled.bind {first : Exec α} {next : α → Exec β}
    (hfirst : Journaled first) (hnext : ∀ value, Journaled (next value)) :
    Journaled (first >>= next) := by
  intro machine
  cases hresult : (first machine).result with
  | ok value =>
      rw [bind_apply, Outcome.andThen_of_ok hresult]
      exact (hfirst machine).trans (hnext value (first machine).machine)
  | error fault =>
      rw [bind_apply, Outcome.andThen_of_error hresult]
      exact hfirst machine

theorem Journaled.repairing {body : Exec α} {repair : Machine → Machine}
    (hbody : Journaled body)
    (hrepair : ∀ machine, (repair machine).bus = machine.bus) :
    Journaled (repairing body repair) := by
  intro machine
  cases hresult : (body machine).result with
  | ok value =>
      rw [repairing_of_ok hresult]
      exact hbody machine
  | error fault =>
      rw [repairing_of_error hresult]
      simpa only [hrepair] using hbody machine

theorem journaled_composes : Composes Journaled where
  pure _ := journaled_of_kept (fun _ => unrecorded_nil) fun _ => rfl
  fault _ := journaled_of_kept (fun _ => unrecorded_nil) fun _ => rfl
  current := journaled_of_kept (fun _ => unrecorded_nil) fun _ => rfl
  readMemory address width :=
    journaled_of_kept
      (fun machine => machine.bus.unrecorded_read address width) fun _ => rfl
  writeMemory := journaled_writeMemory
  update _ hbus := journaled_of_kept (fun _ => unrecorded_nil) hbus
  call _ _ :=
    journaled_of_kept (fun _ => unrecorded_singleton ⟨rfl, rfl⟩) fun _ => rfl
  decode :=
    journaled_of_kept
      (fun machine => machine.bus.unrecorded_decode machine.pc) fun _ => rfl
  repairing := Journaled.repairing
  bind := Journaled.bind

end Exec

theorem Request.journaled_perform (request : Request) :
    Exec.Journaled request.perform := by
  have composes := Exec.journaled_composes
  cases request with
  | step => exact composes.bind composes.step fun _ => composes.pure _
  | execute instruction =>
      exact composes.bind (composes.execute instruction) fun _ =>
        composes.pure _
  | reset => exact composes.bind composes.reset fun _ => composes.pure _
  | write address width value =>
      exact composes.bind (composes.writeMemory address width value) fun _ =>
        composes.pure _
  | alter registers pc sr ir =>
      exact composes.bind (composes.update _ fun _ => rfl) fun _ =>
        composes.pure _

namespace Machine

/-- What is noted while these requests are answered. -/
def notes (machine : Machine) : List Request → List Event
  | [] => []
  | request :: rest =>
      (request.perform machine).events ++
        notes (request.perform machine).machine rest

theorem journals_notes (machine : Machine) (requests : List Request) :
    machine.bus.Journals (machine.notes requests)
      (machine.afterRequests requests).bus := by
  induction requests generalizing machine with
  | nil => exact .refl unrecorded_nil machine.bus
  | cons request rest ih =>
      exact (request.journaled_perform machine).trans (ih _)

end Machine

namespace Session

open Machine

variable {image : Array Byte} {controller : Long} {machine : Machine}

/-- To boot is a reset, which starts from a bus at power-on. -/
theorem journals_boot
    (hboot : (boot image controller).result = .ok machine) :
    ∃ cartridge, (Bus.powerOn cartridge controller).Journals
      (boot image controller).events machine.bus := by
  by_cases hsize : image.size ≤ Region.cartridge.length
  · rw [boot, Bus.ofImage_of_fits hsize] at hboot ⊢
    obtain ⟨_, -, rfl⟩ := (map_eq_ok_iff _ _ _).mp hboot
    exact ⟨⟨image, hsize⟩, Exec.journaled_composes.reset (blank _)⟩
  · rw [boot_of_tooLarge (Nat.lt_of_not_le hsize)] at hboot
    cases hboot

/-- After any requests, granted or refused, the log of a machine tells all that
cannot be read back: the latch holds the value of its last record, or zero, and
to store the records of the video ports in order, each at its width, turns
sixteen zero bytes into what the ports hold.  Every line that begins like a
record is one.  No read adds any, and no write that is refused or goes anywhere
else; each write that the latch or the ports take adds its own. -/
theorem log_tells_peripherals
    (hboot : (boot image controller).result = .ok machine)
    (requests : List Request) :
    let log := ((boot image controller).events ++ machine.notes requests).map
      Event.message
    let reached := (machine.afterRequests requests).bus
    reached.latch = (log.filterMap latchRecord?).getLast?.getD 0 ∧
      (log.filterMap portRecord?).foldlM storePort (Vector.replicate 16 0) =
        some reached.video ∧
      (∀ line ∈ log, IsRecord line →
        latchRecord? line ≠ none ∨ portRecord? line ≠ none) ∧
      (∀ (bus : Bus) (address : Address) (width : Width),
        ∀ line ∈ (bus.read address width).events.map Event.message,
          ¬ IsRecord line) ∧
      ∀ (bus : Bus) (address : Address) (width : Width) (value : Long),
        let reply := bus.write address width value
        let lines := reply.events.map Event.message
        ((∃ fault, reply.result = .error fault) ∨
            (Region.at? address ≠ some .latch ∧
              Region.at? address ≠ some .video) →
          ∀ line ∈ lines, ¬ IsRecord line) ∧
        ∀ after, reply.result = .ok after →
          (Region.at? address = some .latch →
            ∃ line, lines = [line] ∧ latchRecord? line = some after.latch) ∧
          (Region.at? address = some .video →
            ∃ line, lines = [line] ∧
              portRecord? line =
                some ⟨address, width, width.truncate value⟩) := by
  intro log reached
  obtain ⟨cartridge, hstart⟩ := journals_boot hboot
  have hjournals := hstart.trans (machine.journals_notes requests)
  refine ⟨?_, ?_, ?_, ?_, ?_⟩
  · have hlatches : log.filterMap latchRecord? = _ :=
      Event.filterMap_latchRecord? _
    rw [hlatches, ← List.getLastD_eq_getLast?]
    exact hjournals.latch.symm
  · have hports : log.filterMap portRecord? = _ := Event.filterMap_portRecord? _
    rw [hports]
    exact hjournals.video
  · rw [List.forall_mem_map]
    intro event _ hrecord
    rw [event.latchRecord?_message, event.portRecord?_message]
    exact event.isRecord_message_iff.mp hrecord
  · intro bus address width
    exact (bus.unrecorded_read address width).lines
  · intro bus address width value reply lines
    have hrecords : bus.Records address width value reply :=
      bus.records_write address width value
    refine ⟨?_, fun after hafter =>
      ⟨hrecords.latch_line hafter, hrecords.port_line hafter⟩⟩
    rintro (⟨fault, hfault⟩ | ⟨hlatch, hvideo⟩)
    · exact (hrecords.unrecorded_of_error hfault).lines
    · exact (hrecords.unrecorded_of_region hlatch hvideo).lines

end Session

namespace PeripheralJournalWitness

open Session Machine

/-- The two addresses, and a move of a long to the latch. -/
def image : Array Byte :=
  #[0x00, 0xFF, 0x10, 0x00, 0x00, 0x00, 0x00, 0x08,
    0x23, 0xFC, 0x53, 0x45, 0x47, 0x41, 0x00, 0xA1, 0x40, 0x00]

def start : Machine :=
  (blank (Bus.powerOn ⟨image, by decide⟩ 5)).restarted 0xFF1000 8

/-- The latch is written by the program and then in part from outside; the video
ports take a word and refuse a byte. -/
def requests : List Request :=
  [.step, .write 0xA14002 .word 0xABCD, .write 0xC00004 .word 0xFFFF8114,
    .write 0xC00000 .byte 1, .write 0 .word 1, .step]

def log : List String :=
  ["TMSS latch now 0x53454741", "TMSS latch now 0x5345ABCD",
    "VDP port 0xC00004 <- 0x8114 (word)",
    "Write operation is not allowed on ROM (0x000000)"]

theorem log_tells_peripherals_partly :
    (boot image 5).result = .ok start ∧
      ((boot image 5).events ++ start.notes requests).map Event.message = log ∧
      (start.afterRequests requests).bus.latch = 0x5345ABCD ∧
      (start.afterRequests requests).bus.video =
        #v[0, 0, 0, 0, 0x81, 0x14, 0, 0, 0, 0, 0, 0, 0, 0, 0, 0] := by
  have hboot : (boot image 5).result = .ok start := rfl
  have hevents : (boot image 5).events ++ start.notes requests =
      [.latched 0x53454741, .latched 0x5345ABCD,
        .videoWrite 0xC00004 .word 0xFFFF8114, .cartridgeWrite 0] := rfl
  have hlog : ((boot image 5).events ++ start.notes requests).map
      Event.message = log := by
    rw [hevents]
    decide
  obtain ⟨hlatch, hvideo, -, -, -⟩ := log_tells_peripherals hboot requests
  rw [hlog] at hlatch hvideo
  refine ⟨hboot, hlog, hlatch.trans (by decide), ?_⟩
  exact Option.some.inj (hvideo.symm.trans (by decide))

end PeripheralJournalWitness

end MegaDrive
