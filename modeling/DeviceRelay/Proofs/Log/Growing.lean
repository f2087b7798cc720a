import DeviceRelay.Proofs.Log.Paging

/-!
# Following a log that grows

A reader begins at the start of a log and reads on at the `next` of its last chunk, with room for as
many bytes as it likes, while bytes are appended between its reads and during them. What it has got
is the log up to `next`: no byte is missed and none comes twice. The only read without a chunk is
one of a log in memory where the end of the range is beyond 64 bits: it panics. A reader that goes
on after it is where it was.

* `LogSource.readDuring`: a read during which bytes are appended.
* `LogReader.step`, `LogSource.follow`: a reader and what happens to it and to its log.
* `LogChunk.ReadsOn`: a chunk that has just the bytes from where the reader is.
* `LogReader.Follows`: what every step keeps.
* `LogSource.follow_exact`: what the reader has got, and which reads give a chunk.
-/

namespace DeviceRelay

/-! ## Reads during which a log grows -/

/-- The range read from a file to which bytes are appended after its size was looked at. -/
def LogRange.ofGrownFile (bytes more : List UInt8) (start : LogStart) (maxBytes : UInt64) :
    LogChunk :=
  let size := logSize bytes
  let offset := start.resolve size
  let want := min (size - offset) maxBytes
  .new (((bytes ++ more).drop offset.toNat).take want.toNat) offset size

/-- One read during which bytes are appended. A log in memory is locked for the whole of a read. -/
def LogSource.readDuring (l : LogSource) (more : List UInt8) (start : LogStart)
    (maxBytes : UInt64) : LogOutcome :=
  match l.content with
  | .file bytes => .ok (LogRange.ofGrownFile bytes more start maxBytes)
  | _ => l.read start maxBytes

/-- Bytes that come after the size was looked at are not read: the range ends before them. -/
theorem LogRange.ofGrownFile_eq {bytes : List UInt8} (hsize : bytes.length < UInt64.size)
    (more : List UInt8) (start : LogStart) (maxBytes : UInt64) :
    ofGrownFile bytes more start maxBytes = ofFile bytes start maxBytes := by
  have hbytes : (logSize bytes).toNat = bytes.length := toNat_word hsize
  have hoffset := start.resolve_le (logSize bytes)
  have hwant : (min (logSize bytes - start.resolve (logSize bytes)) maxBytes).toNat ≤
      bytes.length - (start.resolve (logSize bytes)).toNat := by
    rw [LogRange.toNat_want hoffset, hbytes]
    exact Nat.min_le_left _ _
  unfold ofGrownFile ofFile
  dsimp only
  rw [List.drop_append_of_le_length (hbytes ▸ hoffset),
    List.take_append_of_le_length (by rwa [List.length_drop])]

theorem LogSource.readDuring_eq_read {l : LogSource} {bytes : List UInt8} (h : l.Holds bytes)
    (hsize : bytes.length < UInt64.size) (more : List UInt8) (start : LogStart)
    (maxBytes : UInt64) : l.readDuring more start maxBytes = l.read start maxBytes := by
  unfold readDuring
  rcases h with h | h
  · simp only [h]
  · simp only [read, h, LogRange.ofGrownFile_eq hsize]

/-! ## Readers -/

/-- What happens to a log that is followed. -/
inductive LogEvent where
  | append (more : List UInt8)
  /-- The reader reads on, and bytes are appended meanwhile. -/
  | read (maxBytes : UInt64) (meanwhile : List UInt8)
  deriving DecidableEq, Repr

def LogEvent.appended : LogEvent → List UInt8
  | .append more => more
  | .read _ meanwhile => meanwhile

/-- How many bytes a read has room for. -/
def LogEvent.room? : LogEvent → Option UInt64
  | .append _ => none
  | .read maxBytes _ => some maxBytes

/-- There is room for one byte at least. -/
def LogEvent.HasRoom : LogEvent → Prop
  | .append _ => True
  | .read maxBytes _ => 1 ≤ maxBytes.toNat

instance : DecidablePred LogEvent.HasRoom
  | .append _ => .isTrue trivial
  | .read maxBytes _ => inferInstanceAs (Decidable (1 ≤ maxBytes.toNat))

/-- A read that was made, with what the log held when its size was looked at. -/
structure LogReading where
  bytes : List UInt8
  start : UInt64
  maxBytes : UInt64
  answer : LogOutcome

namespace LogReading

def data (x : LogReading) : List UInt8 :=
  match x.answer with
  | .ok chunk => chunk.data
  | .error _ | .panicked _ => []

/-- Where the reader goes on after this read. -/
def next (x : LogReading) : UInt64 :=
  match x.answer with
  | .ok chunk => chunk.next
  | .error _ | .panicked _ => x.start

end LogReading

/-- The bytes of a log, none where it cannot be read. -/
def LogSource.bytes (l : LogSource) : List UInt8 :=
  match l.content with
  | .memory bytes | .file bytes => bytes
  | .missing | .directory _ | .unavailable => []

structure LogReader where
  log : LogSource
  /-- Where the next read begins. -/
  next : UInt64
  readings : List LogReading

namespace LogReader

/-- A read of the reader, at the `next` of the one before. -/
def reading (r : LogReader) (maxBytes : UInt64) (meanwhile : List UInt8) : LogReading where
  bytes := r.log.bytes
  start := r.next
  maxBytes := maxBytes
  answer := r.log.readDuring meanwhile (.at r.next) maxBytes

def step (r : LogReader) : LogEvent → LogReader
  | .append more => { r with log := r.log.append more }
  | .read maxBytes meanwhile =>
    let x := r.reading maxBytes meanwhile
    { log := r.log.append meanwhile, next := x.next, readings := r.readings ++ [x] }

/-- All the bytes that were read so far. -/
def collected (r : LogReader) : List UInt8 := r.readings.flatMap LogReading.data

end LogReader

/-- A reader that began at the start of the log. -/
def LogSource.follow (l : LogSource) (events : List LogEvent) : LogReader :=
  events.foldl LogReader.step ⟨l, 0, []⟩

/-! ## One read -/

/-- A chunk that goes on at an offset of a log with these bytes: it has the bytes up to `next`, and
one at least where there are any. -/
structure LogChunk.ReadsOn (c : LogChunk) (bytes : List UInt8) (start : UInt64) : Prop where
  offset : c.offset = start
  size : c.size.toNat = bytes.length
  offset_le_next : c.offset ≤ c.next
  next_le_size : c.next ≤ c.size
  data : c.data = (bytes.take c.next.toNat).drop c.offset.toNat
  advances : c.offset < c.size → c.offset < c.next
  eof_iff : c.eof = true ↔ c.next = c.size

/-- The read has a chunk that goes on where the read began. -/
def LogReading.IsAnswered (x : LogReading) : Prop :=
  ∃ chunk, x.answer = .ok chunk ∧ chunk.ReadsOn x.bytes x.start

/-- The end of the range of a read is beyond 64 bits. -/
def LogReading.IsBeyond (x : LogReading) : Prop :=
  UInt64.size ≤ x.start.toNat + x.maxBytes.toNat

instance (x : LogReading) : Decidable x.IsBeyond :=
  inferInstanceAs (Decidable (UInt64.size ≤ x.start.toNat + x.maxBytes.toNat))

/-- What is read at an offset goes on where the bytes before it end. -/
private theorem take_append_part (bytes : List UInt8) (offset n : Nat) :
    bytes.take (offset + ((bytes.drop offset).take n).length) =
      bytes.take offset ++ (bytes.drop offset).take n := by
  rw [List.take_add, List.append_cancel_left_eq, List.take_eq_take_iff, List.length_take]
  omega

theorem readsOn_ofPart {bytes : List UInt8} {offset n : Nat} (hsize : bytes.length < UInt64.size)
    (ho : offset ≤ bytes.length) (hn : 1 ≤ n) :
    (LogChunk.ofPart bytes.length offset ((bytes.drop offset).take n)).ReadsOn bytes
      (UInt64.ofNat offset) := by
  have hwords : UInt64.size = 2 ^ 64 := rfl
  have hpart := LogSource.length_page_le ho n
  have hlength : ((bytes.drop offset).take n).length = min n (bytes.length - offset) := by
    rw [List.length_take, List.length_drop]
  have hdata := take_append_part bytes offset n
  unfold LogChunk.ofPart
  generalize (bytes.drop offset).take n = part at *
  have hoffset : (UInt64.ofNat offset).toNat = offset := toNat_word (by omega)
  have hnext : (UInt64.ofNat (offset + part.length)).toNat = offset + part.length :=
    toNat_word (by omega)
  have hbytes : (UInt64.ofNat bytes.length).toNat = bytes.length := toNat_word hsize
  refine ⟨rfl, hbytes, ?_, ?_, ?_, fun h => ?_, ?_⟩
  · rw [UInt64.le_iff_toNat_le, hoffset, hnext]
    omega
  · rw [UInt64.le_iff_toNat_le, hnext, hbytes]
    exact hpart
  · rw [hoffset, hnext, hdata, List.drop_left' (List.length_take_of_le ho)]
  · rw [UInt64.lt_iff_toNat_lt, hoffset, hbytes] at h
    rw [UInt64.lt_iff_toNat_lt, hoffset, hnext]
    omega
  · rw [← UInt64.toNat_inj, hnext, hbytes, decide_eq_true_iff]
    omega

/-! ## What every step keeps -/

namespace LogReader

/-- The reader has got the bytes of the log up to its place, and of its reads those have a chunk
that are not of a log in memory with an end beyond 64 bits. -/
structure Follows (r : LogReader) (inMemory : Bool) (bytes : List UInt8) : Prop where
  content : r.log.content = if inMemory then .memory bytes else .file bytes
  next_le : r.next.toNat ≤ bytes.length
  collected : r.collected = bytes.take r.next.toNat
  readings : ∀ x ∈ r.readings, x.bytes <+: bytes ∧
    (x.IsAnswered ↔ ¬(inMemory = true ∧ x.IsBeyond))

variable {r : LogReader} {inMemory : Bool} {bytes : List UInt8}

theorem Follows.holds (h : r.Follows inMemory bytes) : r.log.Holds bytes := by
  have hcontent := h.content
  cases inMemory with
  | true => exact .inl hcontent
  | false => exact .inr hcontent

theorem Follows.bytes_eq (h : r.Follows inMemory bytes) : r.log.bytes = bytes := by
  unfold LogSource.bytes
  rcases h.holds with hcontent | hcontent <;> rw [hcontent]

/-- Bytes at the end of the log do not concern what was read before. -/
theorem Follows.append (h : r.Follows inMemory bytes) (more : List UInt8) :
    ({ r with log := r.log.append more } : LogReader).Follows inMemory (bytes ++ more) := by
  refine ⟨?_, ?_, ?_, fun x hx => ?_⟩
  · have hcontent := h.content
    unfold LogSource.append
    cases inMemory <;> simp only [Bool.false_eq_true, if_false, if_true] at hcontent ⊢ <;>
      rw [hcontent]
  · rw [List.length_append]
    exact Nat.le_add_right_of_le h.next_le
  · rw [List.take_append_of_le_length h.next_le]
    exact h.collected
  · obtain ⟨hearlier, hanswered⟩ := h.readings x hx
    exact ⟨hearlier.trans (List.prefix_append _ _), hanswered⟩

/-- The answer to a read. -/
theorem Follows.answer_eq (h : r.Follows inMemory bytes) (hsize : bytes.length < UInt64.size)
    (maxBytes : UInt64) (meanwhile : List UInt8) :
    (r.reading maxBytes meanwhile).answer =
      if inMemory = true ∧ (r.reading maxBytes meanwhile).IsBeyond then .panicked .addOverflow
      else .ok (.ofPart bytes.length r.next.toNat
        ((bytes.drop r.next.toNat).take maxBytes.toNat)) := by
  have hcontent := h.content
  have hmemory := LogSource.ofMemory_at hsize h.next_le maxBytes
  have hfile := LogSource.ofFile_at hsize h.next_le maxBytes
  rw [UInt64.ofNat_toNat] at hmemory hfile
  unfold reading LogReading.IsBeyond
  dsimp only
  rw [LogSource.readDuring_eq_read h.holds hsize]
  unfold LogSource.read
  cases inMemory with
  | true =>
    rw [if_pos rfl] at hcontent
    rw [hcontent]
    dsimp only
    rw [hmemory]
    by_cases hbeyond : UInt64.size ≤ r.next.toNat + maxBytes.toNat
    · rw [if_pos hbeyond, if_pos ⟨rfl, hbeyond⟩]
    · rw [if_neg hbeyond, if_neg fun hno => hbeyond hno.2]
  | false =>
    rw [if_neg Bool.false_ne_true] at hcontent
    rw [hcontent]
    dsimp only
    rw [hfile, if_neg fun hno => Bool.false_ne_true hno.1]

/-- A reading that goes on where the bytes before it end. -/
theorem Follows.concat (h : r.Follows inMemory bytes) {x : LogReading} (hbytes : x.bytes = bytes)
    (hnext : x.next.toNat ≤ bytes.length)
    (hdata : bytes.take r.next.toNat ++ x.data = bytes.take x.next.toNat)
    (hanswered : x.IsAnswered ↔ ¬(inMemory = true ∧ x.IsBeyond)) :
    Follows ⟨r.log, x.next, r.readings ++ [x]⟩ inMemory bytes := by
  refine ⟨h.content, hnext, ?_, ?_⟩
  · rw [← hdata, ← h.collected]
    unfold LogReader.collected
    rw [List.flatMap_append, List.flatMap_singleton]
  · rw [List.forall_mem_append, List.forall_mem_singleton]
    exact ⟨h.readings, hbytes ▸ List.prefix_refl _, hanswered⟩

/-- A read gives the bytes that come next, or leaves the reader where it is. -/
theorem Follows.read (h : r.Follows inMemory bytes) (hsize : bytes.length < UInt64.size)
    {maxBytes : UInt64} (hpos : 1 ≤ maxBytes.toNat) (meanwhile : List UInt8) :
    (r.step (.read maxBytes meanwhile)).Follows inMemory (bytes ++ meanwhile) := by
  have hanswer := h.answer_eq hsize maxBytes meanwhile
  have hbytes : (r.reading maxBytes meanwhile).bytes = bytes := h.bytes_eq
  have hstart : (r.reading maxBytes meanwhile).start = r.next := rfl
  -- The reader after the read, with the log as it was when its size was looked at.
  suffices hread : LogReader.Follows ⟨r.log, (r.reading maxBytes meanwhile).next,
      r.readings ++ [r.reading maxBytes meanwhile]⟩ inMemory bytes from hread.append meanwhile
  generalize r.reading maxBytes meanwhile = x at *
  by_cases hbeyond : inMemory = true ∧ x.IsBeyond
  · rw [if_pos hbeyond] at hanswer
    have hnext : x.next = r.next := by
      rw [LogReading.next, hanswer, hstart]
    have hdata : x.data = [] := by
      rw [LogReading.data, hanswer]
    refine h.concat hbytes ?_ ?_ (iff_of_false ?_ (not_not_intro hbeyond))
    · rw [hnext]
      exact h.next_le
    · rw [hdata, List.append_nil, hnext]
    · rintro ⟨chunk, hchunk, -⟩
      rw [hanswer] at hchunk
      cases hchunk
  · rw [if_neg hbeyond] at hanswer
    have hpart := LogSource.length_page_le h.next_le maxBytes.toNat
    have hnext : x.next.toNat =
        r.next.toNat + ((bytes.drop r.next.toNat).take maxBytes.toNat).length := by
      rw [LogReading.next, hanswer]
      exact toNat_word (Nat.lt_of_le_of_lt hpart hsize)
    have hdata : x.data = (bytes.drop r.next.toNat).take maxBytes.toNat := by
      rw [LogReading.data, hanswer]
      rfl
    have hexact := readsOn_ofPart hsize h.next_le hpos
    rw [UInt64.ofNat_toNat] at hexact
    refine h.concat hbytes (hnext ▸ hpart) ?_ (iff_of_true ⟨_, hanswer, ?_⟩ hbeyond)
    · rw [hdata, hnext, take_append_part]
    · rwa [hbytes, hstart]

theorem Follows.step (h : r.Follows inMemory bytes) (hsize : bytes.length < UInt64.size)
    {event : LogEvent} (hroom : event.HasRoom) :
    (r.step event).Follows inMemory (bytes ++ event.appended) := by
  cases event with
  | append more => exact h.append more
  | read maxBytes meanwhile => exact h.read hsize hroom meanwhile

/-- A run keeps what every step keeps. -/
theorem Follows.foldl (h : r.Follows inMemory bytes) {events : List LogEvent}
    (hsize : (bytes ++ events.flatMap LogEvent.appended).length < UInt64.size)
    (hroom : ∀ e ∈ events, e.HasRoom) :
    (events.foldl LogReader.step r).Follows inMemory
      (bytes ++ events.flatMap LogEvent.appended) := by
  induction events generalizing r bytes with
  | nil =>
    rw [List.flatMap_nil, List.append_nil]
    exact h
  | cons event events ih =>
    rw [List.flatMap_cons, ← List.append_assoc] at hsize ⊢
    rw [List.forall_mem_cons] at hroom
    have hbytes : bytes.length < UInt64.size := by
      rw [List.length_append, List.length_append] at hsize
      omega
    exact ih (h.step hbytes hroom.1) hsize hroom.2

/-- Every read is among the readings. -/
theorem maxBytes_foldl (r : LogReader) (events : List LogEvent) :
    (events.foldl LogReader.step r).readings.map LogReading.maxBytes =
      r.readings.map LogReading.maxBytes ++ events.filterMap LogEvent.room? := by
  induction events generalizing r with
  | nil => exact (List.append_nil _).symm
  | cons event events ih =>
    rw [List.foldl_cons, ih]
    cases event with
    | append more => rfl
    | read maxBytes meanwhile =>
      have hreadings : (r.step (.read maxBytes meanwhile)).readings =
          r.readings ++ [r.reading maxBytes meanwhile] := rfl
      rw [hreadings, List.map_append, List.append_assoc]
      rfl

/-- A reader begins at the start, without any bytes. -/
theorem Follows.init {l : LogSource}
    (h : l.content = if inMemory then .memory bytes else .file bytes) :
    Follows ⟨l, 0, []⟩ inMemory bytes :=
  ⟨h, Nat.zero_le _, List.take_zero.symm, List.forall_mem_nil _⟩

end LogReader

/-! ## A whole run -/

namespace LogSource

/-- **A reader that goes on at `next` misses nothing while the log grows.** However bytes are
appended between its reads and during them, and for however many bytes each has room, what it has
got is the log up to `next`. Each read gives the next bytes of the log as it was then, and one byte
at least where there are any, unless the log is in memory and the end of the range is beyond 64
bits. -/
theorem follow_exact {l : LogSource} {bytes : List UInt8} {events : List LogEvent}
    (h : l.Holds bytes)
    (hsize : (bytes ++ events.flatMap LogEvent.appended).length < UInt64.size)
    (hroom : ∀ e ∈ events, e.HasRoom) :
    let all := bytes ++ events.flatMap LogEvent.appended
    let r := l.follow events
    r.log.Holds all ∧ r.next.toNat ≤ all.length ∧ r.collected = all.take r.next.toNat ∧
      r.readings.map LogReading.maxBytes = events.filterMap LogEvent.room? ∧
      ∀ x ∈ r.readings, x.bytes <+: all ∧
        (x.IsAnswered ↔ ¬(l.content = .memory bytes ∧ x.IsBeyond)) := by
  obtain ⟨inMemory, hcontent, hmemory⟩ : ∃ inMemory : Bool,
      l.content = (if inMemory then .memory bytes else .file bytes) ∧
        (inMemory = true ↔ l.content = .memory bytes) := by
    rcases h with h | h
    · exact ⟨true, h, iff_of_true rfl h⟩
    · exact ⟨false, h, iff_of_false Bool.false_ne_true (by simp [h])⟩
  have hfollows := (LogReader.Follows.init hcontent).foldl hsize hroom
  refine ⟨hfollows.holds, hfollows.next_le, hfollows.collected,
    LogReader.maxBytes_foldl _ events, fun x hx => ?_⟩
  rw [← hmemory]
  exact hfollows.readings x hx

/-- A log in a file, to which bytes are appended during the first read and after it. -/
theorem follow_exact_during_append :
    let l := LogSource.mk "log" (.file [97])
    let events : List LogEvent := [.read 1 [98], .append [99], .read 18446744073709551615 []]
    l.Holds [97] ∧ ([97] ++ events.flatMap LogEvent.appended).length < UInt64.size ∧
      (∀ e ∈ events, e.HasRoom) ∧
      (let all := [97] ++ events.flatMap LogEvent.appended
       let r := l.follow events
       r.log.Holds all ∧ r.next.toNat ≤ all.length ∧ r.collected = all.take r.next.toNat ∧
         r.readings.map LogReading.maxBytes = events.filterMap LogEvent.room? ∧
         ∀ x ∈ r.readings, x.bytes <+: all ∧
           (x.IsAnswered ↔ ¬(l.content = .memory [97] ∧ x.IsBeyond))) ∧
      (l.follow events).collected = [97, 98, 99] := by
  intro l events
  have hsize : ([97] ++ events.flatMap LogEvent.appended).length < UInt64.size := by decide
  have hroom : ∀ e ∈ events, e.HasRoom := by decide
  exact ⟨.inr rfl, hsize, hroom, follow_exact (.inr rfl) hsize hroom, by decide⟩

/-- A log of two bytes in memory: after the first of them, a read with room for as many bytes as
can be panics, and the reader stays short of the end. From a file the same reads give both. -/
theorem follow_stuck_in_memory :
    let events : List LogEvent := [.read 1 [], .read 18446744073709551615 []]
    let r := (LogSource.mk "memory" (.memory [97, 98])).follow events
    (∀ e ∈ events, e.HasRoom) ∧ (∃ x ∈ r.readings, ¬x.IsAnswered) ∧ r.next = 1 ∧
      r.collected = [97] ∧
      ((LogSource.mk "log" (.file [97, 98])).follow events).collected = [97, 98] := by
  intro events r
  refine ⟨by decide, ⟨⟨[97, 98], 1, 18446744073709551615, .panicked .addOverflow⟩, ?_, ?_⟩,
    by decide, by decide, by decide⟩
  · exact List.mem_cons_of_mem _ List.mem_cons_self
  · rintro ⟨chunk, hchunk, -⟩
    cases hchunk

end LogSource

end DeviceRelay
