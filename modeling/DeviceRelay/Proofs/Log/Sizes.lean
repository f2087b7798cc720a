import DeviceRelay.Proofs.Log.Paging
import DeviceRelay.Relays.Basic

/-!
# The size of a page

A page is decoded and then written as a string. Each byte becomes one character at most, whether it
is well formed or not, and each character takes six bytes at most. So a page takes six bytes for
each byte that was read, and its reply is within the limits of both transports, even with a long
path in it.

* `LogSource.requested`: the bytes that a request reads.
* `Json.escapedSize_decodeLossy_le`: the bytes of a page when it is written.
* `size_logReply_le`: the bytes of a reply, by those of its page and its path.
* `logReply_fits`: a page and its reply are small enough, whatever the log holds.
-/

namespace DeviceRelay

open Json

/-- A page takes six bytes at most for each byte that it was decoded from. -/
theorem Json.escapedSize_decodeLossy_le (bytes : List UInt8) :
    escapedSize (Text.decodeLossy bytes) ≤ 6 * bytes.length :=
  Nat.le_trans (escapedSize_le _) (Nat.mul_le_mul_left 6 (Text.length_decodeLossy_le bytes))

/-- The bytes of a value as it is written in a reply, none where the field is missing. -/
def Reply.fieldSize (r : Reply) (key : String) : Nat :=
  ((r.get? key).map fun v => v.render.utf8ByteSize).getD 0

namespace LogSource

/-- The bytes that a request reads, none where the log cannot be read. -/
def requested (l : LogSource) (request : Json) (viaTunnel : Bool) : List UInt8 :=
  match l.read (LogRequest.ofJson request viaTunnel).start
    (LogRequest.ofJson request viaTunnel).maxBytes with
  | .ok chunk => chunk.data
  | .error _ | .panicked _ => []

theorem length_requested_le (l : LogSource) (request : Json) (viaTunnel : Bool) :
    (l.requested request viaTunnel).length ≤ if viaTunnel then 4096 else 8192 := by
  unfold requested
  split
  · rename_i h
    exact Nat.le_trans (length_read_le h) (maxBytes_ofJson request viaTunnel).2
  · exact Nat.zero_le _
  · exact Nat.zero_le _

/-- What can be wrong with a read. -/
theorem read_error_cases {l : LogSource} {start : LogStart} {maxBytes : UInt64} {e : LogError}
    (h : l.read start maxBytes = .error e) :
    e = .notFound ∨ e = .unavailable ∨ e = .io "Is a directory (os error 21)" := by
  unfold read at h
  split at h
  · split at h <;> cases h
  · cases h
  · cases h
    exact .inl rfl
  · dsimp only at h
    split at h
    · cases h
    · cases h
      exact .inr (.inr rfl)
  · cases h
    exact .inr (.inl rfl)

end LogSource

/-! ## Replies -/

section Reply

variable {l : LogSource} {request : Json} {viaTunnel : Bool}

/-- A reply without a page is one of a few. -/
theorem logReply_of_error {e : LogError}
    (h : l.read (LogRequest.ofJson request viaTunnel).start
      (LogRequest.ofJson request viaTunnel).maxBytes = .error e) :
    (logReply (some l) request viaTunnel).get? "logs" = none ∧
      (logReply (some l) request viaTunnel).size ≤ 160 := by
  unfold logReply
  simp only [h]
  obtain rfl | rfl | rfl := LogSource.read_error_cases h <;>
    (dsimp only; exact ⟨by decide, by decide⟩)

theorem textSize_storage_le (l : LogSource) : textSize (chars (.string l.storage)) ≤ 6 := by
  unfold LogSource.storage
  split <;> decide

theorem addedSize_pageFields_le (l : LogSource) (chunk : LogChunk) :
    Reply.addedSize (pageFields l chunk) ≤
      130 + textSize (chars (.string (Text.decodeLossy chunk.data))) +
        textSize (chars (.string l.path)) := by
  have h1 : escapedSize "logs" = 4 := by decide
  have h2 : escapedSize "offset" = 6 := by decide
  have h3 : escapedSize "next" = 4 := by decide
  have h4 : escapedSize "size" = 4 := by decide
  have h5 : escapedSize "eof" = 3 := by decide
  have h6 : escapedSize "path" = 4 := by decide
  have h7 : escapedSize "source" = 6 := by decide
  have hoffset := textSize_ofNat_le chunk.offset.toNat
  have hnext := textSize_ofNat_le chunk.next.toNat
  have hsize := textSize_ofNat_le chunk.size.toNat
  have heof : textSize (chars (.bool chunk.eof)) ≤ 5 := by
    cases chunk.eof <;> decide
  have hstorage := textSize_storage_le l
  simp only [Reply.addedSize, pageFields, h1, h2, h3, h4, h5, h6, h7]
  omega

/-- **The bytes of a reply** beside those of its page and its path are few. -/
theorem size_logReply_le (l : LogSource) (request : Json) (viaTunnel : Bool) :
    (logReply (some l) request viaTunnel).fieldSize "logs" ≤
        6 * (l.requested request viaTunnel).length + 2 ∧
      (logReply (some l) request viaTunnel).size ≤
        160 + (6 * (l.requested request viaTunnel).length + 2) +
          (Json.string l.path).render.utf8ByteSize := by
  unfold LogSource.requested
  cases h : l.read (LogRequest.ofJson request viaTunnel).start
      (LogRequest.ofJson request viaTunnel).maxBytes with
  | error e =>
    obtain ⟨hlogs, hsize⟩ := logReply_of_error h
    rw [Reply.fieldSize, hlogs]
    exact ⟨Nat.zero_le _, by omega⟩
  | panicked p =>
    have hreply : logReply (some l) request viaTunnel = .error getLogsCommand "read_failed" := by
      unfold logReply
      simp only [h]
    have hlogs : (Reply.error getLogsCommand "read_failed").get? "logs" = none := by decide
    have hsize : (Reply.error getLogsCommand "read_failed").size ≤ 160 := by decide
    rw [hreply, Reply.fieldSize, hlogs]
    exact ⟨Nat.zero_le _, by omega⟩
  | ok chunk =>
    have hpage := escapedSize_decodeLossy_le chunk.data
    have hstring : textSize (chars (.string (Text.decodeLossy chunk.data))) =
        escapedSize (Text.decodeLossy chunk.data) + 2 := by
      rw [chars, textSize_stringChars]
    have hlogs : (logReply (some l) request viaTunnel).get? "logs" =
        some (.string (Text.decodeLossy chunk.data)) := by
      rw [logReply_of_read h]
      simp [pageFields, Reply.get?_set]
    have hok : (Reply.ok getLogsCommand).size = 28 := by decide
    have hadded := Reply.size_foldl_set_le (pageFields l chunk) (.ok getLogsCommand)
    have hfields := addedSize_pageFields_le l chunk
    dsimp only
    rw [Reply.fieldSize, hlogs, Option.map_some, Option.getD_some, size_render, size_render,
      logReply_of_read h, hstring]
    exact ⟨by omega, by omega⟩

end Reply

/-- **A page and its reply are small enough.** Whatever bytes the log has and whatever is asked for,
the page takes six bytes at most for each byte that was read, and its quotes. The reply is below the
limits of the control endpoint and of the tunnels, if the path takes no more than 100 kilobytes. -/
theorem logReply_fits {l : LogSource}
    (hpath : (Json.string l.path).render.utf8ByteSize ≤ 100 * 1024) (request : Json)
    (viaTunnel : Bool) :
    let reply := logReply (some l) request viaTunnel
    let bytes := l.requested request viaTunnel
    reply.fieldSize "logs" ≤ 6 * bytes.length + 2 ∧
      bytes.length ≤ (if viaTunnel then 4 * 1024 else 8 * 1024) ∧
      reply.fieldSize "logs" ≤ (if viaTunnel then 24 * 1024 else 48 * 1024) + 2 ∧
      reply.size < controlLimits.maxBroadcastLength ∧
      reply.size < TunnelOptions.usual.bufferSize := by
  intro reply bytes
  have hcontrol : controlLimits.maxBroadcastLength = 163840 := rfl
  have htunnel : TunnelOptions.usual.bufferSize = 163840 := rfl
  have hread : bytes.length ≤ if viaTunnel then 4 * 1024 else 8 * 1024 :=
    l.length_requested_le request viaTunnel
  obtain ⟨hlogs, hsize⟩ : reply.fieldSize "logs" ≤ 6 * bytes.length + 2 ∧
      reply.size ≤ 160 + (6 * bytes.length + 2) + (Json.string l.path).render.utf8ByteSize :=
    size_logReply_le l request viaTunnel
  clear_value reply bytes
  rw [hcontrol, htunnel]
  refine ⟨hlogs, hread, ?_⟩
  cases viaTunnel with
  | true =>
    rw [if_pos rfl] at hread ⊢
    omega
  | false =>
    rw [if_neg Bool.false_ne_true] at hread ⊢
    omega

/-- A log of a control byte and of a byte that is no text: six bytes for the one, three for the
other. -/
theorem logReply_fits_escaped :
    let log := LogSource.mk "log" (.file [0x01, 0xff])
    (Json.string log.path).render.utf8ByteSize ≤ 100 * 1024 ∧
      log.requested (.object []) true = [0x01, 0xff] ∧
      (logReply (some log) (.object []) true).fieldSize "logs" = 11 ∧
      (logReply (some log) (.object []) true).size < controlLimits.maxBroadcastLength := by
  intro log
  have hpath : (Json.string log.path).render.utf8ByteSize ≤ 100 * 1024 := by decide
  obtain ⟨-, -, -, hcontrol, -⟩ := logReply_fits hpath (.object []) true
  exact ⟨hpath, by decide, by decide, hcontrol⟩

end DeviceRelay
