import DeviceRelay.Proofs.Log.Paging

/-!
# The window of a log that a reply shows

A request names an offset, a distance from the end and a number of bytes, each of them an integer or
missing. The reply shows the bytes from the offset on, or the last bytes where there is no offset or
one below zero. An offset that is no signed word is the one exception: it counts as missing, so that
the reply shows the last bytes, and not the end of the log.

* `Json.whole?`: the integer that a request has under a key.
* `LogWindow.asked`: the window that the three integers of a request ask for.
* `Reply.Shows`: what a reply says about a window.
* `LogSource.read_window`: a read gives the bytes of a window.
* `logReply_window_iff`: the window that a reply shows, and the requests for which it is the one
  that was asked for.
-/

namespace DeviceRelay

open Json

/-! ## Integers of a request -/

/-- The integer that a number holds. A double holds none. -/
def Number.whole? : Number → Option Int
  | .natural n => some n.toNat
  | .negative n => some n.toInt
  | .real _ => none

/-- The integer of a member. A member of another kind counts as missing. -/
def Json.whole? (j : Json) (key : String) : Option Int :=
  match j.get? key with
  | some (.number n) => n.whole?
  | _ => none

private theorem maxValue_eq : Int64.maxValue.toInt = 9223372036854775807 := by decide

/-- The integers that are read are the signed words. -/
theorem int?_eq_filter (j : Json) (key : String) :
    j.int? key = (j.whole? key).filter fun n => n ≤ Int64.maxValue.toInt := by
  unfold Json.int? Json.whole? Json.integer?
  rw [maxValue_eq]
  cases j.get? key with
  | none => rfl
  | some v =>
    cases v with
    | number n =>
      cases n with
      | natural n =>
        have hhalf : n.toNat < UInt64.size / 2 ↔ (n.toNat : Int) ≤ 9223372036854775807 := by
          rw [show UInt64.size / 2 = 9223372036854775808 from rfl]
          omega
        simp [Number.integer?, Number.whole?, Option.filter, hhalf]
      | negative n =>
        have hle := n.toInt_le
        rw [maxValue_eq] at hle
        simp [Number.integer?, Number.whole?, Option.filter, hle]
      | real x => rfl
    | _ => rfl

/-! ## Windows -/

/-- The part of a log from `start` up to `stop`. -/
structure LogWindow where
  start : Nat
  stop : Nat
  deriving DecidableEq, Repr

namespace LogWindow

/-- The bytes of the window. -/
def slice (w : LogWindow) (bytes : List UInt8) : List UInt8 := (bytes.take w.stop).drop w.start

/-- How many bytes a page has room for: at least one, at most the limit of the transport, which is
also what is taken without a number. -/
def room (viaTunnel : Bool) (maxBytes : Option Int) : Nat :=
  let limit : Int := if viaTunnel then 4096 else 8192
  ((maxBytes.map fun n => max 1 (min n limit)).getD limit).toNat

/-- How far from the end a page may begin. -/
def tail (tailBytes : Option Int) : Nat := (max (tailBytes.getD 65536) 0).toNat

/-- The window that is asked for: as many bytes as there is room for from the offset on, or the last
bytes where there is no offset or one below zero. -/
def asked (size : Nat) (viaTunnel : Bool) (offset tailBytes maxBytes : Option Int) : LogWindow :=
  let room := room viaTunnel maxBytes
  match offset.filter fun n => 0 ≤ n with
  | some n => ⟨min n.toNat size, min (min n.toNat size + room) size⟩
  | none => ⟨size - min (min (tail tailBytes) room) size, size⟩

theorem room_bounds (viaTunnel : Bool) (maxBytes : Option Int) :
    1 ≤ room viaTunnel maxBytes ∧ room viaTunnel maxBytes ≤ 8192 := by
  have hlimit : (if viaTunnel then (4096 : Int) else 8192) = 4096 ∨
      (if viaTunnel then (4096 : Int) else 8192) = 8192 := by
    cases viaTunnel
    · exact .inr rfl
    · exact .inl rfl
  unfold room
  dsimp only
  generalize (if viaTunnel then (4096 : Int) else 8192) = limit at *
  cases maxBytes with
  | none =>
    rw [Option.map_none, Option.getD_none]
    omega
  | some n =>
    rw [Option.map_some, Option.getD_some]
    omega

theorem start_asked_le (size : Nat) (viaTunnel : Bool) (offset tailBytes maxBytes : Option Int) :
    (asked size viaTunnel offset tailBytes maxBytes).start ≤ size := by
  unfold asked
  split
  · exact Nat.min_le_right _ _
  · exact Nat.sub_le _ _

end LogWindow

/-- The reply shows the bytes of a window of a log, and says where it is and whether it is the end
of the log. -/
structure Reply.Shows (r : Reply) (bytes : List UInt8) (w : LogWindow) : Prop where
  isOk : r.isOk = true
  logs : r.get? "logs" = some (.string (Text.decodeLossy (w.slice bytes)))
  offset : r.get? "offset" = some (.ofNat w.start)
  next : r.get? "next" = some (.ofNat w.stop)
  size : r.get? "size" = some (.ofNat bytes.length)
  eof : r.get? "eof" = some (.bool (w.stop = bytes.length))

/-! ## Requests -/

namespace LogRequest

variable (request : Json) (viaTunnel : Bool)

/-- A number of bytes that is no signed word is as good as one: it is beyond every limit. -/
theorem toNat_maxBytes : (ofJson request viaTunnel).maxBytes.toNat =
    LogWindow.room viaTunnel (request.whole? "maxBytes") := by
  have hlimit := toNat_pageLimit viaTunnel
  unfold ofJson LogWindow.room
  dsimp only
  rw [int?_eq_filter, maxValue_eq]
  cases request.whole? "maxBytes" with
  | none =>
    simp only [Option.filter_none, Option.map_none, Option.getD_none, hlimit]
    split <;> rfl
  | some n =>
    by_cases hn : n ≤ 9223372036854775807
    · rw [Option.filter_some_pos (by simpa using hn)]
      simp only [Option.map_some, Option.getD_some, hlimit, UInt64.toNat_ofNat']
      split <;> omega
    · rw [Option.filter_some_neg (by simpa using hn)]
      simp only [Option.map_none, Option.getD_none, Option.map_some, Option.getD_some, hlimit]
      split <;> omega

/-- A distance from the end that is no signed word is as good as one: no page is so long. -/
theorem toNat_tail :
    (min (ofJson request viaTunnel).tailBytes (ofJson request viaTunnel).maxBytes).toNat =
      min (LogWindow.tail (request.whole? "tailBytes"))
        (LogWindow.room viaTunnel (request.whole? "maxBytes")) := by
  obtain ⟨-, hroom⟩ := LogWindow.room_bounds viaTunnel (request.whole? "maxBytes")
  rw [toNat_min_word, toNat_maxBytes]
  generalize LogWindow.room viaTunnel (request.whole? "maxBytes") = room at *
  unfold ofJson LogWindow.tail
  dsimp only
  rw [int?_eq_filter, maxValue_eq]
  have hdefault : defaultTail.toNat = 65536 := rfl
  cases request.whole? "tailBytes" with
  | none =>
    simp only [Option.filter_none, Option.map_none, Option.getD_none, hdefault]
    rfl
  | some n =>
    by_cases hn : n ≤ 9223372036854775807
    · rw [Option.filter_some_pos (by simpa using hn)]
      simp only [Option.map_some, Option.getD_some, UInt64.toNat_ofNat']
      omega
    · rw [Option.filter_some_neg (by simpa using hn)]
      simp only [Option.map_none, Option.getD_none, Option.getD_some, hdefault]
      omega

/-- An offset that is no signed word counts as missing. -/
theorem offset_ofJson : (ofJson request viaTunnel).offset =
    (((request.whole? "offset").filter fun n => n ≤ Int64.maxValue.toInt).filter
      fun n => 0 ≤ n).map fun n => UInt64.ofNat n.toNat := by
  unfold ofJson
  dsimp only
  rw [int?_eq_filter]

/-- The window that a request asks for, if an offset that is no signed word counts as missing. -/
def window (size : Nat) : LogWindow :=
  .asked size viaTunnel ((request.whole? "offset").filter fun n => n ≤ Int64.maxValue.toInt)
    (request.whole? "tailBytes") (request.whole? "maxBytes")

/-- The page of a request begins where the window begins, and goes on as far as it has room. -/
theorem window_spec {bytes : List UInt8} (hsize : bytes.length < 2 ^ 63) :
    (window request viaTunnel bytes.length).start =
        ((ofJson request viaTunnel).start.resolve (logSize bytes)).toNat ∧
      (window request viaTunnel bytes.length).stop =
        min ((window request viaTunnel bytes.length).start +
          (ofJson request viaTunnel).maxBytes.toNat) bytes.length := by
  have hbytes : (logSize bytes).toNat = bytes.length := toNat_word (by omega)
  unfold window LogWindow.asked start
  rw [offset_ofJson, toNat_maxBytes]
  cases hoffset : ((request.whole? "offset").filter fun n => n ≤ Int64.maxValue.toInt).filter
      fun n => 0 ≤ n with
  | none =>
    dsimp only [Option.map_none]
    rw [LogStart.toNat_resolve_tail, toNat_tail, hbytes]
    omega
  | some n =>
    obtain ⟨hn, -⟩ := Option.filter_eq_some_iff.mp hoffset
    obtain ⟨-, hmax⟩ := Option.filter_eq_some_iff.mp hn
    rw [decide_eq_true_iff, maxValue_eq] at hmax
    dsimp only [Option.map_some]
    rw [LogStart.toNat_resolve_at, toNat_word (by omega), hbytes]
    omega

end LogRequest

/-! ## Replies -/

theorem LogWindow.length_slice {w : LogWindow} {bytes : List UInt8} (h : w.stop ≤ bytes.length) :
    (w.slice bytes).length = w.stop - w.start := by
  rw [slice, List.length_drop, List.length_take, Nat.min_eq_left h]

/-- A read gives the bytes of a window from where it begins, as far as there is room. -/
theorem LogSource.read_window {l : LogSource} {bytes : List UInt8} (h : l.Holds bytes)
    (hsize : bytes.length < 2 ^ 63) {start : LogStart} {maxBytes : UInt64}
    (hmax : maxBytes.toNat ≤ 8192) {w : LogWindow}
    (hstart : w.start = (start.resolve (logSize bytes)).toNat)
    (hstop : w.stop = min (w.start + maxBytes.toNat) bytes.length) :
    l.read start maxBytes = .ok (.ofPart bytes.length w.start (w.slice bytes)) := by
  have hbytes : (logSize bytes).toNat = bytes.length := toNat_word (by omega)
  have hle : w.start ≤ bytes.length := by
    have hresolve := start.resolve_le (logSize bytes)
    omega
  have hplace : start.resolve (logSize bytes) = UInt64.ofNat w.start := by
    rw [hstart, UInt64.ofNat_toNat]
  have hread : l.read start maxBytes = l.read (.at (UInt64.ofNat w.start)) maxBytes := by
    rw [← hplace, read_page h hsize _ hmax, read_page h hsize _ hmax]
    unfold LogRange.ofFile
    dsimp only
    rw [LogStart.resolve_resolve]
  have hslice : w.slice bytes = (bytes.drop w.start).take maxBytes.toNat := by
    rw [LogWindow.slice, List.drop_take, List.take_eq_take_iff, List.length_drop]
    omega
  rw [hread, LogSource.read_at h hsize hle hmax, hslice]

/-- The reply to a request shows the window that was read. -/
theorem shows_of_read {log : LogSource} {request : Json} {viaTunnel : Bool} {bytes : List UInt8}
    {w : LogWindow} (hw : w.start ≤ w.stop) (hstop : w.stop ≤ bytes.length)
    (hsize : bytes.length < 2 ^ 63)
    (h : log.read (LogRequest.ofJson request viaTunnel).start
      (LogRequest.ofJson request viaTunnel).maxBytes =
        .ok (.ofPart bytes.length w.start (w.slice bytes))) :
    (logReply (some log) request viaTunnel).Shows bytes w := by
  have hnext : w.start + (w.slice bytes).length = w.stop := by
    rw [LogWindow.length_slice hstop]
    omega
  have hend : bytes.length ≤ w.stop ↔ w.stop = bytes.length := by omega
  have hstart : (UInt64.ofNat w.start).toNat = w.start := toNat_word (by omega)
  have hstopWord : (UInt64.ofNat w.stop).toNat = w.stop := toNat_word (by omega)
  have hbytes : (UInt64.ofNat bytes.length).toNat = bytes.length := toNat_word (by omega)
  rw [logReply_of_read h]
  unfold LogChunk.ofPart
  rw [hnext]
  constructor <;> simp [pageFields, Reply.isOk, Reply.ok, Reply.get?_set, hstart, hstopWord, hbytes,
    hend]

/-- Two windows that one reply shows begin at the same place. -/
theorem Reply.Shows.start_unique {r : Reply} {bytes : List UInt8} {w w' : LogWindow}
    (h : r.Shows bytes w) (h' : r.Shows bytes w') (hw : w.start < 2 ^ 64)
    (hw' : w'.start < 2 ^ 64) : w.start = w'.start := by
  have hoffset := h.offset.symm.trans h'.offset
  simp only [Option.some.injEq, Json.ofNat, Json.number.injEq, Number.natural.injEq] at hoffset
  rw [← toNat_word hw, ← toNat_word hw', hoffset]

/-! ## The window that was asked for -/

/-- The offset of a request is no signed word, and there are bytes for the page at the end of the
log that the request gets instead. -/
def Json.LosesOffset (request : Json) (bytes : List UInt8) : Prop :=
  (∃ n ∈ request.whole? "offset", Int64.maxValue.toInt < n) ∧
    0 < LogWindow.tail (request.whole? "tailBytes") ∧ bytes ≠ []

/-- An offset that is no signed word asks for the end of the log, where there are no bytes. -/
theorem LogWindow.asked_of_maxValue_lt {n : Int} (h : Int64.maxValue.toInt < n) {size : Nat}
    (hsize : size < 2 ^ 63) (viaTunnel : Bool) (tailBytes maxBytes : Option Int) :
    asked size viaTunnel (some n) tailBytes maxBytes = ⟨size, size⟩ := by
  rw [maxValue_eq] at h
  have hmin : min n.toNat size = size := by omega
  unfold asked
  rw [Option.filter_some_pos (by simp; omega)]
  simp only [hmin, Nat.min_eq_right (Nat.le_add_right _ _)]

namespace LogRequest

variable {request : Json} {viaTunnel : Bool}

theorem window_of_maxValue_lt {n : Int} (hn : request.whole? "offset" = some n)
    (h : Int64.maxValue.toInt < n) (viaTunnel : Bool) (size : Nat) :
    window request viaTunnel size =
      ⟨size - min (min (LogWindow.tail (request.whole? "tailBytes"))
        (LogWindow.room viaTunnel (request.whole? "maxBytes"))) size, size⟩ := by
  unfold window
  rw [hn, Option.filter_some_neg (by simpa using h)]
  rfl

theorem window_of_le (h : ∀ n ∈ request.whole? "offset", n ≤ Int64.maxValue.toInt)
    (viaTunnel : Bool) (size : Nat) :
    window request viaTunnel size =
      .asked size viaTunnel (request.whole? "offset") (request.whole? "tailBytes")
        (request.whole? "maxBytes") := by
  unfold window
  cases hn : request.whole? "offset" with
  | none => rfl
  | some n =>
    have hle := h n (Option.mem_def.mpr hn)
    rw [Option.filter_some_pos (by simpa using hle)]

/-- Where nothing is lost, the window is the one that was asked for. -/
theorem window_eq_asked {bytes : List UInt8} (hsize : bytes.length < 2 ^ 63)
    (h : ¬request.LosesOffset bytes) :
    window request viaTunnel bytes.length =
      .asked bytes.length viaTunnel (request.whole? "offset") (request.whole? "tailBytes")
        (request.whole? "maxBytes") := by
  by_cases hbeyond : ∃ n ∈ request.whole? "offset", Int64.maxValue.toInt < n
  · obtain ⟨n, hn, hlt⟩ := hbeyond
    have hnone : LogWindow.tail (request.whole? "tailBytes") = 0 ∨ bytes.length = 0 := by
      rw [List.length_eq_zero_iff]
      refine Classical.byContradiction fun hno => h ⟨⟨n, hn, hlt⟩, ?_, fun hnil => hno (.inr hnil)⟩
      exact Nat.pos_of_ne_zero fun hzero => hno (.inl hzero)
    rw [window_of_maxValue_lt hn hlt, Option.mem_def.mp hn,
      LogWindow.asked_of_maxValue_lt hlt hsize, LogWindow.mk.injEq]
    omega
  · exact window_of_le (fun n hn => Int.not_lt.mp fun hlt => hbeyond ⟨n, hn, hlt⟩) _ _

/-- Where the offset is lost, the window begins before the one that was asked for. -/
theorem start_window_lt {bytes : List UInt8} (hsize : bytes.length < 2 ^ 63)
    (h : request.LosesOffset bytes) (viaTunnel : Bool) :
    (window request viaTunnel bytes.length).start <
      (LogWindow.asked bytes.length viaTunnel (request.whole? "offset")
        (request.whole? "tailBytes") (request.whole? "maxBytes")).start := by
  obtain ⟨⟨n, hn, hlt⟩, htail, hbytes⟩ := h
  have hlength := List.length_pos_iff.mpr hbytes
  obtain ⟨hroom, -⟩ := LogWindow.room_bounds viaTunnel (request.whole? "maxBytes")
  rw [window_of_maxValue_lt hn hlt, Option.mem_def.mp hn,
    LogWindow.asked_of_maxValue_lt hlt hsize]
  dsimp only
  omega

end LogRequest

/-- **The window that a reply shows.** Whatever integers a request has, the reply shows the window
that they ask for, if an offset that is no signed word counts as missing. So it is the window that
was asked for exactly where no such offset is lost. No log has 2 ^ 63 bytes, since the places in a
log are signed words. -/
theorem logReply_window_iff {log : LogSource} {bytes : List UInt8} (h : log.Holds bytes)
    (hsize : bytes.length < 2 ^ 63) (request : Json) (viaTunnel : Bool) :
    let reply := logReply (some log) request viaTunnel
    reply.Shows bytes (LogRequest.window request viaTunnel bytes.length) ∧
      (reply.Shows bytes (.asked bytes.length viaTunnel (request.whole? "offset")
          (request.whole? "tailBytes") (request.whole? "maxBytes")) ↔
        ¬request.LosesOffset bytes) := by
  intro reply
  obtain ⟨hstart, hstop⟩ := LogRequest.window_spec request viaTunnel hsize
  have hle : (LogRequest.window request viaTunnel bytes.length).start ≤ bytes.length :=
    LogWindow.start_asked_le _ _ _ _ _
  have hread := LogSource.read_window h hsize (maxBytes_ofJson_le request viaTunnel) hstart hstop
  have hshown : reply.Shows bytes (LogRequest.window request viaTunnel bytes.length) :=
    shows_of_read (by omega) (by omega) hsize hread
  refine ⟨hshown, fun hasked hlost => ?_, fun hkept => ?_⟩
  · have hlt := LogRequest.start_window_lt hsize hlost viaTunnel
    have hend := LogWindow.start_asked_le bytes.length viaTunnel (request.whole? "offset")
      (request.whole? "tailBytes") (request.whole? "maxBytes")
    exact Nat.ne_of_lt hlt (hshown.start_unique hasked (by omega) (by omega))
  · rwa [← LogRequest.window_eq_asked hsize hkept]

/-- The end of a log of three bytes in a file, through the tunnel: with a number of bytes below zero
there is room for one. -/
theorem logReply_window_iff_tail :
    let log := LogSource.mk "log" (.file [97, 98, 99])
    let request : Json := .object
      [("cmd", .string getLogsCommand), ("maxBytes", .ofInt (-5)), ("offset", .ofInt (-1)),
       ("tailBytes", .ofNat 2)]
    log.Holds [97, 98, 99] ∧ [97, 98, 99].length < 2 ^ 63 ∧
      (logReply (some log) request true).Shows [97, 98, 99] ⟨2, 3⟩ := by
  intro log request
  have hsize : [(97 : UInt8), 98, 99].length < 2 ^ 63 := by decide
  exact ⟨.inr rfl, hsize, (logReply_window_iff (.inr rfl) hsize request true).1⟩

/-- An offset of 2 ^ 63 in a log of three bytes: what was asked for is the end of the log, and what
is shown is all of it. -/
theorem offset_lost_beyond_words :
    let log := LogSource.mk "memory" (.memory [97, 98, 99])
    let request : Json := .object
      [("cmd", .string getLogsCommand), ("offset", .ofNat 9223372036854775808)]
    let asked := LogWindow.asked 3 false (request.whole? "offset") (request.whole? "tailBytes")
      (request.whole? "maxBytes")
    log.Holds [97, 98, 99] ∧ asked = ⟨3, 3⟩ ∧
      (logReply (some log) request false).get? "logs" = some (.string "abc") ∧
      ¬(logReply (some log) request false).Shows [97, 98, 99] asked := by
  intro log request asked
  have hlogs : (logReply (some log) request false).get? "logs" = some (.string "abc") := by decide
  refine ⟨.inl rfl, by decide, hlogs, fun h => ?_⟩
  have hnone : (logReply (some log) request false).get? "logs" = some (.string "") := h.logs
  rw [hlogs] at hnone
  exact absurd hnone (by decide)

end DeviceRelay
