import DeviceRelay.Log.Request
import DeviceRelay.Proofs.Control.Replies
import DeviceRelay.Proofs.Log.Stores
import DeviceRelay.Proofs.Text.Cut

/-!
# Reading a log page by page

A reader asks for the page at the beginning and then, as long as a reply does not say that it was
the last, for the page at the `next` of that reply. The pages are cut by bytes and each is decoded
on its own, so a character that does not fit on a page is not read as one.

* `LogPage`, `pageRequest`: what a reply says about a page, and the request for one.
* `readPages`: the pages that a reader gets.
* `LogSource.read_page`: the read of a page does not panic.
* `LogSource.read_at`: the bytes of one page.
* `readPages_eq_pagesOf`: the pages are the parts of the log, one after the other.
* `readPages_text`: reading comes to an end, and when it gives the text of the log.
-/

namespace DeviceRelay

open Json

/-- What a reply says about one page of the log. -/
structure LogPage where
  text : String
  /-- Where the next page begins. -/
  next : Nat
  isLast : Bool
  deriving DecidableEq, Repr

/-- The page of a reply, none where the reply has no page. -/
def LogPage.ofReply? (r : Reply) : Option LogPage := do
  let text ← (r.get? "logs").bind Json.string?
  let next ← (r.get? "next").bind Json.natural?
  let isLast ← (r.get? "eof").bind Json.bool?
  some ⟨text, next.toNat, isLast⟩

/-- The request for the page at an offset. The number of bytes may be any value, or be missing. -/
def pageRequest (offset : Nat) (maxBytes : Option Json) : Json :=
  Json.ofMembers ([("cmd", .string getLogsCommand), ("offset", .ofNat offset)] ++
    (maxBytes.map fun v => ("maxBytes", v)).toList)

/-- The pages from an offset on, each at the `next` of the one before, up to the one that is said
to be the last; none where a reply has no page, or where the last is not among so many. The numbers
of bytes are those of the requests in turn. -/
def readPages (log : LogSource) (viaTunnel : Bool) :
    (count : Nat) → (maxBytes : Nat → Option Json) → (offset : Nat) → Option (List LogPage)
  | 0, _, _ => none
  | count + 1, maxBytes, offset => do
    let page ← LogPage.ofReply? (logReply (some log) (pageRequest offset (maxBytes 0)) viaTunnel)
    if page.isLast then some [page]
    else
      let rest ← readPages log viaTunnel count (fun i => maxBytes (i + 1)) page.next
      some (page :: rest)

/-- The pages of the parts of a log that begin at an offset. -/
def pagesOf : (offset : Nat) → (parts : List (List UInt8)) → List LogPage
  | _, [] => []
  | offset, part :: parts =>
    ⟨Text.decodeLossy part, offset + part.length, parts.isEmpty⟩ ::
      pagesOf (offset + part.length) parts

/-! ## Requests -/

theorem integer?_ofNat {n : Nat} (h : n < 2 ^ 63) : (Json.ofNat n).integer? = some (n : Int) := by
  have hn : (UInt64.ofNat n).toNat = n := toNat_word (by omega)
  have hlt : n < UInt64.size / 2 := by
    rw [show UInt64.size / 2 = 2 ^ 63 from rfl]
    exact h
  unfold Json.ofNat Json.integer? Number.integer?
  simp only [hn, if_pos hlt]

theorem offset_pageRequest {offset : Nat} (h : offset < 2 ^ 63) (maxBytes : Option Json)
    (viaTunnel : Bool) : (LogRequest.ofJson (pageRequest offset maxBytes) viaTunnel).offset =
      some (UInt64.ofNat offset) := by
  have hget : (pageRequest offset maxBytes).get? "offset" = some (.ofNat offset) := by
    unfold pageRequest Json.ofMembers Json.get? Json.members
    cases maxBytes with
    | none => simp [lookup_insertMember]
    | some v => simp [lookup_insertMember]
  unfold LogRequest.ofJson Json.int?
  simp only [hget, Option.bind_some, integer?_ofNat h]
  rw [Option.filter_some_pos (by simp), Option.map_some, Int.toNat_natCast]

theorem toNat_pageLimit (viaTunnel : Bool) :
    (LogRequest.pageLimit viaTunnel).toNat = if viaTunnel then 4096 else 8192 := by
  cases viaTunnel <;> rfl

/-- A page has room for one byte, and for no more than the limit. -/
theorem maxBytes_ofJson (request : Json) (viaTunnel : Bool) :
    1 ≤ (LogRequest.ofJson request viaTunnel).maxBytes.toNat ∧
      (LogRequest.ofJson request viaTunnel).maxBytes.toNat ≤
        if viaTunnel then 4096 else 8192 := by
  have hlimit := toNat_pageLimit viaTunnel
  have hpos : 1 ≤ (LogRequest.pageLimit viaTunnel).toNat ∧
      (LogRequest.pageLimit viaTunnel).toNat ≤ 8192 := by
    cases viaTunnel <;> decide
  unfold LogRequest.ofJson
  dsimp only
  rw [← hlimit]
  cases request.int? "maxBytes" with
  | none => exact ⟨hpos.1, Nat.le_refl _⟩
  | some n =>
    simp only [Option.map_some, Option.getD_some, UInt64.toNat_ofNat']
    omega

theorem maxBytes_ofJson_le (request : Json) (viaTunnel : Bool) :
    (LogRequest.ofJson request viaTunnel).maxBytes.toNat ≤ 8192 := by
  refine Nat.le_trans (maxBytes_ofJson request viaTunnel).2 ?_
  cases viaTunnel <;> decide

/-! ## One page -/

/-- What is read where a part of a log is found at an offset. -/
def LogChunk.ofPart (size offset : Nat) (part : List UInt8) : LogChunk :=
  ⟨part, UInt64.ofNat offset, UInt64.ofNat (offset + part.length), UInt64.ofNat size,
    decide (size ≤ offset + part.length)⟩

namespace LogSource

/-- The log is kept in memory or in a file, and these are its bytes. -/
def Holds (l : LogSource) (bytes : List UInt8) : Prop :=
  l.content = .memory bytes ∨ l.content = .file bytes

section Read

variable {bytes : List UInt8} {offset : Nat} {maxBytes : UInt64}

theorem resolve_at (hsize : bytes.length < 2 ^ 64) (ho : offset ≤ bytes.length) :
    (LogStart.at (UInt64.ofNat offset)).resolve (logSize bytes) = UInt64.ofNat offset := by
  refine if_pos ?_
  rw [UInt64.le_iff_toNat_le, logSize, toNat_word (by omega), toNat_word hsize]
  exact ho

theorem new_eq_ofPart {data : List UInt8} (hsize : bytes.length < 2 ^ 64)
    (hd : offset + data.length ≤ bytes.length) :
    LogChunk.new data (UInt64.ofNat offset) (logSize bytes) =
      .ofPart bytes.length offset data := by
  have hle : UInt64.ofNat bytes.length ≤ UInt64.ofNat (offset + data.length) ↔
      bytes.length ≤ offset + data.length := by
    rw [UInt64.le_iff_toNat_le, toNat_word hsize, toNat_word (by omega)]
  unfold LogChunk.new LogChunk.ofPart logSize
  simp only [← UInt64.ofNat_add, hle]

/-- What is left of a log from an offset on. -/
theorem length_page_le (ho : offset ≤ bytes.length) (n : Nat) :
    offset + ((bytes.drop offset).take n).length ≤ bytes.length := by
  rw [List.length_take, List.length_drop]
  omega

theorem ofFile_at (hsize : bytes.length < 2 ^ 64) (ho : offset ≤ bytes.length)
    (maxBytes : UInt64) :
    LogRange.ofFile bytes (.at (UInt64.ofNat offset)) maxBytes =
      .ofPart bytes.length offset ((bytes.drop offset).take maxBytes.toNat) := by
  have hoffset : (UInt64.ofNat offset).toNat = offset := toNat_word (by omega)
  have hbytes : (logSize bytes).toNat = bytes.length := toNat_word hsize
  have hle : (UInt64.ofNat offset).toNat ≤ (logSize bytes).toNat := by
    rw [hoffset, hbytes]
    exact ho
  have hdata : (bytes.drop offset).take (min (bytes.length - offset) maxBytes.toNat) =
      (bytes.drop offset).take maxBytes.toNat := by
    rw [List.take_eq_take_iff, List.length_drop]
    omega
  unfold LogRange.ofFile
  simp only [resolve_at hsize ho, LogRange.toNat_want hle, hoffset, hbytes, hdata,
    new_eq_ofPart hsize (length_page_le ho _)]

/-- A log in memory is read where the end of the range is a word. -/
theorem ofMemory_at (hsize : bytes.length < 2 ^ 64) (ho : offset ≤ bytes.length)
    (maxBytes : UInt64) :
    LogRange.ofMemory bytes (.at (UInt64.ofNat offset)) maxBytes =
      if UInt64.size ≤ offset + maxBytes.toNat then .error .addOverflow
      else .ok (.ofPart bytes.length offset ((bytes.drop offset).take maxBytes.toNat)) := by
  have hoffset : (UInt64.ofNat offset).toNat = offset := toNat_word (by omega)
  rw [LogRange.ofMemory_eq, resolve_at hsize ho, hoffset, ofFile_at hsize ho]

/-- The read of a page does not panic: the end of so small a range is a word, as no log in memory
has `2 ^ 63` bytes. It gives what a file with these bytes gives. -/
theorem read_page {l : LogSource} (h : l.Holds bytes) (hsize : bytes.length < 2 ^ 63)
    (start : LogStart) (hm : maxBytes.toNat ≤ 8192) :
    l.read start maxBytes = .ok (LogRange.ofFile bytes start maxBytes) := by
  have hbytes : (logSize bytes).toNat = bytes.length := toNat_word (by omega)
  have hoffset := start.resolve_le (logSize bytes)
  have hfits : ¬UInt64.size ≤ (start.resolve (logSize bytes)).toNat + maxBytes.toNat := by
    rw [show UInt64.size = 2 ^ 64 from rfl]
    omega
  unfold read
  rcases h with h | h
  · simp only [h, LogRange.ofMemory_eq, if_neg hfits]
  · simp only [h]

/-- **The bytes of one page** are what comes at the offset, as far as the page has room. -/
theorem read_at {l : LogSource} (h : l.Holds bytes) (hsize : bytes.length < 2 ^ 63)
    (ho : offset ≤ bytes.length) (hm : maxBytes.toNat ≤ 8192) :
    l.read (.at (UInt64.ofNat offset)) maxBytes =
      .ok (.ofPart bytes.length offset ((bytes.drop offset).take maxBytes.toNat)) := by
  rw [read_page h hsize _ hm, ofFile_at (by omega) ho]

end Read

end LogSource

/-! ## All pages -/

/-- The fields of a reply with a page. -/
def pageFields (log : LogSource) (chunk : LogChunk) : List (String × Json) :=
  [("logs", .string (Text.decodeLossy chunk.data)), ("offset", .ofNat chunk.offset.toNat),
   ("next", .ofNat chunk.next.toNat), ("size", .ofNat chunk.size.toNat), ("eof", .bool chunk.eof),
   ("path", .string log.path), ("source", .string log.storage)]

/-- A reply with a page has these fields after its name. -/
theorem logReply_of_read {log : LogSource} {request : Json} {viaTunnel : Bool} {chunk : LogChunk}
    (h : log.read (LogRequest.ofJson request viaTunnel).start
      (LogRequest.ofJson request viaTunnel).maxBytes = .ok chunk) :
    logReply (some log) request viaTunnel =
      (pageFields log chunk).foldl (fun r m => r.set m.1 m.2) (.ok getLogsCommand) := by
  unfold logReply
  simp only [h]
  rfl

/-- The page in the reply is the one that was read. -/
theorem page_of_read {log : LogSource} {request : Json} {viaTunnel : Bool} {chunk : LogChunk}
    (h : log.read (LogRequest.ofJson request viaTunnel).start
      (LogRequest.ofJson request viaTunnel).maxBytes = .ok chunk) :
    LogPage.ofReply? (logReply (some log) request viaTunnel) =
      some ⟨Text.decodeLossy chunk.data, chunk.next.toNat, chunk.eof⟩ := by
  rw [logReply_of_read h]
  unfold LogPage.ofReply?
  simp [pageFields, Reply.get?_set, Json.string?, Json.natural?, Json.bool?, Json.ofNat,
    Number.natural?]

section Pages

variable {log : LogSource} {bytes : List UInt8} {offset : Nat}

/-- **What the reply says about a page**: a part of the log, and whether it is the last one. -/
theorem page_logReply (h : log.Holds bytes) (hsize : bytes.length < 2 ^ 63)
    (ho : offset ≤ bytes.length) (viaTunnel : Bool) (maxBytes : Option Json) :
    ∃ part rest, bytes.drop offset = part ++ rest ∧ (part = [] → rest = []) ∧
      LogPage.ofReply? (logReply (some log) (pageRequest offset maxBytes) viaTunnel) =
        some ⟨Text.decodeLossy part, offset + part.length, rest.isEmpty⟩ := by
  obtain ⟨hpos, -⟩ := maxBytes_ofJson (pageRequest offset maxBytes) viaTunnel
  have hmax := maxBytes_ofJson_le (pageRequest offset maxBytes) viaTunnel
  have hstart : (LogRequest.ofJson (pageRequest offset maxBytes) viaTunnel).start =
      .at (UInt64.ofNat offset) := by
    unfold LogRequest.start
    rw [offset_pageRequest (by omega)]
  generalize hn : (LogRequest.ofJson (pageRequest offset maxBytes) viaTunnel).maxBytes = n
    at hpos hmax
  have hread : log.read (LogRequest.ofJson (pageRequest offset maxBytes) viaTunnel).start
      (LogRequest.ofJson (pageRequest offset maxBytes) viaTunnel).maxBytes =
        .ok (.ofPart bytes.length offset ((bytes.drop offset).take n.toNat)) := by
    rw [hstart, hn, LogSource.read_at h hsize ho hmax]
  refine ⟨(bytes.drop offset).take n.toNat, (bytes.drop offset).drop n.toNat,
    (List.take_append_drop _ _).symm, fun hnil => ?_, ?_⟩
  · rcases List.take_eq_nil_iff.mp hnil with hzero | hend
    · omega
    · rw [hend, List.drop_nil]
  · have hnext : (UInt64.ofNat (offset + ((bytes.drop offset).take n.toNat).length)).toNat =
        offset + ((bytes.drop offset).take n.toNat).length := by
      have hle := LogSource.length_page_le ho n.toNat
      exact toNat_word (by omega)
    have hlast : decide (bytes.length ≤ offset + ((bytes.drop offset).take n.toNat).length) =
        ((bytes.drop offset).drop n.toNat).isEmpty := by
      rw [Bool.eq_iff_iff, decide_eq_true_iff, List.isEmpty_iff, List.drop_eq_nil_iff,
        List.length_take, List.length_drop]
      omega
    rw [page_of_read hread]
    simp only [LogChunk.ofPart, hnext, hlast]

/-- **The pages are the parts of the log, one after the other**, whatever numbers of bytes are asked
for. Each has a byte at least, unless the log is empty. -/
theorem readPages_eq_pagesOf (h : log.Holds bytes) (hsize : bytes.length < 2 ^ 63)
    (ho : offset ≤ bytes.length) (viaTunnel : Bool) (maxBytes : Nat → Option Json) {count : Nat}
    (hcount : max 1 (bytes.length - offset) ≤ count) :
    ∃ parts, parts.flatten = bytes.drop offset ∧
      readPages log viaTunnel count maxBytes offset = some (pagesOf offset parts) := by
  induction count generalizing offset maxBytes with
  | zero => omega
  | succ count ih =>
    obtain ⟨part, rest, hdrop, hempty, hpage⟩ := page_logReply h hsize ho viaTunnel (maxBytes 0)
    have hlen : bytes.length - offset = part.length + rest.length := by
      rw [← List.length_drop, hdrop, List.length_append]
    unfold readPages
    cases rest with
    | nil =>
      refine ⟨[part], ?_, ?_⟩
      · rw [hdrop, List.flatten_singleton, List.append_nil]
      · simp [hpage, pagesOf]
    | cons b rest =>
      have hpos : 0 < part.length := List.length_pos_iff.mpr fun hnil => by
        cases hempty hnil
      rw [List.length_cons] at hlen
      have hnext : bytes.drop (offset + part.length) = b :: rest := by
        rw [← List.drop_drop, hdrop, List.drop_left]
      have hle : offset + part.length ≤ bytes.length := by omega
      obtain ⟨parts, hflat, hpages⟩ := ih hle (fun i => maxBytes (i + 1)) (by omega)
      refine ⟨part :: parts, ?_, ?_⟩
      · rw [List.flatten_cons, hflat, hnext, hdrop]
      · have hmore : parts.isEmpty = false := by
          cases parts with
          | nil =>
            rw [hnext] at hflat
            cases hflat
          | cons p parts => rfl
        simp [hpage, hpages, pagesOf, hmore]

theorem text_pagesOf (offset : Nat) (parts : List (List UInt8)) :
    (pagesOf offset parts).map LogPage.text = parts.map Text.decodeLossy := by
  induction parts generalizing offset with
  | nil => rfl
  | cons part parts ih => rw [pagesOf, List.map_cons, List.map_cons, ih]

/-- No part begins within a character exactly where every page ends with a whole one. -/
theorem forall_isBoundary_next_iff {s : List Char} (before : List UInt8)
    {parts : List (List UInt8)} (h : before ++ parts.flatten = Text.bytesOf s)
    (hbefore : Text.IsBoundary s before.length) :
    (∀ page ∈ pagesOf before.length parts, Text.IsBoundary s page.next) ↔
      ∀ part ∈ parts, ¬ Text.StartsInside part := by
  induction parts generalizing before with
  | nil => simp [pagesOf]
  | cons part parts ih =>
    rw [List.flatten_cons] at h
    have hpart : ¬ Text.StartsInside part := fun hinside =>
      (Text.startsInside_iff_not_isBoundary h).mp (hinside.append _) hbefore
    rw [← List.append_assoc] at h
    rw [pagesOf, List.forall_mem_cons, List.forall_mem_cons, ← List.length_append]
    by_cases hnext : Text.IsBoundary s (before ++ part).length
    · rw [ih (before ++ part) h hnext]
      exact ⟨fun hall => ⟨hpart, hall.2⟩, fun hall => ⟨hnext, hall.2⟩⟩
    · refine iff_of_false (fun hall => hnext hall.1) fun hall => ?_
      exact Text.not_startsInside_flatten hall.2
        ((Text.startsInside_iff_not_isBoundary h).mpr hnext)

end Pages

/-- **Reading a log page by page.** Whatever numbers of bytes are asked for, over either transport,
the last page comes after at most as many requests as there are bytes, and the pages are the parts
of the log, one after the other, each decoded on its own. Together they are the text of the log
exactly where every page ends with a whole character. Offsets are signed words, so no log has
2 ^ 63 bytes. -/
theorem readPages_text {log : LogSource} {text : String} (h : log.Holds (Text.bytes text))
    (hsize : (Text.bytes text).length < 2 ^ 63) (viaTunnel : Bool)
    (maxBytes : Nat → Option Json) :
    ∃ parts, parts.flatten = Text.bytes text ∧
      readPages log viaTunnel (max 1 (Text.bytes text).length) maxBytes 0 =
        some (pagesOf 0 parts) ∧
      (String.join ((pagesOf 0 parts).map LogPage.text) = text ↔
        ∀ page ∈ pagesOf 0 parts, Text.IsBoundary text.toList page.next) := by
  obtain ⟨parts, hflat, hpages⟩ :=
    readPages_eq_pagesOf h hsize (Nat.zero_le _) viaTunnel maxBytes (Nat.le_refl _)
  rw [List.drop_zero] at hflat
  refine ⟨parts, hflat, hpages, ?_⟩
  have hcut := forall_isBoundary_next_iff [] hflat ⟨[], text.toList, rfl, rfl⟩
  have hjoin : String.join ((pagesOf 0 parts).map LogPage.text) = text ↔
      (parts.flatMap fun p => (Text.decodeLossy p).toList) = text.toList := by
    rw [text_pagesOf, ← String.toList_inj, String.toList_join, List.flatMap_map]
  rw [hjoin, Text.flatMap_decodeLossy_eq_iff hflat]
  exact hcut.symm

/-- A log of two characters in a file, read through the tunnel with room for one byte and then for
what is usual. -/
theorem readPages_text_two_characters :
    (LogSource.mk "log" (.file (Text.bytes "aé"))).Holds (Text.bytes "aé") ∧
      (Text.bytes "aé").length < 2 ^ 63 ∧
      ∃ parts, parts.flatten = Text.bytes "aé" ∧
        readPages ⟨"log", .file (Text.bytes "aé")⟩ true (max 1 (Text.bytes "aé").length)
          (fun i => if i = 0 then some (.ofNat 1) else none) 0 = some (pagesOf 0 parts) ∧
        (String.join ((pagesOf 0 parts).map LogPage.text) = "aé" ↔
          ∀ page ∈ pagesOf 0 parts, Text.IsBoundary "aé".toList page.next) := by
  have hsize : (Text.bytes "aé").length < 2 ^ 63 := by decide
  exact ⟨.inr rfl, hsize, readPages_text (.inr rfl) hsize true _⟩

/-- A character of two bytes, read byte by byte, comes out as two replacement characters. -/
theorem readPages_inside_character :
    ∃ pages, readPages ⟨"memory", .memory (Text.bytes "é")⟩ false 2 (fun _ => some (.ofNat 1)) 0 =
        some pages ∧
      String.join (pages.map LogPage.text) ≠ "é" :=
  ⟨[⟨"\ufffd", 1, false⟩, ⟨"\ufffd", 2, true⟩], by decide, by decide⟩

end DeviceRelay
