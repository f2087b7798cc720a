import DeviceRelay.Json.Member
import DeviceRelay.Log.Source
import DeviceRelay.Reply
import DeviceRelay.Text.Utf8

/-!
# Requests for the log

A request names an offset, a distance from the end and a number of bytes, each of them optional. A
page has at most eight kilobytes on the local network and four through the tunnel. Without an
offset, or with one below zero, the page is the end of the log.

* `LogRequest.ofJson`: the parameters of a request, with their bounds applied.
* `LogRequest.start`: where its page begins.
* `logReply`: the answer to a request.
-/

namespace DeviceRelay

structure LogRequest where
  offset : Option UInt64
  tailBytes : UInt64
  maxBytes : UInt64
  deriving DecidableEq, Repr

namespace LogRequest

/-- The distance from the end that is taken without a number. -/
def defaultTail : UInt64 := 64 * 1024

/-- The bytes of the largest page. -/
def pageLimit (viaTunnel : Bool) : UInt64 := if viaTunnel then 4 * 1024 else 8 * 1024

/-- The parameters of a request. A number that is no signed 64-bit integer counts as missing. -/
def ofJson (request : Json) (viaTunnel : Bool) : LogRequest :=
  let limit := pageLimit viaTunnel
  { offset := ((request.int? "offset").filter fun n => 0 ≤ n).map fun n => UInt64.ofNat n.toNat
    tailBytes := ((request.int? "tailBytes").map fun n => UInt64.ofNat n.toNat).getD defaultTail
    maxBytes :=
      ((request.int? "maxBytes").map fun n => UInt64.ofNat (min n.toNat limit.toNat |> max 1)).getD
        limit }

/-- Where the page begins. A page at the end is no longer than the page limit, so that it
reaches the end. -/
def start (r : LogRequest) : LogStart :=
  match r.offset with
  | some offset => .at offset
  | none => .tail (min r.tailBytes r.maxBytes)

end LogRequest

/-- The name of the command that asks for the log. -/
def getLogsCommand : String := "get_logs"

/-- The answer to a request for a page; the text of the page is decoded from its bytes alone. -/
def logReply (source : Option LogSource) (request : Json) (viaTunnel : Bool) : Reply :=
  match source with
  | none => .error getLogsCommand "fs_unavailable"
  | some source =>
    let params := LogRequest.ofJson request viaTunnel
    match source.read params.start params.maxBytes with
    | .ok chunk =>
      Reply.ok getLogsCommand
        |>.set "logs" (.string (Text.decodeLossy chunk.data))
        |>.set "offset" (.ofNat chunk.offset.toNat)
        |>.set "next" (.ofNat chunk.next.toNat)
        |>.set "size" (.ofNat chunk.size.toNat)
        |>.set "eof" (.bool chunk.eof)
        |>.set "path" (.string source.path)
        |>.set "source" (.string source.storage)
    | .error .notFound => .error getLogsCommand "log_not_found"
    | .error .unavailable => .error getLogsCommand "fs_unavailable"
    | .error (.io reason) => (Reply.error getLogsCommand "read_failed").detail reason
    -- A page is small, and no log in memory has `2 ^ 63` bytes: its read does not panic.
    | .panicked _ => .error getLogsCommand "read_failed"

end DeviceRelay
